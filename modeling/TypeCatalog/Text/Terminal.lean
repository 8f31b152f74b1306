import TypeCatalog.Text.Utf8

/-!
# Terminal text

A terminal does not show the control sequences in what it is sent but acts on them. Text from
outside is made safe in two ways: messages about the use of a program lose their control sequences,
and log lines spell them out.

## Main definitions

- `Terminal.setOff` — a text in bold
- `Terminal.strip` — a text without its control sequences
- `Terminal.spellOut` — a text with its control characters written as escapes
-/

namespace TypeCatalog.Text.Terminal

/-- How far a control sequence has come. -/
inductive State where
  /-- Outside of sequences. -/
  | ground
  /-- After the escape character. -/
  | escape
  /-- After the escape character and intermediate characters. -/
  | escapeIntermediate
  /-- Before the final character of a control sequence, which `ESC [` opens. -/
  | control
  /-- At the beginning of a device control string, which `ESC P` opens. -/
  | deviceEntry
  /-- In the parameters of a device control string. -/
  | deviceParameters
  /-- In the intermediate characters of a device control string. -/
  | deviceIntermediate
  /-- In a string that lasts until its terminator. -/
  | untilTerminator
  /-- In an operating system command, which `ESC ]` opens and a bell ends. -/
  | command
  deriving DecidableEq, Repr

/-- The octet that ends a string, as it stands within a character. -/
def terminator : UInt8 := 0x9C

/-- Whether a character has the terminator among its octets. -/
def holdsTerminator (c : Char) : Bool := (Utf8.encode (String.singleton c)).contains terminator

/-- Whether the code point of a character lies between two numbers, both included. -/
def between (low high : Nat) (c : Char) : Bool :=
  decide (low ≤ c.toNat) && decide (c.toNat ≤ high)

/-- The state after a character that is not shown. A cancel or substitute character breaks every
sequence off, and an escape character begins one wherever it stands. -/
def State.next (state : State) (c : Char) : State :=
  if c = '\x18' ∨ c = '\x1a' then ground
  else if c = '\x1b' then escape
  else
    match state with
    | ground => ground
    | escape =>
      if between 0x20 0x2F c then escapeIntermediate
      else if c = '[' then control
      else if c = ']' then command
      else if c = 'P' then deviceEntry
      else if c = 'X' ∨ c = '^' ∨ c = '_' then untilTerminator
      else if between 0x30 0x7E c then ground
      else escape
    | escapeIntermediate => if between 0x30 0x7E c then ground else escapeIntermediate
    | control => if between 0x40 0x7E c then ground else control
    | deviceEntry =>
      if between 0x20 0x2F c then deviceIntermediate
      else if between 0x30 0x3F c then deviceParameters
      else if between 0x40 0x7E c then untilTerminator
      else deviceEntry
    | deviceParameters =>
      if between 0x20 0x2F c then deviceIntermediate
      else if between 0x3C 0x7E c then untilTerminator
      else deviceParameters
    | deviceIntermediate => if between 0x30 0x7E c then untilTerminator else deviceIntermediate
    | untilTerminator => if holdsTerminator c then ground else untilTerminator
    | command => if c = '\x07' then ground else command

/-- Whether a character moves the place where a terminal writes and stands for nothing else. -/
def isSpacing (c : Char) : Bool := c == '\t' || c == '\n' || c == '\x0c' || c == '\r'

/-- Whether a terminal shows a character that stands outside of sequences. -/
def isShown (c : Char) : Bool :=
  between 0x20 0x7E c || decide (0x80 ≤ c.toNat) || isSpacing c

/-- Whether a character is shown in some state. Line ends and tabs take effect within the short
sequences too. -/
def State.shows (state : State) (c : Char) : Bool :=
  match state with
  | ground => isShown c
  | escape | escapeIntermediate | control => isSpacing c
  | _ => false

/-- A text without its control sequences, read from some state. Where a line end within a sequence
was shown (`showing`), what follows it is shown as well, up to the next control character; a
character beyond ASCII ends the sequence then. -/
def stripFrom (state : State) (showing : Bool) : List Char → List Char
  | [] => []
  | c :: r =>
    if (showing && isShown c) || state.shows c then
      c :: stripFrom (if c.toNat < 0x80 then state else .ground) true r
    else stripFrom (state.next c) false r

/-- A text without its control sequences and control characters. -/
def strip (text : String) : String := String.ofList (stripFrom .ground false text.toList)

/-- A text between the control sequences that set it off in bold and end this. -/
def setOff (text : String) : String := "\x1b[1m" ++ text ++ "\x1b[0m"

/-! ### Spelling out -/

/-- A character of a log line: the control characters that a terminal acts on are written as
escapes, while tabs and line ends stay. -/
def spellOutChar (c : Char) : List Char :=
  if c = '\x1b' then "\\x1b".toList
  else if c = '\x07' then "\\x07".toList
  else if c = '\x08' then "\\x08".toList
  else if c = '\x0c' then "\\x0c".toList
  else if c = '\x7f' then "\\x7f".toList
  else if between 0x80 0x9F c then "\\u\x7b".toList ++ Nat.toDigits 16 c.toNat ++ ['\x7d']
  else [c]

/-- A text with its control characters written as escapes. -/
def spellOut (text : String) : String := String.ofList (text.toList.flatMap spellOutChar)

end TypeCatalog.Text.Terminal
