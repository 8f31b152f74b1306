import TypeCatalog.Json.Number

/-!
# Scanning JSON text

Readers for the parts of a JSON text: blanks, keywords, strings, numbers and whole values. Each
reads its part off the front of the text and returns the rest. A reader fails with the first fault
that it meets from left to right.

## Main definitions

- `Json.Scan.string` — the rest of a string, with its escapes resolved
- `Json.Scan.number` — a number
- `Json.Scan.skipValue` — any value, read for its form alone
-/

namespace TypeCatalog.Json.Scan

/-- Why a text cannot be read. -/
inductive Fault where
  /-- The text ends too early. -/
  | ended
  /-- The text is not JSON, or not JSON that is looked for at that place. -/
  | malformed
  /-- A well-formed value is not one that can stand at that place. -/
  | misplaced
  deriving DecidableEq, Repr

/-- What reading a part off the front of a text leads to. -/
abbrev Result (α : Type) := Except Fault (α × List Char)

/-- Whether a character is a JSON blank. -/
def isBlank (c : Char) : Bool := c == ' ' || c == '\n' || c == '\t' || c == '\r'

/-- A text without the blanks that it begins with. -/
def skipBlanks (s : List Char) : List Char := s.dropWhile isBlank

/-- Reads the given characters. -/
def exactly : List Char → List Char → Result Unit
  | [], r => .ok ((), r)
  | _ :: _, [] => .error .ended
  | expected :: more, c :: r => if c = expected then exactly more r else .error .malformed

/-! ### Strings -/

/-- The value of a hexadecimal digit. -/
def hexValue? (c : Char) : Option Nat :=
  if '0' ≤ c ∧ c ≤ '9' then some (c.toNat - '0'.toNat)
  else if 'a' ≤ c ∧ c ≤ 'f' then some (c.toNat - 'a'.toNat + 10)
  else if 'A' ≤ c ∧ c ≤ 'F' then some (c.toNat - 'A'.toNat + 10)
  else none

/-- The character that a one-letter escape stands for. -/
def shortEscape? (c : Char) : Option Char :=
  [('"', '"'), ('\\', '\\'), ('/', '/'), ('b', '\x08'), ('f', '\x0c'), ('n', '\n'), ('r', '\r'),
    ('t', '\t')].lookup c

/-- Where the reading of a string stands. -/
inductive Place where
  /-- Between characters. -/
  | plain
  /-- After a backslash. -/
  | escape
  /-- In a numeric escape: how many digits follow the next one, the value of those before, and the
  high surrogate that the escape has to complete. -/
  | code (more value : Nat) (high : Option Nat)
  /-- After a high surrogate. -/
  | pair (high : Nat)
  /-- After a high surrogate and a backslash. -/
  | pairEscape (high : Nat)

/-- Whether at least four octets are left, as a numeric escape takes. -/
def holdsCode (s : List Char) : Bool :=
  decide (4 ≤ s.foldl (fun octets c => octets + c.utf8Size) 0)

/-- The character of two surrogates. -/
def join (high low : Nat) : Char := Char.ofNat (0x10000 + (high - 0xD800) * 0x400 + (low - 0xDC00))

/-- Puts a character before the text that was read. -/
def push (c : Char) : Result (List Char) → Result (List Char)
  | .ok (text, r) => .ok (c :: text, r)
  | .error fault => .error fault

/-- Reads the rest of a string. A `strict` reading refuses surrogates that do not form a pair; any
other stands in for them without asking. -/
def stringFrom (strict : Bool) : Place → List Char → Result (List Char)
  | _, [] => .error .ended
  | .plain, c :: r =>
    if c = '"' then .ok ([], r)
    else if c = '\\' then stringFrom strict .escape r
    else if c.toNat < 0x20 then .error .malformed
    else push c (stringFrom strict .plain r)
  | .escape, c :: r =>
    match shortEscape? c with
    | some meant => push meant (stringFrom strict .plain r)
    | none =>
      if c ≠ 'u' then .error .malformed
      else if holdsCode r then stringFrom strict (.code 3 0 none) r
      else .error .ended
  | .code more value high, c :: r =>
    match hexValue? c with
    | none => .error .malformed
    | some digit =>
      let code := value * 16 + digit
      match more with
      | n + 1 => stringFrom strict (.code n code high) r
      | 0 =>
        if !strict then push '\uFFFD' (stringFrom strict .plain r)
        else
          match high with
          | some first =>
            if 0xDC00 ≤ code ∧ code ≤ 0xDFFF then
              push (join first code) (stringFrom strict .plain r)
            else .error .malformed
          | none =>
            if 0xD800 ≤ code ∧ code ≤ 0xDBFF then stringFrom strict (.pair code) r
            else if 0xDC00 ≤ code ∧ code ≤ 0xDFFF then .error .malformed
            else push (Char.ofNat code) (stringFrom strict .plain r)
  | .pair high, c :: r =>
    if c = '\\' then stringFrom strict (.pairEscape high) r else .error .malformed
  | .pairEscape high, c :: r =>
    if c ≠ 'u' then .error .malformed
    else if holdsCode r then stringFrom strict (.code 3 0 (some high)) r
    else .error .ended

/-- Reads a string after its opening quote. -/
def string (s : List Char) : Result String :=
  (stringFrom true .plain s).map fun p => (String.ofList p.1, p.2)

/-- Reads a string after its opening quote, for its form alone. -/
def skipString (s : List Char) : Result Unit :=
  (stringFrom false .plain s).map fun p => ((), p.2)

/-! ### Numbers -/

/-- Splits the ASCII digits off the front of a text. -/
def digits (s : List Char) : List Char × List Char := s.span Char.isDigit

/-- Reads one digit or more. `atEnd` is the fault of a text that ends before the first. -/
def someDigits (atEnd : Fault) (s : List Char) : Result (List Char) :=
  match s, digits s with
  | [], _ => .error atEnd
  | _, ([], _) => .error .malformed
  | _, (ds, r) => .ok (ds, r)

/-- Reads the digits before the point: a zero stands alone. -/
def whole (atEnd : Fault) (s : List Char) : Result (List Char) :=
  match someDigits atEnd s with
  | .ok ('0' :: _ :: _, _) => .error .malformed
  | result => result

/-- Reads the digits after the point, if there is a point. -/
def fraction (atEnd : Fault) : List Char → Result (List Char)
  | '.' :: r => someDigits atEnd r
  | s => .ok ([], s)

/-- Reads the sign of an exponent; `true` is a minus. -/
def exponentSign : List Char → Bool × List Char
  | '+' :: r => (false, r)
  | '-' :: r => (true, r)
  | s => (false, s)

/-- Reads an exponent, if there is one. -/
def exponent (atEnd : Fault) (s : List Char) : Result Int :=
  match s with
  | c :: r =>
    if c = 'e' ∨ c = 'E' then
      let (negative, r) := exponentSign r
      (someDigits atEnd r).map fun p =>
        (if negative then -(digitsValue p.1 : Int) else digitsValue p.1, p.2)
    else .ok (0, s)
  | [] => .ok (0, s)

/-- Reads a number after its sign. -/
def number (atEnd : Fault) (s : List Char) : Except Fault (Number × List Char) := do
  let (before, s) ← whole atEnd s
  let (after, s) ← fraction atEnd s
  let (power, s) ← exponent atEnd s
  return (⟨before, after, power⟩, s)

/-! ### Values -/

/-- Reads the rest of the value that begins with `c`, if it is neither an array nor an object. -/
def skipScalar (c : Char) (r : List Char) : Result Unit :=
  if c = 'n' then exactly ['u', 'l', 'l'] r
  else if c = 't' then exactly ['r', 'u', 'e'] r
  else if c = 'f' then exactly ['a', 'l', 's', 'e'] r
  else if c = '"' then skipString r
  else if c = '-' then (number .malformed r).map fun p => ((), p.2)
  else if c.isDigit then (number .malformed (c :: r)).map fun p => ((), p.2)
  else .error .malformed

/-- Reads a colon after blanks. -/
def colon (s : List Char) : Result Unit :=
  match skipBlanks s with
  | [] => .error .ended
  | ':' :: r => .ok ((), r)
  | _ => .error .malformed

/-- Reads the opening quote of a member name after blanks. -/
def openName (s : List Char) : Result Unit :=
  match skipBlanks s with
  | [] => .error .ended
  | '"' :: r => .ok ((), r)
  | _ => .error .malformed

/-- Reads the name of a member and the colon after it. -/
def openMember (s : List Char) : Except Fault (Unit × List Char) := do
  let (_, r) ← openName s
  let (_, r) ← skipString r
  colon r

mutual

/-- Reads a value, nested at most as deep as the fuel allows. -/
def skipValueWithin : Nat → List Char → Result Unit
  | 0, _ => .error .ended
  | fuel + 1, s =>
    match skipBlanks s with
    | [] => .error .ended
    | '[' :: r =>
      match skipBlanks r with
      | [] => .error .ended
      | ']' :: r => .ok ((), r)
      | r => skipElements fuel r
    | '\x7b' :: r =>
      match skipBlanks r with
      | [] => .error .ended
      | '\x7d' :: r => .ok ((), r)
      | r => skipMembers fuel r
    | c :: r => skipScalar c r

/-- Reads the elements of an array, one or more, and the closing bracket. -/
def skipElements : Nat → List Char → Result Unit
  | 0, _ => .error .ended
  | fuel + 1, s =>
    match skipValueWithin fuel s with
    | .error fault => .error fault
    | .ok (_, r) =>
      match skipBlanks r with
      | [] => .error .ended
      | ',' :: r => skipElements fuel r
      | ']' :: r => .ok ((), r)
      | _ => .error .malformed

/-- Reads the members of an object, one or more, and the closing brace. -/
def skipMembers : Nat → List Char → Result Unit
  | 0, _ => .error .ended
  | fuel + 1, s =>
    match openMember s with
    | .error fault => .error fault
    | .ok (_, r) =>
      match skipValueWithin fuel r with
      | .error fault => .error fault
      | .ok (_, r) =>
        match skipBlanks r with
        | [] => .error .ended
        | ',' :: r => skipMembers fuel r
        | '\x7d' :: r => .ok ((), r)
        | _ => .error .malformed

end

/-- Reads a value of any sort, for its form alone. Two units of fuel for each character suffice: a
value or a list of elements is begun at most once before a character is read. -/
def skipValue (s : List Char) : Result Unit := skipValueWithin (2 * s.length + 1) s

/-- The fault of a value that is not of the sort looked for, where `s` begins with it. A scalar is
read first, so that its own faults win. -/
def mistyped (s : List Char) : Fault :=
  let readNumber (r : List Char) : Result Unit :=
    match number .ended r with
    | .error fault => .error fault
    | .ok (n, r) => if n.isHuge then .error .malformed else .ok ((), r)
  let read : Result Unit :=
    match s with
    | [] => .error .malformed
    | c :: r =>
      if c = '[' ∨ c = '\x7b' then .ok ((), r)
      else if c = '"' then (string r).map fun p => ((), p.2)
      else if c = '-' then readNumber r
      else if c.isDigit then readNumber s
      else skipScalar c r
  match read with
  | .error fault => fault
  | .ok _ => .misplaced

end TypeCatalog.Json.Scan
