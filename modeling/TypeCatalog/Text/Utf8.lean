/-!
# UTF-8

Octets are read one at a time. `Utf8.start` reads an octet between two characters, and a
`Utf8.Pending` holds what is known of a character whose octets are still coming: how many are owed
and in which range the next one has to lie.

## Main definitions

- `Utf8.decodeLossy` — every octet sequence as text, with one replacement character for each
  maximal part that no character can have
- `Utf8.fault?` — where a sequence stops being UTF-8, and how long the offending part is
- `Utf8.decode` — the text of well-formed octets, or their fault
-/

namespace TypeCatalog.Text.Utf8

/-- A character of which `taken` octets have been read and `owed + 1` are still to come. The next
octet has to lie between `low` and `high`. -/
structure Pending where
  taken : Nat
  owed : Nat
  low : Nat
  high : Nat
  value : Nat
  deriving DecidableEq, Repr

/-- What a single octet leads to. -/
inductive Step where
  /-- The octet completes a character. -/
  | complete (c : Char)
  /-- The octet belongs to a character that goes on. -/
  | continued (pending : Pending)
  /-- The octet cannot stand here. -/
  | refused
  deriving DecidableEq, Repr

/-- Reads an octet between two characters. The ranges of the second octet leave out overlong
forms, surrogates and code points above U+10FFFF. -/
def start (octet : UInt8) : Step :=
  let b := octet.toNat
  if b < 0x80 then .complete (Char.ofNat b)
  else if 0xC2 ≤ b ∧ b ≤ 0xDF then .continued ⟨1, 0, 0x80, 0xBF, b - 0xC0⟩
  else if b = 0xE0 then .continued ⟨1, 1, 0xA0, 0xBF, 0⟩
  else if b = 0xED then .continued ⟨1, 1, 0x80, 0x9F, 0xD⟩
  else if 0xE1 ≤ b ∧ b ≤ 0xEF then .continued ⟨1, 1, 0x80, 0xBF, b - 0xE0⟩
  else if b = 0xF0 then .continued ⟨1, 2, 0x90, 0xBF, 0⟩
  else if 0xF1 ≤ b ∧ b ≤ 0xF3 then .continued ⟨1, 2, 0x80, 0xBF, b - 0xF0⟩
  else if b = 0xF4 then .continued ⟨1, 2, 0x80, 0x8F, 4⟩
  else .refused

/-- Reads the next octet of a character that has begun. -/
def Pending.next (p : Pending) (octet : UInt8) : Step :=
  let b := octet.toNat
  if p.low ≤ b ∧ b ≤ p.high then
    let value := p.value * 64 + (b - 0x80)
    match p.owed with
    | 0 => .complete (Char.ofNat value)
    | owed + 1 => .continued ⟨p.taken + 1, owed, 0x80, 0xBF, value⟩
  else .refused

/-- The character that stands for octets that are not UTF-8. -/
def replacement : Char := '\uFFFD'

/-- The text of some octets, read from within a character (`some`) or between two (`none`). An
octet that breaks a character off is read again as the start of the next one. -/
def decodeLossyFrom : Option Pending → List UInt8 → List Char
  | none, [] => []
  | some _, [] => [replacement]
  | none, octet :: rest =>
    match start octet with
    | .complete c => c :: decodeLossyFrom none rest
    | .continued p => decodeLossyFrom (some p) rest
    | .refused => replacement :: decodeLossyFrom none rest
  | some p, octet :: rest =>
    match p.next octet with
    | .complete c => c :: decodeLossyFrom none rest
    | .continued q => decodeLossyFrom (some q) rest
    | .refused =>
      match start octet with
      | .complete c => replacement :: c :: decodeLossyFrom none rest
      | .continued q => replacement :: decodeLossyFrom (some q) rest
      | .refused => replacement :: replacement :: decodeLossyFrom none rest

/-- The text of some octets. A maximal part that begins a character but cannot be completed, and
an octet that cannot begin one, are each replaced by U+FFFD. -/
def decodeLossy (octets : List UInt8) : String :=
  String.ofList (decodeLossyFrom none octets)

/-- Where octets stop being UTF-8. -/
structure Fault where
  /-- The length of the well-formed part before the fault. -/
  index : Nat
  /-- How many octets the offending part has, or `none` if the octets end inside a character. -/
  length : Option Nat
  deriving DecidableEq, Repr

/-- The first fault of some octets, where `index` counts the octets of the characters before. -/
def faultFrom? (index : Nat) : Option Pending → List UInt8 → Option Fault
  | none, [] => none
  | some _, [] => some ⟨index, none⟩
  | none, octet :: rest =>
    match start octet with
    | .complete _ => faultFrom? (index + 1) none rest
    | .continued p => faultFrom? index (some p) rest
    | .refused => some ⟨index, some 1⟩
  | some p, octet :: rest =>
    match p.next octet with
    | .complete _ => faultFrom? (index + p.taken + 1) none rest
    | .continued q => faultFrom? index (some q) rest
    | .refused => some ⟨index, some p.taken⟩

/-- The first fault of some octets, or `none` if they are UTF-8. -/
def fault? (octets : List UInt8) : Option Fault := faultFrom? 0 none octets

/-- The text of octets that are UTF-8, or their first fault. -/
def decode (octets : List UInt8) : Except Fault String :=
  match fault? octets with
  | none => .ok (decodeLossy octets)
  | some fault => .error fault

/-- The sentence that reports a fault. -/
def Fault.message (fault : Fault) : String :=
  match fault.length with
  | some length => s!"invalid utf-8 sequence of {length} bytes from index {fault.index}"
  | none => s!"incomplete utf-8 byte sequence from index {fault.index}"

/-- The octets of a text. -/
def encode (text : String) : List UInt8 := text.toUTF8.data.toList

end TypeCatalog.Text.Utf8
