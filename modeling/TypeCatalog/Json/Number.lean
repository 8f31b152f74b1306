/-!
# JSON numbers

A number is kept as a significand of at most 64 bits and a power of ten. Its value in binary64 is
the product of the two, each rounded before they are multiplied and the product rounded again; a
number whose product is beyond the finite values is out of range.

## Main definitions

- `Json.Number.scaled` — the significand and the power of ten of a number
- `Json.roundBits` — a natural number rounded to as many bits as binary64 keeps
- `Json.Number.isHuge` — whether a number is out of range
-/

namespace TypeCatalog.Json

/-- A number without its sign: its digits before and after the point, and its exponent. -/
structure Number where
  whole : List Char
  fraction : List Char
  exponent : Int

/-- The value of a decimal digit. -/
def digitValue (d : Char) : Nat := d.toNat - '0'.toNat

/-- A number with some decimal digits appended to it. -/
def valueFrom (value : Nat) (ds : List Char) : Nat :=
  ds.foldl (fun value d => value * 10 + digitValue d) value

/-- The value of some decimal digits. -/
def digitsValue (ds : List Char) : Nat := valueFrom 0 ds

/-! ### Significand and exponent -/

/-- A significand that is multiplied by a power of ten. -/
structure Scaled where
  significand : Nat
  exponent : Int
  deriving DecidableEq, Repr

/-- What a significand stays below. -/
def significandBound : Nat := Nat.pow 2 64

/-- Appends digits to a significand while it stays below its bound, and returns the digits that are
left. -/
def appendDigits (significand : Nat) : List Char → Nat × List Char
  | [] => (significand, [])
  | d :: ds =>
    let longer := significand * 10 + digitValue d
    if longer < significandBound then appendDigits longer ds else (significand, d :: ds)

/-- The significand and the power of ten of a number. Digits before the point that find no room in
the significand raise the power; digits after it are dropped. -/
def Number.scaled (n : Number) : Scaled :=
  let (significand, beyond) := appendDigits 0 n.whole
  let (significand, dropped) := appendDigits significand n.fraction
  ⟨significand, n.exponent + beyond.length - (n.fraction.length - dropped.length)⟩

/-! ### Range -/

/-- How many bits a binary64 value keeps. -/
def precision : Nat := 53

/-- A number rounded to `precision` bits; a number half-way between two goes to the one whose last
bit is zero. -/
def roundBits (n : Nat) : Nat :=
  let step := Nat.pow 2 (n.log2 + 1 - precision)
  let lower := n / step
  let rest := n % step
  (if step < 2 * rest ∨ (step = 2 * rest ∧ lower % 2 = 1) then lower + 1 else lower) * step

/-- The least natural number that rounds to no finite binary64 value: half a unit above the
greatest. -/
def finiteBound : Nat := Nat.pow 2 1024 - Nat.pow 2 970

/-- The greatest power of ten among the binary64 values. -/
def maxPower : Nat := 308

/-- Whether a number is out of range. -/
def Scaled.isHuge (s : Scaled) : Bool :=
  if s.significand = 0 then false
  else
    match s.exponent with
    | .negSucc _ => false
    | .ofNat power =>
      if power ≤ maxPower then
        decide (finiteBound ≤ roundBits s.significand * roundBits (Nat.pow 10 power))
      else true

/-- Whether a number is out of range. -/
def Number.isHuge (n : Number) : Bool := n.scaled.isHuge

end TypeCatalog.Json
