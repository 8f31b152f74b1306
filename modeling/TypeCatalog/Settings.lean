import TypeCatalog.Json.Scan
import TypeCatalog.Policy

/-!
# Settings

The settings of a session, and how they are read from a JSON text: an object in which unknown
members are passed over, or an array of the settings in their order. What is left out keeps its
standard value.
-/

namespace TypeCatalog

open Json.Scan

/-- The settings of a session. -/
structure Settings where
  policy : Policy := Policy.standard
  deriving DecidableEq, Repr

namespace Settings

/-- The member that holds the policy. -/
def policyMember : String := "duplicate_policy"

/-- Reads the name of a policy after the opening quote; only exact names count. -/
def readPolicyName (s : List Char) : Except Fault (Policy × List Char) := do
  let (name, r) ← string s
  match Policy.ofName? name with
  | some policy => return (policy, r)
  | none => .error .misplaced

/-- Reads `null` after blanks. -/
def readNull (s : List Char) : Result Unit :=
  match skipBlanks s with
  | [] => .error .ended
  | 'n' :: r => exactly ['u', 'l', 'l'] r
  | s => .error (mistyped s)

/-- Reads a closing brace after blanks. -/
def closeObject (s : List Char) : Result Unit :=
  match skipBlanks s with
  | [] => .error .ended
  | '\x7d' :: r => .ok ((), r)
  | _ => .error .malformed

/-- Reads a policy written as an object, after the opening brace: its name with the value
`null`. -/
def readTaggedPolicy (s : List Char) : Except Fault (Policy × List Char) :=
  match skipBlanks s with
  | [] => .error .ended
  | '"' :: r => do
    let (policy, r) ← readPolicyName r
    let (_, r) ← colon r
    let (_, r) ← readNull r
    let (_, r) ← closeObject r
    return (policy, r)
  | _ => .error .malformed

/-- Reads a policy: a name, or an object with the name as its only member. -/
def readPolicy (s : List Char) : Result Policy :=
  match skipBlanks s with
  | [] => .error .ended
  | '"' :: r => readPolicyName r
  | '\x7b' :: r => readTaggedPolicy r
  | _ => .error .malformed

/-- Reads settings written as an array, after the opening bracket. -/
def readArray (s : List Char) : Except Fault (Settings × List Char) :=
  match skipBlanks s with
  | [] => .error .ended
  | ']' :: r => .ok ({}, r)
  | s => do
    let (policy, r) ← readPolicy s
    match skipBlanks r with
    | [] => .error .ended
    | ']' :: r => return (⟨policy⟩, r)
    | _ => .error .malformed

/-- Reads a member after the opening quote of its name, given the policy read before, and returns
the policy read by now. -/
def readMember (seen : Option Policy) (s : List Char) :
    Except Fault (Option Policy × List Char) := do
  let (name, r) ← string s
  if name = policyMember then
    if seen.isSome then .error .misplaced
    else
      let (_, r) ← colon r
      let (policy, r) ← readPolicy r
      return (some policy, r)
  else
    let (_, r) ← colon r
    let (_, r) ← skipValue r
    return (seen, r)

/-- Reads members after the opening quote of the first name, at most as many as the fuel allows,
and the closing brace. -/
def readMembers (seen : Option Policy) : Nat → List Char → Result (Option Policy)
  | 0, _ => .error .ended
  | fuel + 1, s =>
    match readMember seen s with
    | .error fault => .error fault
    | .ok (seen, r) =>
      match skipBlanks r with
      | [] => .error .ended
      | '\x7d' :: r => .ok (seen, r)
      | ',' :: r =>
        match openName r with
        | .error fault => .error fault
        | .ok (_, r) => readMembers seen fuel r
      | _ => .error .malformed

/-- Reads settings written as an object, after the opening brace. Every member takes a character
at least, so there are fewer members than characters. -/
def readObject (s : List Char) : Result Settings :=
  match skipBlanks s with
  | [] => .error .ended
  | '\x7d' :: r => .ok ({}, r)
  | '"' :: r =>
    (readMembers none (r.length + 1) r).map fun p => (⟨p.1.getD Policy.standard⟩, p.2)
  | _ => .error .malformed

/-- Reads the settings that a text holds, with nothing but blanks around them. -/
def read (text : String) : Except Fault Settings := do
  let (settings, r) ←
    match skipBlanks text.toList with
    | [] => (.error .ended : Result Settings)
    | '[' :: r => readArray r
    | '\x7b' :: r => readObject r
    | s => .error (mistyped s)
  if (skipBlanks r).isEmpty then return settings else .error .malformed

end Settings

end TypeCatalog
