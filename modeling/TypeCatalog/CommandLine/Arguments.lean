import TypeCatalog.Policy
import TypeCatalog.Text.Terminal

/-!
# Command line arguments

The arguments of the program are read from left to right. The value of an option, and a run of
inputs, is looked at when the next argument that is not part of it comes, or at the end; a fault
that is met before then is reported first.

## Main definitions

- `CommandLine.Request` — what the program is asked for
- `CommandLine.read` — the request that some arguments make, or what is wrong with them
-/

namespace TypeCatalog.CommandLine

open Text.Terminal (setOff strip)

/-- An extraction that the program is asked for. -/
structure Invocation where
  inputs : List String := []
  policy : Policy := Policy.standard
  parallel : Bool := false
  output : Option String := none
  pretty : Bool := false
  deriving DecidableEq, Repr

/-- What the program is asked for. -/
inductive Request where
  | extract (invocation : Invocation)
  | version
  | help
  deriving DecidableEq, Repr

/-- The parameters of the program. -/
inductive Parameter where
  | inputs
  | onDuplicate
  | parallel
  | output
  | pretty
  | version
  | help
  deriving DecidableEq, Repr

namespace Parameter

/-- How a parameter is shown in messages. -/
def display : Parameter → String
  | inputs => "[INPUTS]..."
  | onDuplicate => "--on-duplicate <POLICY>"
  | parallel => "--parallel"
  | output => "--output <FILE>"
  | pretty => "--pretty"
  | version => "--version"
  | help => "--help"

/-- The parameter with a long name. -/
def ofLongName? (name : String) : Option Parameter :=
  [("on-duplicate", onDuplicate), ("parallel", parallel), ("output", output), ("pretty", pretty),
    ("version", version), ("help", help)].lookup name

/-- The parameter with a short name. -/
def ofShortName? (name : Char) : Option Parameter :=
  [('o', output), ('V', version), ('h', help)].lookup name

/-- Whether a parameter is written with a value. -/
def takesValue : Parameter → Bool
  | inputs | onDuplicate | output => true
  | _ => false

end Parameter

/-- What is wrong with some arguments. -/
inductive UsageError where
  | unexpectedArgument (argument : String)
  | missingValue (parameter : Parameter)
  | unknownPolicy (value message : String)
  | unneededValue (parameter : Parameter) (value : String)
  | repeated (parameter : Parameter)
  deriving DecidableEq, Repr

/-- The sentence that reports what is wrong, for a terminal: what it speaks of is set off. -/
def UsageError.message : UsageError → String
  | unexpectedArgument argument => "unexpected argument '" ++ setOff argument ++ "' found"
  | missingValue parameter =>
    "a value is required for '" ++ setOff parameter.display ++ "' but none was supplied"
  | unknownPolicy value message =>
    "invalid value '" ++ setOff value ++ "' for '" ++ setOff Parameter.onDuplicate.display ++
      "': " ++ message
  | unneededValue parameter value =>
    "unexpected value '" ++ setOff value ++ "' for '" ++ setOff parameter.display ++
      "' found; no more were expected"
  | repeated parameter =>
    "the argument '" ++ setOff parameter.display ++ "' cannot be used multiple times"

/-- What is printed of a fault. It is made for a terminal and printed without control sequences, so
that a sequence left open in an argument ends where the argument does. -/
def UsageError.report (fault : UsageError) : String :=
  strip ("error: " ++ fault.message ++ "\n\nFor more information, try '" ++
    setOff Parameter.help.display ++ "'.")

/-- The arguments that were read and not yet looked at. -/
inductive Pending where
  | nothing
  /-- An option, with its value if that was read. -/
  | option (parameter : Parameter) (value : Option String)
  /-- A run of inputs. -/
  | inputs (paths : List String)
  deriving DecidableEq, Repr

/-- How far the reading of the arguments has come. -/
structure Progress where
  inputs : List String := []
  policy : Option Policy := none
  output : Option String := none
  parallel : Bool := false
  pretty : Bool := false
  pending : Pending := .nothing
  deriving DecidableEq, Repr

namespace Progress

/-- Looks at the value of an option. -/
def store (parameter : Parameter) (value : String) (p : Progress) : Except UsageError Progress :=
  match parameter with
  | .onDuplicate =>
    if p.policy.isSome then .error (.repeated .onDuplicate)
    else
      match Policy.parse value with
      | .ok policy => .ok { p with policy := some policy }
      | .error message => .error (.unknownPolicy value message)
  | _ =>
    if p.output.isSome then .error (.repeated .output)
    else if value = "" then .error (.missingValue .output)
    else .ok { p with output := some value }

/-- Looks at what is pending. -/
def resolve (p : Progress) : Except UsageError Progress :=
  let settled := { p with pending := .nothing }
  match p.pending with
  | .nothing => .ok settled
  | .option parameter none => .error (.missingValue parameter)
  | .option parameter (some value) => settled.store parameter value
  | .inputs paths =>
    if paths.contains "" then .error (.missingValue .inputs)
    else .ok { settled with inputs := settled.inputs ++ paths }

/-- Sets a flag, once. -/
def setFlag (parameter : Parameter) (p : Progress) : Except UsageError Progress :=
  match parameter with
  | .parallel =>
    if p.parallel then .error (.repeated .parallel) else .ok { p with parallel := true }
  | _ => if p.pretty then .error (.repeated .pretty) else .ok { p with pretty := true }

/-- Takes one more input. -/
def addInput (path : String) (p : Progress) : Except UsageError Progress :=
  match p.pending with
  | .inputs paths => .ok { p with pending := .inputs (paths ++ [path]) }
  | _ => do
    let p ← p.resolve
    return { p with pending := .inputs [path] }

/-- The request that the arguments make, at their end. -/
def request (p : Progress) : Except UsageError Request := do
  let p ← p.resolve
  return .extract {
    inputs := p.inputs
    policy := p.policy.getD Policy.standard
    parallel := p.parallel
    output := p.output
    pretty := p.pretty }

/-- What reading one argument leads to: the request is known, or reading goes on. -/
abbrev Next := Except UsageError (Request ⊕ Progress)

/-- Takes a parameter that was named, with the value that came in the same argument. -/
def named (parameter : Parameter) (attached : Option String) (p : Progress) : Next := do
  if parameter.takesValue then
    let p ← p.resolve
    match attached with
    | some value => return .inr (← p.store parameter value)
    | none => return .inr { p with pending := .option parameter none }
  else
    match attached with
    | some value => .error (.unneededValue parameter value)
    | none =>
      let p ← p.resolve
      match parameter with
      | .version => return .inl .version
      | .help => return .inl .help
      | _ => return .inr (← p.setFlag parameter)

/-- Takes an argument that begins with two hyphens, without them. -/
def long (text : List Char) (p : Progress) : Next :=
  let name := String.ofList (text.takeWhile (· != '='))
  let attached :=
    match text.dropWhile (· != '=') with
    | [] => none
    | _ :: value => some (String.ofList value)
  match Parameter.ofLongName? name with
  | some parameter => p.named parameter attached
  | none => .error (.unexpectedArgument ("--" ++ name))

/-- Takes an argument that begins with one hyphen, without it. What follows the letter of an option
is its value. -/
def short (letter : Char) (text : List Char) (p : Progress) : Next :=
  match Parameter.ofShortName? letter with
  | none => .error (.unexpectedArgument ("-" ++ String.singleton letter))
  | some parameter =>
    if parameter.takesValue then
      p.named parameter <|
        match text with
        | [] => none
        | '=' :: value => some (String.ofList value)
        | value => some (String.ofList value)
    else p.named parameter none

/-- Takes an argument that names no parameter: the value of an option that waits for one, or an
input. -/
def plain (text : String) (p : Progress) : Next :=
  match p.pending with
  | .option parameter none => return .inr { p with pending := .option parameter (some text) }
  | _ => do return .inr (← p.addInput text)

/-- Takes one argument before `--`. -/
def next (argument : String) (p : Progress) : Next :=
  match argument.toList with
  | '-' :: '-' :: text => p.long text
  | '-' :: letter :: text => p.short letter text
  | _ => p.plain argument

/-- Reads arguments; after `--` all of them are inputs. -/
def readFrom (p : Progress) : List String → Except UsageError Request
  | [] => p.request
  | "--" :: rest => do (← rest.foldlM (fun p path => p.addInput path) p).request
  | argument :: rest =>
    match p.next argument with
    | .error fault => .error fault
    | .ok (.inl request) => .ok request
    | .ok (.inr p) => p.readFrom rest

end Progress

/-- The request that some arguments make, or what is wrong with them. -/
def read (arguments : List String) : Except UsageError Request :=
  ({} : Progress).readFrom arguments

end TypeCatalog.CommandLine
