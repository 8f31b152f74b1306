import TypeCatalog.CommandLine
import TypeCatalog.SyntaxTree.Outline

/-!
# The program

Reads the inputs named on the command line and carries the plan out. The syntax tree of an input is
read from the outline that a parser left beside it, in a file with `.outline` after its name.
-/

namespace TypeCatalog.Program

open CommandLine (Plan Response)

/-- What a path leads to. -/
def lookAt (path : String) : IO PathState := do
  try
    return .regular (← IO.FS.readBinFile path).data.toList
  catch
    | .noFileOrDirectory .. => return .missing
    | .inappropriateType .. => return .notRegular
    | fault => return .unreadable (toString fault)

/-- The text of an input with its syntax tree. -/
def treeOf (path : String) (octets : List UInt8) : IO (String × SyntaxTree) := do
  let outline ← lookAt (path ++ ".outline")
  let tree := match outline with
    | .regular outline => SyntaxTree.read? (Text.Utf8.decodeLossy outline)
    | _ => none
  return (Text.Utf8.decodeLossy octets, tree.getD .unread)

/-- What the inputs lead to, and the trees of their texts. -/
def environmentOf (inputs : List String) : IO Environment := do
  let states ← inputs.mapM fun path => return (path, ← lookAt path)
  let trees ← states.filterMapM fun (path, state) =>
    match state with
    | .regular octets => return some (← treeOf path octets)
    | _ => return none
  return {
    find := fun path => (states.lookup path).getD .missing
    parse := fun text => (trees.lookup text).getD .unread }

/-- The obstacle that a fault of the system stands for. -/
def obstacleOf : IO.Error → FileSystem.Obstacle
  | .noFileOrDirectory .. => .noSuchObject
  | .inappropriateType _ 20 _ => .noDirectory
  | .inappropriateType .. => .isDirectory
  | .invalidArgument _ 36 _ => .nameTooLong
  | .invalidArgument _ 40 _ => .tooManyLinks
  | .noSuchThing .. => .noDevice
  | fault => .refused (toString fault)

/-- Carries a plan out. -/
def carryOut (p : Plan) : IO Response := do
  match p.output with
  | none => return p.response
  | some (path, text) =>
    try
      IO.FS.writeFile path text
      return p.response.afterWriting path (.ok ())
    catch fault => return p.response.afterWriting path (.error (obstacleOf fault))

/-- The inputs that some arguments name. -/
def inputsOf (arguments : List String) : List String :=
  match CommandLine.read arguments with
  | .ok (.extract invocation) => invocation.inputs
  | _ => []

end TypeCatalog.Program

/-- Runs the program. -/
def main (arguments : List String) : IO UInt32 := do
  let env ← TypeCatalog.Program.environmentOf (TypeCatalog.Program.inputsOf arguments)
  let response ← TypeCatalog.Program.carryOut (TypeCatalog.CommandLine.plan env arguments)
  for line in response.stderr do IO.eprintln line
  IO.print response.stdout
  return response.code.toUInt32
