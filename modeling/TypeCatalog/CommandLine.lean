import TypeCatalog.CommandLine.Arguments
import TypeCatalog.FileSystem
import TypeCatalog.Json
import TypeCatalog.Session.Batch

/-!
# The command line program

The program extracts its inputs into one session and writes the catalogs as a JSON document, to a
file or to the standard output. If an input fails, nothing is written.

## Main definitions

- `CommandLine.plan` — what some arguments lead to before anything is written
- `CommandLine.run` — the answer of the program, and the file system it leaves behind
-/

namespace TypeCatalog.CommandLine

/-- The version of the program. -/
def version : String := "0.1.0"

/-- The name and the version of the program. -/
def versionLine : String := "parserdoc " ++ version

/-- The description of the program. -/
def helpText : String :=
  String.intercalate "\n"
    ["Extract C# classes and enums as JSON",
      "",
      "Usage: parserdoc [OPTIONS] [INPUTS]...",
      "",
      "Arguments:",
      "  [INPUTS]...  C# source files to extract, in merge order (none yields empty catalogs)",
      "",
      "Options:",
      "      --on-duplicate <POLICY>  What to do when a class or enum name is declared twice " ++
        "[default: reject]",
      "      --parallel               Parse inputs on all cores (merge order is unchanged)",
      "  -o, --output <FILE>          Write JSON here instead of stdout",
      "      --pretty                 Pretty-print the JSON",
      "  -h, --help                   Print help",
      "  -V, --version                Print version"]

/-- What the program answers: its exit code, its output, the events it logged, and the lines it
notes beside the output. -/
structure Response where
  code : Nat
  stdout : String := ""
  log : List Event := []
  notes : List String := []
  deriving DecidableEq, Repr

/-- The lines of the standard error: the warnings among the events, with their control characters
spelled out, then the notes. -/
def Response.stderr (response : Response) : List String :=
  (Event.lines .warn response.log).map Text.Terminal.spellOut ++ response.notes

/-- The lines that sum up a batch: the inputs that were skipped, and how many were not. -/
def summaryNotes (summary : Summary) : List String :=
  summary.skipped.map (fun input => "skipped " ++ input.path ++ " (" ++ input.defect.message ++ ")")
    ++ [s!"extracted {summary.processed.length} input(s), skipped {summary.skipped.length}"]

/-- The lines that report a failure. -/
def failureNotes (failure : Failure) : List String := ["Error: " ++ failure.message]

/-- The lines that report an output file that cannot be written. -/
def obstacleNotes (path : String) (obstacle : FileSystem.Obstacle) : List String :=
  ["Error: failed to write " ++ path, "", "Caused by:", "    " ++ obstacle.message]

/-- What the program is about to answer, and the file that it is about to write: its path and its
text. -/
structure Plan where
  response : Response
  output : Option (String × String) := none
  deriving DecidableEq, Repr

/-- The session after an invocation, and what was reported on the way. -/
def Invocation.extract (env : Environment) (invocation : Invocation) : Session × Report Summary :=
  let start : Session := { policy := invocation.policy }
  if invocation.parallel then start.addFilesTogether env invocation.inputs
  else start.addFiles env invocation.inputs

/-- The document that an invocation writes of some catalogs, with a line break at its end. -/
def Invocation.document (invocation : Invocation) (catalogs : Catalogs) : String :=
  (if invocation.pretty then catalogs.toJson.pretty else catalogs.toJson.compact) ++ "\n"

/-- What an invocation leads to. If an input fails, there is no document. -/
def Invocation.plan (env : Environment) (invocation : Invocation) : Plan :=
  let (session, report) := invocation.extract env
  match report.answer with
  | .error failure => ⟨⟨1, "", report.events, failureNotes failure⟩, none⟩
  | .ok summary =>
    let document := invocation.document session.catalogs
    match invocation.output with
    | none => ⟨⟨0, document, report.events, summaryNotes summary⟩, none⟩
    | some path => ⟨⟨0, "", report.events, summaryNotes summary⟩, some (path, document)⟩

/-- What some arguments lead to. -/
def plan (env : Environment) (arguments : List String) : Plan :=
  match read arguments with
  | .error fault => ⟨{ code := 2, notes := [fault.report] }, none⟩
  | .ok .version => ⟨{ code := 0, stdout := versionLine ++ "\n" }, none⟩
  | .ok .help => ⟨{ code := 0, stdout := helpText ++ "\n" }, none⟩
  | .ok (.extract invocation) => invocation.plan env

/-- The answer of the program if its file cannot be written. -/
def Response.obstructed (response : Response) (path : String) (obstacle : FileSystem.Obstacle) :
    Response :=
  { response with code := 1, notes := response.notes ++ obstacleNotes path obstacle }

/-- The answer of the program once its file was written or could not be. -/
def Response.afterWriting (response : Response) (path : String) :
    Except FileSystem.Obstacle Unit → Response
  | .ok () => response
  | .error obstacle => response.obstructed path obstacle

/-- Carries a plan out in a file system. -/
def Plan.carryOut (p : Plan) (fs : FileSystem) : Response × FileSystem :=
  match p.output with
  | none => (p.response, fs)
  | some (path, text) =>
    let written := fs.write path (Text.Utf8.encode text)
    (p.response.afterWriting path written.1, written.2)

/-- Runs the program with some arguments in a file system. -/
def run (parse : Parser) (fs : FileSystem) (arguments : List String) : Response × FileSystem :=
  (plan ⟨fs.find, parse⟩ arguments).carryOut fs

end TypeCatalog.CommandLine
