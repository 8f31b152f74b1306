import TypeCatalog.Description
import TypeCatalog.Session.Batch

/-!
# Embedding

What a program calls that embeds the extraction. It names a policy by a text and holds on to the
sessions it gets; of a failure it is told the notice alone.

## Main definitions

- `Embedding.newSession` — a session under the policy that a text names
- `Embedding.addFile`, `Embedding.addFiles`, `Embedding.addText` — extraction into a session
- `Embedding.extractFiles` — extraction of several files into a session of their own
-/

namespace TypeCatalog.Embedding

variable {α : Type}

/-- What a caller is told of a report: its answer or the notice of its failure. -/
def told (report : Report α) : Except String α := report.answer.mapError Failure.notice

/-- A session under the policy that a text names, or what is said of a text that names none. -/
def newSession (policyText : String) : Except String Session :=
  (Policy.parse policyText).map fun policy => { policy := policy }

/-- Extracts a file and tells whether it was not skipped. -/
def addFile (env : Environment) (path : String) (s : Session) : Session × Except String Bool :=
  let (next, report) := s.addFile env path
  (next, (told report).map fun
    | .merged .. => true
    | .skipped _ => false)

/-- Extracts files one after the other and tells how many were not skipped. -/
def addFiles (env : Environment) (paths : List String) (s : Session) :
    Session × Except String Nat :=
  let (next, report) := s.addFiles env paths
  (next, (told report).map (·.processed.length))

/-- Extracts a text; the label stands for its path. -/
def addText (parse : Parser) (label text : String) (s : Session) :
    Session × Except String Unit :=
  let (next, report) := s.addText parse label text
  (next, (told report).map fun _ => ())

/-- Extracts files independently of each other and merges them in order into a new session. -/
def extractFiles (env : Environment) (paths : List String) (policyText : String) :
    Except String Session :=
  (newSession policyText).bind fun s =>
    let (next, report) := s.addFilesTogether env paths
    (told report).map fun _ => next

end TypeCatalog.Embedding
