import TypeCatalog.Session

/-!
# Batches

Several files are extracted into a session in order. The first failure ends the batch; what was
merged before it stays. A batch may also extract every file first and merge afterwards: then the
events of all extractions come before those of the merges, and all else is the same.
-/

namespace TypeCatalog

/-- The inputs of a batch, by what became of them, each in the order of the batch. -/
structure Summary where
  processed : List String := []
  skipped : List Skip := []
  deriving DecidableEq, Repr, Inhabited

/-- The summary with one more input before all others. -/
def Summary.push (path : String) (outcome : Outcome) (summary : Summary) : Summary :=
  match outcome with
  | .merged .. => { summary with processed := path :: summary.processed }
  | .skipped defect => { summary with skipped := ⟨path, defect⟩ :: summary.skipped }

namespace Session

/-- Takes inputs into the session in order, up to the first failure. Each input is a step that
also reports what became of it. -/
def runAll {α : Type} (step : α → Session → Session × Report Outcome) (path : α → String) :
    List α → Session → Session × Report Summary
  | [], s => (s, .done {})
  | input :: rest, s =>
    let (next, report) := step input s
    match report.answer with
    | .error failure => (next, .failed failure report.events)
    | .ok outcome =>
      let (last, summary) := runAll step path rest next
      (last, (summary.map (Summary.push (path input) outcome)).after report.events)

/-- Extracts files one after the other. -/
def addFiles (env : Environment) (paths : List String) (s : Session) :
    Session × Report Summary :=
  runAll (addFile env) id paths s

/-- Extracts all files independently of each other, then merges them in order. -/
def addFilesTogether (env : Environment) (paths : List String) (s : Session) :
    Session × Report Summary :=
  let staged := paths.map fun path => (path, Intake.ofFile env s.policy path)
  let (last, summary) := runAll (fun input => receive input.1 input.2.answer) (·.1) staged s
  (last, summary.after (staged.flatMap (·.2.events)))

end Session

end TypeCatalog
