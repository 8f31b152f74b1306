import TypeCatalog.Intake

/-!
# Sessions

A session gathers the catalogs of its inputs. Each input is extracted by itself and then merged
under the policy of the session, all or nothing; an invalid input is skipped and remembered.
-/

namespace TypeCatalog

/-- An input that was skipped, and why. -/
structure Skip where
  path : String
  defect : Defect
  deriving DecidableEq, Repr

/-- What became of an input. -/
inductive Outcome where
  /-- The input was merged; so many of its classes and enums were stored. -/
  | merged (classes enums : Nat)
  | skipped (defect : Defect)
  deriving DecidableEq, Repr

/-- The outcome as a phrase. -/
def Outcome.phrase : Outcome → String
  | merged classes enums => Event.countPhrase classes enums
  | skipped defect => "nothing (" ++ defect.message ++ ")"

/-- The catalogs gathered so far, the inputs skipped so far, and the policy for duplicates. -/
structure Session where
  policy : Policy := Policy.standard
  catalogs : Catalogs := {}
  skipped : List Skip := []
  deriving Repr, Inhabited

namespace Session

/-- Takes the catalogs of an input into the session, or its failure: an invalid input is added to
those skipped, any other failure is passed on. -/
def receive (path : String) (staged : Except Failure Catalogs) (s : Session) :
    Session × Report Outcome :=
  match staged with
  | .error failure =>
    match failure.defect? with
    | some defect =>
      ({ s with skipped := s.skipped ++ [⟨path, defect⟩] },
        .done (.skipped defect) [.skipped path defect])
    | none => (s, .failed failure)
  | .ok catalogs =>
    let (merged, report) := s.catalogs.merge s.policy path catalogs
    ({ s with catalogs := merged },
      report.andThen fun count =>
        .done (.merged count.classes count.enums)
          [.merged count.classes count.enums path merged.classes.size merged.enums.size])

/-- Takes the report of an input into the session. -/
def receiveReport (path : String) (staged : Report Catalogs) (s : Session) :
    Session × Report Outcome :=
  let (next, report) := s.receive path staged.answer
  (next, report.after staged.events)

/-- Extracts a file into the session. -/
def addFile (env : Environment) (path : String) (s : Session) : Session × Report Outcome :=
  s.receiveReport path (Intake.ofFile env s.policy path)

/-- Extracts a text into the session; the label stands for its path. -/
def addText (parse : Parser) (label text : String) (s : Session) :
    Session × Report Outcome :=
  s.receiveReport label (Intake.ofText parse s.policy label text Language.csharp.name)

end Session

end TypeCatalog
