import TypeCatalog.Proofs.Session.Conservation

/-!
# How far a batch gets

A batch of files is fed to a session up to the first file that fails, and a file that fails leaves
nothing behind. So a batch comes to feeding the files before that one, one after the other. A batch
in which no file fails puts each of its files on one of the two lists of its summary.

## Main definitions

- `Session.feedFiles` — feeds files one after the other, whatever becomes of them

## Main statements

- `Session.addFile_of_error` — a file that fails leaves the session as it was
- `Session.addFiles_session` — a batch comes to feeding the files before the first failure
- `Session.addFiles_prefix` — the answer of a batch, its summary, and the session it leaves
-/

namespace TypeCatalog.Session

variable {env : Environment} {path : String} {paths : List String} {s : Session}
  {failure : Failure} {outcome : Outcome}

/-- Feeds files to the session one after the other, whatever becomes of them, and notes the
answers. -/
def feedFiles (env : Environment) (paths : List String) (s : Session) :
    Session × List (Except Failure Outcome) :=
  let (last, fed) := s.feedAll (paths.map (.file env))
  (last, fed.map (·.report.answer))

/-- The failure that an input was answered with. -/
def failure? : Except Failure Outcome → Option Failure
  | .error failure => some failure
  | .ok _ => none

/-- The path of an input that was merged. -/
def processed? : String × Except Failure Outcome → Option String
  | (path, .ok (.merged ..)) => some path
  | _ => none

/-- The note on an input that was skipped. -/
def skip? : String × Except Failure Outcome → Option Skip
  | (path, .ok (.skipped defect)) => some ⟨path, defect⟩
  | _ => none

theorem feedFiles_cons (env : Environment) (path : String) (rest : List String) (s : Session) :
    s.feedFiles env (path :: rest) =
      (((s.addFile env path).1.feedFiles env rest).1,
        (s.addFile env path).2.answer :: ((s.addFile env path).1.feedFiles env rest).2) := rfl

/-- There is an answer for each file. -/
theorem length_feedFiles (env : Environment) (paths : List String) (s : Session) :
    (s.feedFiles env paths).2.length = paths.length := by
  induction paths generalizing s with
  | nil => rfl
  | cons path rest ih => rw [feedFiles_cons, List.length_cons, ih, List.length_cons]

/-! ### One file -/

/-- A file is taken in whole or not at all. -/
theorem transacted_addFile (env : Environment) (path : String) (s : Session) :
    Transacted path s (s.addFile env path).1 (s.addFile env path).2.answer :=
  receive_transacted (Intake.staged_ofFile env s.policy path)

/-- A file that fails leaves the session as it was. -/
theorem addFile_of_error (h : (s.addFile env path).2.answer = .error failure) :
    (s.addFile env path).1 = s := by
  have hfile := transacted_addFile env path s
  obtain ⟨hcatalogs, hskipped, -⟩ := hfile.failed failure h
  calc (s.addFile env path).1
      = ⟨(s.addFile env path).1.policy, (s.addFile env path).1.catalogs,
          (s.addFile env path).1.skipped⟩ := rfl
    _ = s := by rw [hfile.policy, hcatalogs, hskipped]

/-- The skipped files grow by the file if it is skipped. -/
theorem skipped_addFile (h : (s.addFile env path).2.answer = .ok outcome) :
    (s.addFile env path).1.skipped = s.skipped ++ (skip? (path, .ok outcome)).toList := by
  have hfile := transacted_addFile env path s
  cases outcome with
  | merged classes enums =>
    rw [hfile.merged classes enums h]
    exact (List.append_nil s.skipped).symm
  | skipped defect => exact (hfile.skipped defect h).2

/-! ### Batches -/

/-- A batch whose first file fails leaves the session as it was. -/
theorem addFiles_cons_of_error (h : (s.addFile env path).2.answer = .error failure)
    (rest : List String) :
    (s.addFiles env (path :: rest)).1 = s ∧
      (s.addFiles env (path :: rest)).2.answer = .error failure := by
  rw [addFiles, runAll_cons_of_error h]
  exact ⟨addFile_of_error h, rfl⟩

/-- A batch whose first file does not fail goes on from the session that the file leaves. -/
theorem addFiles_cons_of_ok (h : (s.addFile env path).2.answer = .ok outcome)
    (rest : List String) :
    (s.addFiles env (path :: rest)).1 = ((s.addFile env path).1.addFiles env rest).1 ∧
      (s.addFiles env (path :: rest)).2.answer =
        (((s.addFile env path).1.addFiles env rest).2.map (Summary.push path outcome)).answer := by
  rw [addFiles, runAll_cons_of_ok h]
  exact ⟨rfl, rfl⟩

/-- A batch fails with the first failure that feeding its files one after the other meets. -/
theorem addFiles_answer_eq_error_iff_findSome? :
    (s.addFiles env paths).2.answer = .error failure ↔
      (s.feedFiles env paths).2.findSome? failure? = some failure := by
  induction paths generalizing s with
  | nil =>
    show Except.ok ({} : Summary) = Except.error failure ↔ none = some failure
    simp
  | cons path rest ih =>
    rw [feedFiles_cons]
    cases hanswer : (s.addFile env path).2.answer with
    | error first =>
      rw [(addFiles_cons_of_error hanswer rest).2]
      show Except.error first = Except.error failure ↔ some first = some failure
      simp
    | ok outcome =>
      rw [(addFiles_cons_of_ok hanswer rest).2, Report.answer_map_eq_error_iff,
        List.findSome?_cons_of_isNone (by rfl), ih]

/-- A batch leaves the session that feeding the files before the first failure leaves. -/
theorem addFiles_session (env : Environment) (paths : List String) (s : Session) :
    (s.addFiles env paths).1 =
      (s.feedFiles env
        (paths.take ((s.feedFiles env paths).2.findIdx fun a => (failure? a).isSome))).1 := by
  induction paths generalizing s with
  | nil => rfl
  | cons path rest ih =>
    rw [feedFiles_cons, List.findIdx_cons]
    cases hanswer : (s.addFile env path).2.answer with
    | error failure => exact (addFiles_cons_of_error hanswer rest).1
    | ok outcome =>
      rw [(addFiles_cons_of_ok hanswer rest).1, ih]
      rfl

/-- A batch without a failure sorts its files by what they were answered, and notes those that it
skips in the session as well. -/
theorem addFiles_summary {summary : Summary}
    (h : (s.addFiles env paths).2.answer = .ok summary) :
    (∀ fed ∈ paths.zip (s.feedFiles env paths).2,
        (processed? fed).isSome = !(skip? fed).isSome) ∧
      summary.processed = (paths.zip (s.feedFiles env paths).2).filterMap processed? ∧
      summary.skipped = (paths.zip (s.feedFiles env paths).2).filterMap skip? ∧
      (s.addFiles env paths).1.skipped = s.skipped ++ summary.skipped := by
  induction paths generalizing s summary with
  | nil =>
    cases h
    refine ⟨?_, rfl, rfl, (List.append_nil s.skipped).symm⟩
    intro fed hfed
    cases hfed
  | cons path rest ih =>
    cases hanswer : (s.addFile env path).2.answer with
    | error failure =>
      rw [(addFiles_cons_of_error hanswer rest).2] at h
      cases h
    | ok outcome =>
      obtain ⟨hsession, hbatch⟩ := addFiles_cons_of_ok hanswer rest
      rw [hbatch] at h
      obtain ⟨later, hrest, rfl⟩ := Report.answer_map_eq_ok_iff.1 h
      obtain ⟨hsorted, hprocessed, hskipped, hnoted⟩ := ih hrest
      rw [feedFiles_cons, hanswer, List.zip_cons_cons, hsession, hnoted, skipped_addFile hanswer]
      -- the first file heads the list of those merged or of those skipped
      cases outcome with
      | merged classes enums =>
        refine ⟨?_, congrArg (path :: ·) hprocessed, hskipped, ?_⟩
        · simpa [processed?, skip?] using hsorted
        · simp [skip?, Summary.push]
      | skipped defect =>
        refine ⟨?_, hprocessed, congrArg (Skip.mk path defect :: ·) hskipped, ?_⟩
        · simpa [processed?, skip?] using hsorted
        · simp [skip?, Summary.push]

/-- A batch fails if and only if one of its files does when they are fed one after the other, and
with the first failure that is met there. It leaves the session that the files before that one
leave. If no file fails, each is either processed or skipped, on its list in the order of the batch,
and the files that were skipped are noted in the session behind those that were skipped earlier. -/
theorem addFiles_prefix (env : Environment) (paths : List String) (s : Session) :
    let answers := (s.feedFiles env paths).2
    (∀ failure, (s.addFiles env paths).2.answer = .error failure ↔
        answers.findSome? failure? = some failure) ∧
      (s.addFiles env paths).1 =
        (s.feedFiles env (paths.take (answers.findIdx fun a => (failure? a).isSome))).1 ∧
      ∀ summary, (s.addFiles env paths).2.answer = .ok summary →
        answers.length = paths.length ∧
          (∀ fed ∈ paths.zip answers, (processed? fed).isSome = !(skip? fed).isSome) ∧
          summary.processed = (paths.zip answers).filterMap processed? ∧
          summary.skipped = (paths.zip answers).filterMap skip? ∧
          summary.processed.length + summary.skipped.length = paths.length ∧
          (s.addFiles env paths).1.skipped = s.skipped ++ summary.skipped := by
  intro answers
  refine ⟨fun failure => addFiles_answer_eq_error_iff_findSome?, addFiles_session env paths s, ?_⟩
  intro summary hsummary
  obtain ⟨hsorted, hprocessed, hskipped, hnoted⟩ := addFiles_summary hsummary
  exact ⟨length_feedFiles env paths s, hsorted, hprocessed, hskipped, runAll_length hsummary,
    hnoted⟩

end TypeCatalog.Session
