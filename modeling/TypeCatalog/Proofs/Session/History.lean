import TypeCatalog.Proofs.Catalog.Growth
import TypeCatalog.Proofs.Session.Together

/-!
# The history of a session

Whatever is done with a session, and whether or not it fails, the catalogs only grow at their end:
every name stays where it is. Unless later records replace earlier ones, every record stays as it
is, and an input adds just as many records as it is said to have added.

## Main definitions

- `Session.Input`, `Session.Operation` — what can be fed to a session and what can be done with it
- `Session.performAll` — the session after several operations, whatever becomes of them
- `Session.Grows` — what every operation keeps

## Main statements

- `Session.Grows.runAll` — a run keeps what each of its steps keeps
- `Session.performAll_history` — the invariant of all sessions, and what each operation keeps
-/

namespace TypeCatalog.Session

/-! ### Operations -/

/-- An input, with what is found around it at the moment it is fed to a session. -/
inductive Input where
  | file (env : Environment) (path : String)
  | text (parse : Parser) (label text : String)

/-- Feeds an input to the session. -/
def feed (s : Session) : Input → Session × Report Outcome
  | .file env path => s.addFile env path
  | .text parse label text => s.addText parse label text

/-- What can be done with a session. -/
inductive Operation where
  | single (input : Input)
  /-- Files are extracted one after the other. -/
  | batch (env : Environment) (paths : List String)
  /-- Files are extracted independently of each other and merged afterwards. -/
  | together (env : Environment) (paths : List String)

/-- The session after an operation, whatever became of it. -/
def perform (s : Session) : Operation → Session
  | .single input => (s.feed input).1
  | .batch env paths => (s.addFiles env paths).1
  | .together env paths => (s.addFilesTogether env paths).1

/-- The session after several operations, whatever became of them. -/
def performAll (s : Session) (operations : List Operation) : Session :=
  operations.foldl perform s

/-! ### What operations keep -/

/-- The policy stays the same, the catalogs extend those of before, and records stay under their
own names. -/
structure Grows (s next : Session) : Prop where
  policy : next.policy = s.policy
  catalogs : s.catalogs.Extends s.policy next.catalogs
  indexed : s.catalogs.Indexed → next.catalogs.Indexed

variable {s next last : Session}

namespace Grows

theorem refl (s : Session) : Grows s s := ⟨rfl, .refl .., id⟩

/-- What holds of two steps holds of both together. -/
theorem trans (h : Grows s next) (hnext : Grows next last) : Grows s last where
  policy := hnext.policy.trans h.policy
  catalogs := h.catalogs.trans (h.policy ▸ hnext.catalogs)
  indexed hindexed := hnext.indexed (h.indexed hindexed)

/-- Whatever was staged of an input, a merge extends the catalogs, and all else leaves them. -/
theorem receive (path : String) (staged : Except Failure Catalogs) (s : Session) :
    Grows s (s.receive path staged).1 := by
  cases staged with
  | error failure => cases failure <;> exact ⟨rfl, .refl .., id⟩
  | ok catalogs =>
    exact ⟨rfl, .merge s.policy path s.catalogs catalogs,
      fun hindexed => hindexed.merge s.policy path catalogs⟩

theorem feed (s : Session) (input : Input) : Grows s (s.feed input).1 := by
  cases input with
  | file env path => exact receive path (Intake.ofFile env s.policy path).answer s
  | text parse label text =>
    exact receive label (Intake.ofText parse s.policy label text Language.csharp.name).answer s

/-- A run keeps what each of its steps keeps, wherever it ends. -/
theorem runAll {α : Type} {step : α → Session → Session × Report Outcome}
    (hstep : ∀ input s, Grows s (step input s).1) (name : α → String) (inputs : List α)
    (s : Session) : Grows s (runAll step name inputs s).1 := by
  induction inputs generalizing s with
  | nil => exact refl s
  | cons input rest ih =>
    cases hanswer : (step input s).2.answer with
    | error failure =>
      rw [runAll_cons_of_error hanswer]
      exact hstep input s
    | ok outcome =>
      rw [runAll_cons_of_ok hanswer]
      exact (hstep input s).trans (ih _)

theorem perform (s : Session) (operation : Operation) : Grows s (s.perform operation) := by
  cases operation with
  | single input => exact feed s input
  | batch env paths => exact runAll (fun path s => feed s (.file env path)) id paths s
  | together env paths =>
    exact runAll (fun (input : String × Report Catalogs) => receive input.1 input.2.answer)
      Prod.fst _ s

theorem performAll (s : Session) (operations : List Operation) :
    Grows s (s.performAll operations) := by
  induction operations generalizing s with
  | nil => exact refl s
  | cons operation rest ih => exact (perform s operation).trans (ih _)

end Grows

/-! ### What an input adds -/

/-- Unless later records replace earlier ones, the catalogs grow by what a merge is said to have
stored. -/
theorem receive_growth {path : String} {staged : Except Failure Catalogs} {classes enums : Nat}
    (hpolicy : s.policy ≠ .overwrite)
    (h : (s.receive path staged).2.answer = .ok (.merged classes enums)) :
    (s.receive path staged).1.catalogs.classes.size = s.catalogs.classes.size + classes ∧
      (s.receive path staged).1.catalogs.enums.size = s.catalogs.enums.size + enums := by
  cases staged with
  | error failure => cases failure <;> cases h
  | ok catalogs =>
    simp only [receive] at h ⊢
    obtain ⟨tally, hanswer, hdone⟩ := Report.answer_andThen_eq_ok_iff.1 h
    cases hdone
    have hgrowth := (Catalogs.merge_accounts hanswer).growth hpolicy
    exact ⟨hgrowth .classKind, hgrowth .enumKind⟩

/-- Unless records are overwritten, the catalogs grow by the counts in the answer. -/
theorem feed_growth {input : Input} {classes enums : Nat} (hpolicy : s.policy ≠ .overwrite)
    (h : (s.feed input).2.answer = .ok (.merged classes enums)) :
    (s.feed input).1.catalogs.classes.size = s.catalogs.classes.size + classes ∧
      (s.feed input).1.catalogs.enums.size = s.catalogs.enums.size + enums := by
  cases input with
  | file env path => exact receive_growth hpolicy h
  | text parse label text => exact receive_growth hpolicy h

/-- After any operations on an empty session, every record is under its own name, no two of them
under the same one. Whatever is done next, and whether or not it fails, the names stay in their
order before all new ones. Unless later records replace earlier ones, so do the records
themselves, and an input that is merged adds just as many as it is said to have added. -/
theorem performAll_history (policy : Policy) (earlier later : List Operation) :
    let s := ({ policy := policy } : Session).performAll earlier
    s.catalogs.Indexed ∧
      s.catalogs.Extends policy (s.performAll later).catalogs ∧
      (policy ≠ .overwrite → ∀ input classes enums,
        (s.feed input).2.answer = .ok (.merged classes enums) →
          (s.feed input).1.catalogs.classes.size = s.catalogs.classes.size + classes ∧
            (s.feed input).1.catalogs.enums.size = s.catalogs.enums.size + enums) := by
  intro s
  have hs : Grows { policy := policy } s := .performAll _ earlier
  have hpolicy : s.policy = policy := hs.policy
  refine ⟨hs.indexed .empty, ?_, fun hne input classes enums hmerged => ?_⟩
  · have hlater := (Grows.performAll s later).catalogs
    rwa [hpolicy] at hlater
  · rw [← hpolicy] at hne
    exact feed_growth hne hmerged

/-- A text with a class `A` and nothing else. -/
def Input.oneClass (label : String) : Input :=
  .text (fun _ => .node { kind := "compilation_unit", start := 0, stop := 11 }
    [.node { kind := "class_declaration", start := 0, stop := 11 }
      [.node { kind := "identifier", start := 6, stop := 7, field := some "name" } []]])
    label "class A { }"

/-- Where the first record is kept, an input may be merged without adding anything. -/
theorem performAll_history_oneClass :
    let s := ({ policy := .keepFirst } : Session).performAll [.single (.oneClass "A.cs")]
    s.catalogs.classes.names = ["A"] ∧ s.catalogs.Indexed ∧
      (s.feed (.oneClass "B.cs")).2.answer = .ok (.merged 0 0) ∧
      (s.feed (.oneClass "B.cs")).1.catalogs.classes.size = s.catalogs.classes.size + 0 := by
  intro s
  have hanswer : (s.feed (.oneClass "B.cs")).2.answer = .ok (.merged 0 0) := by rfl
  obtain ⟨hindexed, -, hgrowth⟩ :=
    performAll_history .keepFirst [.single (.oneClass "A.cs")] []
  exact ⟨by decide, hindexed, hanswer, (hgrowth (by decide) _ _ _ hanswer).1⟩

end TypeCatalog.Session
