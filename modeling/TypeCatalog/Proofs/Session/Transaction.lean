import TypeCatalog.Proofs.Catalog.Collecting
import TypeCatalog.Session

/-!
# One input as a transaction

An input passes through four steps, each of which may fail: its path is checked, its content is
read and decoded, its declarations are collected, and what was collected is merged. Only what the
first two say of a path turns into a skip, and a failure of any step leaves nothing behind.

## Main definitions

- `Intake.Ends` — the failures in which an input may end before it is merged
- `Session.Transacted` — what may become of a session when one input is fed to it

## Main statements

- `Intake.staged_ofFile`, `Intake.staged_ofText` — what the steps before a merge come to
- `Session.receive_transacted` — the merge, and the skip of an invalid input
- `Session.addFile_addText_transacted` — every input is a transaction
-/

namespace TypeCatalog

variable {policy : Policy} {path : String} {failure : Failure}

namespace Intake

/-- The failures in which an input at the path may end before it is merged. -/
inductive Ends (policy : Policy) (path : String) : Failure → Prop where
  | invalid (defect : Defect) : Ends policy path (.invalidInput path defect)
  | unparsable (problem : String) : Ends policy path (.unparsable path problem)
  | duplicate (name : String) (kind : TypeKind) (h : policy = .reject) :
      Ends policy path (.duplicate name kind path)

/-- What is handed over to be merged: catalogs with every record under its own name, or a failure
of this input. -/
structure Staged (policy : Policy) (path : String) (staged : Except Failure Catalogs) : Prop where
  ends : ∀ failure, staged = .error failure → Ends policy path failure
  indexed : ∀ catalogs, staged = .ok catalogs → catalogs.Indexed

theorem Staged.of_error (h : Ends policy path failure) : Staged policy path (.error failure) :=
  ⟨fun _ heq => by cases heq; exact h, fun _ heq => nomatch heq⟩

/-- What is collected of declarations may be handed over. -/
theorem staged_ofDeclarations (policy : Policy) (path : String)
    (declarations : List Declaration) :
    Staged policy path (Catalogs.ofDeclarations policy path declarations).answer := by
  refine ⟨fun failure hfailure => ?_, fun catalogs => Catalogs.indexed_of_ofDeclarations⟩
  obtain ⟨hpolicy, name, kind, rfl⟩ := Catalogs.of_ofDeclarations_error hfailure
  exact .duplicate name kind hpolicy

/-- A text in a language that is known can always be read: only what it declares is refused. -/
theorem ofText_answer (parse : Parser) (policy : Policy) (path text : String)
    (language : Language) :
    (ofText parse policy path text language.name).answer =
      (Catalogs.ofDeclarations policy path
        ((Source.ofText path language text).declarations (parse text))).answer := by
  rw [ofText, declarations, Language.ofName?_name]
  rfl

/-- What is collected of a text may be handed over. -/
theorem staged_ofText (parse : Parser) (policy : Policy) (path text : String)
    (language : Language) :
    Staged policy path (ofText parse policy path text language.name).answer := by
  rw [ofText_answer]
  exact staged_ofDeclarations ..

/-- A text that was read is never answered as an invalid input. -/
theorem ofText_answer_ne_invalid (parse : Parser) (policy : Policy) (path text : String)
    (language : Language) (invalid : String) (defect : Defect) :
    (ofText parse policy path text language.name).answer ≠
      .error (.invalidInput invalid defect) := by
  rw [ofText_answer]
  intro hinvalid
  obtain ⟨-, name, kind, heq⟩ := Catalogs.of_ofDeclarations_error hinvalid
  cases heq

/-- A file that does not pass the checks ends as an input may. -/
theorem ends_of_check {env : Environment} (policy : Policy)
    (h : check env path = .error failure) : Ends policy path failure := by
  cases hlanguage : FilePath.language? path with
  | none =>
    rw [check, hlanguage] at h
    cases hfind : env.find path <;> (rw [hfind] at h; cases h; exact .invalid _)
  | some language =>
    rw [check, hlanguage] at h
    cases hfind : env.find path with
    | missing => rw [hfind] at h; cases h; exact .invalid _
    | notRegular => rw [hfind] at h; cases h; exact .invalid _
    | _ => rw [hfind] at h; cases h

/-- What is collected of octets may be handed over. -/
theorem staged_ofOctets (parse : Parser) (policy : Policy) (path : String) (language : Language)
    (octets : List UInt8) :
    Staged policy path (ofOctets parse policy path language octets).answer := by
  rw [ofOctets]
  cases Text.Utf8.decode octets with
  | error => exact .of_error (.unparsable _)
  | ok text => exact staged_ofText parse policy path text language

/-- What is collected of a file may be handed over. -/
theorem staged_ofFile (env : Environment) (policy : Policy) (path : String) :
    Staged policy path (ofFile env policy path).answer := by
  rw [ofFile]
  cases hcheck : check env path with
  | error failure => exact .of_error (ends_of_check policy hcheck)
  | ok language =>
    cases env.find path with
    | regular octets => exact staged_ofOctets env.parse policy path language octets
    | _ => exact .of_error (.invalid _)

end Intake

namespace Session

variable {s : Session} {staged : Except Failure Catalogs} {catalogs : Catalogs}

/-- What may become of a session when one input is fed to it: the answer tells whether it failed,
was skipped or was merged. -/
structure Transacted (path : String) (s next : Session) (answer : Except Failure Outcome) :
    Prop where
  policy : next.policy = s.policy
  /-- A failure leaves the session as it was. Either the input could not be parsed, or the policy
  refused a name in it. -/
  failed : ∀ failure, answer = .error failure →
    next.catalogs = s.catalogs ∧ next.skipped = s.skipped ∧
      ((∃ problem, failure = .unparsable path problem) ∨
        s.policy = .reject ∧ ∃ name kind, failure = .duplicate name kind path)
  /-- A skip is noted after all others and changes nothing else. -/
  skipped : ∀ defect, answer = .ok (.skipped defect) →
    next.catalogs = s.catalogs ∧ next.skipped = s.skipped ++ [⟨path, defect⟩]
  merged : ∀ classes enums, answer = .ok (.merged classes enums) → next.skipped = s.skipped

/-! ### Merging what was staged -/

/-- Catalogs that are not refused are merged whole. -/
theorem receive_of_accepts (path : String) (hindexed : catalogs.Indexed)
    (h : s.catalogs.Accepts s.policy catalogs.classes.records catalogs.enums.records) :
    ∃ classes enums events, s.receive path (.ok catalogs) =
      ({ s with catalogs :=
          s.catalogs.fileAll s.policy catalogs.classes.records catalogs.enums.records },
        .done (.merged classes enums) events) := by
  obtain ⟨tally, events, hmerge⟩ := Catalogs.merge_of_accepts path hindexed h
  simp only [receive, hmerge]
  exact ⟨_, _, _, rfl⟩

/-- Catalogs that are refused leave the session as it was and name the record that was refused. -/
theorem receive_of_not_accepts (path : String) (hindexed : catalogs.Indexed)
    (h : ¬ s.catalogs.Accepts s.policy catalogs.classes.records catalogs.enums.records) :
    s.policy = .reject ∧ ∃ name kind, s.receive path (.ok catalogs) =
      (s, .failed (.duplicate name kind path)) := by
  obtain ⟨hpolicy, failure, hrefusal, hmerge⟩ := Catalogs.merge_of_not_accepts path hindexed h
  refine ⟨hpolicy, ?_⟩
  simp only [receive, hmerge]
  obtain ⟨name, -, rfl⟩ | ⟨-, name, -, rfl⟩ := Catalogs.refusal?_eq_some hrefusal
  · exact ⟨name, _, rfl⟩
  · exact ⟨name, _, rfl⟩

/-! ### Transactions -/

namespace Transacted

theorem of_unparsable (problem : String) :
    Transacted path s s (.error (.unparsable path problem)) where
  policy := rfl
  failed _ h := by cases h; exact ⟨rfl, rfl, .inl ⟨problem, rfl⟩⟩
  skipped _ h := nomatch h
  merged _ _ h := nomatch h

theorem of_duplicate (hpolicy : s.policy = .reject) (name : String) (kind : TypeKind) :
    Transacted path s s (.error (.duplicate name kind path)) where
  policy := rfl
  failed _ h := by cases h; exact ⟨rfl, rfl, .inr ⟨hpolicy, name, kind, rfl⟩⟩
  skipped _ h := nomatch h
  merged _ _ h := nomatch h

theorem of_skipped (defect : Defect) :
    Transacted path s { s with skipped := s.skipped ++ [⟨path, defect⟩] }
      (.ok (.skipped defect)) where
  policy := rfl
  failed _ h := nomatch h
  skipped _ h := by cases h; exact ⟨rfl, rfl⟩
  merged _ _ h := nomatch h

theorem of_merged (catalogs : Catalogs) (classes enums : Nat) :
    Transacted path s { s with catalogs := catalogs } (.ok (.merged classes enums)) where
  policy := rfl
  failed _ h := nomatch h
  skipped _ h := nomatch h
  merged _ _ _ := rfl

end Transacted

/-- Whatever may be handed over is received whole or not at all. -/
theorem receive_transacted (h : Intake.Staged s.policy path staged) :
    Transacted path s (s.receive path staged).1 (s.receive path staged).2.answer := by
  cases staged with
  | error failure =>
    -- of the failures before a merge, an invalid input alone is not passed on
    cases h.ends failure rfl with
    | invalid defect => exact .of_skipped defect
    | unparsable problem => exact .of_unparsable problem
    | duplicate name kind hpolicy => exact .of_duplicate hpolicy name kind
  | ok catalogs =>
    have hindexed := h.indexed catalogs rfl
    by_cases haccepts :
        s.catalogs.Accepts s.policy catalogs.classes.records catalogs.enums.records
    · obtain ⟨classes, enums, events, heq⟩ := receive_of_accepts path hindexed haccepts
      rw [heq]
      exact .of_merged _ classes enums
    · obtain ⟨hpolicy, name, kind, heq⟩ := receive_of_not_accepts path hindexed haccepts
      rw [heq]
      exact .of_duplicate hpolicy name kind

/-- Only an invalid input is skipped. -/
theorem eq_error_of_skipped {defect : Defect}
    (h : (s.receive path staged).2.answer = .ok (.skipped defect)) :
    ∃ invalid, staged = .error (.invalidInput invalid defect) := by
  cases staged with
  | error failure =>
    cases failure with
    | invalidInput invalid => cases h; exact ⟨invalid, rfl⟩
    | _ => cases h
  | ok catalogs =>
    simp only [receive] at h
    cases hanswer : (s.catalogs.merge s.policy path catalogs).2.answer with
    | error failure => rw [Report.andThen_of_error hanswer] at h; cases h
    | ok tally => rw [Report.andThen_of_ok hanswer] at h; cases h

/-- Every input is a transaction, whether it is a file or a text; and no text is ever skipped. -/
theorem addFile_addText_transacted (env : Environment) (path label text : String) (s : Session) :
    Transacted path s (s.addFile env path).1 (s.addFile env path).2.answer ∧
      Transacted label s (s.addText env.parse label text).1
        (s.addText env.parse label text).2.answer ∧
      ∀ defect, (s.addText env.parse label text).2.answer ≠ .ok (.skipped defect) := by
  have hfile := Intake.staged_ofFile env s.policy path
  have htext := Intake.staged_ofText env.parse s.policy label text .csharp
  refine ⟨receive_transacted hfile, receive_transacted htext, fun defect hskipped => ?_⟩
  obtain ⟨invalid, hinvalid⟩ := eq_error_of_skipped hskipped
  exact Intake.ofText_answer_ne_invalid _ _ _ _ _ _ _ hinvalid

end Session

end TypeCatalog
