import TypeCatalog.Proofs.Catalog.Occurrences
import TypeCatalog.Proofs.Session.Conservation

/-!
# Feeding an input again

An input that comes again at once leaves the catalogs as they are: each of its names is taken, and
where later records replace earlier ones each of its records finds itself in its place. How the
input is answered is for the policy to say, and not for what was in the session before.

## Main definitions

- `Session.answerAgain` — the answer to what comes again

## Main statements

- `Catalog.Indexed.fileAll_fileAll_self` — records that are filed again
- `Session.feed_again` — an input is fed again
-/

namespace TypeCatalog

/-! ### Filing records again -/

namespace Catalog

/-- Where all names of a catalog are taken, its first name is the first that is taken. -/
theorem firstShared?_of_subset {α : Type} {c l : Catalog α} (h : l.names ⊆ c.names) :
    c.firstShared? l = l.names.head? := by
  rw [firstShared?]
  cases hnames : l.names with
  | nil => rfl
  | cons name rest =>
    exact List.find?_cons_of_pos (contains_iff.2 (h (hnames ▸ List.mem_cons_self)))

variable {α : Type} [Record α] {policy : Policy} {c l : Catalog α} {record : α} {records : List α}

/-- Records that change nothing one by one change nothing together. -/
theorem fileAll_eq_self (h : ∀ record ∈ records, c.file policy record = c) :
    c.fileAll policy records = c := by
  induction records with
  | nil => rfl
  | cons record rest ih =>
    obtain ⟨hfirst, hrest⟩ := List.forall_mem_cons.1 h
    rw [fileAll, List.foldl_cons, hfirst]
    exact ih hrest

/-- Among records whose names differ, one that comes again finds itself in its place. -/
theorem file_fileAll_of_mem (hnodup : (records.map Record.name).Nodup) (h : record ∈ records) :
    (c.fileAll policy records).file policy record = c.fileAll policy records := by
  have htaken : Record.name record ∈ (c.fileAll policy records).names :=
    mem_names_fileAll.2 (.inr (List.mem_map_of_mem h))
  rw [file, if_pos htaken]
  split
  case isFalse => rfl
  case isTrue hpolicy =>
    subst hpolicy
    obtain ⟨before, after, rfl⟩ := List.append_of_mem h
    have hafter : ∀ other ∈ after, Record.name other ≠ Record.name record := by
      intro other hother heq
      rw [List.map_append, List.map_cons, List.nodup_middle, List.nodup_cons] at hnodup
      exact hnodup.1 (List.mem_append_right _ (heq ▸ List.mem_map_of_mem hother))
    rw [fileAll_append]
    calc (((c.fileAll .overwrite before).file .overwrite record).fileAll .overwrite after).replace
          (Record.name record) record
        = (((c.fileAll .overwrite before).file .overwrite record).replace (Record.name record)
            record).fileAll .overwrite after := replace_fileAll_of_ne hafter
      _ = ((c.fileAll .overwrite before).file .overwrite record).fileAll .overwrite after := by
        rw [replace_file_self rfl]

/-- Records of a catalog that are filed again leave everything as it is, whatever was there before
them. -/
theorem Indexed.fileAll_fileAll_self (hl : l.Indexed) :
    (c.fileAll policy l.records).fileAll policy l.records = c.fileAll policy l.records :=
  fileAll_eq_self fun _ hrecord =>
    file_fileAll_of_mem (hl.map_name_records ▸ hl.nodup) hrecord

/-- Records that were filed are not new any more. -/
theorem fresh_fileAll_self (policy : Policy) (c : Catalog α) (records : List α) :
    (c.fileAll policy records).fresh records = [] := by
  have hnone : (records.map Record.name).filter (· ∉ (c.fileAll policy records).names) = [] :=
    List.filter_eq_nil_iff.2 fun name hname => by simpa using mem_names_fileAll.2 (.inr hname)
  rw [fresh, hnone, List.eraseDups_nil]

/-- Records that are filed again are all stored or all passed over. -/
theorem added_fileAll_self (policy : Policy) (c : Catalog α) (records : List α) :
    (c.fileAll policy records).added policy records =
      if policy = .overwrite then c.added policy records else 0 := by
  unfold added
  split
  · rfl
  · rw [fresh_fileAll_self, List.length_nil]

end Catalog

namespace Catalogs

variable {policy : Policy} {path : String} {c other : Catalogs}

/-- Filing the records of catalogs twice is filing them once. -/
theorem Indexed.fileAll_fileAll_self (hother : other.Indexed) :
    (c.fileAll policy other.classes.records other.enums.records).fileAll policy
        other.classes.records other.enums.records =
      c.fileAll policy other.classes.records other.enums.records :=
  congrArg₂ Catalogs.mk hother.classes.fileAll_fileAll_self hother.enums.fileAll_fileAll_self

/-- A merge that is refused because everything is there names the first class or, if there is none,
the first enum. -/
theorem refusal?_fileAll_self (hother : other.Indexed) :
    (c.fileAll policy other.classes.records other.enums.records).refusal? path other =
      (other.classes.names.head?.map (.duplicate · .classKind path)).or
        (other.enums.names.head?.map (.duplicate · .enumKind path)) := by
  have hclasses : other.classes.names ⊆
      (c.classes.fileAll policy other.classes.records).names := fun name hname =>
    Catalog.mem_names_fileAll.2 (.inr (hother.classes.map_name_records ▸ hname))
  have henums : other.enums.names ⊆ (c.enums.fileAll policy other.enums.records).names :=
    fun name hname => Catalog.mem_names_fileAll.2 (.inr (hother.enums.map_name_records ▸ hname))
  rw [refusal?, fileAll, Catalog.firstShared?_of_subset hclasses,
    Catalog.firstShared?_of_subset henums]
  cases other.classes.names.head? <;> rfl

end Catalogs

namespace Session

open Declaration (namesOf)

/-! ### What is collected of an input -/

/-- The path at which an input is found, or the label that stands for it. -/
def Input.path : Input → String
  | .file _ path => path
  | .text _ label _ => label

/-- What is collected of an input before it is merged. -/
def Input.staged (policy : Policy) : Input → Except Failure Catalogs
  | .file env path => (Intake.ofFile env policy path).answer
  | .text parse label content =>
    (Intake.ofText parse policy label content Language.csharp.name).answer

/-- Feeding an input is receiving what is collected of it. -/
theorem agree_feed (s : Session) (input : Input) :
    Agree (s.feed input) (s.receive input.path (input.staged s.policy)) := by
  cases input <;> exact ⟨rfl, rfl⟩

/-- What is collected of an input is what its declarations gather from nothing. -/
theorem Input.staged_eq_ok {policy : Policy} {input : Input} {catalogs : Catalogs}
    (h : input.staged policy = .ok catalogs) :
    catalogs = .gather policy {} input.declarations := by
  cases input with
  | file env path =>
    rw [staged, Intake.ofFile_answer] at h
    rw [declarations, Intake.stream]
    cases hread : Intake.read env path with
    | error failure =>
      rw [hread] at h
      cases h
    | ok declarations =>
      rw [hread] at h
      exact (Catalogs.ofDeclarations_answer_eq_ok_iff.1 h).2
  | text parse label content =>
    rw [staged, Intake.ofText_answer] at h
    exact (Catalogs.ofDeclarations_answer_eq_ok_iff.1 h).2

variable {path : String} {s : Session} {catalogs : Catalogs}

/-! ### Taking in again what was staged -/

/-- The answer to what comes again at once, told by the answer that it got before and by the names
in it. What was merged before is kept, replaced by itself or refused, as the policy has it; any
other answer is given again. -/
def answerAgain (path : String) (classNames enumNames : List String) (policy : Policy) :
    Except Failure Outcome → Except Failure Outcome
  | .ok (.merged classes enums) =>
    match policy with
    | .keepFirst => .ok (.merged 0 0)
    | .overwrite => .ok (.merged classes enums)
    | .reject =>
      match classNames, enumNames with
      | [], [] => .ok (.merged 0 0)
      | name :: _, _ => .error (.duplicate name .classKind path)
      | [], name :: _ => .error (.duplicate name .enumKind path)
  | answer => answer

/-- It does not matter to the answer whether a name comes once or more often. -/
theorem answerAgain_eraseDups (path : String) (classNames enumNames : List String)
    (policy : Policy) (answer : Except Failure Outcome) :
    answerAgain path classNames.eraseDups enumNames.eraseDups policy answer =
      answerAgain path classNames enumNames policy answer := by
  cases policy with
  | reject =>
    cases classNames with
    | cons => rw [List.eraseDups_cons]; rfl
    | nil =>
      cases enumNames with
      | cons => rw [List.eraseDups_nil, List.eraseDups_cons]; rfl
      | nil => rfl
  | _ => rfl

/-- A failure is received again with the same answer. -/
theorem receive_error_again (path : String) (failure : Failure) (s : Session)
    (classNames enumNames : List String) :
    let first := s.receive path (.error failure)
    let second := first.1.receive path (.error failure)
    second.1.catalogs = first.1.catalogs ∧
      second.2.answer = answerAgain path classNames enumNames s.policy first.2.answer := by
  cases failure <;> exact ⟨rfl, rfl⟩

/-- The answer to catalogs that are not refused counts what they add. -/
theorem receive_answer_of_accepts (path : String) (hindexed : catalogs.Indexed)
    (h : s.catalogs.Accepts s.policy catalogs.classes.records catalogs.enums.records) :
    (s.receive path (.ok catalogs)).2.answer =
      .ok (.merged (s.catalogs.classes.added s.policy catalogs.classes.records)
        (s.catalogs.enums.added s.policy catalogs.enums.records)) := by
  simp only [receive]
  rw [Report.andThen_of_ok (Catalogs.merge_answer path hindexed h)]
  rfl

/-- Catalogs that are refused leave the session as it was. -/
theorem receive_of_refusal {failure : Failure} (hpolicy : s.policy = .reject)
    (h : s.catalogs.refusal? path catalogs = some failure) :
    s.receive path (.ok catalogs) = (s, .failed failure) := by
  have hmerge : s.catalogs.merge s.policy path catalogs = (s.catalogs, .failed failure) := by
    rw [Catalogs.merge, if_pos hpolicy, h]
  simp only [receive, hmerge]
  rfl

/-- What is there already is stored again where later records replace earlier ones, and nothing of
it otherwise. -/
theorem receive_fileAll_of_accepts (path : String) (s : Session) (hindexed : catalogs.Indexed)
    (h : (s.catalogs.fileAll s.policy catalogs.classes.records catalogs.enums.records).Accepts
      s.policy catalogs.classes.records catalogs.enums.records) :
    let filed := s.catalogs.fileAll s.policy catalogs.classes.records catalogs.enums.records
    let again := ({ s with catalogs := filed } : Session).receive path (.ok catalogs)
    again.1.catalogs = filed ∧
      again.2.answer = .ok (.merged
        (if s.policy = .overwrite then s.catalogs.classes.added s.policy catalogs.classes.records
          else 0)
        (if s.policy = .overwrite then s.catalogs.enums.added s.policy catalogs.enums.records
          else 0)) := by
  intro filed again
  have hanswer := receive_answer_of_accepts (s := { s with catalogs := filed }) path hindexed h
  obtain ⟨classes, enums, events, hagain⟩ :=
    receive_of_accepts (s := { s with catalogs := filed }) path hindexed h
  refine ⟨?_, ?_⟩
  · rw [show again = _ from hagain]
    exact hindexed.fileAll_fileAll_self
  · rw [show again.2.answer = _ from hanswer, ← Catalog.added_fileAll_self,
      ← Catalog.added_fileAll_self]
    rfl

/-- Catalogs that were merged are merged again without any change. -/
theorem receive_fileAll (path : String) (s : Session) (hindexed : catalogs.Indexed) :
    let filed := s.catalogs.fileAll s.policy catalogs.classes.records catalogs.enums.records
    let again := ({ s with catalogs := filed } : Session).receive path (.ok catalogs)
    again.1.catalogs = filed ∧
      again.2.answer = answerAgain path catalogs.classes.names catalogs.enums.names s.policy
        (.ok (.merged (s.catalogs.classes.added s.policy catalogs.classes.records)
          (s.catalogs.enums.added s.policy catalogs.enums.records))) := by
  intro filed again
  have hstored (haccepts) : again.1.catalogs = filed ∧ again.2.answer = _ :=
    receive_fileAll_of_accepts path s hindexed haccepts
  cases hpolicy : s.policy with
  | keepFirst =>
    obtain ⟨hcatalogs, hanswer⟩ := hstored (Catalogs.accepts_of_ne_reject (by simp [hpolicy]))
    simp only [hpolicy, reduceCtorEq, if_false] at hanswer
    exact ⟨hcatalogs, hanswer⟩
  | overwrite =>
    obtain ⟨hcatalogs, hanswer⟩ := hstored (Catalogs.accepts_of_ne_reject (by simp [hpolicy]))
    simp only [hpolicy, if_true] at hanswer
    exact ⟨hcatalogs, hanswer⟩
  | reject =>
    -- everything is there, so the first name that there is ends the merge
    have hrefusal : filed.refusal? path catalogs = _ := Catalogs.refusal?_fileAll_self hindexed
    have hrefused {failure : Failure} (h : filed.refusal? path catalogs = some failure) :
        again.1.catalogs = filed ∧ again.2.answer = .error failure := by
      rw [show again = _ from receive_of_refusal (s := { s with catalogs := filed }) hpolicy h]
      exact ⟨rfl, rfl⟩
    cases hclasses : catalogs.classes.names with
    | cons name rest => exact hrefused (hrefusal.trans (by rw [hclasses]; rfl))
    | nil =>
      cases henums : catalogs.enums.names with
      | cons name rest => exact hrefused (hrefusal.trans (by rw [hclasses, henums]; rfl))
      | nil =>
        have haccepts : filed.Accepts s.policy catalogs.classes.records catalogs.enums.records := by
          rw [Catalogs.accepts_iff_of_indexed hindexed, hclasses, henums]
          exact fun _ => ⟨fun _ hname => (nomatch hname), fun _ hname => (nomatch hname)⟩
        obtain ⟨hcatalogs, hanswer⟩ := hstored haccepts
        simp only [hpolicy, reduceCtorEq, if_false] at hanswer
        exact ⟨hcatalogs, hanswer⟩

/-- Catalogs are received again without any change, with the answer that the policy has for that. -/
theorem receive_ok_again (path : String) (s : Session) (hindexed : catalogs.Indexed) :
    let first := s.receive path (.ok catalogs)
    let second := first.1.receive path (.ok catalogs)
    second.1.catalogs = first.1.catalogs ∧
      second.2.answer = answerAgain path catalogs.classes.names catalogs.enums.names s.policy
        first.2.answer := by
  intro first second
  by_cases h : s.catalogs.Accepts s.policy catalogs.classes.records catalogs.enums.records
  · obtain ⟨_, _, _, hmerge⟩ := receive_of_accepts path hindexed h
    have hnext : first.1 = { s with catalogs := _ } := congrArg (·.1) hmerge
    have hanswer : first.2.answer = _ := receive_answer_of_accepts path hindexed h
    obtain ⟨hcatalogs, hagain⟩ := receive_fileAll path s hindexed
    rw [← hnext] at hcatalogs hagain
    rw [← hanswer] at hagain
    exact ⟨hcatalogs.trans (congrArg (·.catalogs) hnext).symm, hagain⟩
  · -- the session is as it was, so that the same happens to it
    obtain ⟨-, name, kind, hrefused⟩ := receive_of_not_accepts path hindexed h
    have hsecond : second = first := congrArg (·.receive path (.ok catalogs))
      (congrArg (·.1) hrefused)
    have hfailed : first.2.answer = .error _ := congrArg (·.2.answer) hrefused
    rw [hsecond, hfailed]
    exact ⟨rfl, rfl⟩

/-! ### Feeding again -/

/-- An input that is fed again at once leaves the catalogs as they are, whatever is in them, and
`answerAgain` tells what is answered. -/
theorem feed_again (s : Session) (input : Input) :
    let first := s.feed input
    let second := first.1.feed input
    second.1.catalogs = first.1.catalogs ∧
      second.2.answer = answerAgain input.path (namesOf .classKind input.declarations)
        (namesOf .enumKind input.declarations) s.policy first.2.answer := by
  intro first second
  have hfirst : Agree first _ := agree_feed s input
  have hsecond : Agree second _ := agree_feed first.1 input
  rw [show first.1.policy = s.policy from (Grows.feed s input).policy] at hsecond
  rw [hsecond.session, hsecond.answer, hfirst.session, hfirst.answer]
  cases hstaged : input.staged s.policy with
  | error failure => exact receive_error_again ..
  | ok catalogs =>
    obtain rfl := Input.staged_eq_ok hstaged
    have hclasses := Catalogs.names_gather s.policy .classKind input.declarations
    have henums := Catalogs.names_gather s.policy .enumKind input.declarations
    rw [← answerAgain_eraseDups, ← hclasses, ← henums]
    exact receive_ok_again input.path s (Catalogs.indexed_gather ..)

/-- A class that is there already replaces itself, is kept, or is refused. -/
theorem feed_again_oneClass :
    let input : Input := .oneClass "A.cs"
    let replacing := (({ policy := .overwrite } : Session).feed input).1
    let keeping := (({ policy := .keepFirst } : Session).feed input).1
    let refusing := (({ policy := .reject } : Session).feed input).1
    (replacing.feed input).1.catalogs = replacing.catalogs ∧
      (replacing.feed input).2.answer = .ok (.merged 1 0) ∧
      (keeping.feed input).2.answer = .ok (.merged 0 0) ∧
      (refusing.feed input).2.answer = .error (.duplicate "A" .classKind "A.cs") := by
  intro input replacing keeping refusing
  obtain ⟨hsame, hreplaced⟩ := feed_again { policy := .overwrite } input
  obtain ⟨-, hkept⟩ := feed_again { policy := .keepFirst } input
  obtain ⟨-, hrefused⟩ := feed_again { policy := .reject } input
  exact ⟨hsame, hreplaced, hkept, hrefused⟩

end Session

end TypeCatalog
