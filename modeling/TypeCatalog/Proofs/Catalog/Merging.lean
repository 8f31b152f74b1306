import TypeCatalog.Catalogs
import TypeCatalog.Proofs.Catalog.Filing

/-!
# Merging catalogs

A merge looks for names that are refused before it files anything. Since the records of catalogs
are under their own names, and no two under the same one, it finds exactly the record at which
filing would end: a merge either files everything or leaves the catalogs as they are.

## Main definitions

- `Catalogs.Reachable` — catalogs that come about by filing records and by merging
- `Catalog.FirstShared` — the first name of another catalog that is taken

## Main statements

- `Catalogs.merge_of_accepts`, `Catalogs.merge_of_not_accepts` — what a merge does
- `Catalogs.merge_all_or_nothing` — when a merge fails, how, and that it then changes nothing
-/

namespace TypeCatalog

/-- The name is the first one of another catalog that is in this one. -/
def Catalog.FirstShared {α : Type} (c other : Catalog α) (name : String) : Prop :=
  name ∈ c.names ∧ ∃ before rest, other.names = before ++ name :: rest ∧
    ∀ earlier ∈ before, earlier ∉ c.names

/-- Looking for the first shared name finds it. -/
theorem Catalog.firstShared?_eq_some_iff {α : Type} {c other : Catalog α} {name : String} :
    c.firstShared? other = some name ↔ c.FirstShared other name := by
  rw [firstShared?, List.find?_eq_some_iff_append, contains_iff, FirstShared]
  simp [← contains_iff]

/-- Nothing is found if and only if no name is shared. -/
theorem Catalog.firstShared?_eq_none_iff {α : Type} {c other : Catalog α} :
    c.firstShared? other = none ↔ ∀ name ∈ other.names, name ∉ c.names := by
  simp [firstShared?, ← contains_iff]

/-- Looking for taken names finds the record at which filing would end. -/
theorem Catalog.Indexed.firstShared?_eq {α : Type} [Record α] {other : Catalog α}
    (h : other.Indexed) (path : String) (c : Catalog α) :
    c.firstShared? other = (c.firstRefused? .reject path other.records).map Record.name := by
  have hnodup : (other.records.map Record.name).Nodup := h.map_name_records ▸ h.nodup
  rw [firstShared?, ← h.map_name_records, find?_contains_names path hnodup]

namespace Catalogs

variable {policy : Policy} {path : String} {c other : Catalogs}

/-- In both catalogs every record is filed under its own name, and no name is taken twice. -/
structure Indexed (c : Catalogs) : Prop where
  classes : c.classes.Indexed
  enums : c.enums.Indexed

/-- None of the classes and none of the enums is refused. -/
def Accepts (policy : Policy) (c : Catalogs) (classes : List ClassRecord)
    (enums : List EnumRecord) : Prop :=
  c.classes.Accepts policy classes ∧ c.enums.Accepts policy enums

/-- The catalogs with more classes and enums. -/
def fileAll (policy : Policy) (c : Catalogs) (classes : List ClassRecord)
    (enums : List EnumRecord) : Catalogs :=
  ⟨c.classes.fileAll policy classes, c.enums.fileAll policy enums⟩

/-- Catalogs that come about by filing records and by merging, whether or not this succeeds. -/
inductive Reachable : Catalogs → Prop where
  | empty : Reachable {}
  | insertClass (policy : Policy) (path : String) (record : ClassRecord) {c : Catalogs}
      (h : Reachable c) :
      Reachable { c with classes := (c.classes.insert policy path record).1 }
  | insertEnum (policy : Policy) (path : String) (record : EnumRecord) {c : Catalogs}
      (h : Reachable c) :
      Reachable { c with enums := (c.enums.insert policy path record).1 }
  | merge (policy : Policy) (path : String) {c other : Catalogs} (h : Reachable c)
      (hother : Reachable other) : Reachable (c.merge policy path other).1

/-- Only under `reject` is a class or an enum ever refused. -/
theorem accepts_of_ne_reject {classes : List ClassRecord} {enums : List EnumRecord}
    (h : policy ≠ .reject) : c.Accepts policy classes enums :=
  ⟨Catalog.accepts_of_ne_reject h, Catalog.accepts_of_ne_reject h⟩

/-- Where something is refused, the policy is `reject`. -/
theorem eq_reject_of_not_accepts {classes : List ClassRecord} {enums : List EnumRecord}
    (h : ¬ c.Accepts policy classes enums) : policy = .reject := by
  by_contra hne
  exact h (accepts_of_ne_reject hne)

theorem Indexed.empty : Indexed {} := ⟨Catalog.Indexed.empty, Catalog.Indexed.empty⟩

/-- However classes and enums are filed, they stay under their own names. -/
theorem Indexed.fileAll (h : c.Indexed) (policy : Policy) (classes : List ClassRecord)
    (enums : List EnumRecord) : (c.fileAll policy classes enums).Indexed :=
  ⟨h.classes.fileAll policy classes, h.enums.fileAll policy enums⟩

/-! ### What a merge does -/

/-- A merge finds nothing to refuse if and only if the records of the other catalogs are accepted.
-/
theorem refusal?_eq_none_iff (path : String) (hother : other.Indexed) :
    c.refusal? path other = none ↔
      c.Accepts .reject other.classes.records other.enums.records := by
  rw [Accepts, ← Catalog.firstRefused?_eq_none_iff path,
    ← Catalog.firstRefused?_eq_none_iff path, refusal?,
    hother.classes.firstShared?_eq path, hother.enums.firstShared?_eq path]
  cases c.classes.firstRefused? .reject path other.classes.records <;> simp

/-- Other catalogs are accepted if and only if they share no name, or shared names are allowed. -/
theorem accepts_iff_of_indexed (hother : other.Indexed) :
    c.Accepts policy other.classes.records other.enums.records ↔
      (policy = .reject → (∀ name ∈ other.classes.names, name ∉ c.classes.names) ∧
        ∀ name ∈ other.enums.names, name ∉ c.enums.names) := by
  rw [Accepts, hother.classes.accepts_records_iff, hother.enums.accepts_records_iff, imp_and]

/-- Records that are accepted are all filed, classes and enums. -/
theorem fill_of_accepts (path : String)
    (h : c.Accepts policy other.classes.records other.enums.records) :
    ∃ tally events, c.fill policy path other =
      (c.fileAll policy other.classes.records other.enums.records, .done tally events) := by
  obtain ⟨classCount, classEvents, hclasses⟩ := Catalog.insertAll_of_accepts path h.1
  obtain ⟨enumCount, enumEvents, henums⟩ := Catalog.insertAll_of_accepts path h.2
  refine ⟨⟨classCount, enumCount⟩, classEvents ++ enumEvents, ?_⟩
  simp only [fill, hclasses, henums, Report.answer_done]
  rfl

/-- Where nothing is refused, a merge files everything. -/
theorem merge_eq_fill (path : String) (hother : other.Indexed)
    (h : c.Accepts policy other.classes.records other.enums.records) :
    c.merge policy path other = c.fill policy path other := by
  have hnone : (if policy = .reject then c.refusal? path other else none) = none := by
    by_cases hpolicy : policy = .reject
    · subst hpolicy
      rw [if_pos rfl, refusal?_eq_none_iff path hother]
      exact h
    · rw [if_neg hpolicy]
  rw [merge, hnone]

/-- Catalogs whose records are accepted are merged. -/
theorem merge_of_accepts (path : String) (hother : other.Indexed)
    (h : c.Accepts policy other.classes.records other.enums.records) :
    ∃ tally events, c.merge policy path other =
      (c.fileAll policy other.classes.records other.enums.records, .done tally events) := by
  rw [merge_eq_fill path hother h]
  exact fill_of_accepts path h

/-- Catalogs whose records are not accepted are not merged, and nothing is changed. -/
theorem merge_of_not_accepts (path : String) (hother : other.Indexed)
    (h : ¬ c.Accepts policy other.classes.records other.enums.records) :
    policy = .reject ∧ ∃ failure, c.refusal? path other = some failure ∧
      c.merge policy path other = (c, .failed failure) := by
  obtain rfl := eq_reject_of_not_accepts h
  rw [← refusal?_eq_none_iff path hother, ← ne_eq, Option.ne_none_iff_exists'] at h
  obtain ⟨failure, hfailure⟩ := h
  exact ⟨rfl, failure, hfailure, by rw [merge, if_pos rfl, hfailure]⟩

/-- A merge fails if and only if a record is refused. -/
theorem merge_answer_eq_error_iff (hother : other.Indexed) :
    (∃ failure, (c.merge policy path other).2.answer = .error failure) ↔
      ¬ c.Accepts policy other.classes.records other.enums.records := by
  by_cases h : c.Accepts policy other.classes.records other.enums.records
  · obtain ⟨tally, events, hmerge⟩ := merge_of_accepts path hother h
    simp [hmerge, h]
  · obtain ⟨-, failure, -, hmerge⟩ := merge_of_not_accepts path hother h
    simp [hmerge, h]

/-- A refusal names the first class that is taken, and an enum only if no class is. -/
theorem refusal?_eq_some {failure : Failure} (h : c.refusal? path other = some failure) :
    (∃ name, c.classes.FirstShared other.classes name ∧
        failure = .duplicate name .classKind path) ∨
      (∀ name ∈ other.classes.names, name ∉ c.classes.names) ∧
        ∃ name, c.enums.FirstShared other.enums name ∧
          failure = .duplicate name .enumKind path := by
  rw [refusal?] at h
  cases hclass : c.classes.firstShared? other.classes with
  | some name =>
    rw [hclass] at h
    exact .inl ⟨name, Catalog.firstShared?_eq_some_iff.1 hclass, (Option.some.inj h).symm⟩
  | none =>
    rw [hclass] at h
    obtain ⟨name, hname, rfl⟩ := Option.map_eq_some_iff.1 h
    exact .inr ⟨Catalog.firstShared?_eq_none_iff.1 hclass, name,
      Catalog.firstShared?_eq_some_iff.1 hname, rfl⟩

/-! ### Reachable catalogs -/

/-- Filing other catalogs keeps the records under their own names. -/
theorem Indexed.fill (h : c.Indexed) (policy : Policy) (path : String) (other : Catalogs) :
    (c.fill policy path other).1.Indexed := by
  have hclasses := h.classes.insertAll policy path other.classes.records
  rw [Catalogs.fill]
  -- whether or not all classes were filed, those that were are in order
  generalize c.classes.insertAll policy path other.classes.records = filed at hclasses ⊢
  obtain ⟨classes, report⟩ := filed
  dsimp only
  cases report.answer with
  | error => exact ⟨hclasses, h.enums⟩
  | ok => exact ⟨hclasses, h.enums.insertAll policy path other.enums.records⟩

/-- A merge keeps the records under their own names, whether or not it succeeds. -/
theorem Indexed.merge (h : c.Indexed) (policy : Policy) (path : String) (other : Catalogs) :
    (c.merge policy path other).1.Indexed := by
  rw [Catalogs.merge]
  split
  · exact h
  · exact h.fill policy path other

/-- Whatever was filed and merged, all records are under their own names. -/
theorem Reachable.indexed (h : c.Reachable) : c.Indexed := by
  induction h with
  | empty => exact .empty
  | insertClass policy path record _ ih =>
    exact ⟨by rw [Catalog.insert_fst]; exact ih.classes.file policy record, ih.enums⟩
  | insertEnum policy path record _ ih =>
    exact ⟨ih.classes, by rw [Catalog.insert_fst]; exact ih.enums.file policy record⟩
  | merge policy path _ _ ih _ => exact ih.merge policy path _

/-- A merge fails if and only if the policy refuses second records and a class or an enum is
already there. It then changes nothing, and its failure names the first class that is taken or, if
no class is, the first such enum. For either sort the name that is looked for beforehand is that of
the record at which filing would end, so that nothing is refused once it was looked for. -/
theorem merge_all_or_nothing (policy : Policy) (path : String) (c : Catalogs)
    (hother : other.Reachable) :
    ((∃ failure, (c.merge policy path other).2.answer = .error failure) ↔
        policy = .reject ∧ ((∃ name ∈ other.classes.names, name ∈ c.classes.names) ∨
          ∃ name ∈ other.enums.names, name ∈ c.enums.names)) ∧
      (∀ failure, (c.merge policy path other).2.answer = .error failure →
        (c.merge policy path other).1 = c ∧
          ((∃ name, c.classes.FirstShared other.classes name ∧
              failure = .duplicate name .classKind path) ∨
            (∀ name ∈ other.classes.names, name ∉ c.classes.names) ∧
              ∃ name, c.enums.FirstShared other.enums name ∧
                failure = .duplicate name .enumKind path)) ∧
      c.classes.firstShared? other.classes =
        (c.classes.firstRefused? .reject path other.classes.records).map ClassRecord.name ∧
      c.enums.firstShared? other.enums =
        (c.enums.firstRefused? .reject path other.enums.records).map EnumRecord.name ∧
      ((policy = .reject → c.refusal? path other = none) →
        ∃ tally, (c.fill policy path other).2.answer = .ok tally) := by
  have hindexed := hother.indexed
  refine ⟨?_, ?_, hindexed.classes.firstShared?_eq path _, hindexed.enums.firstShared?_eq path _,
    ?_⟩
  · rw [merge_answer_eq_error_iff hindexed, accepts_iff_of_indexed hindexed]
    simp only [Classical.not_imp, not_and_or, not_forall, not_not]
  · intro failure hfailure
    obtain ⟨-, refusal, hrefusal, hmerge⟩ := merge_of_not_accepts path hindexed
      ((merge_answer_eq_error_iff hindexed).1 ⟨failure, hfailure⟩)
    rw [hmerge] at hfailure ⊢
    cases hfailure
    exact ⟨rfl, refusal?_eq_some hrefusal⟩
  · intro hchecked
    -- only a policy that refuses records needs the check
    have haccepts : c.Accepts policy other.classes.records other.enums.records := by
      by_cases hpolicy : policy = .reject
      · rw [hpolicy, ← refusal?_eq_none_iff path hindexed]
        exact hchecked hpolicy
      · exact accepts_of_ne_reject hpolicy
    obtain ⟨tally, events, hfill⟩ := fill_of_accepts path haccepts
    exact ⟨tally, by rw [hfill]; rfl⟩

/-- An enum that is already there keeps out the class that was to be filed before it. -/
theorem merge_all_or_nothing_mode :
    Reachable ⟨⟨[("Fresh", { name := "Fresh" })]⟩, ⟨[("Mode", { name := "Mode" })]⟩⟩ ∧
      merge .reject "B.cs" ⟨⟨[]⟩, ⟨[("Mode", { name := "Mode", constants := ["On"] })]⟩⟩
          ⟨⟨[("Fresh", { name := "Fresh" })]⟩, ⟨[("Mode", { name := "Mode" })]⟩⟩ =
        (⟨⟨[]⟩, ⟨[("Mode", { name := "Mode", constants := ["On"] })]⟩⟩,
          .failed (.duplicate "Mode" .enumKind "B.cs")) := by
  have hreachable :
      Reachable ⟨⟨[("Fresh", { name := "Fresh" })]⟩, ⟨[("Mode", { name := "Mode" })]⟩⟩ :=
    .insertEnum .reject "B.cs" { name := "Mode" }
      (.insertClass .reject "B.cs" { name := "Fresh" } .empty)
  obtain ⟨-, hfailed, -⟩ := merge_all_or_nothing .reject "B.cs"
    ⟨⟨[]⟩, ⟨[("Mode", { name := "Mode", constants := ["On"] })]⟩⟩ hreachable
  have hkept := (hfailed (.duplicate "Mode" .enumKind "B.cs") rfl).1
  exact ⟨hreachable, Prod.ext hkept rfl⟩

end Catalogs

end TypeCatalog
