import TypeCatalog.Collection
import TypeCatalog.Proofs.Catalog.Merging

/-!
# Collecting declarations

What becomes of catalogs when declarations are recorded in order. Classes and enums do not get in
each other's way: what is recorded of a stream is what filing its classes and filing its enums
comes to. Hence a stream may be collected by itself before it is merged.

## Main definitions

- `Declaration.classRecords`, `Declaration.enumRecords` — the records of a stream of declarations
- `Declaration.namesOf` — the names that a stream declares
- `Catalogs.Admits` — that nothing in a stream is refused
- `Catalogs.gather` — the catalogs with what a stream declares

## Main statements

- `Catalogs.ofDeclarations_of_admits`, `Catalogs.ofDeclarations_of_not_admits` — collecting
- `Catalogs.merge_ofDeclarations_iff` — merging what was collected of a stream
-/

namespace TypeCatalog

namespace Declaration

/-- What is kept of a class. -/
def classRecord? : Declaration → Option ClassRecord
  | ofClass declaration => some declaration.record
  | _ => none

/-- What is kept of an enum. -/
def enumRecord? : Declaration → Option EnumRecord
  | ofEnum declaration => some declaration.record
  | _ => none

/-- What is kept of the classes of a stream, in order. -/
def classRecords (declarations : List Declaration) : List ClassRecord :=
  declarations.filterMap classRecord?

/-- What is kept of the enums of a stream, in order. -/
def enumRecords (declarations : List Declaration) : List EnumRecord :=
  declarations.filterMap enumRecord?

/-- Whether a declaration is of the sort. -/
def isOf (kind : TypeKind) : Declaration → Bool
  | ofClass _ => kind == .classKind
  | ofEnum _ => kind == .enumKind
  | other .. => false

/-- The name of a declaration of a recorded sort. -/
def nameOf? (kind : TypeKind) : Declaration → Option String
  | ofClass declaration => if kind = .classKind then some declaration.name else none
  | ofEnum declaration => if kind = .enumKind then some declaration.name else none
  | other .. => none

/-- The names that a stream declares of a recorded sort, in order. -/
def namesOf (kind : TypeKind) (declarations : List Declaration) : List String :=
  declarations.filterMap (nameOf? kind)

/-- What is kept of the classes of a stream has the names that it declares. -/
theorem map_name_classRecords (declarations : List Declaration) :
    (classRecords declarations).map Record.name = namesOf .classKind declarations := by
  rw [classRecords, List.map_filterMap]
  exact List.filterMap_congr fun declaration _ => by cases declaration <;> rfl

/-- What is kept of the enums of a stream has the names that it declares. -/
theorem map_name_enumRecords (declarations : List Declaration) :
    (enumRecords declarations).map Record.name = namesOf .enumKind declarations := by
  rw [enumRecords, List.map_filterMap]
  exact List.filterMap_congr fun declaration _ => by cases declaration <;> rfl

end Declaration

open Declaration (classRecords enumRecords)

namespace Catalogs

variable {policy : Policy} {path : String} {c d : Catalogs} {declaration : Declaration}
  {declarations xs ys : List Declaration}

/-- Nothing that is declared in the stream is refused. -/
def Admits (policy : Policy) (c : Catalogs) (declarations : List Declaration) : Prop :=
  c.Accepts policy (classRecords declarations) (enumRecords declarations)

/-- The catalogs with what is declared in the stream. -/
def gather (policy : Policy) (c : Catalogs) (declarations : List Declaration) : Catalogs :=
  c.fileAll policy (classRecords declarations) (enumRecords declarations)

theorem admits_nil : c.Admits policy [] := ⟨Catalog.accepts_nil, Catalog.accepts_nil⟩

/-- Two streams are admitted if the first one is, and then the second one. -/
theorem admits_append :
    c.Admits policy (xs ++ ys) ↔ c.Admits policy xs ∧ (c.gather policy xs).Admits policy ys := by
  simp only [Admits, Accepts, gather, fileAll, classRecords, enumRecords, List.filterMap_append,
    Catalog.accepts_append]
  exact and_and_and_comm

/-- Two streams may be gathered one after the other. -/
theorem gather_append (policy : Policy) (c : Catalogs) (xs ys : List Declaration) :
    c.gather policy (xs ++ ys) = (c.gather policy xs).gather policy ys := by
  simp only [gather, fileAll, classRecords, enumRecords, List.filterMap_append,
    Catalog.fileAll_append]

/-- A stream is admitted if its first declaration is, and then the others. -/
theorem admits_cons : c.Admits policy (declaration :: declarations) ↔
    c.Admits policy [declaration] ∧ (c.gather policy [declaration]).Admits policy declarations := by
  rw [← List.singleton_append, admits_append]

/-- What is gathered from nothing is filed under its own names. -/
theorem indexed_gather (policy : Policy) (declarations : List Declaration) :
    (gather policy {} declarations).Indexed :=
  Indexed.empty.fileAll ..

/-- Where names may not come again, a stream is admitted if no name comes twice among its classes,
nor among its enums. -/
theorem admits_empty_reject_iff : ({} : Catalogs).Admits .reject declarations ↔
    (Declaration.namesOf .classKind declarations).Nodup ∧
      (Declaration.namesOf .enumKind declarations).Nodup := by
  rw [← Declaration.map_name_classRecords, ← Declaration.map_name_enumRecords]
  constructor
  · rintro ⟨hclasses, henums⟩
    exact ⟨(hclasses rfl).1, (henums rfl).1⟩
  · rintro ⟨hclasses, henums⟩
    exact ⟨fun _ => ⟨hclasses, fun _ _ hmem => nomatch hmem⟩,
      fun _ => ⟨henums, fun _ _ hmem => nomatch hmem⟩⟩

/-! ### Recording -/

/-- A declaration that is admitted is recorded. -/
theorem record_of_admits (path : String) (h : c.Admits policy [declaration]) :
    (c.record policy path declaration).answer = .ok (c.gather policy [declaration]) := by
  cases declaration with
  | ofClass declaration =>
    obtain ⟨insertion, events, hinsert⟩ :=
      Catalog.insert_of_not_refuses path (Catalog.accepts_cons.1 h.1).1
    simp only [record, hinsert]
    rfl
  | ofEnum declaration =>
    obtain ⟨insertion, events, hinsert⟩ :=
      Catalog.insert_of_not_refuses path (Catalog.accepts_cons.1 h.2).1
    simp only [record, hinsert]
    rfl
  | other => rfl

/-- A declaration that is not admitted is refused as a duplicate. -/
theorem record_of_not_admits (path : String) (h : ¬ c.Admits policy [declaration]) :
    policy = .reject ∧ ∃ name kind,
      (c.record policy path declaration).answer = .error (.duplicate name kind path) := by
  refine ⟨eq_reject_of_not_accepts h, ?_⟩
  cases declaration with
  | ofClass declaration =>
    have hrefuses : c.classes.Refuses policy declaration.record := by
      by_contra hnot
      exact h ⟨Catalog.accepts_cons.2 ⟨hnot, Catalog.accepts_nil⟩, Catalog.accepts_nil⟩
    simp only [record, Catalog.insert_of_refuses path hrefuses]
    exact ⟨_, _, rfl⟩
  | ofEnum declaration =>
    have hrefuses : c.enums.Refuses policy declaration.record := by
      by_contra hnot
      exact h ⟨Catalog.accepts_nil, Catalog.accepts_cons.2 ⟨hnot, Catalog.accepts_nil⟩⟩
    simp only [record, Catalog.insert_of_refuses path hrefuses]
    exact ⟨_, _, rfl⟩
  | other => exact absurd ⟨Catalog.accepts_nil, Catalog.accepts_nil⟩ h

/-- A stream that is admitted is recorded as a whole. -/
theorem recordAll_of_admits (path : String) (h : c.Admits policy declarations) :
    (c.recordAll policy path declarations).answer = .ok (c.gather policy declarations) := by
  induction declarations generalizing c with
  | nil => rfl
  | cons declaration rest ih =>
    obtain ⟨hfirst, hrest⟩ := admits_cons.1 h
    rw [recordAll, Report.andThen_of_ok (record_of_admits path hfirst), Report.answer_after,
      ih hrest, ← gather_append]
    rfl

/-- A stream that is not admitted ends at a duplicate. -/
theorem recordAll_of_not_admits (path : String) (h : ¬ c.Admits policy declarations) :
    policy = .reject ∧ ∃ name kind,
      (c.recordAll policy path declarations).answer = .error (.duplicate name kind path) := by
  induction declarations generalizing c with
  | nil => exact absurd admits_nil h
  | cons declaration rest ih =>
    rw [recordAll]
    by_cases hfirst : c.Admits policy [declaration]
    · rw [Report.andThen_of_ok (record_of_admits path hfirst), Report.answer_after]
      exact ih fun hrest => h (admits_cons.2 ⟨hfirst, hrest⟩)
    · obtain ⟨hpolicy, name, kind, hfailed⟩ := record_of_not_admits path hfirst
      rw [Report.andThen_of_error hfailed]
      exact ⟨hpolicy, name, kind, rfl⟩

/-- A stream that is admitted is collected. -/
theorem ofDeclarations_of_admits (path : String)
    (h : ({} : Catalogs).Admits policy declarations) :
    (ofDeclarations policy path declarations).answer = .ok (gather policy {} declarations) := by
  rw [ofDeclarations, Report.andThen_of_ok (recordAll_of_admits path h)]
  rfl

/-- A stream that is not admitted is not collected, because of a duplicate. -/
theorem ofDeclarations_of_not_admits (path : String)
    (h : ¬ ({} : Catalogs).Admits policy declarations) :
    policy = .reject ∧ ∃ name kind,
      (ofDeclarations policy path declarations).answer = .error (.duplicate name kind path) := by
  obtain ⟨hpolicy, name, kind, hfailed⟩ := recordAll_of_not_admits path h
  rw [ofDeclarations, Report.andThen_of_error hfailed]
  exact ⟨hpolicy, name, kind, rfl⟩

/-- A stream is collected if and only if it is admitted, and then to what is gathered from it. -/
theorem ofDeclarations_answer_eq_ok_iff :
    (ofDeclarations policy path declarations).answer = .ok d ↔
      ({} : Catalogs).Admits policy declarations ∧ d = gather policy {} declarations := by
  by_cases h : ({} : Catalogs).Admits policy declarations
  · rw [ofDeclarations_of_admits path h, Except.ok.injEq, and_iff_right h, eq_comm]
  · obtain ⟨-, name, kind, hfailed⟩ := ofDeclarations_of_not_admits path h
    simp [hfailed, h]

/-- Collecting fails in no other way than that a name is refused. -/
theorem of_ofDeclarations_error {failure : Failure}
    (h : (ofDeclarations policy path declarations).answer = .error failure) :
    policy = .reject ∧ ∃ name kind, failure = .duplicate name kind path := by
  by_cases hadmits : ({} : Catalogs).Admits policy declarations
  · rw [ofDeclarations_of_admits path hadmits] at h
    cases h
  · obtain ⟨hpolicy, name, kind, hfailed⟩ := ofDeclarations_of_not_admits path hadmits
    rw [hfailed] at h
    cases h
    exact ⟨hpolicy, name, kind, rfl⟩

/-- Whatever is collected of a stream has its records under their own names. -/
theorem indexed_of_ofDeclarations (h : (ofDeclarations policy path declarations).answer = .ok d) :
    d.Indexed := by
  rw [(ofDeclarations_answer_eq_ok_iff.1 h).2]
  exact indexed_gather ..

/-! ### Merging what was collected -/

/-- Catalogs that have more names refuse more. -/
theorem Admits.of_empty (h : c.Admits policy declarations) :
    ({} : Catalogs).Admits policy declarations :=
  ⟨h.1.of_subset (List.nil_subset _), h.2.of_subset (List.nil_subset _)⟩

/-- Filing what was gathered first comes to gathering the stream itself. -/
theorem gather_records (policy : Policy) (c : Catalogs) (declarations : List Declaration) :
    c.fileAll policy (gather policy {} declarations).classes.records
        (gather policy {} declarations).enums.records =
      c.gather policy declarations :=
  congrArg₂ Catalogs.mk (Catalog.fileAll_records_fileAll c.classes .empty _)
    (Catalog.fileAll_records_fileAll c.enums .empty _)

/-- What was gathered first is accepted if and only if the stream itself is admitted. -/
theorem accepts_records_gather_iff (h : ({} : Catalogs).Admits policy declarations) :
    c.Accepts policy (gather policy {} declarations).classes.records
        (gather policy {} declarations).enums.records ↔
      c.Admits policy declarations :=
  and_congr (Catalog.accepts_records_fileAll_iff h.1) (Catalog.accepts_records_fileAll_iff h.2)

/-- A stream that is collected by itself and then merged comes to the same as if it were recorded
at once. -/
theorem merge_ofDeclarations (path : String) (h : c.Admits policy declarations) :
    ∃ tally events, c.merge policy path (gather policy {} declarations) =
      (c.gather policy declarations, .done tally events) := by
  rw [← gather_records policy c]
  exact merge_of_accepts path (indexed_gather ..) ((accepts_records_gather_iff h.of_empty).2 h)

/-- What is collected of a stream can be merged if and only if nothing in the stream is refused. -/
theorem merge_ofDeclarations_iff {pathMerge : String} :
    (∃ staged tally, (ofDeclarations policy path declarations).answer = .ok staged ∧
        (c.merge policy pathMerge staged).1 = d ∧
        (c.merge policy pathMerge staged).2.answer = .ok tally) ↔
      c.Admits policy declarations ∧ d = c.gather policy declarations := by
  constructor
  · rintro ⟨staged, tally, hstaged, rfl, hanswer⟩
    obtain ⟨hempty, rfl⟩ := ofDeclarations_answer_eq_ok_iff.1 hstaged
    by_cases h : c.Admits policy declarations
    · obtain ⟨merged, events, hmerge⟩ := merge_ofDeclarations pathMerge h
      exact ⟨h, by rw [hmerge]⟩
    · have hrefused : ¬ c.Accepts policy (gather policy {} declarations).classes.records
          (gather policy {} declarations).enums.records :=
        fun haccepts => h ((accepts_records_gather_iff hempty).1 haccepts)
      obtain ⟨-, failure, -, hmerge⟩ :=
        merge_of_not_accepts pathMerge (indexed_gather ..) hrefused
      rw [hmerge] at hanswer
      cases hanswer
  · rintro ⟨h, rfl⟩
    obtain ⟨tally, events, hmerge⟩ := merge_ofDeclarations pathMerge h
    exact ⟨_, tally, ofDeclarations_of_admits path h.of_empty, by rw [hmerge], by rw [hmerge]; rfl⟩

end Catalogs

end TypeCatalog
