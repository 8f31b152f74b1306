import TypeCatalog.Proofs.Catalog.Collecting
import TypeCatalog.Proofs.Catalog.Contents

/-!
# Occurrences of names

A stream of declarations is collected by a loop that may end early. What it comes to can be told
from where the names occur in the stream: the collection fails at the earliest declaration that
repeats a name of its sort, if this is refused; otherwise every name has the place of its first
occurrence and the record of its first or last one. Nothing else in the stream matters.

## Main definitions

- `Declaration.FirstRepeated` — the earliest name in a stream that is repeated
- `ClassDeclaration.KeptAs`, `EnumDeclaration.KeptAs` — what a record keeps of a declaration
- `Catalog.Holds` — what a catalog holds of records that came one after the other

## Main statements

- `Catalogs.firstRepeated_of_error` — where collecting ends
- `Catalogs.ofDeclarations_holds` — what collecting comes to
-/

namespace TypeCatalog

namespace Declaration

/-- Whether a declaration is recorded and not passed over. -/
def isRecorded : Declaration → Bool
  | other .. => false
  | _ => true

/-- The class that is declared. -/
def class? : Declaration → Option ClassDeclaration
  | ofClass declaration => some declaration
  | _ => none

/-- The enum that is declared. -/
def enum? : Declaration → Option EnumDeclaration
  | ofEnum declaration => some declaration
  | _ => none

/-- The name is that of the earliest declaration in the stream that repeats an earlier one of its
sort. -/
def FirstRepeated (kind : TypeKind) (name : String) (declarations : List Declaration) : Prop :=
  ∃ before declaration rest, declarations = before ++ declaration :: rest ∧
    declaration.nameOf? kind = some name ∧ name ∈ namesOf kind before ∧
    ∀ sort, (namesOf sort before).Nodup

end Declaration

/-- A record keeps all of a class as it is but the methods, and of each of these the signature. -/
structure ClassDeclaration.KeptAs (declaration : ClassDeclaration) (record : ClassRecord) :
    Prop where
  name : record.name = declaration.name
  parents : record.parents = declaration.parents
  fields : record.fields = declaration.fields
  properties : record.properties = declaration.properties
  events : record.events = declaration.events
  methods : List.Forall₂ (fun method signature => signature = Method.signature method)
    declaration.methods record.methods

/-- A record keeps all of an enum. -/
structure EnumDeclaration.KeptAs (declaration : EnumDeclaration) (record : EnumRecord) : Prop where
  name : record.name = declaration.name
  constants : record.constants = declaration.constants

/-- What a catalog holds of records that came one after the other: their names in the order in which
each first came, and under a name the last record or, unless later ones replace earlier ones, the
first. -/
structure Catalog.Holds {α : Type} [Record α] (policy : Policy) (c : Catalog α)
    (records : List α) : Prop where
  indexed : c.Indexed
  names : c.names = (records.map Record.name).eraseDups
  last : policy = .overwrite → ∀ name, c.get? name = records.findRev? (Record.name · == name)
  first : policy ≠ .overwrite → ∀ name, c.get? name = records.find? (Record.name · == name)

/-- What a catalog holds of the records that were filed in it. -/
theorem Catalog.holds_fileAll {α : Type} [Record α] (policy : Policy) (records : List α) :
    ((empty : Catalog α).fileAll policy records).Holds policy records where
  indexed := Indexed.empty.fileAll policy records
  names := by rw [names_fileAll, fresh_empty, names_empty, List.nil_append]
  last hpolicy name := by
    rw [hpolicy, get?_fileAll_overwrite]
    exact Option.or_none
  first hpolicy name := by
    rw [get?_fileAll_of_ne hpolicy]
    exact Option.none_or

/-! ### What is kept -/

/-- Elements are related to their images one by one if each of them is. -/
theorem forall₂_map_self {α β : Type} {related : α → β → Prop} {f : α → β}
    (h : ∀ x, related x (f x)) (xs : List α) : List.Forall₂ related xs (xs.map f) :=
  List.forall₂_map_right_iff.2 (List.forall₂_same.2 fun x _ => h x)

/-- The record of a class keeps the class. -/
theorem ClassDeclaration.keptAs_record (declaration : ClassDeclaration) :
    declaration.KeptAs declaration.record := by
  refine ⟨rfl, rfl, rfl, rfl, rfl, forall₂_map_self (fun method => ?_) declaration.methods⟩
  rfl

/-- The record of an enum keeps the enum. -/
theorem EnumDeclaration.keptAs_record (declaration : EnumDeclaration) :
    declaration.KeptAs declaration.record := ⟨rfl, rfl⟩

namespace Declaration

/-- What is kept of the classes are the records of what is declared, one for one. -/
theorem classRecords_eq_map (declarations : List Declaration) :
    classRecords declarations = (declarations.filterMap class?).map ClassDeclaration.record := by
  rw [classRecords, List.map_filterMap]
  exact List.filterMap_congr fun declaration _ => by cases declaration <;> rfl

/-- What is kept of the enums are the records of what is declared, one for one. -/
theorem enumRecords_eq_map (declarations : List Declaration) :
    enumRecords declarations = (declarations.filterMap enum?).map EnumDeclaration.record := by
  rw [enumRecords, List.map_filterMap]
  exact List.filterMap_congr fun declaration _ => by cases declaration <;> rfl

/-- A declaration is of one sort only. -/
theorem isOf_unique {kind other : TypeKind} {declaration : Declaration}
    (h : declaration.isOf kind = true) (hother : declaration.isOf other = true) : kind = other := by
  cases declaration with
  | other => cases h
  | _ => exact (beq_iff_eq.1 h).trans (beq_iff_eq.1 hother).symm

/-- What is read off the declarations of one sort is found if it is of that sort, and nothing else
is. -/
theorem filterMap_filter_isOf {α : Type} {read : Declaration → Option α} {own : TypeKind}
    (h : ∀ declaration, declaration.isOf own = false → read declaration = none) (kind : TypeKind)
    (declarations : List Declaration) :
    (declarations.filter (isOf kind)).filterMap read =
      if kind = own then declarations.filterMap read else [] := by
  rw [List.filterMap_filter]
  split
  case isTrue hkind =>
    subst hkind
    refine List.filterMap_congr fun declaration _ => ?_
    by_cases hown : declaration.isOf kind = true
    · rw [if_pos hown]
    · rw [if_neg hown, h declaration (Bool.eq_false_iff.2 hown)]
  case isFalse hkind =>
    refine List.filterMap_eq_nil_iff.2 fun declaration _ => ?_
    by_cases hother : declaration.isOf kind = true
    · have hown : declaration.isOf own = false :=
        Bool.eq_false_iff.2 fun hown => hkind (isOf_unique hother hown)
      rw [if_pos hother, h declaration hown]
    · rw [if_neg hother]

/-- The declarations of enums have no part in the classes. -/
theorem classRecords_filter_isOf (kind : TypeKind) (declarations : List Declaration) :
    classRecords (declarations.filter (isOf kind)) =
      if kind = .classKind then classRecords declarations else [] := by
  refine filterMap_filter_isOf (fun declaration h => ?_) kind declarations
  cases declaration with
  | ofClass => cases h
  | _ => rfl

/-- The declarations of classes have no part in the enums. -/
theorem enumRecords_filter_isOf (kind : TypeKind) (declarations : List Declaration) :
    enumRecords (declarations.filter (isOf kind)) =
      if kind = .enumKind then enumRecords declarations else [] := by
  refine filterMap_filter_isOf (fun declaration h => ?_) kind declarations
  cases declaration with
  | ofEnum => cases h
  | _ => rfl

end Declaration

namespace Catalogs

open Declaration

variable {policy : Policy} {path : String} {c : Catalogs} {declaration : Declaration}
  {declarations : List Declaration} {failure : Failure} {kind : TypeKind} {name : String}

/-! ### Where collecting ends -/

/-- The names of one sort. -/
def names (c : Catalogs) : TypeKind → List String
  | .classKind => c.classes.names
  | .enumKind => c.enums.names

/-- What is gathered has the names of a sort in the order in which they first come. -/
theorem names_gather (policy : Policy) (kind : TypeKind) (declarations : List Declaration) :
    (gather policy {} declarations).names kind = (namesOf kind declarations).eraseDups := by
  cases kind with
  | classKind =>
    rw [← map_name_classRecords, ← Catalog.fresh_empty]
    exact (Catalog.names_fileAll ..).trans (List.nil_append _)
  | enumKind =>
    rw [← map_name_enumRecords, ← Catalog.fresh_empty]
    exact (Catalog.names_fileAll ..).trans (List.nil_append _)

/-- What is gathered has just the names that the stream declares. -/
theorem mem_names_gather : name ∈ (gather policy {} declarations).names kind ↔
    name ∈ namesOf kind declarations := by
  rw [names_gather, List.mem_eraseDups]

/-- A declaration fails to be recorded only because its name is there already. -/
theorem of_record_error (h : (c.record policy path declaration).answer = .error failure) :
    policy = .reject ∧ ∃ kind name, declaration.nameOf? kind = some name ∧ name ∈ c.names kind ∧
      failure = .duplicate name kind path := by
  cases declaration with
  | ofClass declaration =>
    have hinsert := Report.answer_map_eq_error_iff.1 h
    obtain ⟨⟨hpolicy, hmem⟩, hfailure⟩ := Catalog.refuses_of_insert_error hinsert
    exact ⟨hpolicy, .classKind, _, rfl, hmem, hfailure⟩
  | ofEnum declaration =>
    have hinsert := Report.answer_map_eq_error_iff.1 h
    obtain ⟨⟨hpolicy, hmem⟩, hfailure⟩ := Catalog.refuses_of_insert_error hinsert
    exact ⟨hpolicy, .enumKind, _, rfl, hmem, hfailure⟩
  | other => cases h

/-- Where recording a stream fails, there is a declaration that fails behind others that were
recorded. -/
theorem of_recordAll_error
    (h : (c.recordAll policy path declarations).answer = .error failure) :
    ∃ before declaration rest, declarations = before ++ declaration :: rest ∧
      c.Admits policy before ∧
      ((c.gather policy before).record policy path declaration).answer = .error failure := by
  -- induction on the stream, for the catalogs with what was recorded of it so far
  induction declarations generalizing c with
  | nil => cases h
  | cons declaration rest ih =>
    rw [recordAll] at h
    by_cases hfirst : c.Admits policy [declaration]
    · rw [Report.andThen_of_ok (record_of_admits path hfirst), Report.answer_after] at h
      obtain ⟨before, refused, after, rfl, hbefore, hrefused⟩ := ih h
      refine ⟨declaration :: before, refused, after, rfl, admits_cons.2 ⟨hfirst, hbefore⟩, ?_⟩
      rw [← List.singleton_append, gather_append]
      exact hrefused
    · obtain ⟨-, repeated, sort, hfailed⟩ := record_of_not_admits path hfirst
      rw [Report.andThen_of_error hfailed] at h
      cases h
      exact ⟨[], declaration, rest, rfl, admits_nil, hfailed⟩

/-- Collecting a stream answers as recording it from nothing does. -/
theorem answer_ofDeclarations (policy : Policy) (path : String) (declarations : List Declaration) :
    (ofDeclarations policy path declarations).answer =
      (recordAll policy path {} declarations).answer := by
  rw [ofDeclarations, Report.andThen]
  cases (recordAll policy path {} declarations).answer <;> rfl

/-- Collecting ends at the earliest declaration that repeats a name of its sort. -/
theorem firstRepeated_of_error
    (h : (ofDeclarations policy path declarations).answer = .error failure) :
    policy = .reject ∧ ∃ kind name, FirstRepeated kind name declarations ∧
      failure = .duplicate name kind path := by
  rw [answer_ofDeclarations] at h
  obtain ⟨before, declaration, rest, rfl, hbefore, hrefused⟩ := of_recordAll_error h
  obtain ⟨rfl, kind, name, hname, hmem, rfl⟩ := of_record_error hrefused
  obtain ⟨hclasses, henums⟩ := admits_empty_reject_iff.1 hbefore
  have hearlier := mem_names_gather.1 hmem
  refine ⟨rfl, kind, name, ⟨before, declaration, rest, rfl, hname, hearlier, ?_⟩, rfl⟩
  rintro (_ | _)
  · exact hclasses
  · exact henums

/-! ### What collecting comes to -/

/-- What is passed over has no effect, whether or not the collection succeeds. -/
theorem recordAll_filter_isRecorded (policy : Policy) (path : String) (c : Catalogs)
    (declarations : List Declaration) :
    (c.recordAll policy path (declarations.filter isRecorded)).answer =
      (c.recordAll policy path declarations).answer := by
  induction declarations generalizing c with
  | nil => rfl
  | cons declaration rest ih =>
    -- whatever became of the first declaration, the rest of the stream may be filtered
    have hstep (recorded : Report Catalogs) :
        (recorded.andThen fun next => next.recordAll policy path (rest.filter isRecorded)).answer =
          (recorded.andThen fun next => next.recordAll policy path rest).answer := by
      cases hanswer : recorded.answer with
      | error failure => rw [Report.andThen_of_error hanswer, Report.andThen_of_error hanswer]
      | ok next =>
        rw [Report.andThen_of_ok hanswer, Report.andThen_of_ok hanswer]
        exact ih next
    cases declaration with
    | other kind name => exact ih c
    | _ => exact hstep _

/-- Classes and enums are collected as if each were alone. -/
theorem ofDeclarations_eq_ok_iff_isOf :
    (ofDeclarations policy path declarations).answer = .ok c ↔
      (ofDeclarations policy path (declarations.filter (isOf .classKind))).answer =
          .ok { c with enums := {} } ∧
        (ofDeclarations policy path (declarations.filter (isOf .enumKind))).answer =
          .ok { c with classes := {} } := by
  obtain ⟨classes, enums⟩ := c
  simp only [ofDeclarations_answer_eq_ok_iff, Admits, Accepts, gather, fileAll,
    classRecords_filter_isOf, enumRecords_filter_isOf, Catalogs.mk.injEq, reduceCtorEq, if_true,
    if_false, Catalog.accepts_nil, Catalog.fileAll, List.foldl_nil, and_true, true_and]
  exact and_and_and_comm

/-- Collecting fails if and only if second declarations are refused and two classes share a name,
or two enums do; it then names the earliest declaration that repeats a name of its sort. Otherwise
the classes and the enums are listed in the order in which their names first came, each with what is
kept of its first or its last declaration. What is passed over has no effect, and neither do classes
on enums or enums on classes. -/
theorem ofDeclarations_holds (policy : Policy) (path : String) (declarations : List Declaration) :
    ((∃ failure, (ofDeclarations policy path declarations).answer = .error failure) ↔
        policy = .reject ∧ (¬ (namesOf .classKind declarations).Nodup ∨
          ¬ (namesOf .enumKind declarations).Nodup)) ∧
      (∀ failure, (ofDeclarations policy path declarations).answer = .error failure →
        ∃ kind name, FirstRepeated kind name declarations ∧
          failure = .duplicate name kind path) ∧
      (∀ c, (ofDeclarations policy path declarations).answer = .ok c →
        ∃ classes enums,
          List.Forall₂ ClassDeclaration.KeptAs (declarations.filterMap class?) classes ∧
          List.Forall₂ EnumDeclaration.KeptAs (declarations.filterMap enum?) enums ∧
          c.classes.Holds policy classes ∧ c.enums.Holds policy enums) ∧
      (ofDeclarations policy path (declarations.filter isRecorded)).answer =
        (ofDeclarations policy path declarations).answer ∧
      ∀ c, (ofDeclarations policy path declarations).answer = .ok c ↔
        (ofDeclarations policy path (declarations.filter (isOf .classKind))).answer =
            .ok { c with enums := {} } ∧
          (ofDeclarations policy path (declarations.filter (isOf .enumKind))).answer =
            .ok { c with classes := {} } := by
  refine ⟨⟨?_, ?_⟩, fun failure hfailure => (firstRepeated_of_error hfailure).2, fun c hc => ?_, ?_,
    fun c => ofDeclarations_eq_ok_iff_isOf⟩
  · rintro ⟨failure, hfailure⟩
    obtain ⟨rfl, -⟩ := firstRepeated_of_error hfailure
    refine ⟨rfl, not_and_or.1 fun hnodup => ?_⟩
    rw [ofDeclarations_of_admits path (admits_empty_reject_iff.2 hnodup)] at hfailure
    cases hfailure
  · rintro ⟨rfl, hrepeated⟩
    have hrefused : ¬ ({} : Catalogs).Admits .reject declarations := fun hadmits =>
      not_and_or.2 hrepeated (admits_empty_reject_iff.1 hadmits)
    obtain ⟨-, name, kind, hfailed⟩ := ofDeclarations_of_not_admits path hrefused
    exact ⟨_, hfailed⟩
  · obtain ⟨-, rfl⟩ := ofDeclarations_answer_eq_ok_iff.1 hc
    refine ⟨classRecords declarations, enumRecords declarations, ?_, ?_,
      Catalog.holds_fileAll policy _, Catalog.holds_fileAll policy _⟩
    · rw [classRecords_eq_map]
      exact forall₂_map_self ClassDeclaration.keptAs_record _
    · rw [enumRecords_eq_map]
      exact forall₂_map_self EnumDeclaration.keptAs_record _
  · rw [answer_ofDeclarations, answer_ofDeclarations, recordAll_filter_isRecorded]

/-- The second enum comes before the second class, so it is the one that is refused; where nothing
is refused, a class keeps its place whichever of its records is kept. -/
theorem ofDeclarations_holds_repeated :
    let stream : List Declaration :=
      [.ofClass { name := "A" }, .ofEnum { name := "A", constants := ["X"] },
        .ofClass { name := "B" }, .other .structKind (some "A"), .ofEnum { name := "A" },
        .ofClass { name := "A", parents := ["Base"] }]
    (ofDeclarations .reject "a.cs" stream).answer = .error (.duplicate "A" .enumKind "a.cs") ∧
      FirstRepeated .enumKind "A" stream ∧
      ∃ replaced kept, (ofDeclarations .overwrite "a.cs" stream).answer = .ok replaced ∧
        replaced.classes.names = ["A", "B"] ∧
        replaced.classes.get? "A" = some { name := "A", parents := ["Base"] } ∧
        (ofDeclarations .keepFirst "a.cs" stream).answer = .ok kept ∧
        kept.classes.names = ["A", "B"] ∧ kept.classes.get? "A" = some { name := "A" } := by
  intro stream
  have hfailed : (ofDeclarations .reject "a.cs" stream).answer =
      .error (.duplicate "A" .enumKind "a.cs") := by rfl
  obtain ⟨-, hrepeated, -⟩ := ofDeclarations_holds .reject "a.cs" stream
  obtain ⟨kind, name, hfirst, heq⟩ := hrepeated _ hfailed
  cases heq
  exact ⟨hfailed, hfirst, _, _, rfl, rfl, rfl, rfl, rfl, rfl⟩

end Catalogs

end TypeCatalog
