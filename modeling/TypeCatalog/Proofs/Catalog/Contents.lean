import TypeCatalog.Proofs.Catalog.Growth

/-!
# The contents of catalogs

What a catalog holds after records were filed, and in which order, told by the records alone. A
name is put after all others when it first comes and stays there when it comes again; which of its
records is found under it is for the policy to say. What a merge comes to, and what it counts,
follows.

## Main definitions

- `Catalog.fresh` — the names of some records that are not in a catalog
- `Catalog.added` — how many of some records are stored
- `Catalog.Union` — that a catalog is what two catalogs come to

## Main statements

- `Catalog.names_fileAll`, `Catalog.get?_fileAll_overwrite`, `Catalog.get?_fileAll_of_ne` — the
  names and the records after filing
- `Catalog.insertAll_answer` — how many records are counted
- `Catalogs.merge_union` — what a merge that succeeds comes to
-/

namespace TypeCatalog

namespace Catalog

/-! ### Records under names -/

section Entries

variable {α : Type} {c : Catalog α} {name other : String} {record : α}

/-- The first entry hides later ones of its name, and no others. -/
theorem lookup_cons_ite (entries : List (String × α)) (name other : String) (record : α) :
    ((name, record) :: entries).lookup other =
      if name = other then some record else entries.lookup other := by
  by_cases h : name = other
  · rw [h, List.lookup_cons_self, if_pos rfl]
  · rw [List.lookup_cons, beq_false_of_ne (Ne.symm h), if_neg h]

/-- There is no record under a name if and only if the name is not in the catalog. -/
theorem get?_eq_none_iff : c.get? name = none ↔ name ∉ c.names := by
  rw [get?, List.lookup_eq_none_iff, names, List.mem_map]
  constructor
  · rintro h ⟨entry, hentry, rfl⟩
    simpa using h entry hentry
  · intro h entry hentry
    exact bne_iff_ne.2 fun heq => h ⟨entry, hentry, heq.symm⟩

/-- There is a record under every name of a catalog. -/
theorem exists_get?_of_mem (h : name ∈ c.names) : ∃ record, c.get? name = some record :=
  Option.ne_none_iff_exists'.1 (mt get?_eq_none_iff.1 (not_not_intro h))

/-- A record put last is found under its name, unless the name was there before. -/
theorem get?_append (c : Catalog α) (name other : String) (record : α) :
    (c.append name record).get? other =
      (c.get? other).or (if name = other then some record else none) := by
  rw [get?, append, List.lookup_append, lookup_cons_ite]
  rfl

/-- A record put in the place of a name is found under it, if the name was there before. -/
theorem get?_replace (c : Catalog α) (name other : String) (record : α) :
    (c.replace name record).get? other =
      if name = other then (c.get? other).map fun _ => record else c.get? other := by
  rw [get?, get?, replace]
  induction c.entries with
  | nil => simp
  | cons entry rest ih =>
    obtain ⟨taken, old⟩ := entry
    by_cases htaken : taken = name
    · rw [List.map_cons, if_pos htaken, lookup_cons_ite, lookup_cons_ite, ih, htaken]
      split <;> rfl
    · rw [List.map_cons, if_neg htaken, lookup_cons_ite, lookup_cons_ite, ih]
      by_cases hother : name = other
      · have hne : taken ≠ other := fun heq => htaken (heq.trans hother.symm)
        rw [if_neg hne, if_neg hne]
      · rw [if_neg hother, if_neg hother]

/-- The order of entries does not matter to a search if their names differ. -/
theorem lookup_perm {xs ys : List (String × α)} (h : xs.Perm ys)
    (hnodup : (xs.map (·.1)).Nodup) (name : String) : xs.lookup name = ys.lookup name := by
  induction h with
  | nil => rfl
  | cons entry _ ih =>
    obtain ⟨taken, record⟩ := entry
    rw [lookup_cons_ite, lookup_cons_ite, ih (List.nodup_cons.1 hnodup).2]
  | swap later earlier rest =>
    -- at most one of the two has the name that is searched for
    obtain ⟨first, record⟩ := earlier
    obtain ⟨second, other⟩ := later
    have hne : first ≠ second := fun heq =>
      (List.nodup_cons.1 hnodup).1 (by simp [heq])
    simp only [lookup_cons_ite]
    by_cases hfirst : first = name
    · rw [if_pos hfirst, if_neg fun hsecond => hne (hfirst.trans hsecond.symm), if_pos hfirst]
    · rw [if_neg hfirst, if_neg hfirst]
  | trans hxy _ ihxy ihyz =>
    rw [ihxy hnodup, ihyz ((hxy.map _).nodup_iff.1 hnodup)]

end Entries

variable {α : Type} [Record α] {policy : Policy} {path : String} {c l : Catalog α} {name : String}
  {record : α} {records : List α}

/-- Where every record is filed under its own name, the first record of a name is the one filed
under it. -/
theorem find?_name_eq_lookup {entries : List (String × α)}
    (h : ∀ entry ∈ entries, Record.name entry.2 = entry.1) (name : String) :
    (entries.map (·.2)).find? (Record.name · == name) = entries.lookup name := by
  induction entries with
  | nil => rfl
  | cons entry rest ih =>
    obtain ⟨taken, record⟩ := entry
    rw [List.forall_mem_cons] at h
    have hname : Record.name record = taken := h.1
    rw [List.map_cons, lookup_cons_ite, ← ih h.2]
    by_cases heq : taken = name
    · rw [if_pos heq, List.find?_cons_of_pos (by simp [hname, heq])]
    · rw [if_neg heq, List.find?_cons_of_neg (by simpa [hname] using heq)]

/-- Where every record is under its own name, it does not matter from which end it is looked for. -/
theorem Indexed.find?_records (h : l.Indexed) (name : String) :
    l.records.find? (Record.name · == name) = l.get? name :=
  find?_name_eq_lookup h.name_eq name

/-- No name has two records, so that the last record of a name is the one filed under it. -/
theorem Indexed.findRev?_records (h : l.Indexed) (name : String) :
    l.records.findRev? (Record.name · == name) = l.get? name := by
  have hreverse : ∀ entry ∈ l.entries.reverse, Record.name entry.2 = entry.1 := fun entry hentry =>
    h.name_eq entry (List.mem_reverse.1 hentry)
  calc l.records.findRev? (Record.name · == name)
      = (l.entries.reverse.map (·.2)).find? (Record.name · == name) := by
        rw [List.findRev?_eq_find?_reverse, records, List.map_reverse]
    _ = l.entries.reverse.lookup name := find?_name_eq_lookup hreverse name
    _ = l.get? name := (lookup_perm l.entries.reverse_perm.symm h.nodup name).symm

/-! ### Names after filing -/

/-- The names of the records that are not in the catalog, in the order in which they first come. -/
def fresh (c : Catalog α) (records : List α) : List String :=
  ((records.map Record.name).filter (· ∉ c.names)).eraseDups

theorem fresh_empty (records : List α) :
    (empty : Catalog α).fresh records = (records.map Record.name).eraseDups := by
  simp [fresh]

/-- Names without repetitions stay as they are. -/
theorem eraseDups_eq_self {names : List String} (h : names.Nodup) : names.eraseDups = names := by
  induction names with
  | nil => rfl
  | cons name rest ih =>
    obtain ⟨hname, hrest⟩ := List.nodup_cons.1 h
    have hkept : rest.filter (fun other => !other == name) = rest := List.filter_eq_self.2
      fun other hother => by simpa using fun heq : other = name => hname (heq ▸ hother)
    rw [List.eraseDups_cons, hkept, ih hrest]

/-- The fresh names of another catalog are those that are not shared. -/
theorem Indexed.fresh_records (h : l.Indexed) (c : Catalog α) :
    c.fresh l.records = l.names.filter (· ∉ c.names) := by
  rw [fresh, h.map_name_records, eraseDups_eq_self (h.nodup.filter _)]

/-- A record that is filed takes its name from those that are fresh. -/
theorem names_file_append_fresh (policy : Policy) (c : Catalog α) (record : α) (rest : List α) :
    (c.file policy record).names ++ (c.file policy record).fresh rest =
      c.names ++ c.fresh (record :: rest) := by
  rw [fresh, names_file, fresh, List.map_cons]
  split
  case isTrue hmem => rw [List.filter_cons_of_neg (by simpa using hmem)]
  case isFalse hfree =>
    have hsplit : (rest.map Record.name).filter (· ∉ c.names ++ [Record.name record]) =
        ((rest.map Record.name).filter (· ∉ c.names)).filter (!· == Record.name record) := by
      rw [List.filter_filter]
      refine List.filter_congr fun name _ => ?_
      rw [Bool.eq_iff_iff]
      simp [and_comm]
    rw [List.filter_cons_of_pos (by simpa using hfree), List.eraseDups_cons, hsplit,
      List.append_assoc, List.singleton_append]

/-- A name that comes for the first time is put after all others, and no name ever moves. -/
theorem names_fileAll (policy : Policy) (c : Catalog α) (records : List α) :
    (c.fileAll policy records).names = c.names ++ c.fresh records := by
  induction records generalizing c with
  | nil => exact (List.append_nil _).symm
  | cons record rest ih =>
    rw [← names_file_append_fresh policy]
    exact ih (c.file policy record)

/-! ### Records after filing -/

/-- Where later records replace earlier ones, a record is found that was just filed. -/
theorem get?_file_overwrite (c : Catalog α) (record : α) (name : String) :
    (c.file .overwrite record).get? name =
      (if Record.name record = name then some record else none).or (c.get? name) := by
  rw [file, if_pos rfl]
  by_cases hmem : Record.name record ∈ c.names
  · rw [if_pos hmem, get?_replace]
    split
    case isTrue hname =>
      obtain ⟨old, hold⟩ := exists_get?_of_mem hmem
      rw [← hname, hold]
      rfl
    case isFalse => rfl
  · rw [if_neg hmem, get?_append]
    split
    case isTrue hname => rw [← hname, get?_eq_none_iff.2 hmem, Option.none_or, Option.some_or]
    case isFalse => rw [Option.or_none, Option.none_or]

/-- Where they do not, a record is found that was there before. -/
theorem get?_file_of_ne (hpolicy : policy ≠ .overwrite) (c : Catalog α) (record : α)
    (name : String) :
    (c.file policy record).get? name =
      (c.get? name).or (if Record.name record = name then some record else none) := by
  rw [file, if_neg hpolicy]
  by_cases hmem : Record.name record ∈ c.names
  · rw [if_pos hmem]
    split
    case isTrue hname =>
      obtain ⟨old, hold⟩ := exists_get?_of_mem hmem
      rw [← hname, hold, Option.some_or]
    case isFalse => exact Option.or_none.symm
  · rw [if_neg hmem, get?_append]

/-- Where later records replace earlier ones, the last one of a name is found. -/
theorem get?_fileAll_overwrite (c : Catalog α) (records : List α) (name : String) :
    (c.fileAll .overwrite records).get? name =
      (records.findRev? (Record.name · == name)).or (c.get? name) := by
  induction records generalizing c with
  | nil => rfl
  | cons record rest ih =>
    rw [fileAll, List.foldl_cons, ← fileAll, ih, get?_file_overwrite,
      List.findRev?_eq_find?_reverse, List.findRev?_eq_find?_reverse, List.reverse_cons,
      List.find?_append, List.find?_singleton, Option.or_assoc]
    simp only [beq_iff_eq]

/-- Where earlier records are kept, one that was there is found or else the first one that came. -/
theorem get?_fileAll_of_ne (hpolicy : policy ≠ .overwrite) (c : Catalog α) (records : List α)
    (name : String) :
    (c.fileAll policy records).get? name =
      (c.get? name).or (records.find? (Record.name · == name)) := by
  induction records generalizing c with
  | nil => exact Option.or_none.symm
  | cons record rest ih =>
    rw [fileAll, List.foldl_cons, ← fileAll, ih, get?_file_of_ne hpolicy, ← List.singleton_append,
      List.find?_append, List.find?_singleton, Option.or_assoc]
    simp only [beq_iff_eq]

/-! ### How many records are stored -/

/-- How many of the records are stored: all of them, where later records replace earlier ones, and
otherwise one for each fresh name. -/
def added (policy : Policy) (c : Catalog α) (records : List α) : Nat :=
  if policy = .overwrite then records.length else (c.fresh records).length

/-- Where later records replace earlier ones, every record is stored. -/
theorem stored_of_insert_overwrite {insertion : Insertion}
    (h : (c.insert .overwrite path record).2.answer = .ok insertion) : insertion.stored = true := by
  rw [insert] at h
  split at h <;> (cases h; rfl)

/-- Where later records replace earlier ones, all of them are counted. -/
theorem insertAll_overwrite_answer (path : String) (c : Catalog α) (records : List α) :
    (c.insertAll .overwrite path records).2.answer = .ok records.length := by
  induction records generalizing c with
  | nil => rfl
  | cons record rest ih =>
    have hfree : ¬ c.Refuses .overwrite record := fun hrefuses => nomatch hrefuses.1
    obtain ⟨insertion, events, heq⟩ := insert_of_not_refuses path hfree
    have hanswer : (c.insert .overwrite path record).2.answer = .ok insertion := by rw [heq]; rfl
    rw [insertAll_cons_of_ok hanswer, Report.answer_after, Report.answer_map, ih,
      stored_of_insert_overwrite hanswer, List.length_cons, Nat.add_comm]
    rfl

/-- So many records are counted as are stored. -/
theorem insertAll_answer (path : String) (h : c.Accepts policy records) :
    (c.insertAll policy path records).2.answer = .ok (c.added policy records) := by
  obtain ⟨count, events, heq⟩ := insertAll_of_accepts path h
  by_cases hpolicy : policy = .overwrite
  · rw [added, if_pos hpolicy, hpolicy]
    exact insertAll_overwrite_answer path c records
  · have hgrowth := (insertAll_accounts (congrArg (·.2.answer) heq)).growth hpolicy
    rw [heq, ← length_names, ← length_names, names_fileAll, List.length_append] at hgrowth
    rw [heq, added, if_neg hpolicy, Report.answer_done, Nat.add_left_cancel hgrowth]

/-! ### Two catalogs -/

/-- A catalog is what two catalogs come to, the second of which was merged into the first: it has
the names of the first and after them those that only the second has; a name that only one of them
has keeps its record, and the policy decides on a name that both have. So many records were
stored. -/
structure Union (policy : Policy) (c other next : Catalog α) (stored : Nat) : Prop where
  names : next.names = c.names ++ other.names.filter (· ∉ c.names)
  left : ∀ name ∈ c.names, name ∉ other.names → next.get? name = c.get? name
  right : ∀ name ∈ other.names, name ∉ c.names → next.get? name = other.get? name
  overwrite : policy = .overwrite →
    stored = other.size ∧ ∀ name ∈ c.names, name ∈ other.names → next.get? name = other.get? name
  keepFirst : policy = .keepFirst → ∀ name ∈ c.names, name ∈ other.names →
    next.get? name = c.get? name
  reject : policy = .reject → ∀ name ∈ c.names, name ∉ other.names
  stored : policy ≠ .overwrite → stored = (other.names.filter (· ∉ c.names)).length

/-- What is found after another catalog was filed, name by name. -/
theorem Indexed.get?_fileAll_records (hl : l.Indexed) (policy : Policy) (c : Catalog α)
    (name : String) :
    (c.fileAll policy l.records).get? name =
      if policy = .overwrite then (l.get? name).or (c.get? name)
      else (c.get? name).or (l.get? name) := by
  split
  case isTrue hpolicy => rw [hpolicy, get?_fileAll_overwrite, hl.findRev?_records]
  case isFalse hpolicy => rw [get?_fileAll_of_ne hpolicy, hl.find?_records]

/-- Filing the records of another catalog makes the union of both. -/
theorem Indexed.union_fileAll (hl : l.Indexed) (h : c.Accepts policy l.records) :
    Union policy c l (c.fileAll policy l.records) (c.added policy l.records) where
  names := by rw [names_fileAll, hl.fresh_records]
  left name _ hright := by
    rw [hl.get?_fileAll_records, get?_eq_none_iff.2 hright, Option.none_or, Option.or_none,
      ite_self]
  right name _ hleft := by
    rw [hl.get?_fileAll_records, get?_eq_none_iff.2 hleft, Option.none_or, Option.or_none, ite_self]
  overwrite hpolicy := by
    refine ⟨by simp [added, hpolicy, records, size], fun name _ hname => ?_⟩
    obtain ⟨record, hrecord⟩ := exists_get?_of_mem hname
    rw [hl.get?_fileAll_records, if_pos hpolicy, hrecord, Option.some_or]
  keepFirst hpolicy name hname _ := by
    obtain ⟨record, hrecord⟩ := exists_get?_of_mem hname
    rw [hl.get?_fileAll_records, hpolicy, if_neg Policy.noConfusion, hrecord, Option.some_or]
  reject hpolicy name hleft hright := hl.accepts_records_iff.1 h hpolicy name hright hleft
  stored hpolicy := by rw [added, if_neg hpolicy, hl.fresh_records]

end Catalog

namespace Catalogs

variable {policy : Policy} {path : String} {c other : Catalogs} {tally : Tally}

/-- The answer of a merge tells how many classes and enums were stored. -/
theorem merge_answer (path : String) (hother : other.Indexed)
    (h : c.Accepts policy other.classes.records other.enums.records) :
    (c.merge policy path other).2.answer =
      .ok ⟨c.classes.added policy other.classes.records,
        c.enums.added policy other.enums.records⟩ := by
  have hclasses := Catalog.insertAll_answer path h.1
  have henums := Catalog.insertAll_answer path h.2
  simp only [merge_eq_fill path hother h, fill, hclasses, Report.answer_after, Report.answer_map,
    henums]
  rfl

/-- What a merge that succeeds comes to, and what it counts. -/
theorem merge_union (policy : Policy) (path : String) (hc : c.Reachable) (hother : other.Reachable)
    (h : (c.merge policy path other).2.answer = .ok tally) :
    let next := (c.merge policy path other).1
    next.Indexed ∧
      c.classes.Union policy other.classes next.classes tally.classes ∧
      c.enums.Union policy other.enums next.enums tally.enums := by
  have hindexed := hother.indexed
  have haccepts : c.Accepts policy other.classes.records other.enums.records := by
    by_contra hrefused
    obtain ⟨failure, hfailure⟩ : ∃ failure, (c.merge policy path other).2.answer = .error failure :=
      (merge_answer_eq_error_iff hindexed).2 hrefused
    rw [hfailure] at h
    cases h
  obtain ⟨stored, events, hmerge⟩ := merge_of_accepts path hindexed haccepts
  rw [merge_answer path hindexed haccepts] at h
  cases h
  refine ⟨hc.indexed.merge policy path other, ?_, ?_⟩
  · rw [hmerge]
    exact hindexed.classes.union_fileAll haccepts.1
  · rw [hmerge]
    exact hindexed.enums.union_fileAll haccepts.2

/-- Two classes come to a catalog that has one of them: the policy decides on this one and on what
is counted, and not on the place of either. -/
theorem merge_union_twoClasses :
    let c : Catalogs := { classes := ⟨[("A", { name := "A" }), ("B", { name := "B" })]⟩ }
    let other : Catalogs :=
      { classes := ⟨[("C", { name := "C" }), ("A", { name := "A", parents := ["Base"] })]⟩ }
    c.Reachable ∧ other.Reachable ∧
      (c.merge .overwrite "B.cs" other).2.answer = .ok ⟨2, 0⟩ ∧
      (c.merge .overwrite "B.cs" other).1.classes.names = ["A", "B", "C"] ∧
      (c.merge .overwrite "B.cs" other).1.classes.get? "A" =
        some { name := "A", parents := ["Base"] } ∧
      (c.merge .keepFirst "B.cs" other).2.answer = .ok ⟨1, 0⟩ ∧
      (c.merge .keepFirst "B.cs" other).1.classes.names = ["A", "B", "C"] ∧
      (c.merge .keepFirst "B.cs" other).1.classes.get? "A" = some { name := "A" } := by
  intro c other
  have hc : c.Reachable := .insertClass .reject "A.cs" { name := "B" }
    (.insertClass .reject "A.cs" { name := "A" } .empty)
  have hother : other.Reachable :=
    .insertClass .reject "B.cs" { name := "A", parents := ["Base"] }
      (.insertClass .reject "B.cs" { name := "C" } .empty)
  have hreplaced : (c.merge .overwrite "B.cs" other).2.answer = .ok ⟨2, 0⟩ := by rfl
  have hkept : (c.merge .keepFirst "B.cs" other).2.answer = .ok ⟨1, 0⟩ := by rfl
  obtain ⟨-, hclasses, -⟩ := merge_union .overwrite "B.cs" hc hother hreplaced
  obtain ⟨-, hclasses', -⟩ := merge_union .keepFirst "B.cs" hc hother hkept
  refine ⟨hc, hother, hreplaced, hclasses.names, ?_, hkept, hclasses'.names, ?_⟩
  · exact (hclasses.overwrite rfl).2 "A" (by decide) (by decide)
  · exact hclasses'.keepFirst rfl "A" (by decide) (by decide)

end Catalogs

end TypeCatalog
