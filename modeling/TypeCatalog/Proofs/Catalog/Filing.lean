import Mathlib.Data.List.Find
import Mathlib.Data.List.Nodup
import TypeCatalog.Catalog

/-!
# Filing records

What becomes of a catalog when records are filed one after the other, apart from what is reported
on the way. A refused record leaves the catalog as it is, so the catalog that some records lead to
can be spoken of without asking whether they are accepted; whether they are is a matter of names.

## Main definitions

- `Catalog.Indexed` — every record is filed under its own name, and no name is taken twice
- `Catalog.file`, `Catalog.fileAll` — a catalog with one more record, or with several
- `Catalog.Accepts` — that no record among several is refused
- `Catalog.firstRefused?` — the record at which filing several of them ends

## Main statements

- `Catalog.insert_of_refuses`, `Catalog.insert_of_not_refuses` — filing a record
- `Catalog.insertAll_of_accepts` — filing several records
- `Catalog.find?_contains_names` — the first name that is taken is that of the first refused record
- `Catalog.fileAll_records_fileAll` — records may be gathered in a catalog of their own first
-/

namespace TypeCatalog.Catalog

section Entries

variable {α : Type} {c : Catalog α} {name other : String} {old record added : α}

@[simp] theorem names_empty : (empty : Catalog α).names = [] := rfl

@[simp] theorem records_append (c : Catalog α) (name : String) (record : α) :
    (c.append name record).records = c.records ++ [record] := by
  simp [append, records]

/-- Where a name does not occur, there is no place to put a record in. -/
theorem replaced_eq_self {entries : List (String × α)} (h : name ∉ entries.map (·.1)) :
    entries.map (fun entry => if entry.1 = name then (name, record) else entry) = entries := by
  refine (List.map_congr_left fun entry hentry => if_neg fun heq => ?_).trans (List.map_id entries)
  exact h (List.mem_map.2 ⟨entry, hentry, heq⟩)

/-- A record that was put last gives its place to another one of its name. -/
theorem replace_append_self (h : name ∉ c.names) :
    (c.append name old).replace name record = c.append name record := by
  simp [replace, append, replaced_eq_self h]

/-- Of two records put in the place of a name, the second one stays. -/
theorem replace_replace_self (c : Catalog α) (name : String) (old record : α) :
    (c.replace name old).replace name record = c.replace name record := by
  simp only [replace, List.map_map]
  congr 1
  apply List.map_congr_left
  intro entry _
  by_cases h : entry.1 = name <;> simp [h]

/-- A record may be put last before or after another name gets a new record. -/
theorem replace_append_of_ne (h : other ≠ name) :
    (c.append other added).replace name record = (c.replace name record).append other added := by
  simp [replace, append, h]

/-- The places of two names do not touch each other. -/
theorem replace_comm (h : other ≠ name) :
    (c.replace other added).replace name record =
      (c.replace name record).replace other added := by
  simp only [replace, List.map_map]
  congr 1
  apply List.map_congr_left
  intro entry _
  by_cases hname : entry.1 = name
  · simp [hname, h.symm]
  · by_cases hother : entry.1 = other <;> simp [hname, hother, h]

end Entries

variable {α : Type} [Record α] {policy : Policy} {c l : Catalog α} {record : α}
  {records : List α}

/-- Every record is filed under its own name, and no name is taken twice. -/
structure Indexed (c : Catalog α) : Prop where
  nodup : c.names.Nodup
  name_eq : ∀ entry ∈ c.entries, Record.name entry.2 = entry.1

/-- The policy refuses a record because its name is taken. -/
def Refuses (policy : Policy) (c : Catalog α) (record : α) : Prop :=
  policy = .reject ∧ Record.name record ∈ c.names

instance : Decidable (c.Refuses policy record) :=
  inferInstanceAs (Decidable (policy = .reject ∧ Record.name record ∈ c.names))

/-- The catalog with one more record. If its name is taken, it takes the place of the record that
is there or comes to nothing. -/
def file (policy : Policy) (c : Catalog α) (record : α) : Catalog α :=
  if Record.name record ∈ c.names then
    if policy = .overwrite then c.replace (Record.name record) record else c
  else c.append (Record.name record) record

/-- The catalog with more records, filed one after the other. -/
def fileAll (policy : Policy) (c : Catalog α) (records : List α) : Catalog α :=
  records.foldl (file policy) c

/-- None of the records is refused: under `reject` their names differ, and none of them is taken. -/
def Accepts (policy : Policy) (c : Catalog α) (records : List α) : Prop :=
  policy = .reject →
    (records.map Record.name).Nodup ∧ ∀ record ∈ records, Record.name record ∉ c.names

/-- The first record that is refused when records are filed one after the other. -/
def firstRefused? (policy : Policy) (path : String) (c : Catalog α) : List α → Option α
  | [] => none
  | record :: rest =>
    match (c.insert policy path record).2.answer with
    | .error _ => some record
    | .ok _ => firstRefused? policy path (c.insert policy path record).1 rest

/-! ### One record -/

/-- A record that is refused leaves the catalog as it is, and its name is reported. -/
theorem insert_of_refuses (path : String) (h : c.Refuses policy record) :
    c.insert policy path record =
      (c, .failed (.duplicate (Record.name record) (Record.kind α) path)) := by
  obtain ⟨rfl, hmem⟩ := h
  simp [insert, contains_iff.2 hmem]

/-- A record that is not refused is filed. -/
theorem insert_of_not_refuses (path : String) (h : ¬ c.Refuses policy record) :
    ∃ insertion events,
      c.insert policy path record = (c.file policy record, .done insertion events) := by
  by_cases hmem : Record.name record ∈ c.names
  · have hcontains := contains_iff.2 hmem
    cases policy with
    | reject => exact absurd ⟨rfl, hmem⟩ h
    | overwrite => exact ⟨.replaced, _, by simp [insert, file, hcontains, hmem]; rfl⟩
    | keepFirst => exact ⟨.kept, _, by simp [insert, file, hcontains, hmem]; rfl⟩
  · have hcontains : c.contains (Record.name record) = false := by
      rw [← Bool.not_eq_true, contains_iff]
      exact hmem
    exact ⟨.new, [], by simp [insert, file, hcontains, hmem]⟩

/-- A record fails to be filed only if it is refused. -/
theorem refuses_of_insert_error {path : String} {failure : Failure}
    (h : (c.insert policy path record).2.answer = .error failure) :
    c.Refuses policy record ∧
      failure = .duplicate (Record.name record) (Record.kind α) path := by
  by_cases hrefuses : c.Refuses policy record
  · rw [insert_of_refuses path hrefuses] at h
    cases h
    exact ⟨hrefuses, rfl⟩
  · obtain ⟨insertion, events, heq⟩ := insert_of_not_refuses path hrefuses
    rw [heq] at h
    cases h

/-- A record whose name is taken comes to nothing where it would be refused. -/
theorem file_of_refuses (h : c.Refuses policy record) : c.file policy record = c := by
  obtain ⟨rfl, hmem⟩ := h
  simp [file, hmem]

/-- Whether or not a record is refused, `file` tells the catalog that is left. -/
theorem insert_fst (path : String) (record : α) :
    (c.insert policy path record).1 = c.file policy record := by
  by_cases h : c.Refuses policy record
  · rw [insert_of_refuses path h, file_of_refuses h]
  · obtain ⟨insertion, events, heq⟩ := insert_of_not_refuses path h
    rw [heq]

/-- A record that is filed brings its name in, unless it is there. -/
theorem names_file (policy : Policy) (c : Catalog α) (record : α) :
    (c.file policy record).names =
      if Record.name record ∈ c.names then c.names else c.names ++ [Record.name record] := by
  unfold file
  split
  · split
    · exact names_replace ..
    · rfl
  · exact names_append ..

@[simp] theorem mem_names_file {name : String} :
    name ∈ (c.file policy record).names ↔ name ∈ c.names ∨ name = Record.name record := by
  rw [names_file]
  split
  · constructor
    · exact .inl
    · rintro (h | rfl)
      · exact h
      · assumption
  · simp

/-- After records were filed, the names are those from before and those of the records. -/
theorem mem_names_fileAll {name : String} :
    name ∈ (c.fileAll policy records).names ↔ name ∈ c.names ∨ name ∈ records.map Record.name := by
  induction records generalizing c with
  | nil => simp [fileAll]
  | cons record rest ih =>
    rw [fileAll, List.foldl_cons, ← fileAll, ih, mem_names_file, List.map_cons, List.mem_cons,
      or_assoc]

/-! ### Catalogs whose records are under their own names -/

namespace Indexed

theorem empty : (Catalog.empty : Catalog α).Indexed :=
  ⟨List.nodup_nil, fun _ h => nomatch h⟩

/-- The records of such a catalog have the names it files them under. -/
theorem map_name_records (h : c.Indexed) : c.records.map Record.name = c.names := by
  rw [records, names, List.map_map]
  exact List.map_congr_left h.name_eq

/-- A record put in the place of its own name is under its own name. -/
theorem replace (h : c.Indexed) (record : α) : (c.replace (Record.name record) record).Indexed := by
  refine ⟨by rw [names_replace]; exact h.nodup, fun entry hentry => ?_⟩
  obtain ⟨old, hold, rfl⟩ := List.mem_map.1 hentry
  split
  · rfl
  · exact h.name_eq old hold

/-- A record put last is under its own name, and the name is not taken twice if it was free. -/
theorem append (h : c.Indexed) (hfree : Record.name record ∉ c.names) :
    (c.append (Record.name record) record).Indexed := by
  refine ⟨?_, fun entry hentry => ?_⟩
  · rw [names_append, List.nodup_append]
    refine ⟨h.nodup, List.nodup_singleton _, ?_⟩
    rintro taken htaken name hname rfl
    exact hfree (List.mem_singleton.1 hname ▸ htaken)
  · rcases List.mem_append.1 hentry with hold | hnew
    · exact h.name_eq entry hold
    · rw [List.mem_singleton.1 hnew]

/-- However a record is filed, the records stay under their own names. -/
theorem file (h : c.Indexed) (policy : Policy) (record : α) : (c.file policy record).Indexed := by
  unfold Catalog.file
  split
  · split
    · exact h.replace record
    · exact h
  · exact h.append ‹_›

/-- However records are filed, they stay under their own names. -/
theorem fileAll (h : c.Indexed) (policy : Policy) (records : List α) :
    (c.fileAll policy records).Indexed := by
  induction records generalizing c with
  | nil => exact h
  | cons record rest ih => exact ih (h.file policy record)

end Indexed

/-! ### Several records -/

theorem accepts_nil : c.Accepts policy [] := fun _ => ⟨List.nodup_nil, fun _ h => nomatch h⟩

/-- Only under `reject` is a record ever refused. -/
theorem accepts_of_ne_reject (h : policy ≠ .reject) : c.Accepts policy records :=
  fun hreject => absurd hreject h

/-- Records are accepted if the first one is not refused, and then the others are accepted. -/
theorem accepts_cons : c.Accepts policy (record :: records) ↔
    ¬ c.Refuses policy record ∧ (c.file policy record).Accepts policy records := by
  simp only [Accepts, Refuses, mem_names_file, List.map_cons, List.nodup_cons, List.mem_map,
    List.forall_mem_cons]
  constructor
  · intro h
    refine ⟨fun ⟨hreject, hmem⟩ => (h hreject).2.1 hmem, fun hreject => ?_⟩
    obtain ⟨⟨hfresh, hnodup⟩, hfree, hrest⟩ := h hreject
    refine ⟨hnodup, fun other hother hmem => ?_⟩
    rcases hmem with hmem | hmem
    · exact hrest other hother hmem
    · exact hfresh ⟨other, hother, hmem⟩
  · rintro ⟨hfree, h⟩ hreject
    obtain ⟨hnodup, hrest⟩ := h hreject
    refine ⟨⟨?_, hnodup⟩, fun hmem => hfree ⟨hreject, hmem⟩, fun other hother hmem => ?_⟩
    · rintro ⟨other, hother, hname⟩
      exact hrest other hother (.inr hname)
    · exact hrest other hother (.inl hmem)

/-- Records are accepted if the first of them are, and then the others. -/
theorem accepts_append {more : List α} : c.Accepts policy (records ++ more) ↔
    c.Accepts policy records ∧ (c.fileAll policy records).Accepts policy more := by
  induction records generalizing c with
  | nil => simp [accepts_nil, fileAll]
  | cons record rest ih =>
    rw [List.cons_append, accepts_cons, ih, accepts_cons, and_assoc]
    rfl

theorem fileAll_append (policy : Policy) (c : Catalog α) (records more : List α) :
    c.fileAll policy (records ++ more) = (c.fileAll policy records).fileAll policy more :=
  List.foldl_append ..

/-- A catalog refuses no more than one that holds its names. -/
theorem Accepts.of_subset (h : c.Accepts policy records) (hsub : l.names ⊆ c.names) :
    l.Accepts policy records := fun hreject =>
  ⟨(h hreject).1, fun record hrecord hmem => (h hreject).2 record hrecord (hsub hmem)⟩

/-- Filing several records ends where the first one is refused. -/
theorem insertAll_cons_of_refuses (path : String) (h : c.Refuses policy record) :
    c.insertAll policy path (record :: records) =
      (c, .failed (.duplicate (Record.name record) (Record.kind α) path)) := by
  simp [insertAll, insert_of_refuses path h]

/-- Filing several records goes on behind a record that is not refused, and counts it if it was
stored. -/
theorem insertAll_cons_of_not_refuses (path : String) (h : ¬ c.Refuses policy record)
    (records : List α) :
    ∃ (insertion : Insertion) (events : List Event),
      c.insertAll policy path (record :: records) =
        (((c.file policy record).insertAll policy path records).1,
          (((c.file policy record).insertAll policy path records).2.map
            (insertion.stored.toNat + ·)).after events) := by
  obtain ⟨insertion, events, hinsert⟩ := insert_of_not_refuses path h
  exact ⟨insertion, events, by simp [insertAll, hinsert]⟩

/-- The first record that is refused is the first one of all, or else the first one behind it. -/
theorem firstRefused?_cons (policy : Policy) (path : String) (c : Catalog α) (record : α)
    (records : List α) :
    c.firstRefused? policy path (record :: records) =
      if c.Refuses policy record then some record
      else (c.file policy record).firstRefused? policy path records := by
  rw [firstRefused?]
  by_cases h : c.Refuses policy record
  · simp [insert_of_refuses path h, h]
  · obtain ⟨insertion, events, hinsert⟩ := insert_of_not_refuses path h
    simp [hinsert, h]

/-- Filing stops at a refused record, and what was filed before it stays in order. -/
theorem Indexed.insertAll (h : c.Indexed) (policy : Policy) (path : String) (records : List α) :
    (c.insertAll policy path records).1.Indexed := by
  induction records generalizing c with
  | nil => exact h
  | cons record rest ih =>
    by_cases hrefuses : c.Refuses policy record
    · rw [insertAll_cons_of_refuses path hrefuses]
      exact h
    · obtain ⟨insertion, events, heq⟩ := insertAll_cons_of_not_refuses path hrefuses rest
      rw [heq]
      exact ih (h.file policy record)

/-- Records that are accepted are all filed. -/
theorem insertAll_of_accepts (path : String) (h : c.Accepts policy records) :
    ∃ count events,
      c.insertAll policy path records = (c.fileAll policy records, .done count events) := by
  induction records generalizing c with
  | nil => exact ⟨0, [], rfl⟩
  | cons record rest ih =>
    obtain ⟨hfree, hrest⟩ := accepts_cons.1 h
    obtain ⟨insertion, events, heq⟩ := insertAll_cons_of_not_refuses path hfree rest
    obtain ⟨count, later, hlater⟩ := ih hrest
    rw [heq, hlater]
    exact ⟨insertion.stored.toNat + count, events ++ later, rfl⟩

/-- No record is refused if and only if all of them are accepted. -/
theorem firstRefused?_eq_none_iff (path : String) :
    c.firstRefused? policy path records = none ↔ c.Accepts policy records := by
  induction records generalizing c with
  | nil => exact iff_of_true rfl accepts_nil
  | cons record rest ih =>
    rw [firstRefused?_cons, accepts_cons, ← ih]
    by_cases hrefuses : c.Refuses policy record <;> simp [hrefuses]

/-- Among different names, the first that is taken is that of the first record that is refused: no
record takes a name that a later one would need. -/
theorem find?_contains_names (path : String) (hnodup : (records.map Record.name).Nodup) :
    (records.map Record.name).find? c.contains =
      (c.firstRefused? .reject path records).map Record.name := by
  induction records generalizing c with
  | nil => rfl
  | cons record rest ih =>
    rw [List.map_cons, List.nodup_cons] at hnodup
    rw [List.map_cons, firstRefused?_cons]
    by_cases hrefuses : c.Refuses .reject record
    · rw [List.find?_cons_of_pos (contains_iff.2 hrefuses.2), if_pos hrefuses]
      rfl
    · have hfree : ¬ c.contains (Record.name record) = true := fun hcontains =>
        hrefuses ⟨rfl, contains_iff.1 hcontains⟩
      -- filing the record takes its own name alone, which no later record bears
      have hsame : ∀ name ∈ rest.map Record.name,
          (c.file .reject record).contains name = c.contains name := by
        intro name hname
        have hne : name ≠ Record.name record := fun heq => hnodup.1 (heq ▸ hname)
        rw [Bool.eq_iff_iff, contains_iff, contains_iff, mem_names_file]
        simp [hne]
      rw [List.find?_cons_of_neg hfree, if_neg hrefuses, ← List.find?_congr hsame, ih hnodup.2]

/-! ### Replacing a record that is filed first -/

/-- Of two records of one name it makes no difference whether the first was filed or is replaced. -/
theorem replace_file_self {old : α} (h : Record.name old = Record.name record) :
    (c.file .overwrite old).replace (Record.name record) record = c.file .overwrite record := by
  unfold file
  rw [h]
  split
  · exact replace_replace_self ..
  · exact replace_append_self ‹_›

/-- A record of another name may be filed before or after a name gets a new record. -/
theorem replace_file_of_ne {other : α} (h : Record.name other ≠ Record.name record) :
    (c.file policy other).replace (Record.name record) record =
      (c.replace (Record.name record) record).file policy other := by
  unfold file
  rw [names_replace]
  split
  · split
    · exact replace_comm h
    · rfl
  · exact replace_append_of_ne h

/-- Records of other names may be filed before or after a name gets a new record. -/
theorem replace_fileAll_of_ne (h : ∀ other ∈ records, Record.name other ≠ Record.name record) :
    (c.fileAll policy records).replace (Record.name record) record =
      (c.replace (Record.name record) record).fileAll policy records := by
  induction records generalizing c with
  | nil => rfl
  | cons other rest ih =>
    rw [List.forall_mem_cons] at h
    calc (c.fileAll policy (other :: rest)).replace (Record.name record) record
        = ((c.file policy other).replace (Record.name record) record).fileAll policy rest := ih h.2
      _ = (c.replace (Record.name record) record).fileAll policy (other :: rest) := by
        rw [replace_file_of_ne h.1]
        rfl

/-! ### Records gathered first -/

/-- The records of a catalog are accepted if none of its names is taken. -/
theorem Indexed.accepts_records_iff (h : l.Indexed) :
    c.Accepts policy l.records ↔ (policy = .reject → ∀ name ∈ l.names, name ∉ c.names) := by
  rw [Accepts, ← h.map_name_records, List.forall_mem_map]
  have hnodup : (l.records.map Record.name).Nodup := h.map_name_records ▸ h.nodup
  exact imp_congr_right fun _ => and_iff_right hnodup

/-- Where a name is taken, one record has it, and it is this record that is replaced. -/
theorem Indexed.exists_replaced (h : l.Indexed) (hmem : Record.name record ∈ l.names) :
    ∃ before old after, l.records = before ++ old :: after ∧
      (l.replace (Record.name record) record).records = before ++ record :: after ∧
      Record.name old = Record.name record ∧
      ∀ other ∈ after, Record.name other ≠ Record.name record := by
  obtain ⟨⟨taken, old⟩, hentry, rfl⟩ := List.mem_map.1 hmem
  obtain ⟨before, after, hentries⟩ := List.append_of_mem hentry
  have hnodup := h.nodup
  rw [names, hentries, List.map_append, List.map_cons, List.nodup_middle, List.nodup_cons,
    List.mem_append, not_or] at hnodup
  obtain ⟨⟨hbefore, hafter⟩, -⟩ := hnodup
  refine ⟨before.map (·.2), old, after.map (·.2), ?_, ?_, ?_, ?_⟩
  · rw [records, hentries, List.map_append, List.map_cons]
  · rw [records, Catalog.replace, hentries, List.map_append, List.map_cons,
      replaced_eq_self hbefore, replaced_eq_self hafter, if_pos rfl, List.map_append, List.map_cons]
  · exact h.name_eq _ hentry
  · intro other hother heq
    obtain ⟨entry, hentry', rfl⟩ := List.mem_map.1 hother
    have hkey : Record.name entry.2 = entry.1 := h.name_eq entry (by simp [hentries, hentry'])
    exact hafter (List.mem_map.2 ⟨entry, hentry', hkey.symm.trans heq⟩)

/-- A record that replaced another may as well have been filed after all of them. -/
theorem fileAll_records_replace (c : Catalog α) (hl : l.Indexed)
    (hmem : Record.name record ∈ l.names) :
    c.fileAll .overwrite (l.replace (Record.name record) record).records =
      (c.fileAll .overwrite l.records).replace (Record.name record) record := by
  obtain ⟨before, old, after, hrecords, hreplaced, hold, hafter⟩ := hl.exists_replaced hmem
  rw [hreplaced, hrecords, fileAll_append, fileAll_append]
  -- no record after it has the name, so none cares which of the two is there
  calc ((c.fileAll .overwrite before).file .overwrite record).fileAll .overwrite after
      = (((c.fileAll .overwrite before).file .overwrite old).replace (Record.name record)
          record).fileAll .overwrite after := by rw [replace_file_self hold]
    _ = (((c.fileAll .overwrite before).file .overwrite old).fileAll .overwrite after).replace
          (Record.name record) record := (replace_fileAll_of_ne hafter).symm

/-- A catalog that gains a record passes it on after all others. -/
theorem fileAll_records_file (c : Catalog α) (hl : l.Indexed) (record : α) :
    c.fileAll policy (l.file policy record).records =
      (c.fileAll policy l.records).file policy record := by
  by_cases hmem : Record.name record ∈ l.names
  · have htaken : Record.name record ∈ (c.fileAll policy l.records).names := by
      rw [mem_names_fileAll, hl.map_name_records]
      exact .inr hmem
    rw [file, file, if_pos hmem, if_pos htaken]
    by_cases hpolicy : policy = .overwrite
    · subst hpolicy
      rw [if_pos rfl, if_pos rfl, fileAll_records_replace c hl hmem]
    · rw [if_neg hpolicy, if_neg hpolicy]
  · rw [file, if_neg hmem, records_append, fileAll_append]
    rfl

/-- Records may be gathered in a catalog of their own before they are filed. -/
theorem fileAll_records_fileAll (c : Catalog α) (hl : l.Indexed) (records : List α) :
    c.fileAll policy (l.fileAll policy records).records =
      (c.fileAll policy l.records).fileAll policy records := by
  induction records generalizing l with
  | nil => rfl
  | cons record rest ih =>
    calc c.fileAll policy (l.fileAll policy (record :: rest)).records
        = (c.fileAll policy (l.file policy record).records).fileAll policy rest :=
          ih (hl.file policy record)
      _ = (c.fileAll policy l.records).fileAll policy (record :: rest) := by
        rw [fileAll_records_file c hl]
        rfl

/-- Records that are accepted among themselves are refused by a catalog after they were gathered if
and only if they are refused before. -/
theorem accepts_records_fileAll_iff (h : (empty : Catalog α).Accepts policy records) :
    c.Accepts policy (empty.fileAll policy records).records ↔ c.Accepts policy records := by
  rw [(Indexed.empty.fileAll policy records).accepts_records_iff, Accepts]
  refine imp_congr_right fun hreject => ?_
  simp only [mem_names_fileAll, names_empty, List.not_mem_nil, false_or, List.forall_mem_map,
    (h hreject).1, true_and]

end TypeCatalog.Catalog
