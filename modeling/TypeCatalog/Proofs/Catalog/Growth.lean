import TypeCatalog.Proofs.Catalog.Merging

/-!
# Growth of catalogs

What filing does to what is already there, and how many records it adds. A name that is in a
catalog stays where it is; a record that is there changes only where later records replace earlier
ones. A record that was filed is in the catalog, or was reported as a second one of its name.

## Main definitions

- `Catalog.Extends`, `Catalogs.Extends` — that what was there before is still there, in its place
- `Event.repeats` — how many events say that a name is declared again
- `Catalog.Accounts` — what filing adds, weighed against what it reports

## Main statements

- `Catalogs.Extends.merge` — a merge extends catalogs, whether or not it succeeds
- `Catalog.entries_fileAll_of_accepts` — records that are accepted come after all others
- `Catalogs.merge_accounts` — what a merge adds and reports
-/

namespace TypeCatalog

/-! ### What was there before -/

/-- A catalog still has the names of another one, in their order and before all others, and, unless
later records replace earlier ones, their records. -/
structure Catalog.Extends {α : Type} (policy : Policy) (c next : Catalog α) : Prop where
  names : c.names <+: next.names
  entries : policy ≠ .overwrite → c.entries <+: next.entries

namespace Catalog.Extends

variable {α : Type} {policy : Policy} {c next last : Catalog α}

theorem refl (policy : Policy) (c : Catalog α) : c.Extends policy c :=
  ⟨List.prefix_rfl, fun _ => List.prefix_rfl⟩

theorem trans (h : c.Extends policy next) (hnext : next.Extends policy last) :
    c.Extends policy last :=
  ⟨h.names.trans hnext.names, fun hpolicy => (h.entries hpolicy).trans (hnext.entries hpolicy)⟩

/-- A record put last takes nothing away. -/
theorem append (policy : Policy) (c : Catalog α) (name : String) (record : α) :
    c.Extends policy (c.append name record) := by
  refine ⟨?_, fun _ => List.prefix_append ..⟩
  rw [names_append]
  exact List.prefix_append ..

/-- Where later records replace earlier ones, the names stay. -/
theorem replace (c : Catalog α) (name : String) (record : α) :
    c.Extends .overwrite (c.replace name record) := by
  have hnames := names_replace c name record
  exact ⟨hnames ▸ List.prefix_rfl, fun hpolicy => absurd rfl hpolicy⟩

variable [Record α]

/-- However a record is filed, the catalog extends the one before. -/
theorem file (policy : Policy) (c : Catalog α) (record : α) :
    c.Extends policy (c.file policy record) := by
  unfold Catalog.file
  split
  · split
    · next hpolicy =>
      rw [hpolicy]
      exact replace ..
    · exact refl ..
  · exact append ..

/-- Filing records extends the catalog, even if one of them is refused in the end. -/
theorem insertAll (policy : Policy) (path : String) (c : Catalog α) (records : List α) :
    c.Extends policy (c.insertAll policy path records).1 := by
  -- a refusal ends the filing but leaves in place what was filed before it
  induction records generalizing c with
  | nil => exact refl ..
  | cons record rest ih =>
    by_cases hrefuses : c.Refuses policy record
    · rw [insertAll_cons_of_refuses path hrefuses]
      exact refl ..
    · obtain ⟨insertion, events, heq⟩ := insertAll_cons_of_not_refuses path hrefuses rest
      rw [heq]
      exact (file policy c record).trans (ih _)

end Catalog.Extends

/-- Both catalogs extend those of before. -/
structure Catalogs.Extends (policy : Policy) (c next : Catalogs) : Prop where
  classes : c.classes.Extends policy next.classes
  enums : c.enums.Extends policy next.enums

namespace Catalogs.Extends

variable {policy : Policy} {c next last : Catalogs}

theorem refl (policy : Policy) (c : Catalogs) : c.Extends policy c := ⟨.refl .., .refl ..⟩

theorem trans (h : c.Extends policy next) (hnext : next.Extends policy last) :
    c.Extends policy last :=
  ⟨h.classes.trans hnext.classes, h.enums.trans hnext.enums⟩

/-- Filing other catalogs extends both, even if a record is refused in the end. -/
theorem fill (policy : Policy) (path : String) (c other : Catalogs) :
    c.Extends policy (c.fill policy path other).1 := by
  have hclasses := Catalog.Extends.insertAll policy path c.classes other.classes.records
  rw [Catalogs.fill]
  -- the enums are filed only if all classes were
  generalize c.classes.insertAll policy path other.classes.records = filed at hclasses ⊢
  obtain ⟨classes, report⟩ := filed
  dsimp only
  cases report.answer with
  | error => exact ⟨hclasses, .refl ..⟩
  | ok => exact ⟨hclasses, .insertAll ..⟩

/-- A merge extends both catalogs, whether or not it succeeds. -/
theorem merge (policy : Policy) (path : String) (c other : Catalogs) :
    c.Extends policy (c.merge policy path other).1 := by
  rw [Catalogs.merge]
  split
  · exact refl ..
  · exact fill ..

end Catalogs.Extends

/-! ### Where nothing is refused -/

section Accepted

variable {α : Type} [Record α] {policy : Policy} {c : Catalog α} {record : α} {records : List α}

/-- A record whose name is free is put last. -/
theorem Catalog.entries_file_of_free (policy : Policy) (h : Record.name record ∉ c.names) :
    (c.file policy record).entries = c.entries ++ [(Record.name record, record)] := by
  rw [file, if_neg h]
  rfl

/-- Records that are accepted where second records are refused come after all others. -/
theorem Catalog.entries_fileAll_of_accepts (h : c.Accepts .reject records) :
    (c.fileAll .reject records).entries =
      c.entries ++ records.map fun record => (Record.name record, record) := by
  induction records generalizing c with
  | nil => exact (List.append_nil _).symm
  | cons record rest ih =>
    obtain ⟨hrefuses, hrest⟩ := accepts_cons.1 h
    have hfree : Record.name record ∉ c.names := fun hmem => hrefuses ⟨rfl, hmem⟩
    calc (c.fileAll .reject (record :: rest)).entries
        = (c.file .reject record).entries ++ rest.map fun record => (Record.name record, record) :=
          ih hrest
      _ = c.entries ++ (record :: rest).map fun record => (Record.name record, record) := by
        rw [entries_file_of_free _ hfree, List.append_assoc]
        rfl

/-- Where names may not come again, the records that are accepted bring in their names as they
come. -/
theorem Catalog.names_fileAll_of_accepts (h : c.Accepts .reject records) :
    (c.fileAll .reject records).names = c.names ++ records.map Record.name := by
  rw [names, entries_fileAll_of_accepts h, List.map_append, List.map_map]
  rfl

end Accepted

/-! ### Repeated names -/

namespace Event

/-- Whether an event says that a name of the sort is declared again. -/
def isRepeat (kind : TypeKind) : Event → Bool
  | duplicate repeated .. => repeated == kind
  | _ => false

/-- How many of the events say that a name of the sort is declared again. -/
def repeats (kind : TypeKind) (events : List Event) : Nat := events.countP (isRepeat kind)

@[simp] theorem repeats_nil (kind : TypeKind) : repeats kind [] = 0 := rfl

@[simp] theorem repeats_append (kind : TypeKind) (xs ys : List Event) :
    repeats kind (xs ++ ys) = repeats kind xs + repeats kind ys :=
  List.countP_append

/-- An event that reports a second declaration counts for the sort it names. -/
@[simp] theorem repeats_duplicate_self (kind : TypeKind) (name path : String) (replacing : Bool) :
    repeats kind [duplicate kind name path replacing] = 1 := by
  simp [repeats, isRepeat]

/-- It does not count for the other sort. -/
theorem repeats_duplicate_of_ne {kind repeated : TypeKind} (h : kind ≠ repeated)
    (name path : String) (replacing : Bool) :
    repeats kind [duplicate repeated name path replacing] = 0 := by
  simp [repeats, isRepeat, h.symm]

end Event

/-! ### What is added -/

namespace Catalog

@[simp] theorem size_append {α : Type} (c : Catalog α) (name : String) (record : α) :
    (c.append name record).size = c.size + 1 := by
  simp [append, size]

@[simp] theorem size_replace {α : Type} (c : Catalog α) (name : String) (record : α) :
    (c.replace name record).size = c.size := by
  simp [replace, size]

variable {α : Type} [Record α] {policy : Policy} {path : String} {c next last : Catalog α}
  {record : α} {records : List α} {filed stored : Nat} {events : List Event}

/-- So many records were filed and so many of them stored. Each of them made the catalog larger by
one or was reported as the second one of its name; unless later records replace earlier ones, just
those that were stored made it larger. Nothing was reported of the other sort. -/
structure Accounts (policy : Policy) (c next : Catalog α) (filed stored : Nat)
    (events : List Event) : Prop where
  balance : next.size + Event.repeats (Record.kind α) events = c.size + filed
  growth : policy ≠ .overwrite → next.size = c.size + stored
  silent : ∀ kind, kind ≠ Record.kind α → Event.repeats kind events = 0

namespace Accounts

theorem refl (policy : Policy) (c : Catalog α) : Accounts policy c c 0 0 [] :=
  ⟨rfl, fun _ => rfl, fun _ _ => rfl⟩

theorem trans {filed' stored' : Nat} {events' : List Event}
    (h : Accounts policy c next filed stored events)
    (hnext : Accounts policy next last filed' stored' events') :
    Accounts policy c last (filed + filed') (stored + stored') (events ++ events') where
  balance := by
    have := h.balance
    have := hnext.balance
    rw [Event.repeats_append]
    omega
  growth hpolicy := by rw [hnext.growth hpolicy, h.growth hpolicy, Nat.add_assoc]
  silent kind hkind := by rw [Event.repeats_append, h.silent kind hkind, hnext.silent kind hkind]

end Accounts

/-- A record that is filed makes the catalog larger or is reported. -/
theorem insert_accounts {insertion : Insertion}
    (h : (c.insert policy path record).2.answer = .ok insertion) :
    Accounts policy c (c.insert policy path record).1 1 insertion.stored.toNat
      (c.insert policy path record).2.events := by
  by_cases hmem : c.contains (Record.name record) = true
  · cases policy with
    | reject =>
      rw [insert, if_pos hmem] at h
      cases h
    | overwrite =>
      rw [insert, if_pos hmem] at h ⊢
      cases h
      exact ⟨by simp, fun hpolicy => absurd rfl hpolicy,
        fun kind hkind => Event.repeats_duplicate_of_ne hkind ..⟩
    | keepFirst =>
      rw [insert, if_pos hmem] at h ⊢
      cases h
      exact ⟨by simp, fun _ => rfl, fun kind hkind => Event.repeats_duplicate_of_ne hkind ..⟩
  · simp only [insert, if_neg hmem] at h ⊢
    cases h
    exact ⟨by simp, fun _ => size_append .., fun _ _ => rfl⟩

/-- Filing several records goes on behind one that was filed. -/
theorem insertAll_cons_of_ok {insertion : Insertion}
    (h : (c.insert policy path record).2.answer = .ok insertion) (records : List α) :
    c.insertAll policy path (record :: records) =
      (((c.insert policy path record).1.insertAll policy path records).1,
        (((c.insert policy path record).1.insertAll policy path records).2.map
          (insertion.stored.toNat + ·)).after (c.insert policy path record).2.events) := by
  simp only [insertAll, h]

/-- Filing several records ends at one that was refused. -/
theorem insertAll_cons_of_error {failure : Failure}
    (h : (c.insert policy path record).2.answer = .error failure) (records : List α) :
    c.insertAll policy path (record :: records) =
      ((c.insert policy path record).1, .failed failure (c.insert policy path record).2.events) := by
  simp only [insertAll, h]

/-- Records that are filed one after the other are accounted for. -/
theorem insertAll_accounts {count : Nat}
    (h : (c.insertAll policy path records).2.answer = .ok count) :
    Accounts policy c (c.insertAll policy path records).1 records.length count
      (c.insertAll policy path records).2.events := by
  induction records generalizing c count with
  | nil =>
    cases h
    exact .refl ..
  | cons record rest ih =>
    cases hanswer : (c.insert policy path record).2.answer with
    | error failure =>
      rw [insertAll_cons_of_error hanswer] at h
      cases h
    | ok insertion =>
      rw [insertAll_cons_of_ok hanswer] at h ⊢
      obtain ⟨stored, hrest, rfl⟩ := Report.answer_map_eq_ok_iff.1 h
      rw [List.length_cons, Nat.add_comm rest.length]
      exact (insert_accounts hanswer).trans (ih hrest)

/-- Where a second record of a name is refused, none is reported: filing it fails. -/
@[simp] theorem events_insert_reject (path : String) (c : Catalog α) (record : α) :
    (c.insert .reject path record).2.events = [] := by
  by_cases hmem : c.contains (Record.name record) = true
  · simp [insert, if_pos hmem]
  · simp [insert, if_neg hmem]

/-- Where a second declaration fails, it is not reported beside. -/
@[simp] theorem events_insertAll_reject (path : String) (c : Catalog α) (records : List α) :
    (c.insertAll .reject path records).2.events = [] := by
  induction records generalizing c with
  | nil => rfl
  | cons record rest ih =>
    cases hanswer : (c.insert .reject path record).2.answer with
    | error failure => simp [insertAll_cons_of_error hanswer]
    | ok insertion => simp [insertAll_cons_of_ok hanswer, ih]

end Catalog

/-- How many records of the sort were stored. -/
def Tally.count (tally : Tally) : TypeKind → Nat
  | .classKind => tally.classes
  | .enumKind => tally.enums

namespace Catalogs

variable {policy : Policy} {path : String} {c other next : Catalogs} {tally : Tally}

/-- How many records of the sort there are. -/
def count (c : Catalogs) : TypeKind → Nat
  | .classKind => c.classes.size
  | .enumKind => c.enums.size

/-- So many records of either sort were filed and so many of them stored. -/
structure Accounts (policy : Policy) (c next : Catalogs) (filed : TypeKind → Nat) (stored : Tally)
    (events : List Event) : Prop where
  balance : ∀ kind, next.count kind + Event.repeats kind events = c.count kind + filed kind
  growth : policy ≠ .overwrite → ∀ kind, next.count kind = c.count kind + stored.count kind

/-- The classes are weighed by themselves, and so are the enums. -/
theorem Accounts.of_sorts {filedClasses filedEnums : Nat} {xs ys : List Event}
    (hclasses : Catalog.Accounts policy c.classes next.classes filedClasses tally.classes xs)
    (henums : Catalog.Accounts policy c.enums next.enums filedEnums tally.enums ys) :
    Accounts policy c next
      (fun | .classKind => filedClasses | .enumKind => filedEnums) tally (xs ++ ys) where
  balance kind := by
    rw [Event.repeats_append]
    cases kind with
    | classKind =>
      rw [henums.silent .classKind nofun]
      exact hclasses.balance
    | enumKind =>
      rw [hclasses.silent .enumKind nofun, Nat.zero_add]
      exact henums.balance
  growth hpolicy kind := by
    cases kind with
    | classKind => exact hclasses.growth hpolicy
    | enumKind => exact henums.growth hpolicy

/-- The records of other catalogs are accounted for once they are filed. -/
theorem fill_accounts (h : (c.fill policy path other).2.answer = .ok tally) :
    Accounts policy c (c.fill policy path other).1 other.count tally
      (c.fill policy path other).2.events := by
  have hfiled : other.count = fun
      | .classKind => other.classes.records.length
      | .enumKind => other.enums.records.length := by
    funext kind
    cases kind <;> simp [count, Catalog.size, Catalog.records]
  rw [hfiled]
  cases hclasses : (c.classes.insertAll policy path other.classes.records).2.answer with
  | error failure =>
    simp only [fill, hclasses] at h
    cases h
  | ok classCount =>
    simp only [fill, hclasses] at h ⊢
    obtain ⟨enumCount, henums, rfl⟩ := Report.answer_map_eq_ok_iff.1 h
    exact .of_sorts (Catalog.insertAll_accounts hclasses) (Catalog.insertAll_accounts henums)

/-- A merge that succeeds accounts for all records of the other catalogs. -/
theorem merge_accounts (h : (c.merge policy path other).2.answer = .ok tally) :
    Accounts policy c (c.merge policy path other).1 other.count tally
      (c.merge policy path other).2.events := by
  rw [merge] at h ⊢
  split at h
  · cases h
  · exact fill_accounts h

/-- Where a second declaration fails, filing other catalogs reports nothing. -/
theorem events_fill_reject (path : String) (c other : Catalogs) :
    (c.fill .reject path other).2.events = [] := by
  rw [fill]
  cases hanswer : (c.classes.insertAll .reject path other.classes.records).2.answer <;>
    simp [hanswer]

/-- Where a second declaration fails, a merge reports nothing. -/
theorem events_merge_reject (path : String) (c other : Catalogs) :
    (c.merge .reject path other).2.events = [] := by
  rw [merge]
  split
  · rfl
  · exact events_fill_reject ..

end Catalogs

end TypeCatalog
