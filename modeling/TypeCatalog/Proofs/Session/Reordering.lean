import TypeCatalog.Proofs.Catalog.Contents
import TypeCatalog.Proofs.Session.Reading

/-!
# Reordering a batch

Where second records are refused, the order of a batch of files does not matter: what is refused is
a matter of which names are declared and how often, and what is accepted keeps its record. Only the
places of the new records, and of the files that are skipped, depend on it.

## Main definitions

- `Catalog.Rearranged` — that two catalogs hold the same records, whatever their order

## Main statements

- `Catalog.rearranged_fileAll` — records may be filed in any order
- `Session.addFiles_perm` — files may be extracted in any order
-/

namespace TypeCatalog

namespace Catalog

variable {α : Type}

/-- Two catalogs hold the same records and find the same record under every name. -/
structure Rearranged (c other : Catalog α) : Prop where
  entries : c.entries.Perm other.entries
  get? : ∀ name, c.get? name = other.get? name

variable [Record α] {policy : Policy} {c : Catalog α} {xs ys : List α}

/-- The order of records does not matter for whether they are refused. -/
theorem accepts_iff_of_perm (h : xs.Perm ys) : c.Accepts policy xs ↔ c.Accepts policy ys := by
  simp only [Accepts, (h.map Record.name).nodup_iff, h.mem_iff]

/-- Records that are accepted may be filed in any order. -/
theorem rearranged_fileAll (h : xs.Perm ys) (haccepts : c.Accepts .reject xs) :
    (c.fileAll .reject xs).Rearranged (c.fileAll .reject ys) := by
  have hxs := entries_fileAll_of_accepts haccepts
  have hys := entries_fileAll_of_accepts ((accepts_iff_of_perm h).1 haccepts)
  have hadded := h.map fun record => (Record.name record, record)
  have hnodup : ((xs.map fun record => (Record.name record, record)).map (·.1)).Nodup := by
    rw [List.map_map]
    exact (haccepts rfl).1
  refine ⟨?_, fun name => ?_⟩
  · rw [hxs, hys]
    exact hadded.append_left _
  · rw [get?, get?, hxs, hys, List.lookup_append, List.lookup_append,
      lookup_perm hadded hnodup]

end Catalog

namespace Catalogs

variable {env : Environment} {policy : Policy} {c : Catalogs} {xs ys : List Declaration}
  {paths paths' : List String}

/-- The order of declarations does not matter for whether they are refused. -/
theorem admits_iff_of_perm (h : xs.Perm ys) : c.Admits policy xs ↔ c.Admits policy ys :=
  and_congr (Catalog.accepts_iff_of_perm (h.filterMap _))
    (Catalog.accepts_iff_of_perm (h.filterMap _))

/-- The order of files does not matter for whether the batch is admitted. -/
theorem admitsFiles_iff_of_perm (h : paths.Perm paths') :
    c.AdmitsFiles env policy paths ↔ c.AdmitsFiles env policy paths' := by
  have hadmits : c.Admits policy (paths.flatMap (Intake.stream env)) ↔
      c.Admits policy (paths'.flatMap (Intake.stream env)) :=
    admits_iff_of_perm (h.flatMap_right _)
  have hlegible : (∀ path ∈ paths, Intake.Legible env path) ↔
      ∀ path ∈ paths', Intake.Legible env path := by
    simp only [h.mem_iff]
  exact ⟨fun ⟨hxs, hadmitted⟩ => ⟨hlegible.1 hxs, hadmits.1 hadmitted⟩,
    fun ⟨hys, hadmitted⟩ => ⟨hlegible.2 hys, hadmits.2 hadmitted⟩⟩

end Catalogs

namespace Session

variable {paths paths' : List String}

/-- Where second records are refused, a batch of files succeeds in one order if and only if it does
in any other. It then finds the same record under every name, and skips the same files. -/
theorem addFiles_perm (env : Environment) (s : Session) (hpolicy : s.policy = .reject)
    (hperm : paths.Perm paths') :
    ((∃ summary, (s.addFiles env paths).2.answer = .ok summary) ↔
        ∃ summary, (s.addFiles env paths').2.answer = .ok summary) ∧
      ((∃ summary, (s.addFiles env paths).2.answer = .ok summary) →
        (s.addFiles env paths).1.catalogs.classes.Rearranged
            (s.addFiles env paths').1.catalogs.classes ∧
          (s.addFiles env paths).1.catalogs.enums.Rearranged
            (s.addFiles env paths').1.catalogs.enums ∧
          ∃ added added', (s.addFiles env paths).1.skipped = s.skipped ++ added ∧
            (s.addFiles env paths').1.skipped = s.skipped ++ added' ∧ added.Perm added') := by
  rw [addFiles_answer_iff, addFiles_answer_iff]
  refine ⟨Catalogs.admitsFiles_iff_of_perm hperm, fun h => ?_⟩
  have h' := (Catalogs.admitsFiles_iff_of_perm hperm).1 h
  rw [(addFiles_of_admits h).1, (addFiles_of_admits h').1]
  have hstreams := hperm.flatMap_right (Intake.stream env)
  rw [hpolicy] at h ⊢
  exact ⟨Catalog.rearranged_fileAll (hstreams.filterMap _) h.admitted.1,
    Catalog.rearranged_fileAll (hstreams.filterMap _) h.admitted.2, _, _, rfl, rfl,
    hperm.flatMap_right _⟩

/-- Two files with a class each, and nothing else. -/
def twoClasses : Environment where
  find
    | "A.cs" => .regular (Text.Utf8.encode "class A { }")
    | "B.cs" => .regular (Text.Utf8.encode "class B { }")
    | _ => .missing
  parse _ := .node { kind := "compilation_unit", start := 0, stop := 11 }
    [.node { kind := "class_declaration", start := 0, stop := 11 }
      [.node { kind := "identifier", start := 6, stop := 7, field := some "name" } []]]

/-- The order of the classes is that of the files, and nothing else depends on it. -/
theorem addFiles_perm_twoClasses :
    ({} : Session).policy = .reject ∧
      ["A.cs", "gone.cs", "B.cs"].Perm ["B.cs", "A.cs", "gone.cs"] ∧
      ((addFiles twoClasses ["A.cs", "gone.cs", "B.cs"] {}).2.answer =
        .ok { processed := ["A.cs", "B.cs"], skipped := [⟨"gone.cs", .notFound⟩] }) ∧
      (addFiles twoClasses ["A.cs", "gone.cs", "B.cs"] {}).1.catalogs.classes.names = ["A", "B"] ∧
      (addFiles twoClasses ["B.cs", "A.cs", "gone.cs"] {}).1.catalogs.classes.names = ["B", "A"] ∧
      (addFiles twoClasses ["A.cs", "gone.cs", "B.cs"] {}).1.catalogs.classes.Rearranged
        (addFiles twoClasses ["B.cs", "A.cs", "gone.cs"] {}).1.catalogs.classes := by
  have hperm : ["A.cs", "gone.cs", "B.cs"].Perm ["B.cs", "A.cs", "gone.cs"] := by decide
  have hanswer : (addFiles twoClasses ["A.cs", "gone.cs", "B.cs"] {}).2.answer =
      .ok { processed := ["A.cs", "B.cs"], skipped := [⟨"gone.cs", .notFound⟩] } := by rfl
  exact ⟨rfl, hperm, hanswer, by decide, by decide,
    ((addFiles_perm twoClasses {} rfl hperm).2 ⟨_, hanswer⟩).1⟩

end Session

end TypeCatalog
