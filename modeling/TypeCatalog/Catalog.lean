import TypeCatalog.Policy
import TypeCatalog.Record
import TypeCatalog.Report

/-!
# Catalogs

A catalog files records under their names, in the order in which the names first came. What
happens to a second record of a name is decided by a policy.

## Main definitions

- `Catalog.insert` — files a record under its name
- `Catalog.insertAll` — files several records and counts those that were stored
- `Catalog.firstShared?` — the first name of another catalog that is taken
-/

namespace TypeCatalog

/-- Records under their names, in the order in which the names first came. -/
structure Catalog (α : Type) where
  entries : List (String × α) := []
  deriving DecidableEq, Repr

/-- What became of a record that was filed. -/
inductive Insertion where
  /-- Its name was free. -/
  | new
  /-- It took the place of an earlier record. -/
  | replaced
  /-- An earlier record kept its place. -/
  | kept
  deriving DecidableEq, Repr

namespace Insertion

/-- The name of an outcome. -/
def name : Insertion → String
  | new => "new"
  | replaced => "replaced"
  | kept => "kept"

/-- Whether the record is now in the catalog. -/
def stored : Insertion → Bool
  | kept => false
  | _ => true

end Insertion

namespace Catalog

variable {α : Type}

/-- The catalog without records. -/
def empty : Catalog α := {}

instance : Inhabited (Catalog α) := ⟨empty⟩

/-- The names in the catalog, in order. -/
def names (c : Catalog α) : List String := c.entries.map (·.1)

/-- The records in the catalog, in order. -/
def records (c : Catalog α) : List α := c.entries.map (·.2)

/-- How many records the catalog holds. -/
def size (c : Catalog α) : Nat := c.entries.length

/-- Whether the catalog holds no record. -/
def isEmpty (c : Catalog α) : Bool := c.entries.isEmpty

/-- Whether a name is in the catalog. -/
def contains (c : Catalog α) (name : String) : Bool := c.names.contains name

/-- The record filed under a name. -/
def get? (c : Catalog α) (name : String) : Option α := c.entries.lookup name

/-- The catalog with a record put after all others. -/
def append (c : Catalog α) (name : String) (record : α) : Catalog α :=
  ⟨c.entries ++ [(name, record)]⟩

/-- The catalog with another record in the place of a name. -/
def replace (c : Catalog α) (name : String) (record : α) : Catalog α :=
  ⟨c.entries.map fun entry => if entry.1 = name then (name, record) else entry⟩

/-- A name is in a catalog exactly when it is one of its names. -/
theorem contains_iff {c : Catalog α} {name : String} :
    c.contains name = true ↔ name ∈ c.names := by
  simp [contains]

@[simp] theorem names_append (c : Catalog α) (name : String) (record : α) :
    (c.append name record).names = c.names ++ [name] := by
  simp [append, names]

/-- Another record in the place of a name leaves the names and their order. -/
@[simp] theorem names_replace (c : Catalog α) (name : String) (record : α) :
    (c.replace name record).names = c.names := by
  simp only [replace, names, List.map_map]
  apply List.map_congr_left
  intro entry _
  by_cases h : entry.1 = name <;> simp [h]

/-- A catalog has as many names as records. -/
theorem length_names (c : Catalog α) : c.names.length = c.size := by simp [names, size]

/-- Files a record under its name. -/
def insert [Record α] (policy : Policy) (path : String) (c : Catalog α) (record : α) :
    Catalog α × Report Insertion :=
  let name := Record.name record
  let kind := Record.kind α
  if c.contains name then
    match policy with
    | .reject => (c, .failed (.duplicate name kind path))
    | .overwrite => (c.replace name record, .done .replaced [.duplicate kind name path true])
    | .keepFirst => (c, .done .kept [.duplicate kind name path false])
  else (c.append name record, .done .new)

/-- Files several records, up to the first that is refused, and counts those that were stored. -/
def insertAll [Record α] (policy : Policy) (path : String) (c : Catalog α) :
    List α → Catalog α × Report Nat
  | [] => (c, .done 0)
  | record :: rest =>
    let (next, report) := c.insert policy path record
    match report.answer with
    | .error failure => (next, .failed failure report.events)
    | .ok insertion =>
      let (last, count) := insertAll policy path next rest
      (last, (count.map (insertion.stored.toNat + ·)).after report.events)

/-- The first name of another catalog that is in this one. -/
def firstShared? (c other : Catalog α) : Option String := other.names.find? c.contains

/-- Whether two catalogs file the same records under the same names, in whatever order. -/
def sameRecords [DecidableEq α] (c other : Catalog α) : Bool :=
  c.size == other.size &&
    c.entries.all fun entry => decide (other.get? entry.1 = some entry.2)

end Catalog

end TypeCatalog
