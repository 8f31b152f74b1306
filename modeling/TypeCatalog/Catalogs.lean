import TypeCatalog.Catalog

/-!
# Class and enum catalogs

The catalogs of one input or of a whole session: one for classes and one for enums, whose names do
not compete. Merging is all or nothing: names that are refused are looked for before anything is
stored.
-/

namespace TypeCatalog

/-- A catalog of classes and a catalog of enums. -/
structure Catalogs where
  classes : Catalog ClassRecord := {}
  enums : Catalog EnumRecord := {}
  deriving DecidableEq, Repr, Inhabited

/-- How many records were stored. -/
structure Tally where
  classes : Nat
  enums : Nat
  deriving DecidableEq, Repr

namespace Catalogs

/-- Whether there is neither a class nor an enum. -/
def isEmpty (c : Catalogs) : Bool := c.classes.isEmpty && c.enums.isEmpty

/-- Whether both catalogs hold the same records, in whatever order. -/
def sameRecords (c other : Catalogs) : Bool :=
  c.classes.sameRecords other.classes && c.enums.sameRecords other.enums

/-- The failure that a merge under `reject` ends in: the first class that is taken, else the first
enum that is taken. -/
def refusal? (path : String) (c other : Catalogs) : Option Failure :=
  match c.classes.firstShared? other.classes with
  | some name => some (.duplicate name .classKind path)
  | none => (c.enums.firstShared? other.enums).map (.duplicate · .enumKind path)

/-- Files the records of other catalogs, classes before enums, up to the first that is refused. -/
def fill (policy : Policy) (path : String) (c other : Catalogs) : Catalogs × Report Tally :=
  let (classes, classReport) := c.classes.insertAll policy path other.classes.records
  match classReport.answer with
  | .error failure => ({ c with classes := classes }, .failed failure classReport.events)
  | .ok classCount =>
    let (enums, enumReport) := c.enums.insertAll policy path other.enums.records
    (⟨classes, enums⟩, (enumReport.map (⟨classCount, ·⟩)).after classReport.events)

/-- Files the records of other catalogs, unless the policy refuses one of them. -/
def merge (policy : Policy) (path : String) (c other : Catalogs) : Catalogs × Report Tally :=
  match if policy = .reject then c.refusal? path other else none with
  | some failure => (c, .failed failure)
  | none => c.fill policy path other

end Catalogs

end TypeCatalog
