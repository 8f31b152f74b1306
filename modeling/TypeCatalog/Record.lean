import TypeCatalog.Declaration

/-!
# Records

What a catalog keeps of a class and of an enum. Methods are kept as their signatures.
-/

namespace TypeCatalog

/-- What is kept of a class. -/
structure ClassRecord where
  name : String := ""
  parents : List String := []
  fields : List String := []
  properties : List String := []
  events : List String := []
  /-- The signatures of the methods. -/
  methods : List String := []
  deriving DecidableEq, Repr, Inhabited

/-- What is kept of an enum. -/
structure EnumRecord where
  name : String := ""
  constants : List String := []
  deriving DecidableEq, Repr, Inhabited

/-- The records of one sort of declaration: each has a name. -/
class Record (α : Type) where
  kind : TypeKind
  name : α → String

instance : Record ClassRecord := ⟨.classKind, ClassRecord.name⟩

instance : Record EnumRecord := ⟨.enumKind, EnumRecord.name⟩

/-- What is kept of a class declaration. -/
def ClassDeclaration.record (declaration : ClassDeclaration) : ClassRecord where
  name := declaration.name
  parents := declaration.parents
  fields := declaration.fields
  properties := declaration.properties
  events := declaration.events
  methods := declaration.methods.map Method.signature

/-- What is kept of an enum declaration. -/
def EnumDeclaration.record (declaration : EnumDeclaration) : EnumRecord :=
  ⟨declaration.name, declaration.constants⟩

end TypeCatalog
