import TypeCatalog.Method

/-!
# Declarations

What is declared in a source text: classes and enums, which a catalog records, and other
declarations, which are recognised and passed over.
-/

namespace TypeCatalog

/-- The sorts of declaration that a catalog records. -/
inductive TypeKind where
  | classKind
  | enumKind
  deriving DecidableEq, Repr

/-- The keyword of a recorded sort. -/
def TypeKind.keyword : TypeKind → String
  | classKind => "class"
  | enumKind => "enum"

/-- The sorts of declaration that are passed over. -/
inductive OtherKind where
  | interfaceKind
  | structKind
  | recordKind
  | delegateKind
  | namespaceKind
  deriving DecidableEq, Repr

/-- The keyword of a sort that is passed over. -/
def OtherKind.keyword : OtherKind → String
  | interfaceKind => "interface"
  | structKind => "struct"
  | recordKind => "record"
  | delegateKind => "delegate"
  | namespaceKind => "namespace"

/-- A class with its direct members, fields, properties and events as written. -/
structure ClassDeclaration where
  name : String := ""
  /-- The base class and the interfaces, in source order. -/
  parents : List String := []
  fields : List String := []
  properties : List String := []
  events : List String := []
  methods : List Method := []
  deriving DecidableEq, Repr, Inhabited

/-- An enum with the names of its constants, in source order and with repetitions. -/
structure EnumDeclaration where
  name : String := ""
  constants : List String := []
  deriving DecidableEq, Repr, Inhabited

/-- A declaration. -/
inductive Declaration where
  | ofClass (declaration : ClassDeclaration)
  | ofEnum (declaration : EnumDeclaration)
  | other (kind : OtherKind) (name : Option String)
  deriving DecidableEq, Repr

/-- The name of a declaration; only one that is passed over may lack it. -/
def Declaration.name? : Declaration → Option String
  | ofClass declaration => some declaration.name
  | ofEnum declaration => some declaration.name
  | other _ name => name

end TypeCatalog
