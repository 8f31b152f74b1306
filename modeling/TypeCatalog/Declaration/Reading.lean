import TypeCatalog.Declaration
import TypeCatalog.Source

/-!
# Declarations of a syntax tree

Every node of a tree is looked at in pre-order, so that a declaration comes before what is nested
in it. A member belongs to the type that directly contains it.

## Main definitions

- `Source.method?` — a method declaration split into its parts
- `Source.declaration?` — the declaration that a node is
- `Source.declarations` — the declarations of a tree
-/

namespace TypeCatalog

open SyntaxTree (Visit)

namespace Source

/-! ### Methods -/

/-- The kinds of node that may stand before the parameters of a method without belonging to its
return type or name. -/
def asideKinds : List String := ["attribute_list", "modifier", "type_parameter_list", "comment"]

/-- The return type and the name of a method, in this order and with an explicit interface between
them: what stands before the parameters. -/
def methodHead (t : SyntaxTree) : List SyntaxTree :=
  (t.children.takeWhile (·.kind != "parameter_list")).filter (!asideKinds.contains ·.kind)

/-- Splits the head of a method after its last identifier, which ends the name. The first part
holds what is before the identifier. -/
def splitName? (head : List SyntaxTree) : Option (List SyntaxTree × SyntaxTree) :=
  match head.reverse.dropWhile (·.kind != "identifier") with
  | [] => none
  | identifier :: before => some (before.reverse, identifier)

/-- The body that a child of a method is. -/
def methodBody? (s : Source) (t : SyntaxTree) : Option Method.Body :=
  if t.kind = "block" then some (.block (s.text t))
  else if t.kind = "arrow_expression_clause" then some (.expression (s.text t))
  else none

/-- A method declaration split into its parts, if it has parameters and a name before them. -/
def method? (s : Source) (v : Visit) : Option Method := do
  let parameters ← v.node.childOfKind? "parameter_list"
  let (before, identifier) ← splitName? (methodHead v.node)
  let returnType := before.takeWhile (·.kind != "explicit_interface_specifier")
  let qualifier := before.dropWhile (·.kind != "explicit_interface_specifier")
  return {
    comments := s.commentsAbove v
    attributes := s.textsOfKind v.node "attribute_list"
    modifiers := s.textsOfKind v.node "modifier"
    returnType := String.intercalate " " (returnType.map s.text)
    name := String.join (qualifier.map s.text) ++ s.text identifier
    typeParameters := (v.node.childOfKind? "type_parameter_list").map s.text
    parameters := s.text parameters
    constraints := s.textsOfKind v.node "type_parameter_constraints_clause"
    body := v.node.children.findSome? s.methodBody? }

/-! ### Classes -/

/-- The text of an entry of a base list: of its type alone, if it also passes arguments. -/
def parent (s : Source) (t : SyntaxTree) : String :=
  if t.kind = "primary_constructor_base_type" then
    s.text (((t.childWithField? "type") <|> t.namedChildren.head?).getD t)
  else s.text t

/-- The parents of a class, in source order. -/
def parents (s : Source) (t : SyntaxTree) : List String :=
  match t.childOfKind? "base_list" with
  | none => []
  | some baseList =>
    (baseList.namedChildren.filter fun c => !c.isComment && c.kind != "argument_list").map s.parent

/-- The direct members of a class. -/
def members (t : SyntaxTree) : List Visit :=
  match t.bodyOfKind? "declaration_list" with
  | none => []
  | some body => (SyntaxTree.visits 0 [] body.children).filter (·.node.info.named)

/-- The direct members of one kind. -/
def membersOfKind (t : SyntaxTree) (kind : String) : List Visit :=
  (members t).filter (·.node.kind == kind)

/-- The direct members of one kind, as written. -/
def memberTexts (s : Source) (t : SyntaxTree) (kind : String) : List String :=
  (membersOfKind t kind).map (s.text ·.node)

/-- The class that a node declares, given its name. -/
def classNamed (s : Source) (t : SyntaxTree) (name : String) : ClassDeclaration where
  name := name
  parents := s.parents t
  fields := s.memberTexts t "field_declaration"
  properties := s.memberTexts t "property_declaration"
  events := s.memberTexts t "event_field_declaration"
  methods := (membersOfKind t "method_declaration").filterMap s.method?

/-! ### Enums -/

/-- The names of the constants of an enum. -/
def constants (s : Source) (t : SyntaxTree) : List String :=
  match t.bodyOfKind? "enum_member_declaration_list" with
  | none => []
  | some body => (body.childrenOfKind "enum_member_declaration").filterMap s.name?

/-! ### Declarations -/

/-- The sort of a declaration that is passed over, by the kind of its node. -/
def otherKind? (kind : String) : Option OtherKind :=
  [("interface_declaration", OtherKind.interfaceKind),
    ("struct_declaration", .structKind),
    ("record_declaration", .recordKind),
    ("record_struct_declaration", .recordKind),
    ("delegate_declaration", .delegateKind),
    ("namespace_declaration", .namespaceKind),
    ("file_scoped_namespace_declaration", .namespaceKind)].lookup kind

/-- The declaration that a node is. A class or an enum needs a name. -/
def declaration? (s : Source) (t : SyntaxTree) : Option Declaration :=
  if t.kind = "class_declaration" then
    (s.name? t).map fun name => .ofClass (s.classNamed t name)
  else if t.kind = "enum_declaration" then
    (s.name? t).map fun name => .ofEnum ⟨name, s.constants t⟩
  else
    (otherKind? t.kind).map fun kind => .other kind (s.name? t)

/-- The declarations of a tree in pre-order. -/
def declarations (s : Source) (t : SyntaxTree) : List Declaration :=
  t.walk.filterMap (s.declaration? ·.node)

end Source

end TypeCatalog
