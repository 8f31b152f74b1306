/-!
# Syntax trees

The tree that a parser makes of a source text. A node knows its kind, which octets of the text it
spans, whether the grammar names it, whether it holds a syntax error, and which role (field) it
has in its parent.

## Main definitions

- `SyntaxTree.walk` — the nodes in pre-order, each with its depth and its earlier siblings
- `SyntaxTree.ofOutline?` — the tree whose nodes are listed in pre-order with their depths
-/

namespace TypeCatalog

/-- What is known of a single node. -/
structure SyntaxTree.Info where
  kind : String
  /-- The first octet of the node. -/
  start : Nat
  /-- The octet after its last one. -/
  stop : Nat
  /-- Whether the grammar names the node; a keyword or a bracket is anonymous. -/
  named : Bool := true
  /-- Whether the node is or holds a syntax error. -/
  faulty : Bool := false
  /-- The role of the node in its parent. -/
  field : Option String := none
  deriving DecidableEq, Repr

/-- A node with its children in source order. -/
inductive SyntaxTree where
  | node (info : SyntaxTree.Info) (children : List SyntaxTree)
  deriving Repr

namespace SyntaxTree

/-- What is known of the root node. -/
def info : SyntaxTree → Info
  | node info _ => info

/-- The children of the root node. -/
def children : SyntaxTree → List SyntaxTree
  | node _ children => children

/-- The kind of the root node. -/
def kind (t : SyntaxTree) : String := t.info.kind

/-- Whether the node is a comment. -/
def isComment (t : SyntaxTree) : Bool := t.kind == "comment"

/-- Whether the node is or holds a syntax error. -/
def isFaulty (t : SyntaxTree) : Bool := t.info.faulty || t.kind == "ERROR"

/-- The children that the grammar names. -/
def namedChildren (t : SyntaxTree) : List SyntaxTree := t.children.filter (·.info.named)

/-- The children of one kind. -/
def childrenOfKind (t : SyntaxTree) (kind : String) : List SyntaxTree :=
  t.children.filter (·.kind == kind)

/-- The first child of one kind. -/
def childOfKind? (t : SyntaxTree) (kind : String) : Option SyntaxTree :=
  t.children.find? (·.kind == kind)

/-- The first child with one role. -/
def childWithField? (t : SyntaxTree) (field : String) : Option SyntaxTree :=
  t.children.find? (·.info.field == some field)

/-- The child that names a declaration: the one with the role `name`, else the first
identifier. -/
def nameNode? (t : SyntaxTree) : Option SyntaxTree :=
  t.childWithField? "name" <|> t.childOfKind? "identifier"

/-- The body of a type declaration: the child with the role `body` if it is of the given kind, else
the first child of that kind. -/
def bodyOfKind? (t : SyntaxTree) (kind : String) : Option SyntaxTree :=
  (t.childWithField? "body").filter (·.kind == kind) <|> t.childOfKind? kind

/-! ### Walking a tree -/

/-- A node as a walk meets it. -/
structure Visit where
  depth : Nat
  node : SyntaxTree
  /-- The siblings before the node, the nearest one first. -/
  earlier : List SyntaxTree
  deriving Repr

mutual

/-- The nodes of a tree in pre-order; its root has the given depth and earlier siblings. -/
def walkFrom (depth : Nat) (earlier : List SyntaxTree) : SyntaxTree → List Visit
  | node info children =>
    ⟨depth, node info children, earlier⟩ :: walkSiblings (depth + 1) [] children

/-- The nodes of several siblings in pre-order. -/
def walkSiblings (depth : Nat) (earlier : List SyntaxTree) : List SyntaxTree → List Visit
  | [] => []
  | t :: rest => walkFrom depth earlier t ++ walkSiblings depth (t :: earlier) rest

end

/-- The nodes of a tree in pre-order. -/
def walk (t : SyntaxTree) : List Visit := walkFrom 0 [] t

/-- The children of a node, each with its earlier siblings. -/
def visits (depth : Nat) (earlier : List SyntaxTree) : List SyntaxTree → List Visit
  | [] => []
  | t :: rest => ⟨depth, t, earlier⟩ :: visits depth (t :: earlier) rest

/-- The nodes of the visits are the children, in order. -/
theorem map_node_visits (depth : Nat) (earlier ts : List SyntaxTree) :
    (visits depth earlier ts).map (·.node) = ts := by
  induction ts generalizing earlier with
  | nil => rfl
  | cons t rest ih => simp [visits, ih]

/-- The comments directly above a node, in source order: the longest run of comments among its
siblings that ends where the node begins. -/
def Visit.commentsAbove (v : Visit) : List SyntaxTree :=
  (v.earlier.takeWhile isComment).reverse

/-! ### Trees from outlines -/

/-- Puts a node before the trees that follow it: those deeper than the node become its
children. -/
def graft (entry : Nat × Info) (following : List (Nat × SyntaxTree)) : List (Nat × SyntaxTree) :=
  (entry.1, node entry.2 ((following.takeWhile (entry.1 < ·.1)).map (·.2))) ::
    following.dropWhile (entry.1 < ·.1)

/-- The tree whose nodes are listed in pre-order, each with its depth, if they form one tree. -/
def ofOutline? (entries : List (Nat × Info)) : Option SyntaxTree :=
  match entries.foldr graft [] with
  | [(_, t)] => some t
  | _ => none

end SyntaxTree

end TypeCatalog
