import TypeCatalog.Signature.Layout

/-!
# Method declarations

A method declaration is kept as the texts of its parts, each exactly as written. `Method.source`
writes the parts in source order; `Method.signature` is the one line that is left when comments,
attributes, constraints and body are taken away and the rest is laid out anew.
-/

namespace TypeCatalog

/-- The body of a method. -/
inductive Method.Body where
  /-- Statements in braces. -/
  | block (text : String)
  /-- An arrow and an expression, without the semicolon. -/
  | expression (text : String)
  deriving DecidableEq, Repr

/-- A method declaration, split into its parts. -/
structure Method where
  /-- The comments directly above the declaration. -/
  comments : List String := []
  attributes : List String := []
  modifiers : List String := []
  returnType : String := ""
  /-- The name, after the interface it implements explicitly, if any. -/
  name : String := ""
  /-- The type parameters with their angle brackets. -/
  typeParameters : Option String := none
  /-- The parameters with their parentheses. -/
  parameters : String := ""
  /-- The `where` clauses. -/
  constraints : List String := []
  body : Option Method.Body := none
  deriving DecidableEq, Repr, Inhabited

namespace Method

/-- The parts that a signature does without. -/
inductive Part where
  | comments
  | attributes
  | constraints
  | body
  deriving DecidableEq, Repr

/-- The method without one of its parts. -/
def without (part : Part) (m : Method) : Method :=
  match part with
  | .comments => { m with comments := [] }
  | .attributes => { m with attributes := [] }
  | .constraints => { m with constraints := [] }
  | .body => { m with body := none }

/-- What closes a method that is written without a block. -/
def semicolon : String := ";"

/-- The texts before the name, in source order; a missing one leaves no trace. -/
def leading (m : Method) : List String :=
  (m.comments ++ m.attributes ++ m.modifiers ++ [m.returnType]).filter (!·.isEmpty)

/-- The name with its type parameters and parameters, which are written without spaces. -/
def head (m : Method) : String := m.name ++ m.typeParameters.getD "" ++ m.parameters

/-- What a method ends with, led by a space where it has a body. -/
def ending (m : Method) : String :=
  match m.body with
  | some (.block text) => " " ++ text
  | some (.expression text) => " " ++ text ++ semicolon
  | none => semicolon

/-- The method in source order, as far as its parts are present. -/
def source (m : Method) : String :=
  String.join (m.leading.map (· ++ " ")) ++ m.head ++
    String.join (m.constraints.map (" " ++ ·)) ++ m.ending

/-- The method with nothing but what its signature shows. -/
def bare (m : Method) : Method :=
  (((m.without .attributes).without .constraints).without .body).without .comments

/-- The signature of a method, on one line. -/
def signature (m : Method) : String := Signature.normalize m.bare.source

end Method

end TypeCatalog
