/-!
# Tokens of a signature

A signature is read as a list of tokens: words, literals and punctuation. Blanks and comments are
not among them.
-/

namespace TypeCatalog.Signature

/-- Whether something is in a list is decided by comparing it with the members. -/
instance decidableMem {α : Type} [DecidableEq α] (a : α) (l : List α) : Decidable (a ∈ l) :=
  List.instDecidableMemOfLawfulBEq a l

/-- The three sorts of token. -/
inductive Token.Kind where
  /-- An identifier or a keyword. -/
  | word
  /-- A string, a character or a number. -/
  | literal
  /-- An operator, a bracket or any other sign. -/
  | punct
  deriving DecidableEq, Repr

/-- A token: its sort and the characters it is written with. -/
structure Token where
  kind : Token.Kind
  text : List Char
  deriving DecidableEq, Repr

namespace Token

/-- Keywords that never name a type, so that `(` and `<` keep their space after them:
`public (int, int) F()`. -/
def nonTypeKeywords : List (List Char) :=
  ["abstract", "async", "const", "extern", "file", "in", "internal", "new", "out", "override",
    "params", "partial", "private", "protected", "public", "readonly", "ref", "required",
    "scoped", "sealed", "static", "this", "unsafe", "virtual", "volatile"].map String.toList

/-- Keywords that begin a value, so that they can follow a conditional `?` but never a nullable
one. -/
def valueStarters : List (List Char) :=
  ["default", "false", "nameof", "new", "null", "sizeof", "this", "true", "typeof"].map
    String.toList

/-- Whether the token is punctuation with one of the given texts. -/
def isPunctOf (t : Token) (texts : List (List Char)) : Bool :=
  t.kind == .punct && t.text ∈ texts

/-- Whether the token can end the name of a type: a word that is no modifier. -/
def canEndType (t : Token) : Bool :=
  t.kind == .word && t.text ∉ nonTypeKeywords

/-- Whether `t` is a sign written before its operand, given the token before it. -/
def isSign (before : Option Token) (t : Token) : Bool :=
  t.text ∈ [['-'], ['+'], ['!'], ['~']] &&
    before.all (·.isPunctOf [['='], ['('], [','], ['['], [':']])

/-- Whether `new` after this token begins a value and is no modifier. -/
def opensValue (t : Token) : Bool :=
  t.isPunctOf [['='], ['('], [','], ['['], ['?'], [':']]

/-- Whether a `?` followed by this token, or by nothing, marks a nullable type and is not the
conditional operator. -/
def marksNullable : Option Token → Bool
  | none => true
  | some t =>
    match t.kind with
    | .word => t.text ∉ valueStarters
    | .literal => false
    | .punct => t.text ∈ [[','], [')'], ['>'], ['['], [']'], [';'], ['*'], ['?']]

end Token

end TypeCatalog.Signature
