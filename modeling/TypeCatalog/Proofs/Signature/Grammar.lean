import TypeCatalog.Signature.Layout

/-!
# A grammar of signatures

Method signatures as they are written without attributes, constraints and bodies: types with type
arguments, array ranks, tuples and nullable marks, nested as deep as one likes, and parameters with
modifiers and default values. Every phrase of the grammar has its tokens, and the text that it is
conventionally written as.

## Main definitions

- `Signature.TypeTerm`, `Signature.Path`, `Signature.Element` — types, qualified names and the
  elements of tuples
- `Signature.Parameter` — a parameter
- `Signature.Heading` — a whole signature
- `Signature.Heading.tokens` — the tokens of a signature
- `Signature.Heading.render` — the text it is conventionally written as
-/

namespace TypeCatalog.Signature

/-- A name: a word that is no modifier and begins no value. -/
structure Name where
  text : List Char
  isWord : word? text = some (text, [])
  notModifier : text ∉ Token.nonTypeKeywords
  notValue : text ∉ Token.valueStarters

def Name.token (n : Name) : Token := ⟨.word, n.text⟩

/-- What may stand behind the path of a type. -/
inductive Suffix where
  | bare
  | nullable
  /-- An array of as many dimensions as there are commas, and one more. -/
  | array (commas : Nat)

mutual

/-- A type. -/
inductive TypeTerm where
  | named (path : Path) (suffix : Suffix)
  /-- A tuple of at least two elements. -/
  | tuple (first second : Element) (more : List Element) (nullable : Bool)

/-- A qualified name. Each of its segments may have type arguments. -/
inductive Path where
  /-- The first segment, which a name and two colons may precede. -/
  | segment (qualifier : Option Name) (name : Name) (args : List TypeTerm)
  | member (path : Path) (name : Name) (args : List TypeTerm)

/-- An element of a tuple, which may have a name. -/
inductive Element where
  | mk (type : TypeTerm) (label : Option Name)

end

/-- The modifiers of parameters. -/
def parameterModifiers : List (List Char) :=
  ["this", "ref", "out", "in", "params", "scoped", "readonly"].map String.toList

/-- The default value of a parameter. -/
inductive DefaultValue where
  | literal (text : List Char) (h : literal? text = some (text, []))
  | negative (text : List Char) (h : literal? text = some (text, []))
  | word (text : List Char) (h : word? text = some (text, []))

/-- A parameter. -/
structure Parameter where
  modifiers : List { text // text ∈ parameterModifiers }
  type : TypeTerm
  name : Name
  default : Option DefaultValue

/-- A signature. Its name may be qualified by the interface that the method belongs to. -/
structure Heading where
  modifiers : List { text // text ∈ Token.nonTypeKeywords }
  result : TypeTerm
  interface : Option Path
  name : Name
  typeParameters : List Name
  parameters : List Parameter

/-! ### Tokens -/

/-- A punctuation mark of one character. -/
def mark (c : Char) : Token := ⟨.punct, [c]⟩

/-- Phrases between brackets, with commas between them. -/
def bracketed (left right : Char) (phrases : List (List Token)) : List Token :=
  mark left :: [mark ','].intercalate phrases ++ [mark right]

/-- Type arguments or type parameters, if there are any. -/
def angled : List (List Token) → List Token
  | [] => []
  | phrases => bracketed '<' '>' phrases

def Suffix.tokens : Suffix → List Token
  | bare => []
  | nullable => [mark '?']
  | array commas => mark '[' :: List.replicate commas (mark ',') ++ [mark ']']

mutual

def TypeTerm.tokens : TypeTerm → List Token
  | .named path suffix => path.tokens ++ suffix.tokens
  | .tuple first second more nullable =>
    bracketed '(' ')' (first.tokens :: second.tokens :: elementTokens more) ++
      if nullable then [mark '?'] else []

def Path.tokens : Path → List Token
  | .segment none name args => name.token :: angled (typeTokens args)
  | .segment (some qualifier) name args =>
    qualifier.token :: ⟨.punct, [':', ':']⟩ :: name.token :: angled (typeTokens args)
  | .member path name args => path.tokens ++ mark '.' :: name.token :: angled (typeTokens args)

def Element.tokens : Element → List Token
  | .mk type none => type.tokens
  | .mk type (some label) => type.tokens ++ [label.token]

def typeTokens : List TypeTerm → List (List Token)
  | [] => []
  | t :: ts => t.tokens :: typeTokens ts

def elementTokens : List Element → List (List Token)
  | [] => []
  | e :: es => e.tokens :: elementTokens es

end

/-- The tokens of a default value, with those that introduce it. -/
def DefaultValue.tokens : DefaultValue → List Token
  | literal text _ => [mark '=', ⟨.literal, text⟩]
  | negative text _ => [mark '=', mark '-', ⟨.literal, text⟩]
  | word text _ => [mark '=', ⟨.word, text⟩]

def Parameter.tokens (p : Parameter) : List Token :=
  p.modifiers.map (fun m => ⟨.word, m.1⟩) ++ p.type.tokens ++ p.name.token ::
    (p.default.map DefaultValue.tokens).getD []

/-- The tokens of the name of a signature, with the interface before it. -/
def Heading.titleTokens (h : Heading) : List Token :=
  match h.interface with
  | none => [h.name.token]
  | some path => path.tokens ++ [mark '.', h.name.token]

/-- The tokens of a signature. -/
def Heading.tokens (h : Heading) : List Token :=
  h.modifiers.map (fun m => ⟨.word, m.1⟩) ++ h.result.tokens ++ h.titleTokens ++
    angled (h.typeParameters.map fun n => [n.token]) ++
    bracketed '(' ')' (h.parameters.map Parameter.tokens) ++ [mark ';']

/-! ### Texts -/

/-- Phrases between brackets, with a comma and a space between them. -/
def writeBracketed (left right : Char) (phrases : List (List Char)) : List Char :=
  left :: [',', ' '].intercalate phrases ++ [right]

/-- Type arguments or type parameters, if there are any. -/
def writeAngled : List (List Char) → List Char
  | [] => []
  | phrases => writeBracketed '<' '>' phrases

def Suffix.render : Suffix → List Char
  | bare => []
  | nullable => ['?']
  | array commas => '[' :: List.replicate commas ',' ++ [']']

mutual

def TypeTerm.render : TypeTerm → List Char
  | .named path suffix => path.render ++ suffix.render
  | .tuple first second more nullable =>
    writeBracketed '(' ')' (first.render :: second.render :: elementTexts more) ++
      if nullable then ['?'] else []

def Path.render : Path → List Char
  | .segment none name args => name.text ++ writeAngled (typeTexts args)
  | .segment (some qualifier) name args =>
    qualifier.text ++ ':' :: ':' :: name.text ++ writeAngled (typeTexts args)
  | .member path name args => path.render ++ '.' :: name.text ++ writeAngled (typeTexts args)

def Element.render : Element → List Char
  | .mk type none => type.render
  | .mk type (some label) => type.render ++ ' ' :: label.text

def typeTexts : List TypeTerm → List (List Char)
  | [] => []
  | t :: ts => t.render :: typeTexts ts

def elementTexts : List Element → List (List Char)
  | [] => []
  | e :: es => e.render :: elementTexts es

end

/-- The text of a default value, with what introduces it. -/
def DefaultValue.render : DefaultValue → List Char
  | literal text _ => '=' :: ' ' :: text
  | negative text _ => '=' :: ' ' :: '-' :: text
  | word text _ => '=' :: ' ' :: text

/-- Modifiers with a space behind each of them. -/
def writeModifiers (modifiers : List (List Char)) : List Char :=
  modifiers.flatMap fun text => text ++ [' ']

def Parameter.render (p : Parameter) : List Char :=
  writeModifiers (p.modifiers.map Subtype.val) ++ p.type.render ++ ' ' :: p.name.text ++
    (p.default.map fun value => ' ' :: value.render).getD []

/-- The text of the name of a signature, with the interface before it. -/
def Heading.title (h : Heading) : List Char :=
  match h.interface with
  | none => h.name.text
  | some path => path.render ++ '.' :: h.name.text

/-- The text that a signature is conventionally written as: a space behind each modifier, the
result and each comma between phrases, before the name of a parameter or an element, and around
the equals sign of a default value, and nowhere else. -/
def Heading.render (h : Heading) : List Char :=
  writeModifiers (h.modifiers.map Subtype.val) ++ h.result.render ++ ' ' :: h.title ++
    writeAngled (h.typeParameters.map Name.text) ++
    writeBracketed '(' ')' (h.parameters.map Parameter.render) ++ [';']

end TypeCatalog.Signature
