import TypeCatalog.Catalogs

/-!
# JSON documents

Catalogs are handed on as JSON documents made of strings, arrays and objects. A document is written
without blanks or over several lines; both ways share one printer and differ in a `Style`.

## Main definitions

- `Json.compact`, `Json.pretty` — a document as text
- `Catalogs.toJson` — catalogs as a document
-/

namespace TypeCatalog

/-- A document of strings, arrays and objects. -/
inductive Json where
  | string (text : String)
  | array (elements : List Json)
  | object (members : List (String × Json))
  deriving Repr

namespace Json

/-! ### Strings -/

/-- The lower-case hexadecimal digit of a number below sixteen. -/
def hexDigit (n : Nat) : Char := Char.ofNat (if n < 10 then '0'.toNat + n else 'a'.toNat + (n - 10))

/-- A character as it is written within a string: quotes, backslashes and the control characters
below the space are escaped, all else stands for itself. -/
def escape (c : Char) : List Char :=
  if c = '"' then ['\\', '"']
  else if c = '\\' then ['\\', '\\']
  else if c = '\x08' then ['\\', 'b']
  else if c = '\x0c' then ['\\', 'f']
  else if c = '\n' then ['\\', 'n']
  else if c = '\r' then ['\\', 'r']
  else if c = '\t' then ['\\', 't']
  else if c.toNat < 0x20 then ['\\', 'u', '0', '0', hexDigit (c.toNat / 16), hexDigit (c.toNat % 16)]
  else [c]

/-- A string in quotes. -/
def quote (text : String) : List Char := '"' :: text.toList.flatMap escape ++ ['"']

/-! ### Documents -/

/-- How a document is spread out: what stands before an element at some depth of nesting, and what
stands between the name of a member and its value. -/
structure Style where
  lineStart : Nat → List Char
  colon : List Char

/-- Everything on one line, without blanks. -/
def Style.compact : Style := ⟨fun _ => [], [':']⟩

/-- One element a line, indented by two spaces for each level. -/
def Style.pretty : Style := ⟨fun depth => '\n' :: List.replicate (2 * depth) ' ', [':', ' ']⟩

mutual

/-- A document in some style, at some depth of nesting. -/
def print (style : Style) (depth : Nat) : Json → List Char
  | string text => quote text
  | array [] => ['[', ']']
  | array (element :: rest) =>
    '[' :: style.lineStart (depth + 1) ++ print style (depth + 1) element ++
      printElements style (depth + 1) rest ++ style.lineStart depth ++ [']']
  | object [] => ['\x7b', '\x7d']
  | object ((name, value) :: rest) =>
    '\x7b' :: style.lineStart (depth + 1) ++ quote name ++ style.colon ++
      print style (depth + 1) value ++ printMembers style (depth + 1) rest ++
      style.lineStart depth ++ ['\x7d']

/-- The elements of an array after the first. -/
def printElements (style : Style) (depth : Nat) : List Json → List Char
  | [] => []
  | element :: rest =>
    ',' :: style.lineStart depth ++ print style depth element ++ printElements style depth rest

/-- The members of an object after the first. -/
def printMembers (style : Style) (depth : Nat) : List (String × Json) → List Char
  | [] => []
  | (name, value) :: rest =>
    ',' :: style.lineStart depth ++ quote name ++ style.colon ++ print style depth value ++
      printMembers style depth rest

end

/-- A document on one line. -/
def compact (document : Json) : String := String.ofList (document.print .compact 0)

/-- A document over several lines. -/
def pretty (document : Json) : String := String.ofList (document.print .pretty 0)

/-- An array of strings. -/
def strings (texts : List String) : Json := array (texts.map string)

end Json

/-! ### Catalogs as documents -/

/-- A class record as a document. -/
def ClassRecord.toJson (record : ClassRecord) : Json :=
  .object [("name", .string record.name), ("parents", .strings record.parents),
    ("fields", .strings record.fields), ("properties", .strings record.properties),
    ("events", .strings record.events), ("methods", .strings record.methods)]

/-- An enum record as a document. -/
def EnumRecord.toJson (record : EnumRecord) : Json :=
  .object [("name", .string record.name), ("constants", .strings record.constants)]

/-- A catalog as a document: the names with their records, in order. -/
def Catalog.toJson {α : Type} (recordJson : α → Json) (c : Catalog α) : Json :=
  .object (c.entries.map fun entry => (entry.1, recordJson entry.2))

/-- Catalogs as a document: the classes, then the enums. -/
def Catalogs.toJson (c : Catalogs) : Json :=
  .object [("classes", c.classes.toJson ClassRecord.toJson),
    ("enums", c.enums.toJson EnumRecord.toJson)]

end TypeCatalog
