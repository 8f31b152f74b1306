/-!
# Source languages

The languages that declarations can be read from, the file extensions that tell them, and the
grammars they are parsed with.
-/

namespace TypeCatalog

/-- The languages that declarations can be read from. -/
inductive Language where
  | csharp
  deriving DecidableEq, Repr

namespace Language

/-- The name of a language. -/
def name : Language → String
  | csharp => "csharp"

/-- Every language. -/
def all : List Language := [csharp]

/-- The language with the given name. -/
def ofName? (name : String) : Option Language := all.find? (·.name == name)

/-- A name finds the language that bears it. -/
theorem ofName?_name (language : Language) : ofName? language.name = some language := by
  cases language; rfl

/-- The language told by a file extension, in any mixture of ASCII upper and lower case. -/
def ofExtension? (extension : String) : Option Language :=
  if extension.toList.map Char.toLower = ['c', 's'] then some csharp else none

/-- What is said of a name that no language has. -/
def unsupportedMessage (name : String) : String :=
  "Unsupported language: '" ++ name ++ "'. Supported languages: " ++
    String.intercalate ", " (all.map Language.name)

end Language

end TypeCatalog
