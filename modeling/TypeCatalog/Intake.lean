import TypeCatalog.Collection
import TypeCatalog.Declaration.Reading
import TypeCatalog.FilePath

/-!
# Intake of one input

An input is a path or a text. A path is checked, read and decoded to a text; a text is parsed and
its declarations are collected. Either ends in the catalogs of the input or in a failure. What a
path leads to and what a parser makes of a text are given: they are the `Environment`.

## Main definitions

- `Environment` — what every path leads to and what a parser makes of every text
- `Intake.check` — the language of a path that leads to a source file
- `Intake.declarations` — the declarations of a text
- `Intake.ofFile`, `Intake.ofText` — the catalogs of an input
-/

namespace TypeCatalog

open Text

/-- What a path leads to. -/
inductive PathState where
  | missing
  /-- A directory or another object that is no regular file. -/
  | notRegular
  /-- A regular file that the system refuses to read, and its reason. -/
  | unreadable (cause : String)
  /-- A regular file with its content. -/
  | regular (octets : List UInt8)
  deriving DecidableEq, Repr

/-- The syntax tree that a parser makes of every text. -/
abbrev Parser := String → SyntaxTree

/-- What an extraction finds around it. Nothing in it changes while an extraction runs. -/
structure Environment where
  /-- What a path leads to. -/
  find : String → PathState
  parse : Parser

namespace Intake

/-- The language of a path, if the path leads to a source file. Existence is checked first, the
extension last. -/
def check (env : Environment) (path : String) : Except Failure Language :=
  let ofExtension :=
    match FilePath.language? path with
    | some language => .ok language
    | none => .error (.invalidInput path .wrongExtension)
  match env.find path with
  | .missing => .error (.invalidInput path .notFound)
  | .notRegular => .error (.invalidInput path .notAFile)
  | .unreadable _ => ofExtension
  | .regular .. => ofExtension

/-- The declarations of a source. -/
def declarationsOf (source : Source) (tree : SyntaxTree) : Report (List Declaration) :=
  .done (source.declarations tree) <|
    [.opened source.path source.language.name] ++
      if tree.isFaulty then [.syntaxErrors source.path] else []

/-- The declarations of a text in the language with the given name. -/
def declarations (parse : Parser) (path text languageName : String) :
    Report (List Declaration) :=
  match Language.ofName? languageName with
  | none => .failed (.unparsable path (Language.unsupportedMessage languageName))
  | some language =>
    (declarationsOf (.ofText path language text) (parse text)).andThen fun found =>
      .done found [.declared found.length language.name path]

/-- The catalogs of a text. -/
def ofText (parse : Parser) (policy : Policy) (path text languageName : String) :
    Report Catalogs :=
  (declarations parse path text languageName).andThen (Catalogs.ofDeclarations policy path)

/-- The catalogs of what a file holds. -/
def ofOctets (parse : Parser) (policy : Policy) (path : String) (language : Language)
    (octets : List UInt8) : Report Catalogs :=
  match Utf8.decode octets with
  | .error fault => .failed (.unparsable path ("source is not valid UTF-8: " ++ fault.message))
  | .ok text => ofText parse policy path text language.name

/-- The catalogs of a file. -/
def ofFile (env : Environment) (policy : Policy) (path : String) : Report Catalogs :=
  match check env path with
  | .error failure => .failed failure
  | .ok language =>
    match env.find path with
    | .regular octets => ofOctets env.parse policy path language octets
    | .unreadable cause =>
      .failed (.invalidInput path .unreadable) [.readFailed path cause]
    | .missing => .failed (.invalidInput path .notFound)
    | .notRegular => .failed (.invalidInput path .notAFile)

end Intake

end TypeCatalog
