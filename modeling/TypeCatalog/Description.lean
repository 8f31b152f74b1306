import TypeCatalog.Session
import TypeCatalog.Text.Extender
import TypeCatalog.Text.Unseen

/-!
# Descriptions

One-line descriptions of sessions and of the records in their catalogs, and the sentence with which
an embedding program is told that an extraction failed.
-/

namespace TypeCatalog

namespace Description

/-- A character within quotes. Quotes and backslashes are escaped, and so is every character that
could not be seen between the quotes: one that leaves no mark, and one that is drawn onto the
character before it. -/
def escape (c : Char) : String :=
  if c = '"' then "\\\""
  else if c = '\\' then "\\\\"
  else if c = '\n' then "\\n"
  else if c = '\r' then "\\r"
  else if c = '\t' then "\\t"
  else if c = '\x00' then "\\0"
  else if Text.isUnseen c || Text.isExtender c then
    "\\u\x7b" ++ String.ofList (Nat.toDigits 16 c.toNat) ++ "\x7d"
  else String.singleton c

/-- A text in quotes. -/
def quoted (text : String) : String :=
  "\"" ++ String.join (text.toList.map escape) ++ "\""

/-- Texts in quotes, between brackets. -/
def list (texts : List String) : String :=
  "[" ++ String.intercalate ", " (texts.map quoted) ++ "]"

end Description

/-- A class record in one line: its name and how many members of each sort it has. -/
def ClassRecord.description (record : ClassRecord) : String :=
  "ClassRecord(name='" ++ record.name ++ "', " ++
    s!"parents={record.parents.length}, fields={record.fields.length}, " ++
    s!"properties={record.properties.length}, events={record.events.length}, " ++
    s!"methods={record.methods.length})"

/-- An enum record in one line: its name and its constants. -/
def EnumRecord.description (record : EnumRecord) : String :=
  "EnumRecord(name='" ++ record.name ++ "', constants=" ++ Description.list record.constants ++ ")"

/-- A session in one line: how much it holds and how many inputs it skipped. -/
def Session.description (s : Session) : String :=
  s!"ExtractionSession(classes={s.catalogs.classes.size}, enums={s.catalogs.enums.size}, " ++
    s!"skipped={s.skipped.length})"

/-- What an embedding program is told of a failure. -/
def Failure.notice (failure : Failure) : String := "Extraction failed: " ++ failure.message

end TypeCatalog
