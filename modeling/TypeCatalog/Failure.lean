import TypeCatalog.Declaration

/-!
# Failures

Why an input gives no declarations. An invalid input is skipped; every other failure ends the run.
-/

namespace TypeCatalog

/-- Why a path is not that of a readable source file. -/
inductive Defect where
  | notFound
  /-- The path leads to a directory or another object that is no regular file. -/
  | notAFile
  /-- The extension tells no language. -/
  | wrongExtension
  /-- The file exists and cannot be read. -/
  | unreadable
  deriving DecidableEq, Repr

namespace Defect

/-- The defect as a phrase. -/
def message : Defect → String
  | notFound => "no such file"
  | notAFile => "not a regular file"
  | wrongExtension => "not a .cs source file"
  | unreadable => "file could not be read"

/-- The defect as an identifier. -/
def identifier : Defect → String
  | notFound => "not_found"
  | notAFile => "not_a_file"
  | wrongExtension => "wrong_extension"
  | unreadable => "unreadable"

end Defect

/-- Why an input gives no declarations. -/
inductive Failure where
  /-- The path is not that of a readable source file. -/
  | invalidInput (path : String) (defect : Defect)
  /-- The content cannot be read as source text. -/
  | unparsable (path : String) (problem : String)
  /-- A name is declared a second time where that is refused. -/
  | duplicate (name : String) (kind : TypeKind) (path : String)
  deriving DecidableEq, Repr

namespace Failure

/-- The sentence that reports a failure. -/
def message : Failure → String
  | invalidInput path defect => "invalid input " ++ path ++ ": " ++ defect.message
  | unparsable path problem => "failed to parse " ++ path ++ ": " ++ problem
  | duplicate name kind path =>
    "duplicate " ++ kind.keyword ++ " declaration `" ++ name ++ "` in " ++ path

/-- Why the input is skipped, or `none` if the failure ends the run. -/
def defect? : Failure → Option Defect
  | invalidInput _ defect => some defect
  | _ => none

end Failure

end TypeCatalog
