import TypeCatalog.Language
import TypeCatalog.Text.Split

/-!
# File paths

The parts of a path between its slashes, and the extension of the name it ends with.
-/

namespace TypeCatalog.FilePath

/-- The parts of a path between its slashes, empty ones included. -/
def steps (path : String) : List String := (Text.split '/' path.toList).map String.ofList

/-- The name that a path ends with. Trailing slashes and `.` steps do not count; a path that ends
with `..` has no name. -/
def fileName? (path : String) : Option String :=
  ((steps path).filter fun step => step != "" && step != ".").getLast?.filter (· != "..")

/-- The part of a name after its last dot; a dot at the very beginning does not count. -/
def nameExtension? (name : List Char) : Option (List Char) :=
  match (Text.split '.' name.reverse) with
  | [] | [_] | [_, []] => none
  | last :: _ => some last.reverse

/-- The extension of the name that a path ends with. -/
def extension? (path : String) : Option String :=
  (fileName? path).bind fun name => (nameExtension? name.toList).map String.ofList

/-- The language told by the extension of a path. -/
def language? (path : String) : Option Language :=
  (extension? path).bind Language.ofExtension?

end TypeCatalog.FilePath
