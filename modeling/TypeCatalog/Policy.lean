/-!
# Duplicate policies

What is done when a name is declared a second time.
-/

namespace TypeCatalog

/-- What is done with a second declaration of a name. -/
inductive Policy where
  /-- The run fails. -/
  | reject
  /-- The later declaration takes the place of the earlier one. -/
  | overwrite
  /-- The later declaration is left out. -/
  | keepFirst
  deriving DecidableEq, Repr, Inhabited

namespace Policy

/-- Every policy. -/
def all : List Policy := [reject, overwrite, keepFirst]

/-- The name of a policy. -/
def name : Policy → String
  | reject => "reject"
  | overwrite => "overwrite"
  | keepFirst => "keep-first"

/-- The policy that holds where none is chosen. -/
def standard : Policy := reject

/-- The policy with exactly the given name. -/
def ofName? (name : String) : Option Policy := all.find? (·.name == name)

/-- A policy name as a person writes it, in its one spelling: ASCII letters in lower case and
hyphens for underscores. -/
def spelling (text : String) : String :=
  String.ofList (text.toList.map fun c => if c = '_' then '-' else c.toLower)

/-- What is said of a text that names no policy. -/
def unknownMessage (text : String) : String :=
  "unknown duplicate policy '" ++ spelling text ++
    "' (expected reject, overwrite or keep-first)"

/-- The policy that a text names in any spelling, or what is said of a text that names none. -/
def parse (text : String) : Except String Policy :=
  match ofName? (spelling text) with
  | some policy => .ok policy
  | none => .error (unknownMessage text)

end Policy

end TypeCatalog
