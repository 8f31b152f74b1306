import TypeCatalog.SyntaxTree
import TypeCatalog.Text.Split

/-!
# Outlines

The form in which a parser hands a syntax tree over as text: a line for each node in pre-order. A
line holds the depth of the node, its kind, its first octet, the octet after its last, its flags
(`n` for a named node, `e` for one with an error) and, if it has one, its field, with tabs between
them.
-/

namespace TypeCatalog.SyntaxTree

/-- The node that a line of an outline describes, with its depth. -/
def entry? (line : List Char) : Option (Nat × Info) :=
  match (Text.split '\t' line).map String.ofList with
  | depth :: kind :: start :: stop :: flags :: field => do
    let depth ← depth.toNat?
    let start ← start.toNat?
    let stop ← stop.toNat?
    return (depth, {
      kind := kind
      start := start
      stop := stop
      named := flags.toList.contains 'n'
      faulty := flags.toList.contains 'e'
      field := field.head? })
  | _ => none

/-- The tree that an outline describes, if it describes one. -/
def read? (outline : String) : Option SyntaxTree :=
  (((Text.split '\n' outline.toList).filter (!·.isEmpty)).mapM entry?).bind ofOutline?

/-- The tree of a text that no parser has read: a single error. -/
def unread : SyntaxTree := node ⟨"ERROR", 0, 0, true, true, none⟩ []

end TypeCatalog.SyntaxTree
