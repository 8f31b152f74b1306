import TypeCatalog.Language
import TypeCatalog.SyntaxTree
import TypeCatalog.Text.Utf8

/-!
# Source texts

A source text with the path it came from and its language, and the text that the nodes of its
syntax tree span.
-/

namespace TypeCatalog

open Text

/-- A source text, held as the octets that syntax trees count. -/
structure Source where
  path : String
  language : Language
  octets : List UInt8
  deriving DecidableEq, Repr

namespace Source

/-- The source with the given text. -/
def ofText (path : String) (language : Language) (text : String) : Source :=
  ⟨path, language, Utf8.encode text⟩

/-- The text between two octets: nothing unless the first lies inside the source and the second
at most at its end. A character that the span cuts is replaced by U+FFFD. -/
def excerpt (s : Source) (start stop : Nat) : String :=
  if start < s.octets.length ∧ stop ≤ s.octets.length then
    Utf8.decodeLossy ((s.octets.drop start).take (stop - start))
  else ""

/-- The text that a node spans. -/
def text (s : Source) (t : SyntaxTree) : String := s.excerpt t.info.start t.info.stop

/-- The name of a declaration, if it has one. -/
def name? (s : Source) (t : SyntaxTree) : Option String := t.nameNode?.map s.text

/-- The texts of the children of one kind. -/
def textsOfKind (s : Source) (t : SyntaxTree) (kind : String) : List String :=
  (t.childrenOfKind kind).map s.text

/-- The comments directly above a node, top to bottom. -/
def commentsAbove (s : Source) (v : SyntaxTree.Visit) : List String :=
  v.commentsAbove.map s.text

end Source

end TypeCatalog
