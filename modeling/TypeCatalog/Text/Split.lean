/-!
# Splitting at a separator

A text is split into the parts between the occurrences of a separator. Putting the parts together
with the separator between them gives the text back.
-/

namespace TypeCatalog.Text

/-- The parts of a text between the occurrences of a separator. There is always one part more than
there are separators. -/
def split (separator : Char) : List Char → List (List Char)
  | [] => [[]]
  | c :: r =>
    if c = separator then [] :: split separator r
    else
      match split separator r with
      | [] => [[c]]
      | part :: parts => (c :: part) :: parts

end TypeCatalog.Text
