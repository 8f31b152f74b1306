import TypeCatalog.Signature.Lexeme

/-!
# Layout of a signature

Tokens are written on one line. Whether a space stands between two neighbours is decided by the
two, the token before them and the token after them.

## Main definitions

- `Signature.Gap` — two neighbouring tokens with what stands around them
- `Signature.Gap.isSpaced` — whether the neighbours are kept apart by a space
- `Signature.layout` — tokens written on one line
- `Signature.normalize` — a text with its comments dropped and its tokens laid out anew
-/

namespace TypeCatalog.Signature

/-- The place between two neighbouring tokens, with the tokens before and after them. -/
structure Gap where
  before : Option Token
  left : Token
  right : Token
  after : Option Token
  deriving DecidableEq, Repr

namespace Gap

/-- Whether the left neighbour can carry a type suffix: the name of a type, or the end of one. -/
def hasTypeLeft (gap : Gap) (ends : List (List Char)) : Bool :=
  gap.left.canEndType || gap.left.text ∈ ends

/-- Whether a space stands before the punctuation mark on the right. -/
def isSpacedMark (gap : Gap) : Bool :=
  if gap.right.text ∈ [[','], [')'], [']'], [';'], ['.'], [':', ':'], ['>']] then false
  else if gap.right.text = ['?'] then
    !(gap.hasTypeLeft [['>'], [']'], [')']] && Token.marksNullable gap.after)
  else if gap.right.text = ['*'] then !gap.hasTypeLeft [['>'], [']'], [')']]
  else if gap.right.text = ['('] ∧ gap.left.text = ['n', 'e', 'w'] then
    !gap.before.any Token.opensValue
  else if gap.right.text = ['('] ∨ gap.right.text = ['<'] then !gap.hasTypeLeft [['>']]
  else if gap.right.text = ['['] then !gap.hasTypeLeft [['>'], [']'], ['?']]
  else true

/-- Whether a space stands between the neighbours. Nothing follows a sign before its operand, an
opening bracket, a `.` or a `::` at a distance; words and literals are otherwise kept apart. -/
def isSpaced (gap : Gap) : Bool :=
  if Token.isSign gap.before gap.left then false
  else if gap.left.isPunctOf [['('], ['['], ['<'], ['.'], [':', ':']] then false
  else if gap.right.kind ≠ .punct then true
  else gap.isSpacedMark

/-- What is written in the gap. -/
def text (gap : Gap) : List Char := if gap.isSpaced then [' '] else []

end Gap

/-- The tokens that come after `left`, each with the gap before it. -/
def layoutAfter (before : Option Token) (left : Token) : List Token → List Char
  | [] => []
  | right :: rest =>
    (Gap.mk before left right rest.head?).text ++ right.text ++ layoutAfter (some left) right rest

/-- Tokens written on one line. -/
def layout : List Token → List Char
  | [] => []
  | t :: rest => t.text ++ layoutAfter none t rest

/-- A text on one line with canonical spacing and without its comments. -/
def normalize (text : String) : String := String.ofList (layout (tokens text.toList))

/-- What is laid out ends with the last token. -/
theorem layoutAfter_concat (before : Option Token) (left t : Token) (ts : List Token) :
    ∃ front, layoutAfter before left (ts ++ [t]) = front ++ t.text := by
  induction ts generalizing before left with
  | nil => exact ⟨(Gap.mk before left t none).text, by simp [layoutAfter]⟩
  | cons u ts ih =>
    obtain ⟨front, hfront⟩ := ih (some left) u
    refine ⟨(Gap.mk before left u (ts ++ [t]).head?).text ++ u.text ++ front, ?_⟩
    rw [List.cons_append, layoutAfter, hfront, ← List.append_assoc]

/-- What is laid out ends with the last token. -/
theorem layout_concat (ts : List Token) (t : Token) :
    ∃ front, layout (ts ++ [t]) = front ++ t.text := by
  cases ts with
  | nil => exact ⟨[], by simp [layout, layoutAfter]⟩
  | cons u ts =>
    obtain ⟨front, hfront⟩ := layoutAfter_concat none u t ts
    exact ⟨u.text ++ front, by rw [List.cons_append, layout, hfront, List.append_assoc]⟩

end TypeCatalog.Signature
