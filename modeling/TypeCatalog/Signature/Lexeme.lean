import TypeCatalog.Signature.Token
import TypeCatalog.Text.Blank
import TypeCatalog.Text.Letter
import TypeCatalog.Text.Numeral

/-!
# Lexemes

A text is a row of lexemes: blanks, comments and tokens. Each recogniser below reads one kind of
lexeme off the front of a text; they are tried in a fixed order and the first that succeeds wins.

## Main definitions

- `Signature.lexemes` — the lexemes of a text, which written one after the other give the text
- `Signature.tokens` — its tokens

## Main statements

- `Signature.first_spec` — a lexeme is never empty and nothing is lost between it and the rest
- `Signature.flatMap_text_lexemes` — the lexemes of a text make up the text
-/

namespace TypeCatalog.Signature

open Text

/-- What a recogniser read off the front of a text, and what is left of the text. -/
abbrev Split := List Char × List Char

/-- The split whose first part has `front` put before it. -/
def Split.push (front : List Char) (p : Split) : Split := (front ++ p.1, p.2)

/-- What stands between two tokens or is one. -/
inductive Lexeme where
  /-- A white-space character. -/
  | blank (c : Char)
  /-- A comment, to the end of its line or to its closing mark. -/
  | comment (text : List Char)
  /-- A token. -/
  | token (t : Token)
  deriving DecidableEq, Repr

namespace Lexeme

/-- The characters a lexeme is written with. -/
def text : Lexeme → List Char
  | blank c => [c]
  | comment text => text
  | token t => t.text

/-- The token that a lexeme is, if it is one. -/
def token? : Lexeme → Option Token
  | token t => some t
  | _ => none

end Lexeme

/-- Whether a character can begin a word. -/
def isWordStart (c : Char) : Bool := isLetter c || c == '_'

/-- Whether a character can go on with a word. -/
def isWordPart (c : Char) : Bool := isLetter c || isNumeral c || c == '_'

/-! ### Comments -/

/-- The rest of a block comment, up to the first closing mark. -/
def blockTail? : List Char → Option Split
  | [] => none
  | '*' :: '/' :: r => some (['*', '/'], r)
  | c :: r => (blockTail? r).map (Split.push [c])

/-- A comment to the end of the line, or a closed block comment. -/
def comment? : List Char → Option Split
  | '/' :: '/' :: r => some ('/' :: '/' :: r.takeWhile (· != '\n'), r.dropWhile (· != '\n'))
  | '/' :: '*' :: r => (blockTail? r).map (Split.push ['/', '*'])
  | _ => none

/-! ### Literals -/

/-- The rest of a verbatim string. A doubled quote belongs to the string, unless no quote that
could close the string comes after it: then its first half closes the string. -/
def verbatimTail? : List Char → Option Split
  | [] => none
  | '"' :: '"' :: r =>
    some <| match verbatimTail? r with
      | some p => p.push ['"', '"']
      | none => (['"'], '"' :: r)
  | c :: r => if c = '"' then some (['"'], r) else (verbatimTail? r).map (Split.push [c])

/-- The rest of a string or character closed by `quote`: on one line, with a backslash before any
character that would not stand for itself. -/
def quotedTail? (quote : Char) : List Char → Option Split
  | [] => none
  | ['\\'] => none
  | '\\' :: c :: r =>
    if c = '\n' then none else (quotedTail? quote r).map (Split.push ['\\', c])
  | c :: r =>
    if c = quote then some ([c], r)
    else if c = '\n' then none
    else (quotedTail? quote r).map (Split.push [c])

/-- Whether a character goes on with a number: a word character, a point, or the sign of an
exponent, which stands between an `e` and a digit. -/
def isNumberPart (before c : Char) (rest : List Char) : Bool :=
  isWordPart c || c == '.' ||
    ((c == '+' || c == '-') && (before == 'e' || before == 'E') && rest.head?.any Char.isDigit)

/-- The rest of a number, after the character `before`. -/
def numberTail (before : Char) : List Char → Split
  | [] => ([], [])
  | c :: r => if isNumberPart before c r then (numberTail c r).push [c] else ([], c :: r)

/-- A verbatim string, in which `$` may stand before the `@`. -/
def verbatim? : List Char → Option Split
  | '$' :: '@' :: '"' :: r => (verbatimTail? r).map (Split.push ['$', '@', '"'])
  | '@' :: '"' :: r => (verbatimTail? r).map (Split.push ['@', '"'])
  | _ => none

/-- A string on one line, which `@`, `$` or both may begin. -/
def regular? : List Char → Option Split
  | '"' :: r => (quotedTail? '"' r).map (Split.push ['"'])
  | '$' :: '"' :: r => (quotedTail? '"' r).map (Split.push ['$', '"'])
  | '@' :: '"' :: r => (quotedTail? '"' r).map (Split.push ['@', '"'])
  | '@' :: '$' :: '"' :: r => (quotedTail? '"' r).map (Split.push ['@', '$', '"'])
  | _ => none

/-- A character between quotes. -/
def character? : List Char → Option Split
  | '\'' :: r => (quotedTail? '\'' r).map (Split.push ['\''])
  | _ => none

/-- A number, which an ASCII digit begins. -/
def number? : List Char → Option Split
  | [] => none
  | c :: r => if c.isDigit then some ((numberTail c r).push [c]) else none

/-- A literal of any sort. -/
def literal? (s : List Char) : Option Split :=
  verbatim? s <|> regular? s <|> character? s <|> number? s

/-! ### Words and punctuation -/

/-- A word without a leading `@`. -/
def plainWord? : List Char → Option Split
  | [] => none
  | c :: r =>
    if isWordStart c then some (c :: r.takeWhile isWordPart, r.dropWhile isWordPart) else none

/-- A word, which `@` may begin. -/
def word? : List Char → Option Split
  | '@' :: r => (plainWord? r).map (Split.push ['@'])
  | s => plainWord? s

/-- The operators of two characters. -/
def pairOperators : List (Char × Char) :=
  [(':', ':'), ('=', '>'), ('=', '='), ('!', '='), ('&', '&'), ('|', '|'), ('?', '?')]

/-- An operator of two characters. -/
def pairOperator? : List Char → Option Split
  | a :: b :: r => if (a, b) ∈ pairOperators then some ([a, b], r) else none
  | _ => none

/-! ### Lexemes of a text -/

/-- The first lexeme of the text `c :: r`, and the rest. A character that begins nothing else is
a blank or a punctuation mark by itself. -/
def first (c : Char) (r : List Char) : Lexeme × List Char :=
  match comment? (c :: r) with
  | some p => (.comment p.1, p.2)
  | none =>
  match literal? (c :: r) with
  | some p => (.token ⟨.literal, p.1⟩, p.2)
  | none =>
  match word? (c :: r) with
  | some p => (.token ⟨.word, p.1⟩, p.2)
  | none =>
  match pairOperator? (c :: r) with
  | some p => (.token ⟨.punct, p.1⟩, p.2)
  | none => (if isBlank c then .blank c else .token ⟨.punct, [c]⟩, r)

/-- A recogniser is sound if what it reads is not empty and, with the rest, is the text. -/
def Sound (recognise : List Char → Option Split) : Prop :=
  ∀ s p, recognise s = some p → p.1 ≠ [] ∧ p.1 ++ p.2 = s

/-- The rest of a block comment is read off the text. -/
theorem blockTail?_sound : Sound blockTail? := by
  intro s p h
  fun_induction blockTail? s generalizing p with
  | case1 => simp at h
  | case2 r => cases h; simp
  | case3 c r _ ih =>
    obtain ⟨q, hq, rfl⟩ := Option.map_eq_some_iff.1 h
    simp [Split.push, (ih q hq).2]

/-- A comment is read off the text. -/
theorem comment?_sound : Sound comment? := by
  intro s p h
  unfold comment? at h
  split at h
  · cases h; simp [List.takeWhile_append_dropWhile]
  · obtain ⟨q, hq, rfl⟩ := Option.map_eq_some_iff.1 h
    simp [Split.push, (blockTail?_sound _ q hq).2]
  · simp at h

/-- The rest of a verbatim string is read off the text. -/
theorem verbatimTail?_sound : Sound verbatimTail? := by
  intro s p h
  fun_induction verbatimTail? s generalizing p with
  | case1 => simp at h
  | case2 r ih =>
    cases h
    cases hr : verbatimTail? r with
    | none => simp
    | some q => simp [Split.push, (ih q hr).2]
  | case3 r _ => cases h; simp
  | case4 c r _ _ ih =>
    obtain ⟨q, hq, rfl⟩ := Option.map_eq_some_iff.1 h
    simp [Split.push, (ih q hq).2]

/-- The rest of a string on one line, or of a character, is read off the text. -/
theorem quotedTail?_sound (quote : Char) : Sound (quotedTail? quote) := by
  intro s p h
  fun_induction quotedTail? quote s generalizing p with
  | case1 => simp at h
  | case2 => simp at h
  | case3 r => simp at h
  | case4 c r _ ih =>
    obtain ⟨q, hq, rfl⟩ := Option.map_eq_some_iff.1 h
    simp [Split.push, (ih q hq).2]
  | case5 r => cases h; simp
  | case6 => simp at h
  | case7 c r _ _ _ _ ih =>
    obtain ⟨q, hq, rfl⟩ := Option.map_eq_some_iff.1 h
    simp [Split.push, (ih q hq).2]

/-- A number and what is left of the text are the text. The rest of a number may be empty. -/
theorem numberTail_append (before : Char) (s : List Char) :
    (numberTail before s).1 ++ (numberTail before s).2 = s := by
  fun_induction numberTail before s with
  | case1 => rfl
  | case2 before c r _ ih => simp [Split.push, ih]
  | case3 => rfl

/-- A verbatim string is read off the text. -/
theorem verbatim?_sound : Sound verbatim? := by
  intro s p h
  unfold verbatim? at h
  split at h
  iterate 2
    · obtain ⟨q, hq, rfl⟩ := Option.map_eq_some_iff.1 h
      simp [Split.push, (verbatimTail?_sound _ q hq).2]
  · simp at h

/-- A string on one line is read off the text. -/
theorem regular?_sound : Sound regular? := by
  intro s p h
  unfold regular? at h
  split at h
  iterate 4
    · obtain ⟨q, hq, rfl⟩ := Option.map_eq_some_iff.1 h
      simp [Split.push, (quotedTail?_sound _ _ q hq).2]
  · simp at h

/-- A character between quotes is read off the text. -/
theorem character?_sound : Sound character? := by
  intro s p h
  unfold character? at h
  split at h
  · obtain ⟨q, hq, rfl⟩ := Option.map_eq_some_iff.1 h
    simp [Split.push, (quotedTail?_sound _ _ q hq).2]
  · simp at h

/-- A number is read off the text, and its first digit makes it longer than nothing. -/
theorem number?_sound : Sound number? := by
  intro s p h
  unfold number? at h
  split at h
  · simp at h
  · split at h
    · cases h
      simp [Split.push, numberTail_append]
    · simp at h

/-- A literal of any sort is read off the text. -/
theorem literal?_sound : Sound literal? := by
  intro s p h
  simp only [literal?, Option.orElse_eq_orElse, Option.orElse_eq_or, Option.or_eq_some_iff] at h
  rcases h with h | ⟨_, h | ⟨_, h | ⟨_, h⟩⟩⟩
  · exact verbatim?_sound s p h
  · exact regular?_sound s p h
  · exact character?_sound s p h
  · exact number?_sound s p h

/-- A word is read off the text. -/
theorem plainWord?_sound : Sound plainWord? := by
  intro s p h
  unfold plainWord? at h
  split at h
  · simp at h
  · split at h
    · cases h; simp [List.takeWhile_append_dropWhile]
    · simp at h

/-- A word with or without a leading `@` is read off the text. -/
theorem word?_sound : Sound word? := by
  intro s p h
  unfold word? at h
  split at h
  · obtain ⟨q, hq, rfl⟩ := Option.map_eq_some_iff.1 h
    simp [Split.push, (plainWord?_sound _ q hq).2]
  · exact plainWord?_sound _ p h

/-- An operator of two characters is read off the text. -/
theorem pairOperator?_sound : Sound pairOperator? := by
  intro s p h
  unfold pairOperator? at h
  split at h
  · split at h
    · cases h; simp
    · simp at h
  · simp at h

/-- The first lexeme is not empty, and with the rest it is the text. -/
theorem first_spec (c : Char) (r : List Char) :
    (first c r).1.text ≠ [] ∧ (first c r).1.text ++ (first c r).2 = c :: r := by
  unfold first
  split
  next p h => exact comment?_sound _ p h
  split
  next p h => exact literal?_sound _ p h
  split
  next p h => exact word?_sound _ p h
  split
  next p h => exact pairOperator?_sound _ p h
  split <;> simp [Lexeme.text]

/-- What is left after the first lexeme is shorter than the text. -/
theorem length_first_lt (c : Char) (r : List Char) : (first c r).2.length < (c :: r).length := by
  have ⟨hne, happ⟩ := first_spec c r
  have hlen := congrArg List.length happ
  have hpos := List.length_pos_iff.2 hne
  simp only [List.length_append] at hlen
  omega

/-- The lexemes of a text, in order. -/
def lexemes : List Char → List Lexeme
  | [] => []
  | c :: r => (first c r).1 :: lexemes (first c r).2
termination_by s => s.length
decreasing_by exact length_first_lt c r

@[simp] theorem lexemes_nil : lexemes [] = [] := by rw [lexemes]

theorem lexemes_cons (c : Char) (r : List Char) :
    lexemes (c :: r) = (first c r).1 :: lexemes (first c r).2 := by rw [lexemes]

/-- The lexemes of a text make up the text. -/
theorem flatMap_text_lexemes (s : List Char) : (lexemes s).flatMap Lexeme.text = s := by
  fun_induction lexemes s with
  | case1 => rfl
  | case2 c r ih => rw [List.flatMap_cons, ih, (first_spec c r).2]

/-- The tokens of a text, in order: its lexemes without blanks and comments. -/
def tokens (s : List Char) : List Token := (lexemes s).filterMap Lexeme.token?

end TypeCatalog.Signature
