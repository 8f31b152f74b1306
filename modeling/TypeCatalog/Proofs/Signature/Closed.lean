import Mathlib.Data.List.Infix
import TypeCatalog.Proofs.Signature.Grammar
import TypeCatalog.Proofs.Signature.TokenEnd

/-!
# Closed texts

A text may be read together with another one behind it. In general a token or a comment can reach
across the place where they meet. It cannot if the first text leaves no quote, no comment open, and
the second one begins with a blank or with a mark that goes on with no token.

## Main definitions

- `Signature.Closed` — that a text leaves nothing open at its end
- `Signature.Breaks` — that a text goes on with no token before it

## Main statements

- `Signature.Closed.lexemes_append` — two such texts are read as if each stood alone
-/

namespace TypeCatalog.Signature

open Text

/-- Whether the lexeme is a comment to the end of its line. -/
def Lexeme.isLineComment : Lexeme → Bool
  | .comment ('/' :: '/' :: _) => true
  | _ => false

/-- A text in which every quote has its closing one, every block comment is closed, and every line
comment ends before the text does. A block comment that is not closed is read as two marks. -/
structure Closed (s : List Char) : Prop where
  quotes : QuotesClosed s
  block : ¬[.token (mark '/'), .token (mark '*')] <:+: lexemes s
  line : ∀ l ∈ (lexemes s).getLast?, l.isLineComment = false

instance (s : List Char) : Decidable (Closed s) :=
  decidable_of_iff
    (QuotesClosed s ∧ ¬[.token (mark '/'), .token (mark '*')] <:+: lexemes s ∧
      ∀ l ∈ (lexemes s).getLast?, l.isLineComment = false)
    ⟨fun ⟨hquotes, hblock, hline⟩ => ⟨hquotes, hblock, hline⟩,
      fun ⟨hquotes, hblock, hline⟩ => ⟨hquotes, hblock, hline⟩⟩

/-- The marks that go on with no token. -/
def breaks : List Char := ['<', '(', ';']

/-- The text is empty, or begins with a blank or one of the marks that go on with no token. -/
def Breaks (x : List Char) : Prop := ∀ c ∈ x.head?, isBlank c = true ∨ c ∈ breaks

theorem Breaks.blank {c : Char} (hc : isBlank c = true) (x : List Char) : Breaks (c :: x) := by
  rintro d ⟨⟩
  exact .inl hc

theorem Breaks.mark {c : Char} (hc : c ∈ breaks) (x : List Char) : Breaks (c :: x) := by
  rintro d ⟨⟩
  exact .inr hc

/-! ### Tokens before a break -/

namespace Token

variable {t : Token} {c d : Char}

/-- No token takes a character that goes on with none. -/
theorem takes_of_break (hc : isBlank c = true ∨ c ∈ breaks) : t.takes c = false := by
  rcases hc with hblank | hmark
  · have hstops : t.Stops [c] := t.stops_of_isBlank (by rintro e ⟨⟩; exact hblank)
    exact hstops.head c [] rfl
  · have hall : ∀ e ∈ breaks, e ∈ signs ∧ e ≠ '.' ∧ e ≠ '"' ∧ e ≠ '/' ∧ e ≠ '*' ∧
        ∀ p ∈ pairOperators, p.2 ≠ e := by decide
    obtain ⟨hsign, hpoint, hquote, hslash, hstar, hpair⟩ := hall c hmark
    have hoperator (a : Char) : (a, c) ∉ pairOperators := fun h => hpair _ h rfl
    have hpart := isWordPart_sign hsign
    unfold takes
    split
    · exact hpart
    · simp [hpart, hpoint, hquote]
    · split
      · simp [markTakes, hoperator, isWordStart_eq_false hpart, hquote, hslash, hstar]
      · rfl

/-- No token takes two characters of which the first goes on with none. -/
theorem takesPair_of_break_left (hc : isBlank c = true ∨ c ∈ breaks) :
    t.takesPair c d = false := by
  have hne : ∀ e ∈ ['+', '-', '$', '@'], c ≠ e := by
    rcases hc with hblank | hmark
    · have hall : ∀ e ∈ ['+', '-', '$', '@'], e ∈ signs := by decide
      exact fun e he => ne_of_isBlank hblank (hall e he)
    · have hall : ∀ b ∈ breaks, ∀ e ∈ ['+', '-', '$', '@'], b ≠ e := by decide
      exact hall c hmark
  simp [takesPair, hne '+' (by decide), hne '-' (by decide), hne '$' (by decide),
    hne '@' (by decide)]

/-- No token takes two characters of which the second goes on with none. -/
theorem takesPair_of_break_right (hd : isBlank d = true ∨ d ∈ breaks) :
    t.takesPair c d = false := by
  rcases hd with hblank | hmark
  · exact t.takesPair_of_isBlank c hblank
  · have hall : ∀ b ∈ breaks, b ∈ signs ∧ b ≠ '"' := by decide
    obtain ⟨hsign, hquote⟩ := hall d hmark
    simp [takesPair, isDigit_sign hsign, hquote]

/-- A token that ends before a text also ends where the text goes on with a break. -/
theorem Stops.append {rest x : List Char} (h : t.Stops rest) (hx : Breaks x) :
    t.Stops (rest ++ x) := by
  have hhead {c : Char} {r : List Char} (hr : x = c :: r) : isBlank c = true ∨ c ∈ breaks :=
    hx c (by rw [hr]; rfl)
  constructor
  · intro c r hr
    match rest, hr with
    | [], hr => exact takes_of_break (hhead hr)
    | b :: rest, rfl => exact h.head b rest rfl
  · -- the second character counts too, and a text of one character has it from the break
    intro c d r hr
    match rest, hr with
    | [], hr => exact takesPair_of_break_left (hhead hr)
    | [b], hr => exact takesPair_of_break_right (hhead (List.cons.inj hr).2)
    | b :: e :: rest, rfl => exact h.pair b e rest rfl

end Token

/-! ### Reading before a break -/

/-- A block comment that is closed ends at the same place when more text follows. -/
theorem blockTail?_append_right {s : List Char} {p : Split} (h : blockTail? s = some p)
    (x : List Char) : blockTail? (s ++ x) = some (p.1, p.2 ++ x) := by
  fun_induction blockTail? s generalizing p with
  | case1 => cases h
  | case2 r => cases h; rfl
  | case3 c r hne ih =>
    obtain ⟨q, hq, rfl⟩ := Option.map_eq_some_iff.1 h
    have hmark : ∀ t, c = '*' → r ++ x = '/' :: t → False := by
      rintro t rfl ht
      cases r with
      | nil => cases hq
      | cons d r => cases ht; exact hne r rfl rfl
    rw [List.cons_append, blockTail?, ih hq]
    · rfl
    · exact hmark

/-- A comment that ends before the text does is read alike when the text goes on. -/
theorem comment?_append {c : Char} {r : List Char} {p : Split} (h : comment? (c :: r) = some p)
    (hline : p.2 = [] → (Lexeme.comment p.1).isLineComment = false) (x : List Char) :
    comment? (c :: (r ++ x)) = some (p.1, p.2 ++ x) := by
  unfold comment? at h
  split at h
  · next r heq =>
    cases heq
    cases h
    -- the end of the line comes before the end of the text
    have hend : r.dropWhile (· != '\n') ≠ [] := fun hnil => nomatch hline hnil
    have htake : (r.takeWhile (· != '\n')).length ≠ r.length := by
      intro hlen
      have hsum := congrArg List.length (List.takeWhile_append_dropWhile (p := (· != '\n')) (l := r))
      rw [List.length_append] at hsum
      exact hend (List.length_eq_zero_iff.1 (by omega))
    simp [comment?, List.takeWhile_append, List.dropWhile_append, htake, hend]
  · next r heq =>
    cases heq
    obtain ⟨q, hq, rfl⟩ := Option.map_eq_some_iff.1 h
    simp [comment?, blockTail?_append_right hq, Split.push]
  · cases h

/-- A star is read by itself. -/
theorem first_star (r : List Char) : first '*' r = (.token (mark '*'), r) := by
  have hliteral : literal? ('*' :: r) = none :=
    literal?_eq_none (by decide) (by decide) (by decide) (by decide) (by decide)
  have hword : word? ('*' :: r) = none := word?_eq_none (by decide) (isWordStart_sign (by decide))
  rw [first_alone (comment?_eq_none (by decide)) hliteral hword (by simp [pairOperators]),
    isBlank_sign (by decide)]
  rfl

/-- A character that begins no comment and is no blank begins a token. -/
theorem exists_token_of_first {c : Char} {r : List Char} (hcomment : comment? (c :: r) = none)
    (hblank : isBlank c = false) : ∃ t, (first c r).1 = .token t := by
  unfold first
  rw [hcomment]
  split
  · next h => cases h
  split
  · exact ⟨_, rfl⟩
  split
  · exact ⟨_, rfl⟩
  split
  · exact ⟨_, rfl⟩
  · rw [hblank]
    exact ⟨_, rfl⟩

/-- What is neither a blank nor a comment begins with a token. -/
theorem exists_tokens_eq_cons {c : Char} {r : List Char} (hcomment : comment? (c :: r) = none)
    (hblank : isBlank c = false) :
    ∃ t text rest, tokens (c :: r) = t :: tokens rest ∧ t.text = c :: text ∧ text ++ rest = r := by
  obtain ⟨t, ht⟩ := exists_token_of_first hcomment hblank
  obtain ⟨hne, happ⟩ := first_spec c r
  obtain ⟨d, text, htext⟩ := List.exists_cons_of_ne_nil hne
  rw [htext] at happ
  obtain ⟨rfl, hrest⟩ := List.cons.inj happ
  rw [ht] at htext
  refine ⟨t, text, (first d r).2, ?_, htext, hrest⟩
  rw [tokens_cons, ht]
  rfl

variable {s x : List Char}

/-- What a closed text leaves behind its first lexeme is closed. -/
theorem Closed.rest {c : Char} {r : List Char} (h : Closed (c :: r)) : Closed (first c r).2 := by
  obtain ⟨hquotes, hblock, hline⟩ := h
  rw [lexemes_cons] at hblock hline
  refine ⟨?_, ?_, ?_⟩
  · intro t ht
    exact hquotes t (by rw [tokens_cons]; exact List.mem_append_right _ ht)
  · exact fun hin => hblock (hin.trans (List.suffix_cons _ _).isInfix)
  · intro l hl
    exact hline l (by rw [List.getLast?_cons, hl]; rfl)

/-- The first lexeme of a closed text is also the first when the text goes on, unless that goes on
with a token. -/
theorem Closed.first_append_of_stops {c : Char} {r : List Char} (h : Closed (c :: r))
    (hx : ∀ t, (first c r).1 = .token t → t.Stops (first c r).2 → t.Stops ((first c r).2 ++ x)) :
    first c (r ++ x) = ((first c r).1, (first c r).2 ++ x) := by
  by_cases hblank : isBlank c = true
  · rw [first_blank hblank, first_blank hblank]
  cases hcomment : comment? (c :: r) with
  | some p =>
    have hfirst : first c r = (.comment p.1, p.2) := by simp [first, hcomment]
    have hline : p.2 = [] → (Lexeme.comment p.1).isLineComment = false := by
      intro hnil
      apply h.line
      rw [lexemes_cons, hfirst, hnil, lexemes_nil]
      rfl
    rw [hfirst, first, comment?_append hcomment hline x]
  | none =>
    obtain ⟨t, ht⟩ := exists_token_of_first hcomment (by simpa using hblank)
    have hfirst : first c r = (.token t, (first c r).2) := Prod.ext ht rfl
    have hread := read_of_first hfirst
    -- a slash before a star is a block comment that is not closed
    have hstar : t = ⟨.punct, ['/']⟩ → ∀ y, (first c r).2 ≠ '*' :: y := by
      rintro rfl y hy
      refine h.block ⟨[], lexemes y, ?_⟩
      rw [lexemes_cons, hfirst, hy, lexemes_cons, first_star]
      rfl
    have hstops := hx t ht (hread.stops h.rest.quotes hstar)
    have hquote : t.isLoneQuote = false := by
      apply h.quotes
      rw [tokens_of_first hfirst]
      exact List.mem_cons_self ..
    have htext : t.text ++ ((first c r).2 ++ x) = c :: (r ++ x) := by
      have happ := (first_spec c r).2
      rw [ht] at happ
      rw [← List.append_assoc]
      exact congrArg (· ++ x) happ
    rw [Signature.first_append hread.shape hquote hstops htext, ht]

/-- The first lexeme of a closed text is also the first when the text goes on with a break. -/
theorem Closed.first_append {c : Char} {r : List Char} (h : Closed (c :: r)) (hx : Breaks x) :
    first c (r ++ x) = ((first c r).1, (first c r).2 ++ x) :=
  h.first_append_of_stops fun _ _ hstops => hstops.append hx

/-- A closed text and one that begins with a break are read as if each stood alone. -/
theorem Closed.lexemes_append (h : Closed s) (hx : Breaks x) :
    lexemes (s ++ x) = lexemes s ++ lexemes x := by
  fun_induction lexemes s with
  | case1 => rfl
  | case2 c r ih =>
    rw [List.cons_append, lexemes_cons, h.first_append hx, ih h.rest, List.cons_append]

/-- A closed text is read by itself before what goes on with no token. -/
theorem Closed.tokens_append (h : Closed s) (hx : Breaks x) :
    tokens (s ++ x) = tokens s ++ tokens x := by
  rw [tokens, h.lexemes_append hx, List.filterMap_append]
  rfl

end TypeCatalog.Signature
