import TypeCatalog.Proofs.Signature.TokenShape

/-!
# Where a token ends

A token ends where the text behind it cannot go on with it. Whether it can is a matter of at most
two characters, apart from a quote that is never closed and a block comment that is.

## Main definitions

- `Signature.Token.takes`, `Signature.Token.takesPair` — the characters that go on with a token
- `Signature.Token.Stops` — that a text does not go on with a token written before it

## Main statements

- `Signature.first_append` — a token is read back before any text that does not go on with it
- `Signature.Token.Read.stops` — no other text follows a token where every quote is closed
-/

namespace TypeCatalog.Signature

open Text

namespace Token

/-- Whether the token is a number: a literal that begins with a digit. -/
def isNumber (t : Token) : Bool := t.kind == .literal && t.text.head?.any Char.isDigit

/-- Whether the token is a verbatim string. -/
def isVerbatim (t : Token) : Bool :=
  t.kind == .literal && verbatimFronts.any fun front => front.isPrefixOf t.text

/-- Whether the token is a quote that belongs to no string and no character. -/
def isLoneQuote (t : Token) : Bool := t.isPunctOf [['"'], ['\'']]

theorem isVerbatim_of_isNumber {t : Token} (h : t.isNumber = true) : t.isVerbatim = false := by
  obtain ⟨kind, text⟩ := t
  cases text with
  | nil => simp [isNumber] at h
  | cons c r =>
    simp only [isNumber, Bool.and_eq_true, List.head?_cons, Option.any_some] at h
    have hne : ∀ d ∈ signs, c ≠ d := fun d => ne_of_isWordPart (isWordPart_of_isDigit h.2)
    simp [isVerbatim, verbatimFronts, List.isPrefixOf, Ne.symm (hne '@' (by decide)),
      Ne.symm (hne '$' (by decide))]

/-- Whether a mark and the character behind it begin a longer lexeme. -/
def markTakes (a c : Char) : Bool :=
  (a, c) ∈ pairOperators || (a == '/' && (c == '/' || c == '*')) ||
    (a == '@' && (isWordStart c || c == '"')) || (a == '$' && c == '"')

/-- Whether a character goes on with the token, whatever comes after that character. -/
def takes (t : Token) (c : Char) : Bool :=
  match t.kind with
  | .word => isWordPart c
  | .literal => (t.isNumber && (isWordPart c || c == '.')) || (t.isVerbatim && c == '"')
  | .punct =>
    match t.text with
    | [a] => markTakes a c
    | _ => false

/-- Whether a character goes on with the token because of the character after it: the sign of an
exponent before a digit, or the second of the two characters that can open a string. -/
def takesPair (t : Token) (c d : Char) : Bool :=
  (t.isNumber && (c == '+' || c == '-') && t.text.getLast?.any (fun e => e == 'e' || e == 'E') &&
      d.isDigit) ||
    (t.isPunctOf [['@']] && c == '$' && d == '"') || (t.isPunctOf [['$']] && c == '@' && d == '"')

/-- The text does not go on with the token. -/
structure Stops (t : Token) (rest : List Char) : Prop where
  head : ∀ c r, rest = c :: r → t.takes c = false
  pair : ∀ c d r, rest = c :: d :: r → t.takesPair c d = false

/-- No token goes on because of a blank. -/
theorem takesPair_of_isBlank (t : Token) (c : Char) {d : Char} (hd : isBlank d = true) :
    t.takesPair c d = false := by
  have hdigit := isDigit_eq_false (isWordPart_of_isBlank hd)
  have hquote : d ≠ '"' := ne_of_isBlank hd (by decide)
  simp [takesPair, hdigit, hquote]

/-- A text that is empty or begins with a blank goes on with no token. -/
theorem stops_of_isBlank (t : Token) {rest : List Char}
    (h : ∀ c, rest.head? = some c → isBlank c = true) : t.Stops rest := by
  constructor
  · rintro c r rfl
    have hc := h c rfl
    -- every test for going on asks for a part of a word or for one of the signs
    have hsign : ∀ d ∈ signs, c ≠ d := fun d => ne_of_isBlank hc
    have hpart := isWordPart_of_isBlank hc
    have hstart := isWordStart_eq_false hpart
    have hpair : ∀ a, (a, c) ∉ pairOperators := by
      have hall : ∀ p ∈ pairOperators, p.2 ∈ signs := by decide
      exact fun a ha => hsign c (hall _ ha) rfl
    have hmark : ∀ a, markTakes a c = false := fun a => by
      simp [markTakes, hpair, hstart, hsign '/' (by decide), hsign '*' (by decide),
        hsign '"' (by decide)]
    unfold takes
    split
    · exact hpart
    · simp [hpart, hsign '.' (by decide), hsign '"' (by decide)]
    · split
      · exact hmark _
      · rfl
  · rintro c d r rfl
    have hsign : ∀ e ∈ signs, c ≠ e := fun e => ne_of_isBlank (h c rfl)
    simp [takesPair, hsign '+' (by decide), hsign '-' (by decide), hsign '$' (by decide),
      hsign '@' (by decide)]

end Token

/-! ### Reading one lexeme -/

theorem first_of_literal? {c : Char} {r : List Char} {p : Split} (hc : c ≠ '/')
    (h : literal? (c :: r) = some p) : first c r = (.token ⟨.literal, p.1⟩, p.2) := by
  simp [first, comment?_eq_none hc, h]

/-- A verbatim string is read up to its last quote. -/
theorem literal?_verbatim {front s p r : List Char} (hfront : front ∈ verbatimFronts)
    (h : verbatimTail? s = some (p, r)) : literal? (front ++ s) = some (front ++ p, r) := by
  simp only [verbatimFronts, List.mem_cons, List.not_mem_nil, or_false] at hfront
  rcases hfront with rfl | rfl <;> simp [literal?, verbatim?, h, Split.push]

/-- A string on one line or a character is read up to its last quote. -/
theorem literal?_quoted {front s p r : List Char} {quote : Char}
    (hfront : (front, quote) ∈ quotedFronts) (h : quotedTail? quote s = some (p, r)) :
    literal? (front ++ s) = some (front ++ p, r) := by
  simp only [quotedFronts, List.mem_cons, List.not_mem_nil, or_false, Prod.mk.injEq] at hfront
  rcases hfront with ⟨rfl, rfl⟩ | ⟨rfl, rfl⟩ | ⟨rfl, rfl⟩ | ⟨rfl, rfl⟩ <;>
    simp [literal?, verbatim?, regular?, character?, h, Split.push]

/-- A number is read as far as it goes. -/
theorem literal?_number {c : Char} (r : List Char) (hc : c.isDigit = true) :
    literal? (c :: r) = some ((numberTail c r).push [c]) := by
  have hne : ∀ d ∈ signs, c ≠ d := fun d => ne_of_isWordPart (isWordPart_of_isDigit hc)
  simp [literal?, verbatim?_eq_none (hne '@' (by decide)) (hne '$' (by decide)),
    regular?_eq_none (hne '@' (by decide)) (hne '$' (by decide)) (hne '"' (by decide)),
    character?_eq_none (hne '\'' (by decide)), number?, hc]

/-- An `@` opens a string only before a quote, which a `$` may precede, and the other way round. -/
theorem literal?_opener {c d : Char} (hc : (c, d) ∈ [('@', '$'), ('$', '@')]) {r : List Char}
    (h₁ : ∀ t, r ≠ '"' :: t) (h₂ : ∀ t, r ≠ d :: '"' :: t) : literal? (c :: r) = none := by
  have hverbatim : verbatim? (c :: r) = none := by
    unfold verbatim?
    split
    · simp_all
    · simp_all
    · rfl
  have hregular : regular? (c :: r) = none := by
    unfold regular?
    split
    · simp_all
    · simp_all
    · simp_all
    · simp_all
    · rfl
  simp only [List.mem_cons, List.not_mem_nil, or_false, Prod.mk.injEq] at hc
  rcases hc with ⟨rfl, -⟩ | ⟨rfl, -⟩ <;> simp [literal?, hverbatim, hregular, character?, number?]

theorem first_of_word? {c : Char} {r : List Char} {p : Split} (hc : c ≠ '/')
    (hl : literal? (c :: r) = none) (h : word? (c :: r) = some p) :
    first c r = (.token ⟨.word, p.1⟩, p.2) := by
  simp [first, comment?_eq_none hc, hl, h]

/-- The first characters of the operators begin nothing else. -/
theorem operator_first {a b : Char} (h : (a, b) ∈ pairOperators) :
    a ∈ signs ∧ a ∉ ['/', '@', '$', '"', '\''] := by
  have hall : ∀ p ∈ pairOperators, p.1 ∈ signs ∧ p.1 ∉ ['/', '@', '$', '"', '\''] := by decide
  exact hall (a, b) h

theorem isWordStart_sign {c : Char} (h : c ∈ signs) : isWordStart c = false :=
  isWordStart_eq_false (isWordPart_sign h)

theorem isDigit_sign {c : Char} (h : c ∈ signs) : c.isDigit = false :=
  isDigit_eq_false (isWordPart_sign h)

theorem first_operator {a b : Char} (h : (a, b) ∈ pairOperators) (rest : List Char) :
    first a (b :: rest) = (.token ⟨.punct, [a, b]⟩, rest) := by
  obtain ⟨hsign, hnot⟩ := operator_first h
  simp only [List.mem_cons, List.not_mem_nil, or_false, not_or] at hnot
  obtain ⟨hslash, hat, hdollar, hdouble, hsingle⟩ := hnot
  simp [first, comment?_eq_none hslash,
    literal?_eq_none hat hdollar hdouble hsingle (isDigit_sign hsign),
    word?_eq_none hat (isWordStart_sign hsign), pairOperator?, h]

/-- A character that begins no longer lexeme is a mark, or a blank. -/
theorem first_alone {c : Char} {r : List Char} (hcomment : comment? (c :: r) = none)
    (hliteral : literal? (c :: r) = none) (hword : word? (c :: r) = none)
    (hpair : ∀ d t, r = d :: t → (c, d) ∉ pairOperators) :
    first c r = (if isBlank c then .blank c else .token ⟨.punct, [c]⟩, r) := by
  have hoperator : pairOperator? (c :: r) = none := by
    cases r with
    | nil => rfl
    | cons d t => simp [pairOperator?, hpair d t rfl]
  simp [first, hcomment, hliteral, hword, hoperator]

theorem first_blank {c : Char} (hc : isBlank c = true) (r : List Char) :
    first c r = (.blank c, r) := by
  have hne : ∀ d ∈ signs, c ≠ d := fun d => ne_of_isBlank hc
  have hdigit := isDigit_eq_false (isWordPart_of_isBlank hc)
  have hstart := isWordStart_eq_false (isWordPart_of_isBlank hc)
  rw [first_alone (comment?_eq_none (hne '/' (by decide)))
    (literal?_eq_none (hne '@' (by decide)) (hne '$' (by decide)) (hne '"' (by decide))
      (hne '\'' (by decide)) hdigit) (word?_eq_none (hne '@' (by decide)) hstart)
    (fun d _ _ h => hne c (operator_first h).1 rfl), hc]
  simp

/-! ### Reading a token back -/

/-- A number ends where the text does not go on with it. -/
private theorem numberTail_of_stops {c : Char} {body rest : List Char} (hc : c.isDigit = true)
    (hbody : numberTail c body = (body, [])) (hs : Token.Stops ⟨.literal, c :: body⟩ rest) :
    numberTail c (body ++ rest) = (body, rest) := by
  have hnumber : Token.isNumber ⟨.literal, c :: body⟩ = true := by simp [Token.isNumber, hc]
  -- behind the number the reader goes on from its last character
  have hresume := numberTail_taken_append c body rest
  simp only [hbody] at hresume
  have hrest : numberTail (body.getLastD c) rest = ([], rest) := by
    cases rest with
    | nil => rfl
    | cons d r =>
      have hhead := hs.head d r rfl
      simp only [Token.takes, hnumber, Bool.true_and, Bool.or_eq_false_iff] at hhead
      have hpart : isNumberPart (body.getLastD c) d r = false := by
        cases r with
        | nil => simp [isNumberPart, hhead.1.1, hhead.1.2]
        | cons e r =>
          have hpair := hs.pair d e r rfl
          simp only [Token.takesPair, hnumber, Bool.true_and, Bool.or_eq_false_iff,
            List.getLast?_cons, Option.any_some] at hpair
          simpa [isNumberPart, hhead.1.1, hhead.1.2] using hpair.1.1
      rw [numberTail, hpart]
      simp
  rw [hresume, hrest]
  simp [Split.push]

/-- A word ends where the text does not go on with it. -/
private theorem plainWord?_of_stops {c : Char} {body rest : List Char} (hc : isWordStart c = true)
    (hbody : ∀ d ∈ body, isWordPart d = true)
    (hrest : ∀ d r, rest = d :: r → isWordPart d = false) :
    plainWord? (c :: (body ++ rest)) = some (c :: body, rest) := by
  have htake : rest.takeWhile isWordPart = [] := by
    cases rest with
    | nil => rfl
    | cons d r => simp [hrest d r rfl]
  have hdrop : rest.dropWhile isWordPart = rest := by
    cases rest with
    | nil => rfl
    | cons d r => simp [hrest d r rfl]
  simp [plainWord?, hc, List.takeWhile_append_of_pos hbody, List.dropWhile_append_of_pos hbody,
    htake, hdrop]

/-- A word is read whole, whether or not an `@` stands before it. -/
private theorem first_word {front body rest : List Char} {d c : Char} {r : List Char}
    (hfront : front ∈ [[], ['@']]) (hd : isWordStart d = true)
    (hread : plainWord? (d :: (body ++ rest)) = some (d :: body, rest))
    (htext : front ++ d :: body ++ rest = c :: r) :
    first c r = (.token ⟨.word, front ++ d :: body⟩, rest) := by
  have hne : ∀ e ∈ signs, d ≠ e := fun e => ne_of_isWordPart (isWordPart_of_isWordStart hd)
  simp only [List.mem_cons, List.not_mem_nil, or_false] at hfront
  rcases hfront with rfl | rfl
  · cases htext
    have hdigit : d.isDigit = false := by
      refine Bool.eq_false_iff.2 fun hc => ?_
      rw [isWordStart_of_isDigit hc] at hd
      cases hd
    refine first_of_word? (p := (d :: body, rest)) (hne '/' (by decide))
      (literal?_eq_none (hne '@' (by decide)) (hne '$' (by decide)) (hne '"' (by decide))
        (hne '\'' (by decide)) hdigit) ?_
    rw [word?]
    · exact hread
    · exact fun _ hc => hne '@' (by decide) (List.cons.inj hc).1
  · cases htext
    -- an `@` before a word opens no verbatim string
    refine first_of_word? (p := ('@' :: d :: body, rest)) (by decide)
      (literal?_opener (c := '@') (d := '$') (by decide)
        (fun t ht => hne '"' (by decide) (List.cons.inj ht).1)
        (fun t ht => hne '$' (by decide) (List.cons.inj ht).1)) ?_
    change (plainWord? (d :: (body ++ rest))).map (Split.push ['@']) = _
    rw [hread]
    rfl

/-- What comes right behind a mark where the mark ends. -/
private theorem Token.Stops.mark {c d : Char} {r : List Char}
    (h : Token.Stops ⟨.punct, [c]⟩ (d :: r)) :
    (c, d) ∉ pairOperators ∧ (c = '/' → d ≠ '/' ∧ d ≠ '*') ∧
      (c = '@' → isWordStart d = false ∧ d ≠ '"') ∧ (c = '$' → d ≠ '"') := by
  simpa [Token.takes, Token.markTakes, and_assoc] using h.head d r rfl

/-- Where an `@` or a `$` is a mark, it opens no string together with the other one. -/
private theorem Token.Stops.opener {c d : Char} {rest : List Char}
    (h : Token.Stops ⟨.punct, [c]⟩ rest) (hc : (c, d) ∈ [('@', '$'), ('$', '@')])
    (t : List Char) : rest ≠ d :: '"' :: t := by
  rintro rfl
  have hpair := h.pair d '"' t rfl
  simp only [List.mem_cons, List.not_mem_nil, or_false, Prod.mk.injEq] at hc
  rcases hc with ⟨rfl, rfl⟩ | ⟨rfl, rfl⟩ <;> simp [Token.takesPair, Token.isPunctOf] at hpair

/-- A mark that the text does not go on with begins no comment. -/
private theorem comment?_of_stops {c : Char} {rest : List Char}
    (hs : Token.Stops ⟨.punct, [c]⟩ rest) : comment? (c :: rest) = none := by
  by_cases hc : c = '/'
  · subst hc
    unfold comment?
    split
    · next heq => cases heq; exact absurd rfl (hs.mark.2.1 rfl).1
    · next heq => cases heq; exact absurd rfl (hs.mark.2.1 rfl).2
    · rfl
  · exact comment?_eq_none hc

/-- A mark that the text does not go on with begins no literal, unless it is a quote or a digit. -/
private theorem literal?_of_stops {c : Char} {rest : List Char}
    (hs : Token.Stops ⟨.punct, [c]⟩ rest) (hdouble : c ≠ '"') (hsingle : c ≠ '\'')
    (hdigit : c.isDigit = false) : literal? (c :: rest) = none := by
  by_cases hat : c = '@'
  · subst hat
    refine literal?_opener (c := '@') (d := '$') (by decide) ?_ (hs.opener (by decide))
    rintro t rfl
    exact (hs.mark.2.2.1 rfl).2 rfl
  by_cases hdollar : c = '$'
  · subst hdollar
    refine literal?_opener (c := '$') (d := '@') (by decide) ?_ (hs.opener (by decide))
    rintro t rfl
    exact hs.mark.2.2.2 rfl rfl
  exact literal?_eq_none hat hdollar hdouble hsingle hdigit

/-- A mark that the text does not go on with begins no word, unless it does so by itself. -/
private theorem word?_of_stops {c : Char} {rest : List Char}
    (hs : Token.Stops ⟨.punct, [c]⟩ rest) (hword : isWordStart c = false) :
    word? (c :: rest) = none := by
  by_cases hat : c = '@'
  · subst hat
    cases rest with
    | nil => rfl
    | cons d r => simp [word?, plainWord?, (hs.mark.2.2.1 rfl).1]
  · exact word?_eq_none hat hword

/-- A mark is read alone before a text that does not go on with it. -/
private theorem first_mark {c : Char} {rest : List Char} (hblank : isBlank c = false)
    (hword : isWordStart c = false) (hdigit : c.isDigit = false)
    (hq : Token.isLoneQuote ⟨.punct, [c]⟩ = false) (hs : Token.Stops ⟨.punct, [c]⟩ rest) :
    first c rest = (.token ⟨.punct, [c]⟩, rest) := by
  have hquotes : c ≠ '"' ∧ c ≠ '\'' := by simpa [Token.isLoneQuote, Token.isPunctOf] using hq
  rw [first_alone (comment?_of_stops hs) (literal?_of_stops hs hquotes.1 hquotes.2 hdigit)
    (word?_of_stops hs hword) ?_, hblank]
  · simp
  · rintro d r rfl
    exact hs.mark.1

/-- A verbatim string is read back before a text that does not begin with a quote. -/
private theorem first_verbatim {front body rest : List Char} (hfront : front ∈ verbatimFronts)
    (hbody : verbatimTail? body = some (body, []))
    (hs : Token.Stops ⟨.literal, front ++ body⟩ rest) {c : Char} {r : List Char}
    (htext : front ++ body ++ rest = c :: r) :
    first c r = (.token ⟨.literal, front ++ body⟩, rest) := by
  have hverbatim : Token.isVerbatim ⟨.literal, front ++ body⟩ = true := by
    simpa [Token.isVerbatim] using ⟨front, hfront, List.prefix_append front body⟩
  have hrest : rest.head? ≠ some '"' := by
    cases rest with
    | nil => simp
    | cons d t =>
      have hhead := hs.head d t rfl
      simp only [Token.takes, hverbatim, Bool.true_and, Bool.or_eq_false_iff,
        beq_eq_false_iff_ne] at hhead
      simpa using hhead.2
  have hread : literal? (c :: r) = some (front ++ body, rest) := by
    rw [← htext, List.append_assoc]
    exact literal?_verbatim hfront (verbatimTail?_append hbody hrest)
  refine first_of_literal? ?_ hread
  simp only [verbatimFronts, List.mem_cons, List.not_mem_nil, or_false] at hfront
  rcases hfront with rfl | rfl <;> cases htext <;> decide

/-- A token is read back before any text that does not go on with it. -/
theorem first_append {t : Token} (ht : t.Shape) (hq : t.isLoneQuote = false) {rest : List Char}
    (hs : t.Stops rest) {c : Char} {r : List Char} (htext : t.text ++ rest = c :: r) :
    first c r = (.token t, rest) := by
  cases ht with
  | verbatim hfront htail => exact first_verbatim hfront htail hs htext
  | @quoted front tail quote hfront htail =>
    have hread : literal? (c :: r) = some (front ++ tail, rest) := by
      rw [← htext, List.append_assoc]
      exact literal?_quoted hfront (quotedTail?_append htail rest)
    refine first_of_literal? ?_ hread
    simp only [quotedFronts, List.mem_cons, List.not_mem_nil, or_false, Prod.mk.injEq] at hfront
    rcases hfront with ⟨rfl, rfl⟩ | ⟨rfl, rfl⟩ | ⟨rfl, rfl⟩ | ⟨rfl, rfl⟩ <;> cases htext <;> decide
  | @number d tail hd htail =>
    cases htext
    have hread : literal? (c :: (tail ++ rest)) = some (c :: tail, rest) := by
      rw [literal?_number _ hd, numberTail_of_stops hd htail hs]
      rfl
    exact first_of_literal? (ne_of_isWordPart (isWordPart_of_isDigit hd) (by decide)) hread
  | @word front tail d hfront hd htail =>
    exact first_word hfront hd (plainWord?_of_stops hd htail hs.head) htext
  | @operator a b hpair =>
    cases htext
    exact first_operator hpair rest
  | @mark d hblank hword hdigit =>
    cases htext
    exact first_mark hblank hword hdigit hq hs

/-! ### What can follow a token -/

/-- The tokens of a text are that of its first lexeme, if it is a token, and those behind it. -/
theorem tokens_cons (c : Char) (r : List Char) :
    tokens (c :: r) = (first c r).1.token?.toList ++ tokens (first c r).2 := by
  rw [tokens, lexemes_cons, List.filterMap_cons, tokens]
  cases (first c r).1.token? <;> rfl

theorem tokens_of_first {c : Char} {r rest : List Char} {t : Token}
    (h : first c r = (.token t, rest)) : tokens (c :: r) = t :: tokens rest := by
  rw [tokens_cons, h]
  rfl

theorem tokens_blank {c : Char} (hc : isBlank c = true) (r : List Char) :
    tokens (c :: r) = tokens r := by
  rw [tokens_cons, first_blank hc]
  rfl

/-- A sign that opens no string and no longer lexeme is a token. -/
theorem tokens_sign {c : Char} {r : List Char} (hc : c ∈ signs) (hslash : c ≠ '/')
    (hliteral : literal? (c :: r) = none) (hword : word? (c :: r) = none)
    (hpair : ∀ d, (c, d) ∉ pairOperators) : tokens (c :: r) = ⟨.punct, [c]⟩ :: tokens r := by
  refine tokens_of_first ?_
  rw [first_alone (comment?_eq_none hslash) hliteral hword fun d _ _ => hpair d, isBlank_sign hc]
  simp

/-- A text in which every quote belongs to a string or a character. -/
def QuotesClosed (s : List Char) : Prop := ∀ t ∈ tokens s, t.isLoneQuote = false

instance (s : List Char) : Decidable (QuotesClosed s) :=
  inferInstanceAs (Decidable (∀ t ∈ tokens s, t.isLoneQuote = false))

/-- A token of a text in which every quote is closed. -/
structure Token.Closed (t : Token) : Prop where
  shape : t.Shape
  quote : t.isLoneQuote = false

/-- Every token of a text has one of the forms. -/
theorem shape_of_mem_tokens {s : List Char} {t : Token} (ht : t ∈ tokens s) : t.Shape := by
  rw [tokens] at ht
  fun_induction lexemes s with
  | case1 => cases ht
  | case2 c r ih =>
    obtain ⟨l, hl, hlt⟩ := List.mem_filterMap.1 ht
    rcases List.mem_cons.1 hl with hfirst | hrest
    · cases l with
      | blank d => cases hlt
      | comment text => cases hlt
      | token u =>
        cases hlt
        exact (read_of_first (Prod.ext hfirst.symm rfl)).shape
    · exact ih (List.mem_filterMap.2 ⟨l, hrest, hlt⟩)

theorem QuotesClosed.closed {s : List Char} (h : QuotesClosed s) {t : Token} (ht : t ∈ tokens s) :
    t.Closed := ⟨shape_of_mem_tokens ht, h t ht⟩

/-- A closed token is read off a text that begins with it and does not go on with it. -/
theorem Token.Closed.tokens_append {t : Token} (ht : t.Closed) {rest : List Char}
    (hs : t.Stops rest) : tokens (t.text ++ rest) = t :: tokens rest := by
  obtain ⟨c, r, hc⟩ := List.exists_cons_of_ne_nil ht.shape.text_ne_nil
  have htext : t.text ++ rest = c :: (r ++ rest) := by rw [hc]; rfl
  rw [htext]
  exact tokens_of_first (first_append ht.shape ht.quote hs htext)

/-- Where every quote is closed, a quote is followed by its closing one. -/
theorem QuotesClosed.quoted {r : List Char} (h : QuotesClosed ('"' :: r)) :
    quotedTail? '"' r ≠ none := by
  intro hnone
  have hliteral : literal? ('"' :: r) = none := by
    simp [literal?, verbatim?, regular?, character?, number?, hnone]
  have htokens := tokens_sign (by decide) (by decide) hliteral
    (word?_eq_none (by decide) (isWordStart_sign (by decide))) (by simp [pairOperators])
  exact absurd (h ⟨.punct, ['"']⟩ (by simp [htokens])) (by decide)

/-- A string behind a dollar sign ends, if every quote is closed. -/
theorem QuotesClosed.dollar {r : List Char} (h : QuotesClosed ('$' :: '"' :: r)) :
    quotedTail? '"' r ≠ none := by
  intro hnone
  have hliteral : literal? ('$' :: '"' :: r) = none := by
    simp [literal?, verbatim?, regular?, character?, number?, hnone]
  have htokens := tokens_sign (by decide) (by decide) hliteral
    (word?_eq_none (by decide) (isWordStart_sign (by decide))) (by simp [pairOperators])
  have hrest : QuotesClosed ('"' :: r) := fun t ht => h t (by simp [htokens, ht])
  exact hrest.quoted hnone

/-- Where every quote is closed, a quote behind an `@` is followed by another one. -/
theorem QuotesClosed.mem_at {r : List Char} (h : QuotesClosed ('@' :: '"' :: r)) : '"' ∈ r := by
  by_contra hmem
  have hnone : quotedTail? '"' r = none := by
    cases hr : quotedTail? '"' r with
    | none => rfl
    | some p => exact absurd (mem_of_quotedTail? hr) hmem
  have hliteral : literal? ('@' :: '"' :: r) = none := by
    simp [literal?, verbatim?, regular?, character?, number?, verbatimTail?_eq_none_iff.2 hmem,
      hnone]
  have hword : word? ('@' :: '"' :: r) = none := by
    simp [word?, plainWord?, isWordStart_sign (show '"' ∈ signs by decide)]
  have htokens := tokens_sign (by decide) (by decide) hliteral hword (by simp [pairOperators])
  have hrest : QuotesClosed ('"' :: r) := fun t ht => h t (by simp [htokens, ht])
  exact hrest.quoted hnone

/-- Behind a verbatim string that is read, a quote comes only before a text without quotes. -/
private theorem not_mem_of_verbatimTail? {s p x : List Char}
    (h : verbatimTail? s = some (p, '"' :: x)) : '"' ∉ x := by
  fun_induction verbatimTail? s generalizing p with
  | case1 => cases h
  | case2 r ih =>
    rw [Option.some.injEq] at h
    split at h
    · next q hq =>
      obtain ⟨a, b⟩ := q
      cases h
      exact ih hq
    · next hnone =>
      -- the string ended at the first of two quotes because no later quote could close it
      cases h
      exact verbatimTail?_eq_none_iff.1 hnone
  | case3 r hr => cases h; exact (hr x rfl rfl).elim
  | case4 c r _ hc ih =>
    obtain ⟨⟨a, b⟩, hq, hp⟩ := Option.map_eq_some_iff.1 h
    cases hp
    exact ih hq

/-- What is left behind a number does not go on with it. -/
private theorem stops_number {c : Char} {s : List Char} (hc : c.isDigit = true) :
    Token.Stops ⟨.literal, c :: (numberTail c s).1⟩ (numberTail c s).2 := by
  have hverbatim := Token.isVerbatim_of_isNumber (t := ⟨.literal, c :: (numberTail c s).1⟩)
    (by simp [Token.isNumber, hc])
  constructor
  · intro d r hr
    have hpart := isNumberPart_rest hr
    simp only [isNumberPart, Bool.or_eq_false_iff] at hpart
    simp [Token.takes, hverbatim, hpart.1.1, hpart.1.2]
  · intro d e r hr
    have hpart := isNumberPart_rest hr
    simp only [isNumberPart, Bool.or_eq_false_iff, List.head?_cons, Option.any_some] at hpart
    simpa [Token.takesPair, Token.isPunctOf, Token.isNumber, hc, List.getLast?_cons] using hpart.2

/-- What is left behind a mark does not go on with it. -/
private theorem stops_mark {c : Char} {s : List Char} (hcomment : comment? (c :: s) = none)
    (hliteral : literal? (c :: s) = none) (hword : word? (c :: s) = none)
    (hoperator : pairOperator? (c :: s) = none) (hclosed : QuotesClosed s)
    (hstar : c = '/' → ∀ r, s ≠ '*' :: r) : Token.Stops ⟨.punct, [c]⟩ s := by
  simp only [literal?, Option.orElse_eq_orElse, Option.orElse_eq_or, Option.or_eq_none_iff]
    at hliteral
  obtain ⟨hverbatim, hregular, -, -⟩ := hliteral
  constructor
  · rintro d r rfl
    have hpair : (c, d) ∉ pairOperators := by simpa [pairOperator?] using hoperator
    have hslash : c = '/' → d ≠ '/' ∧ d ≠ '*' := by
      rintro rfl
      refine ⟨?_, ?_⟩
      · rintro rfl
        simp [comment?] at hcomment
      · rintro rfl
        exact hstar rfl r rfl
    have hat : c = '@' → isWordStart d = false ∧ d ≠ '"' := by
      rintro rfl
      refine ⟨by simpa [word?, plainWord?] using hword, ?_⟩
      rintro rfl
      cases hr : quotedTail? '"' r with
      | none => exact hclosed.quoted hr
      | some q =>
        -- a quote that closes the string would also close a verbatim one
        have hnone : verbatimTail? r = none := by simpa [verbatim?] using hverbatim
        exact verbatimTail?_eq_none_iff.1 hnone (mem_of_quotedTail? hr)
    have hdollar : c = '$' → d ≠ '"' := by
      rintro rfl rfl
      exact hclosed.quoted (by simpa [regular?] using hregular)
    simpa [Token.takes, Token.markTakes, hpair] using ⟨⟨hslash, hat⟩, hdollar⟩
  · rintro d e r rfl
    have hat : c = '@' → d = '$' → e ≠ '"' := by
      rintro rfl rfl rfl
      exact hclosed.dollar (by simpa [regular?] using hregular)
    have hdollar : c = '$' → d = '@' → e ≠ '"' := by
      rintro rfl rfl rfl
      have hnone : verbatimTail? r = none := by simpa [verbatim?] using hverbatim
      exact verbatimTail?_eq_none_iff.1 hnone hclosed.mem_at
    simpa [Token.takesPair, Token.isNumber, Token.isPunctOf] using ⟨hat, hdollar⟩

/-- Where every quote is closed and no slash comes before a star, only texts that do not go on
with a token can follow it. -/
theorem Token.Read.stops {s rest : List Char} {t : Token} (h : Token.Read s t rest)
    (hclosed : QuotesClosed rest) (hstar : t = ⟨.punct, ['/']⟩ → ∀ r, rest ≠ '*' :: r) :
    t.Stops rest := by
  cases h with
  | @verbatim front s p rest hfront hread =>
    have hnumber : Token.isNumber ⟨.literal, front ++ p⟩ = false := by
      simp only [verbatimFronts, List.mem_cons, List.not_mem_nil, or_false] at hfront
      rcases hfront with rfl | rfl <;> rfl
    refine ⟨?_, fun c d r _ => by simp [Token.takesPair, hnumber, Token.isPunctOf]⟩
    rintro c r rfl
    -- a quote right behind a verbatim string is the last of all, so nothing closes it
    have hc : c ≠ '"' := by
      rintro rfl
      have hnot := not_mem_of_verbatimTail? hread
      cases hr : quotedTail? '"' r with
      | none => exact hclosed.quoted hr
      | some q => exact hnot (mem_of_quotedTail? hr)
    simp [Token.takes, hnumber, hc]
  | @quoted front s p rest quote hfront hread =>
    have hkind : Token.isNumber ⟨.literal, front ++ p⟩ = false ∧
        Token.isVerbatim ⟨.literal, front ++ p⟩ = false := by
      simp only [quotedFronts, List.mem_cons, List.not_mem_nil, or_false, Prod.mk.injEq] at hfront
      rcases hfront with ⟨rfl, -⟩ | ⟨rfl, -⟩ | ⟨rfl, -⟩ | ⟨rfl, -⟩ <;> exact ⟨rfl, rfl⟩
    exact ⟨fun c r _ => by simp [Token.takes, hkind],
      fun c d r _ => by simp [Token.takesPair, hkind, Token.isPunctOf]⟩
  | number s hc => exact stops_number hc
  | @word front c s hfront hc =>
    refine ⟨fun d r hr => ?_, fun d e r _ => by simp [Token.takesPair, Token.isNumber,
      Token.isPunctOf]⟩
    have hhead := List.head?_dropWhile_not isWordPart s
    simpa [hr, Token.takes] using hhead
  | @operator a b s hpair =>
    exact ⟨fun c r _ => rfl, fun c d r _ => by simp [Token.takesPair, Token.isNumber,
      Token.isPunctOf]⟩
  | @mark c s hcomment hliteral hword hoperator hblank =>
    exact stops_mark hcomment hliteral hword hoperator hclosed fun hc => hstar (by rw [hc])

end TypeCatalog.Signature
