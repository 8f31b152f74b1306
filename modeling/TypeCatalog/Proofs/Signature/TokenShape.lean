import Mathlib.Data.List.TakeWhile
import TypeCatalog.Signature.Layout

/-!
# Shapes of tokens

What a token can look like on its own, whatever text it was read from. A token is a string, a
character, a number, a word, an operator of two characters or a single mark. The readers of
strings and numbers are shown to take a piece of text as a whole, so that it can be written before
any text that does not go on with it.

## Main definitions

- `Signature.Token.Shape` — the forms of token, each with what its reader makes of its text
- `Signature.Token.Read` — what the first token of a text can be, and what it leaves

## Main statements

- `Signature.read_of_first` — the first token of a text has one of the forms
- `Signature.Token.Read.shape` — every token that is read off a text has one of the shapes
-/

namespace TypeCatalog.Signature

open Text

/-! ### Members of a list -/

-- What is said of the members of a list is decided member by member, and not by a walk through all
-- characters, of which there are finitely many as well.

instance (priority := 2000) decidableForallMem {α : Type} (p : α → Prop) [DecidablePred p]
    (l : List α) : Decidable (∀ x ∈ l, p x) := List.decidableBAll p l

instance (priority := 2000) decidableExistsMem {α : Type} (p : α → Prop) [DecidablePred p]
    (l : List α) : Decidable (∃ x ∈ l, p x) := List.decidableBEx p l

/-! ### Characters -/

/-- A character below all ranges is in none of them. -/
private theorem inRanges_of_lt {ranges : List CodeRange} {n : Nat} {c : Char}
    (h : ∀ range ∈ ranges, n ≤ range.1) (hc : c.toNat < n) : inRanges ranges c = false := by
  rw [Bool.eq_false_iff]
  intro hin
  obtain ⟨range, hmem, hlow, -⟩ := inRanges_iff.1 hin
  have := h range hmem
  omega

/-- In ASCII the letters are those of the English alphabet. -/
theorem isLetter_of_lt {c : Char} (h : c.toNat < 128) : isLetter c = c.isAlpha := by
  have habove : ∀ range ∈ letterRanges, 128 ≤ range.1 := by decide +kernel
  simp [isLetter, inRanges_of_lt habove h]

/-- Among the first 128 characters, the numerals are the digits. -/
theorem isNumeral_of_lt {c : Char} (h : c.toNat < 128) : isNumeral c = c.isDigit := by
  have habove : ∀ range ∈ numeralRanges, 128 ≤ range.1 := by decide +kernel
  simp [isNumeral, inRanges_of_lt habove h]

theorem isWordPart_of_isWordStart {c : Char} (h : isWordStart c = true) :
    isWordPart c = true := by
  simp only [isWordStart, Bool.or_eq_true] at h
  rcases h with h | h <;> simp [isWordPart, h]

theorem isWordPart_of_isDigit {c : Char} (h : c.isDigit = true) : isWordPart c = true := by
  simp [isWordPart, isNumeral_of_isDigit h]

private theorem toNat_of_isDigit {c : Char} (h : c.isDigit = true) :
    48 ≤ c.toNat ∧ c.toNat ≤ 57 := by
  simp only [Char.isDigit, Bool.and_eq_true, decide_eq_true_eq, UInt32.le_iff_toNat_le] at h
  exact h

/-- A letter from `A` to `Z`, small or capital, is one of the first 128 characters. -/
private theorem toNat_of_isAlpha {c : Char} (h : c.isAlpha = true) : c.toNat < 128 := by
  have hhigh : c.val ≤ 'Z'.val ∨ c.val ≤ 'z'.val := by
    rcases (Bool.or_eq_true _ _).mp h with hupper | hlower
    · have hrange : c.val ≥ 'A'.val ∧ c.val ≤ 'Z'.val := of_decide_eq_true hupper
      exact .inl hrange.2
    · have hrange := (Bool.and_eq_true _ _).mp hlower
      exact .inr (of_decide_eq_true hrange.2)
  simp only [UInt32.le_iff_toNat_le] at hhigh
  have hrange : c.toNat ≤ 90 ∨ c.toNat ≤ 122 := hhigh
  omega

/-- Beyond ASCII the tables alone say what is part of a word. -/
private theorem isWordPart_of_le {c : Char} (h : 128 ≤ c.toNat) :
    isWordPart c = inRanges (letterRanges ++ numeralRanges) c := by
  have halpha : c.isAlpha = false := by
    refine Bool.eq_false_iff.2 fun hc => ?_
    have := toNat_of_isAlpha hc
    omega
  have hdigit : c.isDigit = false := by
    refine Bool.eq_false_iff.2 fun hc => ?_
    have := toNat_of_isDigit hc
    omega
  have hline : c ≠ '_' := by
    rintro rfl
    revert h
    decide
  simp [isWordPart, isLetter, isNumeral, halpha, hdigit, hline, inRanges]

theorem isWordStart_of_isDigit {c : Char} (h : c.isDigit = true) : isWordStart c = false := by
  -- a digit is one of the first 128 characters, which are tried one by one
  have hall : ∀ n : Fin 128, (Char.ofNat n).isDigit = true → (Char.ofNat n).isAlpha = false ∧
      Char.ofNat n ≠ '_' := by decide +kernel
  have hlt : c.toNat < 128 := by
    have := toNat_of_isDigit h
    omega
  have hc := hall ⟨c.toNat, hlt⟩
  rw [Char.ofNat_toNat] at hc
  simp [isWordStart, isLetter_of_lt hlt, hc h]

theorem isWordPart_of_isBlank {c : Char} (h : isBlank c = true) : isWordPart c = false := by
  have hascii : ∀ n : Fin 128, isBlank (Char.ofNat n) = true →
      ((Char.ofNat n).isAlpha || (Char.ofNat n).isDigit || Char.ofNat n == '_') = false := by
    decide +kernel
  have hapart : (blankRanges.all fun a => (letterRanges ++ numeralRanges).all fun b =>
      Nat.blt a.2 b.1 || Nat.blt b.2 a.1) = true := by decide +kernel
  by_cases hlt : c.toNat < 128
  · have hc := hascii ⟨c.toNat, hlt⟩
    rw [Char.ofNat_toNat] at hc
    simpa [isWordPart, isLetter_of_lt hlt, isNumeral_of_lt hlt] using hc h
  · -- beyond ASCII only the tables count, and their ranges do not meet those of the blanks
    rw [isWordPart_of_le (by omega), Bool.eq_false_iff]
    intro hpart
    obtain ⟨a, ha, hlow, hhigh⟩ := inRanges_iff.1 h
    obtain ⟨b, hb, hlow', hhigh'⟩ := inRanges_iff.1 hpart
    have hab := List.all_eq_true.1 (List.all_eq_true.1 hapart a ha) b hb
    simp only [Bool.or_eq_true, Nat.blt_eq] at hab
    omega

theorem isDigit_eq_false {c : Char} (h : isWordPart c = false) : c.isDigit = false := by
  rw [Bool.eq_false_iff]
  intro hc
  rw [isWordPart_of_isDigit hc] at h
  cases h

theorem isWordStart_eq_false {c : Char} (h : isWordPart c = false) : isWordStart c = false := by
  rw [Bool.eq_false_iff]
  intro hc
  rw [isWordPart_of_isWordStart hc] at h
  cases h

/-- The signs that begin, end or join the lexemes which are not words. -/
def signs : List Char :=
  ['"', '\'', '/', '*', '@', '$', ':', '=', '>', '!', '&', '|', '?', '.', ',', ';', '(', ')', '[',
    ']', '<', '+', '-', '~']

theorem isWordPart_sign {c : Char} (h : c ∈ signs) : isWordPart c = false := by
  have hall : ∀ d ∈ signs, d.toNat < 128 ∧ (d.isAlpha || d.isDigit || d == '_') = false := by
    decide
  obtain ⟨hlt, hnot⟩ := hall c h
  simpa [isWordPart, isLetter_of_lt hlt, isNumeral_of_lt hlt] using hnot

theorem isBlank_sign {c : Char} (h : c ∈ signs) : isBlank c = false := by
  have hall : ∀ d ∈ signs, isBlank d = false := by decide
  exact hall c h

theorem ne_of_isBlank {c d : Char} (h : isBlank c = true) (hd : d ∈ signs) : c ≠ d := by
  rintro rfl
  rw [isBlank_sign hd] at h
  cases h

theorem ne_of_isWordPart {c d : Char} (h : isWordPart c = true) (hd : d ∈ signs) : c ≠ d := by
  rintro rfl
  rw [isWordPart_sign hd] at h
  cases h

/-! ### Readers that fail -/

theorem comment?_eq_none {c : Char} {r : List Char} (h : c ≠ '/') : comment? (c :: r) = none := by
  unfold comment?
  split
  · simp_all
  · simp_all
  · rfl

theorem verbatim?_eq_none {c : Char} {r : List Char} (h₁ : c ≠ '@') (h₂ : c ≠ '$') :
    verbatim? (c :: r) = none := by
  unfold verbatim?
  split
  · simp_all
  · simp_all
  · rfl

theorem regular?_eq_none {c : Char} {r : List Char} (h₁ : c ≠ '@') (h₂ : c ≠ '$') (h₃ : c ≠ '"') :
    regular? (c :: r) = none := by
  unfold regular?
  split
  · simp_all
  · simp_all
  · simp_all
  · simp_all
  · rfl

theorem character?_eq_none {c : Char} {r : List Char} (h : c ≠ '\'') :
    character? (c :: r) = none := by
  unfold character?
  split
  · simp_all
  · rfl

theorem number?_eq_none {c : Char} {r : List Char} (h : c.isDigit = false) :
    number? (c :: r) = none := by
  simp [number?, h]

/-- What begins none of these begins no literal. -/
theorem literal?_eq_none {c : Char} {r : List Char} (h₁ : c ≠ '@') (h₂ : c ≠ '$') (h₃ : c ≠ '"')
    (h₄ : c ≠ '\'') (h₅ : c.isDigit = false) : literal? (c :: r) = none := by
  simp [literal?, verbatim?_eq_none h₁ h₂, regular?_eq_none h₁ h₂ h₃, character?_eq_none h₄,
    number?_eq_none h₅]

/-- Only `@` and what begins a word by itself begin a word. -/
theorem word?_eq_none {c : Char} {r : List Char} (h₁ : c ≠ '@') (h₂ : isWordStart c = false) :
    word? (c :: r) = none := by
  unfold word?
  split
  · simp_all
  · simp [plainWord?, h₂]

/-! ### Readers of a whole text -/

/-- A verbatim string ends if there is a quote at all. -/
theorem verbatimTail?_eq_none_iff {s : List Char} : verbatimTail? s = none ↔ '"' ∉ s := by
  fun_induction verbatimTail? s with
  | case1 => simp
  | case2 r _ => simp
  | case3 r _ => simp
  | case4 c r _ hc ih => simp [ih, Ne.symm hc]

/-- A verbatim string goes on behind a character that is no quote. -/
theorem verbatimTail?_cons {c : Char} (r : List Char) (h : c ≠ '"') :
    verbatimTail? (c :: r) = (verbatimTail? r).map (Split.push [c]) := by
  rw [verbatimTail?, if_neg h]
  exact fun _ hc _ => h hc

/-- What the reader of verbatim strings takes off a text, it takes off any text that begins with
it and does not go on with a quote. -/
theorem verbatimTail?_append {s p r : List Char} (h : verbatimTail? s = some (p, r))
    {x : List Char} (hx : x.head? ≠ some '"') : verbatimTail? (p ++ x) = some (p, x) := by
  have hclose : verbatimTail? ('"' :: x) = some (['"'], x) := by
    cases x with
    | nil => rfl
    | cons d x =>
      have hd : d ≠ '"' := by simpa using hx
      simp [verbatimTail?, hd]
  fun_induction verbatimTail? s generalizing p r with
  | case1 => cases h
  | case2 r ih =>
    -- two quotes are a doubled one if the string can be closed behind them
    rw [Option.some.injEq] at h
    split at h
    · next q hq =>
      cases h
      simp [Split.push, verbatimTail?, ih (p := q.1) (r := q.2) hq]
    · cases h
      exact hclose
  | case3 r _ => cases h; exact hclose
  | case4 c r _ hc ih =>
    obtain ⟨q, hq, hp⟩ := Option.map_eq_some_iff.1 h
    cases hp
    simp [Split.push, verbatimTail?_cons _ hc, ih (p := q.1) (r := q.2) hq]

/-- A character after which the reader of strings looks at one character only is no backslash. -/
theorem ne_backslash {c : Char} {r : List Char} (h₁ : c = '\\' → r = [] → False)
    (h₂ : ∀ d t, c = '\\' → r = d :: t → False) : c ≠ '\\' := by
  rintro rfl
  cases r with
  | nil => exact h₁ rfl rfl
  | cons d t => exact h₂ d t rfl rfl

/-- A string on one line ends at its quote, fails at the end of the line, and otherwise goes on. -/
theorem quotedTail?_cons {quote c : Char} (r : List Char) (h : c ≠ '\\') :
    quotedTail? quote (c :: r) =
      if c = quote then some ([c], r)
      else if c = '\n' then none
      else (quotedTail? quote r).map (Split.push [c]) := by
  rw [quotedTail?]
  · exact fun hc _ => h hc
  · exact fun _ _ hc _ => h hc

/-- A string on one line ends only at its quote. -/
theorem mem_of_quotedTail? {quote : Char} {s : List Char} {p : Split}
    (h : quotedTail? quote s = some p) : quote ∈ s := by
  fun_induction quotedTail? quote s generalizing p with
  | case1 => cases h
  | case2 => cases h
  | case3 r => cases h
  | case4 c r _ ih =>
    obtain ⟨q, hq, rfl⟩ := Option.map_eq_some_iff.1 h
    simp [ih hq]
  | case5 r => simp
  | case6 => cases h
  | case7 c r _ _ _ _ ih =>
    obtain ⟨q, hq, rfl⟩ := Option.map_eq_some_iff.1 h
    simp [ih hq]

/-- What the reader of strings takes off a text, it takes off any text that begins with it. -/
theorem quotedTail?_append {quote : Char} {s p r : List Char}
    (h : quotedTail? quote s = some (p, r)) (x : List Char) :
    quotedTail? quote (p ++ x) = some (p, x) := by
  fun_induction quotedTail? quote s generalizing p r with
  | case1 => cases h
  | case2 => cases h
  | case3 r => cases h
  | case4 c r hc ih =>
    obtain ⟨q, hq, hp⟩ := Option.map_eq_some_iff.1 h
    cases hp
    simp [quotedTail?, hc, ih (p := q.1) (r := q.2) hq, Split.push]
  | case5 r h₁ h₂ =>
    cases h
    simp [quotedTail?_cons _ (ne_backslash h₁ h₂)]
  | case6 => cases h
  | case7 c r h₁ h₂ hq hn ih =>
    obtain ⟨q, hr, hp⟩ := Option.map_eq_some_iff.1 h
    cases hp
    simp [quotedTail?_cons _ (ne_backslash h₁ h₂), hq, hn, ih (p := q.1) (r := q.2) hr, Split.push]

/-- What is part of a number still is one when only the number follows, and then anything. -/
private theorem isNumberPart_taken {before c : Char} {r : List Char}
    (h : isNumberPart before c r = true) (x : List Char) :
    isNumberPart before c ((numberTail c r).1 ++ x) = true := by
  simp only [isNumberPart, Bool.or_eq_true, Bool.and_eq_true] at h ⊢
  refine h.imp_right fun ⟨hsign, hdigit⟩ => ⟨hsign, ?_⟩
  -- the digit behind the sign of an exponent is taken with it
  cases r with
  | nil => cases hdigit
  | cons d r =>
    have hd : d.isDigit = true := by simpa using hdigit
    have hpart : isNumberPart c d r = true := by simp [isNumberPart, isWordPart_of_isDigit hd]
    simp [numberTail, hpart, Split.push, hd]

/-- Behind what the reader of numbers takes off a text, it goes on from the last character of it,
whatever comes there. -/
theorem numberTail_taken_append (before : Char) (s x : List Char) :
    numberTail before ((numberTail before s).1 ++ x) =
      (numberTail (((numberTail before s).1).getLastD before) x).push (numberTail before s).1 := by
  fun_induction numberTail before s with
  | case1 => simp [Split.push]
  | case2 before c r hc ih =>
    have hpart := isNumberPart_taken hc x
    simp only [Split.push, List.cons_append, List.nil_append, numberTail, hpart, if_true, ih,
      List.getLastD_cons]
  | case3 before c r hc => simp [Split.push]

/-- Where the reader of numbers stops, the next character does not go on with the number. -/
theorem isNumberPart_rest {before c : Char} {s r : List Char}
    (h : (numberTail before s).2 = c :: r) :
    isNumberPart (((numberTail before s).1).getLastD before) c r = false := by
  fun_induction numberTail before s with
  | case1 => cases h
  | case2 before d t hd ih =>
    simp only [Split.push, List.cons_append, List.nil_append, List.getLastD_cons]
    exact ih h
  | case3 before d t hd => cases h; simpa using hd

/-! ### Shapes -/

/-- What can open a verbatim string. -/
def verbatimFronts : List (List Char) := [['@', '"'], ['$', '@', '"']]

/-- What can open a string on one line or a character, each with the quote that closes it. -/
def quotedFronts : List (List Char × Char) :=
  [(['"'], '"'), (['$', '"'], '"'), (['@', '$', '"'], '"'), (['\''], '\'')]

/-- The characters that can open a string, a character or a word that is no number. -/
def quoteMarks : List Char := ['"', '\'', '@', '$']

/-- A verbatim string begins with one of the marks. -/
theorem head_verbatim {front : List Char} (h : front ∈ verbatimFronts) (body : List Char) :
    ∃ c ∈ quoteMarks, (front ++ body).head? = some c := by
  have hall : ∀ f ∈ verbatimFronts, ∃ c ∈ quoteMarks, f.head? = some c := by decide
  obtain ⟨c, hc, hhead⟩ := hall front h
  exact ⟨c, hc, by rw [List.head?_append, hhead]; rfl⟩

/-- What can open a string or a character begins with one of few characters. -/
theorem head_quoted {front : List Char} {quote : Char} (h : (front, quote) ∈ quotedFronts)
    (body : List Char) : ∃ c ∈ quoteMarks, (front ++ body).head? = some c := by
  have hall : ∀ p ∈ quotedFronts, ∃ c ∈ quoteMarks, p.1.head? = some c := by decide
  obtain ⟨c, hc, hhead⟩ := hall _ h
  exact ⟨c, hc, by rw [List.head?_append, hhead]; rfl⟩

/-- The forms of token. The reader that finds a string or number takes all of its text. -/
inductive Token.Shape : Token → Prop where
  /-- A string over several lines. -/
  | verbatim {front body : List Char} (hfront : front ∈ verbatimFronts)
      (hbody : verbatimTail? body = some (body, [])) : Shape ⟨.literal, front ++ body⟩
  /-- A string on one line, or a character. -/
  | quoted {front body : List Char} {quote : Char} (hfront : (front, quote) ∈ quotedFronts)
      (hbody : quotedTail? quote body = some (body, [])) : Shape ⟨.literal, front ++ body⟩
  /-- A number. -/
  | number {c : Char} {body : List Char} (hc : c.isDigit = true)
      (hbody : numberTail c body = (body, [])) : Shape ⟨.literal, c :: body⟩
  /-- A word, which `@` may begin. -/
  | word {front body : List Char} {c : Char} (hfront : front ∈ [[], ['@']])
      (hc : isWordStart c = true) (hbody : ∀ d ∈ body, isWordPart d = true) :
      Shape ⟨.word, front ++ c :: body⟩
  /-- An operator of two characters. -/
  | operator {a b : Char} (hpair : (a, b) ∈ pairOperators) : Shape ⟨.punct, [a, b]⟩
  /-- A mark that stands by itself. -/
  | mark {c : Char} (hblank : isBlank c = false) (hword : isWordStart c = false)
      (hdigit : c.isDigit = false) : Shape ⟨.punct, [c]⟩

/-- A word or a literal begins with a part of a word, or with one of the marks. -/
theorem Token.Shape.head {t : Token} (ht : t.Shape) (hkind : t.kind ≠ .punct) :
    ∃ c, t.text.head? = some c ∧ (c ∈ quoteMarks ∨ isWordPart c = true) := by
  cases ht with
  | @verbatim front body hfront hbody =>
    obtain ⟨c, hc, hhead⟩ := head_verbatim hfront body
    exact ⟨c, hhead, .inl hc⟩
  | @quoted front body quote hfront hbody =>
    obtain ⟨c, hc, hhead⟩ := head_quoted hfront body
    exact ⟨c, hhead, .inl hc⟩
  | number hc hbody => exact ⟨_, rfl, .inr (isWordPart_of_isDigit hc)⟩
  | word hfront hc hbody =>
    simp only [List.mem_cons, List.not_mem_nil, or_false] at hfront
    rcases hfront with rfl | rfl
    · exact ⟨_, rfl, .inr (isWordPart_of_isWordStart hc)⟩
    · exact ⟨_, rfl, .inl (by decide)⟩
  | operator => exact absurd rfl hkind
  | mark => exact absurd rfl hkind

/-- Any other sign begins a mark or an operator. -/
theorem Token.Shape.kind_eq_punct {t : Token} (ht : t.Shape) {c : Char}
    (hhead : t.text.head? = some c) (hsign : c ∈ signs) (hmark : c ∉ quoteMarks) :
    t.kind = .punct := by
  by_contra hkind
  obtain ⟨d, hhead', hd⟩ := ht.head hkind
  cases hhead.symm.trans hhead'
  rcases hd with hd | hd
  · exact hmark hd
  · rw [isWordPart_sign hsign] at hd
    cases hd

/-- No token is empty. -/
theorem Token.Shape.text_ne_nil {t : Token} (ht : t.Shape) : t.text ≠ [] := by
  by_cases hkind : t.kind = .punct
  · cases ht with
    | operator => simp
    | mark => simp
    | _ => cases hkind
  · obtain ⟨c, hhead, -⟩ := ht.head hkind
    rintro hnil
    rw [hnil] at hhead
    cases hhead

/-- What the first token of a text can be and what it leaves, form by form. -/
inductive Token.Read : List Char → Token → List Char → Prop where
  /-- A verbatim string up to its closing quote. -/
  | verbatim {front s p rest : List Char} (hfront : front ∈ verbatimFronts)
      (hread : verbatimTail? s = some (p, rest)) : Read (front ++ s) ⟨.literal, front ++ p⟩ rest
  /-- A string on one line or a character up to its closing quote. -/
  | quoted {front s p rest : List Char} {quote : Char} (hfront : (front, quote) ∈ quotedFronts)
      (hread : quotedTail? quote s = some (p, rest)) : Read (front ++ s) ⟨.literal, front ++ p⟩ rest
  /-- A number as far as it goes. -/
  | number {c : Char} (s : List Char) (hc : c.isDigit = true) :
      Read (c :: s) ⟨.literal, c :: (numberTail c s).1⟩ (numberTail c s).2
  /-- A word as far as it goes. -/
  | word {front : List Char} {c : Char} (s : List Char) (hfront : front ∈ [[], ['@']])
      (hc : isWordStart c = true) :
      Read (front ++ c :: s) ⟨.word, front ++ c :: s.takeWhile isWordPart⟩
        (s.dropWhile isWordPart)
  /-- An operator of two characters. -/
  | operator {a b : Char} (s : List Char) (hpair : (a, b) ∈ pairOperators) :
      Read (a :: b :: s) ⟨.punct, [a, b]⟩ s
  /-- A character that begins nothing else. -/
  | mark {c : Char} {s : List Char} (hcomment : comment? (c :: s) = none)
      (hliteral : literal? (c :: s) = none) (hword : word? (c :: s) = none)
      (hoperator : pairOperator? (c :: s) = none) (hblank : isBlank c = false) :
      Read (c :: s) ⟨.punct, [c]⟩ s

private theorem read_of_verbatim? {s : List Char} {p : Split} (h : verbatim? s = some p) :
    Token.Read s ⟨.literal, p.1⟩ p.2 := by
  unfold verbatim? at h
  split at h
  · obtain ⟨q, hq, rfl⟩ := Option.map_eq_some_iff.1 h
    exact .verbatim (by decide : ['$', '@', '"'] ∈ verbatimFronts) hq
  · obtain ⟨q, hq, rfl⟩ := Option.map_eq_some_iff.1 h
    exact .verbatim (by decide : ['@', '"'] ∈ verbatimFronts) hq
  · cases h

/-- A string on one line that is no verbatim string is read as one. -/
private theorem read_of_regular? {s : List Char} {p : Split} (hv : verbatim? s = none)
    (h : regular? s = some p) : Token.Read s ⟨.literal, p.1⟩ p.2 := by
  unfold regular? at h
  split at h
  · obtain ⟨q, hq, rfl⟩ := Option.map_eq_some_iff.1 h
    exact .quoted (by decide : (['"'], '"') ∈ quotedFronts) hq
  · obtain ⟨q, hq, rfl⟩ := Option.map_eq_some_iff.1 h
    exact .quoted (by decide : (['$', '"'], '"') ∈ quotedFronts) hq
  · -- an `@"` that opens no verbatim string has no closing quote behind it
    next r =>
    obtain ⟨q, hq, -⟩ := Option.map_eq_some_iff.1 h
    have hnone : verbatimTail? r = none := by simpa [verbatim?] using hv
    exact absurd (mem_of_quotedTail? hq) (verbatimTail?_eq_none_iff.1 hnone)
  · obtain ⟨q, hq, rfl⟩ := Option.map_eq_some_iff.1 h
    exact .quoted (by decide : (['@', '$', '"'], '"') ∈ quotedFronts) hq
  · cases h

private theorem read_of_character? {s : List Char} {p : Split} (h : character? s = some p) :
    Token.Read s ⟨.literal, p.1⟩ p.2 := by
  unfold character? at h
  split at h
  · obtain ⟨q, hq, rfl⟩ := Option.map_eq_some_iff.1 h
    exact .quoted (by decide : (['\''], '\'') ∈ quotedFronts) hq
  · cases h

private theorem read_of_number? {s : List Char} {p : Split} (h : number? s = some p) :
    Token.Read s ⟨.literal, p.1⟩ p.2 := by
  unfold number? at h
  split at h
  · cases h
  · split at h
    · next c r hc => cases h; exact .number r hc
    · cases h

/-- A literal of any sort that was read is a token. -/
theorem read_of_literal? {s : List Char} {p : Split} (h : literal? s = some p) :
    Token.Read s ⟨.literal, p.1⟩ p.2 := by
  simp only [literal?, Option.orElse_eq_orElse, Option.orElse_eq_or, Option.or_eq_some_iff] at h
  rcases h with h | ⟨hv, h | ⟨-, h | ⟨-, h⟩⟩⟩
  · exact read_of_verbatim? h
  · exact read_of_regular? hv h
  · exact read_of_character? h
  · exact read_of_number? h

/-- A word that was read is a token. -/
theorem read_of_word? {s : List Char} {p : Split} (h : word? s = some p) :
    Token.Read s ⟨.word, p.1⟩ p.2 := by
  have hplain : ∀ (front : List Char) {r : List Char} {q : Split}, front ∈ [[], ['@']] →
      plainWord? r = some q → Token.Read (front ++ r) ⟨.word, front ++ q.1⟩ q.2 := by
    intro front r q hfront hq
    unfold plainWord? at hq
    split at hq
    · cases hq
    · split at hq
      · next c r hc => cases hq; exact .word r hfront hc
      · cases hq
  unfold word? at h
  split at h
  · obtain ⟨q, hq, rfl⟩ := Option.map_eq_some_iff.1 h
    exact hplain ['@'] (by simp) hq
  · exact hplain [] (by simp) h

/-- The first token of a text has one of the forms, and leaves what that form leaves. -/
theorem read_of_first {c : Char} {r rest : List Char} {t : Token}
    (h : first c r = (.token t, rest)) : Token.Read (c :: r) t rest := by
  -- the cases are the readers, in the order in which they are tried
  unfold first at h
  split at h
  · cases h
  next hcomment =>
  split at h
  · next p hp => cases h; exact read_of_literal? hp
  next hliteral =>
  split at h
  · next p hp => cases h; exact read_of_word? hp
  next hword =>
  split at h
  · next p hp =>
    cases h
    cases r with
    | nil => cases hp
    | cons d r =>
      simp only [pairOperator?] at hp
      split at hp
      · next hpair => cases hp; exact .operator r hpair
      · cases hp
  next hoperator =>
  split at h
  · cases h
  · next hblank =>
    cases h
    exact .mark hcomment hliteral hword hoperator (by simpa using hblank)

/-- Where no literal begins, there is no digit. -/
private theorem isDigit_of_literal? {c : Char} {r : List Char} (h : literal? (c :: r) = none) :
    c.isDigit = false := by
  simp only [literal?, Option.orElse_eq_orElse, Option.orElse_eq_or, Option.or_eq_none_iff] at h
  simpa [number?] using h.2.2.2

/-- Where no word begins, there is nothing that begins one. -/
private theorem isWordStart_of_word? {c : Char} {r : List Char} (h : word? (c :: r) = none) :
    isWordStart c = false := by
  by_cases hat : c = '@'
  · subst hat
    exact Bool.eq_false_iff.2 fun hstart =>
      ne_of_isWordPart (isWordPart_of_isWordStart hstart) (by decide) rfl
  · have hplain : word? (c :: r) = plainWord? (c :: r) := by
      rw [word?]
      exact fun _ hc => hat (List.cons.inj hc).1
    rw [hplain] at h
    simpa [plainWord?] using h

/-- A token that is read has one of the shapes. -/
theorem Token.Read.shape {s rest : List Char} {t : Token} (h : Token.Read s t rest) :
    t.Shape := by
  cases h with
  | verbatim hfront hread =>
    have hbody := verbatimTail?_append hread (x := []) (by simp)
    exact .verbatim hfront (by simpa using hbody)
  | quoted hfront hread =>
    have hbody := quotedTail?_append hread []
    exact .quoted hfront (by simpa using hbody)
  | @number c s hc =>
    have hbody := numberTail_taken_append c s []
    exact .number hc (by simpa [Split.push, numberTail] using hbody)
  | word s hfront hc => exact .word hfront hc fun d hd => List.mem_takeWhile_imp hd
  | operator s hpair => exact .operator hpair
  | mark hcomment hliteral hword hoperator hblank =>
    exact .mark hblank (isWordStart_of_word? hword) (isDigit_of_literal? hliteral)

end TypeCatalog.Signature
