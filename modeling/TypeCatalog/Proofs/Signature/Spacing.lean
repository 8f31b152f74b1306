import TypeCatalog.Proofs.Signature.Canonical
import TypeCatalog.Proofs.Signature.Quoted
import TypeCatalog.Proofs.Signature.Stability

/-!
# What a normalized text consists of

No character of a text is lost to a reader but blanks: whatever begins nothing else is a mark. So a
normalized text is made of the tokens of the original in their order, with one space or nothing
between neighbours. Where the space stands is told by the neighbours, and all other blanks are
inside literals.

## Main definitions

- `Signature.Gap.WellSpaced` — where a gap must hold a space, and where it must not

## Main statements

- `Signature.lexeme_cases` — what is neither a comment nor a token is a blank
- `Signature.layout_eq_flatMap` — a layout is its tokens with what is written in the gaps
- `Signature.Gap.wellSpaced` — the spaces between tokens of the forms that are read
- `Signature.normalize_spacing` — what a normalized text consists of
-/

namespace TypeCatalog.Signature

open Text

/-! ### Characters of a text -/

/-- A lexeme of a text is a comment, one of its tokens, or a blank. -/
theorem lexeme_cases {s : List Char} {l : Lexeme} (h : l ∈ lexemes s) :
    l.isComment = true ∨ (∃ t ∈ tokens s, l = .token t) ∨
      ∃ c, isBlank c = true ∧ l = .blank c := by
  cases l with
  | blank c =>
    obtain ⟨d, r, hd, hblank⟩ := isRead_of_mem_lexemes h
    obtain rfl : c = d := (List.cons.inj hd).1
    exact .inr (.inr ⟨c, hblank.2 rfl, rfl⟩)
  | comment text => exact .inl rfl
  | token t => exact .inr (.inl ⟨t, List.mem_filterMap.2 ⟨.token t, h, rfl⟩, rfl⟩)

/-! ### Characters of a token -/

/-- No blank is part of a word. -/
theorem isBlank_of_isWordPart {c : Char} (h : isWordPart c = true) : isBlank c = false := by
  rw [Bool.eq_false_iff]
  intro hblank
  rw [isWordPart_of_isBlank hblank] at h
  cases h

/-- No blank is part of a number. -/
theorem isBlank_of_mem_numberTail (before : Char) (s : List Char) {c : Char}
    (h : c ∈ (numberTail before s).1) : isBlank c = false := by
  fun_induction numberTail before s with
  | case1 => cases h
  | case2 before d r hpart ih =>
    rcases List.mem_cons.1 h with rfl | h
    · simp only [isNumberPart, Bool.or_eq_true, Bool.and_eq_true, beq_iff_eq] at hpart
      rcases hpart with (hword | rfl) | ⟨⟨rfl | rfl, -⟩, -⟩
      · exact isBlank_of_isWordPart hword
      · decide
      · decide
      · decide
    · exact ih h
  | case3 => cases h

namespace Token.Shape

variable {t : Token}

/-- Only a literal may have blanks in it. -/
theorem isBlank_of_mem (ht : t.Shape) (hkind : t.kind ≠ .literal) {c : Char} (hc : c ∈ t.text) :
    isBlank c = false := by
  cases ht with
  | verbatim => exact absurd rfl hkind
  | quoted => exact absurd rfl hkind
  | number => exact absurd rfl hkind
  | @word front body d hfront hd hbody =>
    simp only [List.mem_cons, List.not_mem_nil, or_false] at hfront
    rcases List.mem_append.1 hc with hc | hc
    · rcases hfront with rfl | rfl
      · cases hc
      · obtain rfl := List.mem_singleton.1 hc
        decide
    · rcases List.mem_cons.1 hc with rfl | hc
      · exact isBlank_of_isWordPart (isWordPart_of_isWordStart hd)
      · exact isBlank_of_isWordPart (hbody c hc)
  | @operator a b hpair =>
    have hall : ∀ p ∈ pairOperators, ∀ d ∈ [p.1, p.2], isBlank d = false := by decide
    exact hall _ hpair c hc
  | @mark d hblank _ _ =>
    obtain rfl := List.mem_singleton.1 hc
    exact hblank

/-- No token begins with a blank. -/
theorem isBlank_head (ht : t.Shape) {c : Char} (hc : t.text.head? = some c) :
    isBlank c = false := by
  by_cases hkind : t.kind = .punct
  · refine ht.isBlank_of_mem ?_ (List.mem_of_mem_head? hc)
    rw [hkind]
    decide
  · obtain ⟨d, hd, hcases⟩ := ht.head hkind
    obtain rfl : c = d := Option.some.inj (hc.symm.trans hd)
    rcases hcases with hmark | hpart
    · have hall : ∀ d ∈ quoteMarks, isBlank d = false := by decide
      exact hall c hmark
    · exact isBlank_of_isWordPart hpart

/-- No token ends with a blank. -/
theorem isBlank_getLast (ht : t.Shape) {c : Char} (hc : t.text.getLast? = some c) :
    isBlank c = false := by
  by_cases hkind : t.kind = .literal
  · cases ht with
    | @verbatim front body hfront hbody =>
      obtain ⟨text, htext, -⟩ : ∃ text, body = text ++ ['"'] ∧ Doubled text := exists_doubled hbody
      rw [htext, List.getLast?_append, List.getLast?_concat] at hc
      cases hc
      decide
    | @quoted front body quote hfront hbody =>
      obtain ⟨text, htext, -⟩ : ∃ text, body = text ++ [quote] ∧ Escaped quote text :=
        exists_escaped hbody
      rw [htext, List.getLast?_append, List.getLast?_concat] at hc
      cases hc
      have hall : ∀ p ∈ quotedFronts, isBlank p.2 = false := by decide
      exact hall _ hfront
    | @number d body hd hbody =>
      rcases List.mem_cons.1 (List.mem_of_getLast? hc) with rfl | hmem
      · exact isBlank_of_isWordPart (isWordPart_of_isDigit hd)
      · refine isBlank_of_mem_numberTail d body ?_
        rw [hbody]
        exact hmem
    | _ => cases hkind
  · exact ht.isBlank_of_mem hkind (List.mem_of_getLast? hc)

end Token.Shape

/-! ### Characters of a layout -/

/-- Behind a token, a layout is each gap and the token on its right. -/
theorem layoutAfter_eq_flatMap (before : Option Token) (left : Token) (rest : List Token) :
    layoutAfter before left rest =
      (gapsAfter before left rest).flatMap fun g => g.text ++ g.right.text := by
  induction rest generalizing before left with
  | nil => rfl
  | cons right rest ih => rw [layoutAfter, gapsAfter, List.flatMap_cons, ih]

/-- A layout is the first token, and then each gap and the token on its right. -/
theorem layout_eq_flatMap (ts : List Token) :
    layout ts = (ts.take 1).flatMap Token.text ++
      (gaps ts).flatMap fun g => g.text ++ g.right.text := by
  cases ts with
  | nil => rfl
  | cons t rest => simp [layout, gaps, layoutAfter_eq_flatMap]

/-- Every token but the first is on the right of a gap. -/
theorem map_right_gaps (ts : List Token) : (gaps ts).map Gap.right = ts.drop 1 := by
  have hafter : ∀ (rest : List Token) (before : Option Token) (left : Token),
      (gapsAfter before left rest).map Gap.right = rest := by
    intro rest
    induction rest with
    | nil => intro before left; rfl
    | cons right rest ih => intro before left; rw [gapsAfter, List.map_cons, ih]
  cases ts with
  | nil => rfl
  | cons t rest => exact hafter rest none t

/-- Every token but the last is on the left of a gap. -/
theorem map_left_gaps (ts : List Token) : (gaps ts).map Gap.left = ts.dropLast := by
  have hafter : ∀ (rest : List Token) (before : Option Token) (left : Token),
      (gapsAfter before left rest).map Gap.left = (left :: rest).dropLast := by
    intro rest
    induction rest with
    | nil => intro before left; rfl
    | cons right rest ih =>
      intro before left
      rw [gapsAfter, List.map_cons, ih, List.dropLast_cons_cons]
  cases ts with
  | nil => rfl
  | cons t rest => exact hafter rest none t

/-- Gaps are between tokens of the list. -/
theorem mem_of_mem_gaps {ts : List Token} {g : Gap} (h : g ∈ gaps ts) :
    g.left ∈ ts ∧ g.right ∈ ts := by
  constructor
  · apply List.dropLast_subset ts
    rw [← map_left_gaps]
    exact List.mem_map_of_mem h
  · refine List.mem_of_mem_drop (i := 1) ?_
    rw [← map_right_gaps]
    exact List.mem_map_of_mem h

/-- No layout begins with a blank. -/
theorem isBlank_head_layout {ts : List Token} (h : ∀ t ∈ ts, t.Shape) {c : Char}
    (hc : (layout ts).head? = some c) : isBlank c = false := by
  cases ts with
  | nil => cases hc
  | cons t rest =>
    have ht := h t (List.mem_cons_self ..)
    rw [layout, List.head?_append_of_ne_nil _ ht.text_ne_nil] at hc
    exact ht.isBlank_head hc

/-- No layout ends with a blank. -/
theorem isBlank_getLast_layout {ts : List Token} (h : ∀ t ∈ ts, t.Shape) {c : Char}
    (hc : (layout ts).getLast? = some c) : isBlank c = false := by
  rcases List.eq_nil_or_concat' ts with rfl | ⟨front, t, rfl⟩
  · cases hc
  · have ht := h t (by simp)
    obtain ⟨before, hbefore⟩ := layout_concat front t
    rw [hbefore, List.getLast?_append_of_ne_nil _ ht.text_ne_nil] at hc
    exact ht.isBlank_getLast hc

/-! ### Gaps -/

namespace Gap

/-- The marks that no space comes before, whatever is on their left. -/
def enders : List (List Char) := [[','], [')'], [']'], [';'], ['.'], [':', ':'], ['>']]

/-- A gap holds a space between words and literals, none before a mark that ends something, and
none behind an opening mark or a sign before its operand. -/
structure WellSpaced (g : Gap) : Prop where
  text : g.text = [] ∨ g.text = [' ']
  apart : g.left.kind ≠ .punct → g.right.kind ≠ .punct → g.text = [' ']
  ender : g.right.text ∈ enders → g.text = []
  opener : g.left.text ∈ openers → g.text = []
  sign : Token.isSign g.before g.left = true → g.text = []

variable {g : Gap}

/-- There is no space before a mark that ends something. -/
theorem text_of_ender (hright : g.right.Shape) (h : g.right.text ∈ enders) : g.text = [] := by
  have hall : ∀ text ∈ enders, ∃ c ∈ signs, text.head? = some c ∧ c ∉ quoteMarks := by decide
  obtain ⟨c, hsign, hhead, hmark⟩ := hall _ h
  have hkind := hright.kind_eq_punct hhead hsign hmark
  have hspace : g.isSpacedMark = false := by
    rw [isSpacedMark]
    exact if_pos h
  simp [text, isSpaced, hkind, hspace]

/-- There is no space behind an opening mark. -/
theorem text_of_leader (hleft : g.left.Shape) (h : g.left.text ∈ openers) : g.text = [] := by
  have hkind : g.left.kind = .punct := by
    by_contra hkind
    exact hleft.not_mem_leaders hkind (List.mem_append_right _ h)
  have hopen : g.left.isPunctOf openers = true := by
    simp [Token.isPunctOf, hkind, h]
  rw [openers] at hopen
  simp [text, isSpaced, hopen]

/-- Every gap between two tokens is spaced well. -/
theorem wellSpaced (hleft : g.left.Shape) (hright : g.right.Shape) : g.WellSpaced where
  text := by
    rw [Gap.text]
    split
    · exact .inr rfl
    · exact .inl rfl
  apart hl hr := text_of_kind (hleft.not_mem_leaders hl) hr
  ender := text_of_ender hright
  opener := text_of_leader hleft
  sign h := by simp [Gap.text, isSpaced, h]

end Gap

/-- All that a reader finds in a text besides comments and tokens is blanks. The normalized text
consists of the tokens in their order and of what is written between neighbours, which is one space
or nothing. Every other blank is inside a literal, and there is none at either end. -/
theorem normalize_spacing (text : String) :
    let ts := tokens text.toList
    ((lexemes text.toList).flatMap Lexeme.text = text.toList ∧
        ∀ l ∈ lexemes text.toList, l.isComment = true ∨ (∃ t ∈ ts, l = .token t) ∨
          ∃ c, isBlank c = true ∧ l = .blank c) ∧
      ((normalize text).toList = (ts.take 1).flatMap Token.text ++
          (gaps ts).flatMap (fun g => g.text ++ g.right.text) ∧
        (gaps ts).map Gap.right = ts.drop 1 ∧ (gaps ts).map Gap.left = ts.dropLast) ∧
      ((∀ c, (normalize text).toList.head? = some c → isBlank c = false) ∧
        (∀ c, (normalize text).toList.getLast? = some c → isBlank c = false) ∧
        ∀ t ∈ ts, t.kind ≠ .literal → ∀ c ∈ t.text, isBlank c = false) ∧
      ∀ g ∈ gaps ts, g.WellSpaced := by
  intro ts
  have hshape : ∀ t ∈ ts, t.Shape := fun t ht => shape_of_mem_tokens ht
  have hnormal : (normalize text).toList = layout ts := by rw [normalize, String.toList_ofList]
  refine ⟨⟨flatMap_text_lexemes _, fun l hl => lexeme_cases hl⟩, ?_, ?_, ?_⟩
  · rw [hnormal]
    exact ⟨layout_eq_flatMap ts, map_right_gaps ts, map_left_gaps ts⟩
  · rw [hnormal]
    exact ⟨fun c => isBlank_head_layout hshape, fun c => isBlank_getLast_layout hshape,
      fun t ht hkind c => (hshape t ht).isBlank_of_mem hkind⟩
  · intro g hg
    obtain ⟨hleft, hright⟩ := mem_of_mem_gaps hg
    exact Gap.wellSpaced (hshape _ hleft) (hshape _ hright)

end TypeCatalog.Signature
