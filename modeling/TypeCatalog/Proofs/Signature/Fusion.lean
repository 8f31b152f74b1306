import TypeCatalog.Proofs.Signature.TokenEnd

/-!
# Tokens that are read back from a layout

A layout leaves no space between some neighbours, so a reader may make one token of two. Which
tokens it finds is told by the tokens that were laid out alone: a number goes on with what touches
it, and two marks make an operator. Each of them may go on with the next token in turn, so the
token that is still open is carried along.

## Main definitions

- `Signature.Token.fuse` — the tokens that two tokens make which touch each other
- `Signature.fused` — the tokens of a layout
- `Signature.Token.Resumes` — what the open token can be behind a given token

## Main statements

- `Signature.Gap.touches_cases` — which tokens are laid out without a space between them
- `Signature.tokens_layout` — a layout is read back as its tokens are fused
-/

namespace TypeCatalog.Signature

open Text

/-! ### Fusion of two tokens -/

namespace Token

/-- Whether the first character of the token goes on with a number. -/
def joinsNumber (t : Token) : Bool := t.text.head?.any fun c => isWordPart c || c == '.'

/-- What two tokens are read as when nothing stands between them: the tokens that are complete,
and the one that may go on with what follows. -/
def fuse (left right : Token) : List Token × Token :=
  if left.isNumber ∧ right.joinsNumber then ([], ⟨.literal, left.text ++ right.text⟩)
  else
    match left.text, right.text with
    | [a], [b] =>
      if (a, b) ∈ pairOperators then ([], ⟨.punct, [a, b]⟩) else ([left], right)
    | [a], [b, c] =>
      if (a, b) ∈ pairOperators then ([⟨.punct, [a, b]⟩], ⟨.punct, [c]⟩) else ([left], right)
    | _, _ => ([left], right)

/-- The two tokens are read apart even when they touch. -/
structure Apart (left right : Token) : Prop where
  number : ¬(left.isNumber = true ∧ right.joinsNumber = true)
  operator : ∀ a b r, left.text = [a] → right.text = b :: r → (a, b) ∉ pairOperators

/-- The three ways in which two tokens fuse. -/
inductive Fused (left right : Token) : List Token × Token → Prop where
  /-- A number takes the token behind it. -/
  | number (hleft : left.isNumber = true) (hright : right.joinsNumber = true) :
      Fused left right ([], ⟨.literal, left.text ++ right.text⟩)
  /-- Two marks make an operator. -/
  | operator {a b : Char} (hleft : left.text = [a]) (hright : right.text = [b])
      (hpair : (a, b) ∈ pairOperators) : Fused left right ([], ⟨.punct, [a, b]⟩)
  /-- A mark makes an operator with half of another one. -/
  | half {a b c : Char} (hleft : left.text = [a]) (hright : right.text = [b, c])
      (hpair : (a, b) ∈ pairOperators) (hnext : (b, c) ∈ pairOperators) :
      Fused left right ([⟨.punct, [a, b]⟩], ⟨.punct, [c]⟩)

/-- A token that begins with the second character of an operator is that character alone, or an
operator. -/
theorem Shape.of_operator {t : Token} (ht : t.Shape) {a b : Char} {r : List Char}
    (hpair : (a, b) ∈ pairOperators) (htext : t.text = b :: r) :
    r = [] ∨ ∃ c, r = [c] ∧ (b, c) ∈ pairOperators := by
  have hall : ∀ p ∈ pairOperators, p.2 ∈ signs ∧ p.2 ∉ quoteMarks := by decide
  obtain ⟨hsign, hmark⟩ := hall _ hpair
  have hkind := ht.kind_eq_punct (by rw [htext]; rfl) hsign hmark
  cases ht with
  | operator hnext => cases htext; exact .inr ⟨_, rfl, hnext⟩
  | mark => cases htext; exact .inl rfl
  | _ => cases hkind

/-- Two tokens are read apart if their neighbouring characters make no operator. -/
private theorem apart_of_not_mem {left right : Token} {a b : Char} {r : List Char}
    (hnumber : ¬(left.isNumber = true ∧ right.joinsNumber = true)) (ha : left.text = [a])
    (hb : right.text = b :: r) (hpair : (a, b) ∉ pairOperators) : left.Apart right := by
  refine ⟨hnumber, fun a' b' r' ha' hb' => ?_⟩
  cases ha.symm.trans ha'
  cases hb.symm.trans hb'
  exact hpair

/-- Two tokens fuse, or they are read apart. -/
theorem fuse_cases (left : Token) {right : Token} (hright : right.Shape) :
    Fused left right (left.fuse right) ∨
      left.Apart right ∧ left.fuse right = ([left], right) := by
  unfold fuse
  split
  · next h => exact .inl (.number h.1 h.2)
  next hnumber =>
  split
  · next a b ha hb =>
    split
    · next hpair => exact .inl (.operator ha hb hpair)
    · next hpair => exact .inr ⟨apart_of_not_mem hnumber ha hb hpair, rfl⟩
  · next a b c ha hb =>
    split
    · next hpair =>
      obtain hnil | ⟨_, hc, hnext⟩ := hright.of_operator hpair hb
      · cases hnil
      · cases hc
        exact .inl (.half ha hb hpair hnext)
    · next hpair => exact .inr ⟨apart_of_not_mem hnumber ha hb hpair, rfl⟩
  · next hone htwo =>
    -- only a mark or an operator can begin with the second half of an operator
    refine .inr ⟨⟨hnumber, fun a b r ha hb hpair => ?_⟩, rfl⟩
    obtain rfl | ⟨c, rfl, -⟩ := hright.of_operator hpair hb
    · exact hone a b ha hb
    · exact htwo a b c ha hb

/-- Tokens that are read apart do not fuse. -/
theorem Apart.fuse_eq {left right : Token} (h : left.Apart right) :
    left.fuse right = ([left], right) := by
  unfold fuse
  rw [if_neg h.number]
  split
  · next a b ha hb => rw [if_neg (h.operator a b _ ha hb)]
  · next a b c ha hb => rw [if_neg (h.operator a b _ ha hb)]
  · rfl

end Token

/-! ### Neighbours without a space between them -/

/-- The marks that no space comes before, as far as the token before them allows. -/
def closers : List (List Char) :=
  [[','], [')'], [']'], [';'], ['.'], [':', ':'], ['>'], ['?'], ['*'], ['('], ['<'], ['[']]

/-- The closing marks begin with a sign, which no slash, no exponent and no string goes on with. -/
theorem head_closers {text : List Char} (h : text ∈ closers) :
    ∃ c ∈ signs, text.head? = some c ∧ c ∉ ['/', '"', '@', '$', '+', '-'] ∧
      (c = '*' → text = ['*']) := by
  revert text
  decide

/-- The tokens that no space comes after. -/
def openers : List (List Char) := [['('], ['['], ['<'], ['.'], [':', ':']]

/-- The tokens that can do without a space after them, whatever comes next. -/
def leaders : List (List Char) := [['-'], ['+'], ['!'], ['~']] ++ openers

/-- A sign can do without a space after it. -/
theorem Token.mem_leaders_of_isSign {before : Option Token} {t : Token}
    (h : t.isSign before = true) : t.text ∈ leaders := by
  rw [Token.isSign, Bool.and_eq_true, decide_eq_true_eq] at h
  exact List.mem_append_left _ h.1

/-- The leading tokens begin with a sign that opens no string. -/
theorem head_leaders {text : List Char} (h : text ∈ leaders) :
    ∃ c ∈ signs, text.head? = some c ∧ c ∉ quoteMarks ∧ (c = '.' → text = ['.']) := by
  revert text
  decide

/-- Where there is no space, the left neighbour is a sign or an opener, or the right one is a mark
that closes. A question mark and a star come close behind types alone. -/
theorem Gap.touches_cases {g : Gap} (h : g.isSpaced = false) :
    Token.isSign g.before g.left = true ∨ g.left.text ∈ openers ∨
      g.right.text ∈ closers ∧
        (g.right.text ∈ [['?'], ['*']] → g.hasTypeLeft [['>'], [']'], [')']] = true) := by
  -- the cases are the tests for a space, one after the other
  unfold isSpaced at h
  split at h
  · next hsign => exact .inl hsign
  split at h
  · next hopen =>
    simp only [Token.isPunctOf, Bool.and_eq_true, decide_eq_true_eq] at hopen
    exact .inr (.inl hopen.2)
  split at h
  · cases h
  refine .inr (.inr ?_)
  unfold isSpacedMark at h
  split at h
  · next hclose =>
    simp only [List.mem_cons, List.not_mem_nil, or_false] at hclose
    rcases hclose with hc | hc | hc | hc | hc | hc | hc <;> simp [hc, closers]
  split at h
  · next hc =>
    simp only [Bool.not_eq_false', Bool.and_eq_true] at h
    exact ⟨by simp [hc, closers], fun _ => h.1⟩
  split at h
  · next hc => exact ⟨by simp [hc, closers], fun _ => by simpa using h⟩
  split at h
  · next hc => simp [hc.1, closers]
  split at h
  · next hc => rcases hc with hc | hc <;> simp [hc, closers]
  split at h
  · next hc => simp [hc, closers]
  · cases h

/-! ### Tokens that are laid out -/

namespace Token

/-- A number begins with a digit and is read to its end. -/
theorem Shape.number_of_isNumber {t : Token} (ht : t.Shape) (h : t.isNumber = true) :
    ∃ c body, t = ⟨.literal, c :: body⟩ ∧ c.isDigit = true ∧ numberTail c body = (body, []) := by
  have hmark : ∀ c ∈ quoteMarks, c.isDigit = false := by decide
  cases ht with
  | @verbatim front body hfront hbody =>
    obtain ⟨c, hc, hhead⟩ := head_verbatim hfront body
    simp [isNumber, hhead, hmark c hc] at h
  | @quoted front body quote hfront hbody =>
    obtain ⟨c, hc, hhead⟩ := head_quoted hfront body
    simp [isNumber, hhead, hmark c hc] at h
  | number hc hbody => exact ⟨_, _, rfl, hc, hbody⟩
  | word => cases h
  | operator => cases h
  | mark => cases h

/-- Parts of a word go on with any number. -/
theorem numberTail_of_isWordPart {body : List Char} (h : ∀ c ∈ body, isWordPart c = true)
    (before : Char) : numberTail before body = (body, []) := by
  induction body generalizing before with
  | nil => rfl
  | cons c body ih =>
    have hpart : isNumberPart before c body = true := by
      simp [isNumberPart, h c (List.mem_cons_self ..)]
    simp [numberTail, hpart, ih fun d hd => h d (List.mem_cons_of_mem c hd), Split.push]

/-- No number goes on with a quote. -/
theorem joinsNumber_eq_false {t : Token} {c : Char} (hc : c ∈ quoteMarks)
    (hhead : t.text.head? = some c) : t.joinsNumber = false := by
  have hall : ∀ d ∈ quoteMarks, d ∈ signs ∧ d ≠ '.' := by decide
  obtain ⟨hsign, hpoint⟩ := hall c hc
  simp [joinsNumber, hhead, isWordPart_sign hsign, hpoint]

/-- A token goes on with a number as a whole, if its first character does. -/
theorem Shape.numberTail_text {t : Token} (ht : t.Shape) (h : t.joinsNumber = true)
    (before : Char) : numberTail before t.text = (t.text, []) := by
  cases ht with
  | @verbatim front body hfront hbody =>
    obtain ⟨c, hc, hhead⟩ := head_verbatim hfront body
    rw [joinsNumber_eq_false hc hhead] at h
    cases h
  | @quoted front body quote hfront hbody =>
    obtain ⟨c, hc, hhead⟩ := head_quoted hfront body
    rw [joinsNumber_eq_false hc hhead] at h
    cases h
  | @number c body hc hbody =>
    have hpart : isNumberPart before c body = true := by
      simp [isNumberPart, isWordPart_of_isDigit hc]
    simp [numberTail, hpart, hbody, Split.push]
  | @word front body c hfront hc hbody =>
    simp only [List.mem_cons, List.not_mem_nil, or_false] at hfront
    rcases hfront with rfl | rfl
    · refine numberTail_of_isWordPart ?_ before
      rintro d (_ | ⟨_, hd⟩)
      · exact isWordPart_of_isWordStart hc
      · exact hbody d hd
    · rw [joinsNumber_eq_false (c := '@') (by decide) rfl] at h
      cases h
  | @operator a b hpair =>
    have hall : ∀ p ∈ pairOperators, p.1 ∈ signs ∧ p.1 ≠ '.' := by decide
    obtain ⟨hsign, hpoint⟩ := hall _ hpair
    simp [joinsNumber, isWordPart_sign hsign, hpoint] at h
  | @mark c _ _ _ =>
    have hpart : isNumberPart before c [] = true := by
      have hc : isWordPart c = true ∨ c = '.' := by simpa [joinsNumber] using h
      rcases hc with hc | hc <;> simp [isNumberPart, hc]
    simp [numberTail, hpart, Split.push]

/-- What two tokens fuse into is a token like any other. -/
theorem Fused.closed {left right : Token} {p : List Token × Token} (h : Fused left right p)
    (hleft : left.Shape) (hright : right.Shape) : p.2.Closed := by
  cases h with
  | number hl hr =>
    obtain ⟨c, body, rfl, hc, hbody⟩ := hleft.number_of_isNumber hl
    refine ⟨.number hc ?_, rfl⟩
    have htail := numberTail_taken_append c body right.text
    rw [hbody, hright.numberTail_text hr] at htail
    simpa [Split.push] using htail
  | operator ha hb hpair => exact ⟨.operator hpair, by simp [isLoneQuote, isPunctOf]⟩
  | @half a b c ha hb hpair hnext =>
    have hall : ∀ p ∈ pairOperators, p.2 ∈ signs ∧ isLoneQuote ⟨.punct, [p.2]⟩ = false := by
      decide
    obtain ⟨hsign, hquote⟩ := hall _ hnext
    exact ⟨.mark (isBlank_sign hsign) (isWordStart_sign hsign) (isDigit_sign hsign), hquote⟩

/-- What the open token can be behind the token that was laid out last: that token, a number that
has taken it, or the operator or the half of one that it was used up for. -/
inductive Resumes : Token → Token → Prop where
  | refl (t : Token) : Resumes t t
  | number {t : Token} {front : List Char} (ht : t.joinsNumber = true)
      (hnumber : isNumber ⟨.literal, front ++ t.text⟩ = true) :
      Resumes t ⟨.literal, front ++ t.text⟩
  | operator {t : Token} {a b : Char} : Resumes t ⟨.punct, [a, b]⟩
  | half {t : Token} {a b : Char} (hpair : (a, b) ∈ pairOperators) : Resumes t ⟨.punct, [b]⟩

/-- What stays open when two tokens fuse is what the second can be behind the first. -/
theorem Fused.resumes {left right : Token} {p : List Token × Token} (h : Fused left right p) :
    right.Resumes p.2 := by
  cases h with
  | number hleft hright =>
    refine .number hright ?_
    simp only [isNumber, Bool.and_eq_true, List.head?_append] at hleft ⊢
    cases hhead : left.text.head? with
    | none => simp [hhead] at hleft
    | some c => simpa [hhead] using hleft.2
  | operator => exact .operator
  | half _ _ _ hnext => exact .half hnext

/-- A number ends before a token that does not go on with one, unless the two make an exponent. -/
private theorem stops_of_isNumber {t right : Token} (ht : t.isNumber = true)
    (hright : right.joinsNumber = false) (hne : right.text ≠ [])
    (hsign : ∀ c, right.text.head? = some c → c ∈ ['+', '-'] →
      t.text.getLast?.any (fun e => e == 'e' || e == 'E') = false) (x : List Char) :
    t.Stops (right.text ++ x) := by
  obtain ⟨c, r, hc⟩ := List.exists_cons_of_ne_nil hne
  have hjoin : isWordPart c = false ∧ c ≠ '.' := by simpa [joinsNumber, hc] using hright
  have hkind : t.kind = .literal := by
    simp only [isNumber, Bool.and_eq_true, beq_iff_eq] at ht
    exact ht.1
  have hverbatim := isVerbatim_of_isNumber ht
  rw [hc]
  constructor
  · rintro d s ⟨⟩
    simp [takes, hkind, hverbatim, hjoin]
  · rintro d e s hs
    obtain ⟨rfl, -⟩ := List.cons.inj hs
    have hplain : ∀ texts, t.isPunctOf texts = false := fun texts => by simp [isPunctOf, hkind]
    have hsign' := hsign c (by rw [hc]; rfl)
    simp only [takesPair, hplain, Bool.false_and, Bool.or_false]
    -- only the sign of an exponent looks at the character behind it
    by_cases hc : c ∈ ['+', '-']
    · simp [hsign' hc]
    · simp only [List.mem_cons, List.not_mem_nil, or_false, not_or] at hc
      simp [hc]

/-- A leading token that goes on with a number is a point. -/
theorem eq_point_of_joinsNumber {t : Token} (h : t.joinsNumber = true) (ht : t.text ∈ leaders) :
    t.text = ['.'] := by
  obtain ⟨c, hc, hhead, -, hpoint⟩ := head_leaders ht
  have hjoin : isWordPart c = true ∨ c = '.' := by simpa [joinsNumber, hhead] using h
  refine hpoint (hjoin.resolve_left fun hpart => ?_)
  rw [isWordPart_sign hc] at hpart
  cases hpart

/-- Only a mark can do without a space after it, whatever comes next. -/
theorem Shape.not_mem_leaders {t : Token} (ht : t.Shape) (hkind : t.kind ≠ .punct) :
    t.text ∉ leaders := by
  intro hmem
  obtain ⟨c, hsign, hhead, hmark, -⟩ := head_leaders hmem
  exact hkind (ht.kind_eq_punct hhead hsign hmark)

/-- An operator of two characters is complete. -/
theorem stops_operator (a b : Char) (x : List Char) : Stops ⟨.punct, [a, b]⟩ x :=
  ⟨fun _ _ _ => rfl, fun _ _ _ _ => by simp [takesPair, isNumber, isPunctOf]⟩

/-- A word or a literal stops before a closing mark, unless it is a number. -/
private theorem stops_closer {t right : Token} (hkind : t.kind ≠ .punct)
    (hnumber : t.isNumber = false) (hright : right.text ∈ closers) (x : List Char) :
    t.Stops (right.text ++ x) := by
  obtain ⟨c, hsign, hhead, hnot, -⟩ := head_closers hright
  simp only [List.mem_cons, List.not_mem_nil, or_false, not_or] at hnot
  obtain ⟨r, hc⟩ := List.head?_eq_some_iff.1 hhead
  rw [hc]
  constructor
  · rintro d s ⟨⟩
    unfold takes
    split
    · exact isWordPart_sign hsign
    · simp [hnumber, hnot.2.1]
    · next h => exact absurd h hkind
  · rintro d e s -
    have hplain : ∀ texts, t.isPunctOf texts = false := fun texts => by simp [isPunctOf, hkind]
    simp [takesPair, hnumber, hplain]

/-- A mark ends before a token that makes no operator with it. Only a slash and the openers of
strings ask for more. -/
private theorem stops_single {a : Char} {right : Token} (hright : right.Shape)
    (hapart : Apart ⟨.punct, [a]⟩ right)
    (hclose : a ∈ ['/', '@', '$'] → right.text ∈ closers ∧ right.text ≠ ['*']) (x : List Char) :
    Stops ⟨.punct, [a]⟩ (right.text ++ x) := by
  obtain ⟨c, r, hc⟩ := List.exists_cons_of_ne_nil hright.text_ne_nil
  have hpair : (a, c) ∉ pairOperators := hapart.operator a c r rfl hc
  -- a closing mark begins no word and no string, and only the star may go on with a slash
  have hnot : a ∈ ['/', '@', '$'] → isWordStart c = false ∧ c ∉ ['/', '"', '@', '$', '*'] := by
    intro ha
    obtain ⟨d, hsign, hhead, hd, hstar⟩ := head_closers (hclose ha).1
    rw [hc] at hhead
    cases hhead
    simp only [List.mem_cons, List.not_mem_nil, or_false, not_or] at hd ⊢
    exact ⟨isWordStart_sign hsign, hd.1, hd.2.1, hd.2.2.1, hd.2.2.2.1,
      fun h => (hclose ha).2 (hstar h)⟩
  simp only [List.mem_cons, List.not_mem_nil, or_false, not_or] at hnot
  rw [hc]
  constructor
  · rintro d s ⟨⟩
    simp only [takes, markTakes, Bool.or_eq_false_iff, Bool.and_eq_false_imp, beq_iff_eq,
      decide_eq_false_iff_not, beq_eq_false_iff_ne]
    exact ⟨⟨⟨hpair, fun h => ⟨(hnot (.inl h)).2.1, (hnot (.inl h)).2.2.2.2.2⟩⟩,
      fun h => ⟨(hnot (.inr (.inl h))).1, (hnot (.inr (.inl h))).2.2.1⟩⟩,
      fun h => (hnot (.inr (.inr h))).2.2.1⟩
  · rintro d e s hs
    obtain ⟨rfl, -⟩ := List.cons.inj hs
    by_cases ha : a = '/' ∨ a = '@' ∨ a = '$'
    · simp [takesPair, isNumber, (hnot ha).2]
    · rw [not_or, not_or] at ha
      simp [takesPair, isNumber, isPunctOf, ha]

end Token

/-- Neighbours that touch are a leading token and any other, or any token and a mark that comes
close behind it. -/
theorem Gap.leads_or_closes {g : Gap} (h : g.isSpaced = false) : g.left.text ∈ leaders ∨
    g.right.text ∈ closers ∧
      (g.right.text ∈ [['?'], ['*']] → g.hasTypeLeft [['>'], [']'], [')']] = true) := by
  rcases g.touches_cases h with hsign | hopen | hclose
  · exact .inl (Token.mem_leaders_of_isSign hsign)
  · exact .inl (List.mem_append_right _ hopen)
  · exact .inr hclose

/-- A mark ends a type only if it is one of those that do. -/
theorem Gap.hasTypeLeft_eq_false {g : Gap} (hkind : g.left.kind = .punct)
    {ends : List (List Char)} (htext : g.left.text ∉ ends) : g.hasTypeLeft ends = false := by
  simp [hasTypeLeft, Token.canEndType, hkind, htext]

/-- A mark stops before the next token if no space is put between them and they are read apart. -/
private theorem Gap.stops_punct {g : Gap} (hg : g.isSpaced = false) (hleft : g.left.Shape)
    (hright : g.right.Shape) (hkind : g.left.kind = .punct) (hapart : g.left.Apart g.right)
    (x : List Char) : g.left.Stops (g.right.text ++ x) := by
  obtain ⟨before, left, right, after⟩ := g
  cases hleft with
  | operator => exact Token.stops_operator _ _ _
  | @mark a hblank hword hdigit =>
    refine Token.stops_single hright hapart (fun ha => ?_) x
    have hnot : ∀ d ∈ ['/', '@', '$'], [d] ∉ leaders ∧ [d] ∉ [['>'], [']'], [')']] := by decide
    obtain ⟨hclose, htype⟩ := (leads_or_closes hg).resolve_left (hnot a ha).1
    refine ⟨hclose, fun hstar => ?_⟩
    have hleft := htype (by rw [hstar]; decide)
    rw [hasTypeLeft_eq_false rfl (hnot a ha).2] at hleft
    cases hleft
  | _ => cases hkind

/-- The open token ends before a token that touches the last one and is read apart. -/
theorem Gap.stops {g : Gap} {t : Token} (hg : g.isSpaced = false) (hleft : g.left.Shape)
    (hright : g.right.Shape) (ht : g.left.Resumes t) (hapart : t.Apart g.right) (x : List Char) :
    t.Stops (g.right.text ++ x) := by
  have hjoins : t.isNumber = true → g.right.joinsNumber = false := fun hnumber =>
    Bool.eq_false_iff.2 fun hjoin => hapart.number ⟨hnumber, hjoin⟩
  -- a closing mark is not the sign of an exponent
  have hexponent : ∀ c, g.right.text ∈ closers → g.right.text.head? = some c →
      c ∉ ['+', '-'] := by
    intro c hclose hhead hc
    obtain ⟨d, -, hhead', hd, -⟩ := head_closers hclose
    cases hhead.symm.trans hhead'
    simp only [List.mem_cons, List.not_mem_nil, or_false, not_or] at hc hd
    exact hc.elim hd.2.2.2.2.1 hd.2.2.2.2.2
  cases ht with
  | refl =>
    by_cases hkind : g.left.kind = .punct
    · exact stops_punct hg hleft hright hkind hapart x
    · -- words and literals touch only the marks that close
      obtain ⟨hclose, -⟩ := (leads_or_closes hg).resolve_left (hleft.not_mem_leaders hkind)
      by_cases hnumber : g.left.isNumber = true
      · exact Token.stops_of_isNumber hnumber (hjoins hnumber) hright.text_ne_nil
          (fun c hhead hc => absurd hc (hexponent c hclose hhead)) x
      · exact Token.stops_closer hkind (by simpa using hnumber) hclose x
  | @number front hjoin hnumber =>
    refine Token.stops_of_isNumber hnumber (hjoins hnumber) hright.text_ne_nil ?_ x
    intro c hhead hc
    rcases leads_or_closes hg with hlead | ⟨hclose, -⟩
    · have hpoint := Token.eq_point_of_joinsNumber hjoin hlead
      simp [hpoint]
    · exact absurd hc (hexponent c hclose hhead)
  | operator => exact Token.stops_operator _ _ _
  | @half a b hpair =>
    have hplain : ∀ p ∈ pairOperators, p.2 ∉ ['/', '@', '$'] := by decide
    exact Token.stops_single hright hapart (fun h => absurd h (hplain _ hpair)) x

/-! ### The tokens of a layout -/

/-- Without a space between them, two neighbours are read as what they fuse to. -/
private theorem tokens_fuse {g : Gap} {t : Token} (hg : g.isSpaced = false)
    (hleft : g.left.Shape) (hright : g.right.Shape) (ht : g.left.Resumes t) (hclosed : t.Closed)
    (x : List Char) : tokens (t.text ++ (g.right.text ++ x)) =
      (t.fuse g.right).1 ++ tokens ((t.fuse g.right).2.text ++ x) := by
  rcases t.fuse_cases hright with hfused | ⟨hapart, hfuse⟩
  · generalize t.fuse g.right = p at hfused
    cases hfused with
    | number => rw [List.append_assoc]; rfl
    | operator ha hb => rw [ha, hb]; rfl
    | half ha hb hpair =>
      rw [ha, hb]
      exact tokens_of_first (first_operator hpair _)
  · rw [hfuse]
    exact hclosed.tokens_append (g.stops hg hleft hright ht hapart x)

/-- The tokens of a layout from the open token on. It stands behind `left`, the last token that
was laid out, and before `rest`, those that are still to be. -/
def fusedAfter (before : Option Token) (left t : Token) : List Token → List Token
  | [] => [t]
  | right :: rest =>
    if (Gap.mk before left right rest.head?).isSpaced then
      t :: fusedAfter (some left) right right rest
    else (t.fuse right).1 ++ fusedAfter (some left) right (t.fuse right).2 rest

/-- The tokens that are read back when the given tokens are laid out. -/
def fused : List Token → List Token
  | [] => []
  | t :: rest => fusedAfter none t t rest

/-- The tokens of a layout are those fused from the open token on. -/
private theorem tokens_layoutAfter {rest : List Token} (hrest : ∀ t ∈ rest, t.Closed)
    {left t : Token} (hleft : left.Closed) (ht : left.Resumes t) (hclosed : t.Closed)
    (before : Option Token) :
    tokens (t.text ++ layoutAfter before left rest) = fusedAfter before left t rest := by
  -- the open token changes from step to step, so the induction is for any that can stand there
  induction rest generalizing before left t with
  | nil =>
    have hstops : t.Stops [] := t.stops_of_isBlank (by simp)
    simpa [layoutAfter, fusedAfter, tokens] using hclosed.tokens_append hstops
  | cons right rest ih =>
    have hright := hrest right (List.mem_cons_self ..)
    have htail : ∀ u ∈ rest, u.Closed := fun u hu => hrest u (List.mem_cons_of_mem _ hu)
    rw [layoutAfter, fusedAfter, Gap.text, List.append_assoc]
    by_cases hg : (Gap.mk before left right rest.head?).isSpaced = true
    · -- a space ends the open token, and the next one is read from its beginning
      have hblank : ∀ c, ([' '] ++ (right.text ++ layoutAfter (some left) right rest)).head? =
          some c → isBlank c = true := fun c hc => by cases hc; decide
      rw [if_pos hg, if_pos hg, hclosed.tokens_append (t.stops_of_isBlank hblank),
        List.cons_append, List.nil_append, tokens_blank (by decide),
        ih htail hright (.refl right) hright]
    · rw [if_neg hg, if_neg hg, List.nil_append,
        tokens_fuse (g := ⟨before, left, right, rest.head?⟩) (by simpa using hg) hleft.shape
          hright.shape ht hclosed]
      rcases t.fuse_cases hright.shape with hfused | ⟨-, hfuse⟩
      · rw [ih htail hright hfused.resumes (hfused.closed hclosed.shape hright.shape)]
      · rw [hfuse, ih htail hright (.refl right) hright]

/-- A layout of tokens in which every quote is closed is read back as they are fused. -/
theorem tokens_layout {ts : List Token} (h : ∀ t ∈ ts, t.Closed) :
    tokens (layout ts) = fused ts := by
  cases ts with
  | nil => simp [layout, fused, tokens]
  | cons t rest =>
    have ht := h t (List.mem_cons_self ..)
    exact tokens_layoutAfter (fun u hu => h u (List.mem_cons_of_mem t hu)) ht (.refl t) ht none

end TypeCatalog.Signature
