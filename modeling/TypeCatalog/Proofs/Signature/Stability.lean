import TypeCatalog.Proofs.Signature.Fusion

/-!
# What normalization keeps

A normalized text has the tokens of the original unless two neighbours without a space between
them fuse. There are four such pairs. A text without any of them is normalized for good; another
one may change again when it is normalized once more.

## Main definitions

- `Signature.gaps` — the places between the tokens of a list
- `Signature.Gap.Fuses` — the neighbours that a layout makes one token of
- `Signature.spread` — the lexemes of a layout that nothing fuses in

## Main statements

- `Signature.fused_eq_self_iff` — only the four pairs fuse
- `Signature.tokens_normalize_iff` — normalization keeps the tokens of a text without such pairs
- `Signature.normalize_eq_self_iff` — the texts that normalization leaves as they are
- `Signature.normalize_normalize_iff` — when a second normalization changes nothing
-/

namespace TypeCatalog.Signature

open Text

/-! ### Pairs that fuse -/

/-- The places between a token and those that come after it. -/
def gapsAfter (before : Option Token) (left : Token) : List Token → List Gap
  | [] => []
  | right :: rest => ⟨before, left, right, rest.head?⟩ :: gapsAfter (some left) right rest

/-- The places between neighbouring tokens. -/
def gaps : List Token → List Gap
  | [] => []
  | t :: rest => gapsAfter none t rest

namespace Gap

/-- The neighbours become one token: a number takes a point, `=` and `>` make an arrow, a colon
and two colons are cut in another place, and the sign `!` takes an equals sign. -/
def Fuses (g : Gap) : Prop :=
  (g.left.isNumber = true ∧ g.right.text = ['.']) ∨
    (g.left.text = ['='] ∧ g.right.text = ['>']) ∨
    (g.left.text = [':'] ∧ g.right.text = [':', ':']) ∨
    (g.left.text = ['!'] ∧ Token.isSign g.before g.left = true ∧ g.right.text.head? = some '=')

instance (g : Gap) : Decidable g.Fuses := by
  unfold Fuses
  infer_instance

/-- Neighbours that become one token are not read apart. -/
theorem Fuses.not_apart {g : Gap} (h : g.Fuses) : ¬g.left.Apart g.right := by
  intro hapart
  rcases h with ⟨hleft, hright⟩ | ⟨hleft, hright⟩ | ⟨hleft, hright⟩ | ⟨hleft, -, hhead⟩
  · exact hapart.number ⟨hleft, by simp [Token.joinsNumber, hright]⟩
  · exact hapart.operator _ _ _ hleft hright (by decide)
  · exact hapart.operator _ _ _ hleft hright (by decide)
  · obtain ⟨r, hright⟩ := List.head?_eq_some_iff.1 hhead
    exact hapart.operator _ _ _ hleft hright (by decide)

/-- No space comes before a point, a closing angle bracket or two colons. -/
private theorem touches_mark {g : Gap} (hright : g.right.Shape)
    (htext : g.right.text ∈ [['.'], ['>'], [':', ':']]) : g.isSpaced = false := by
  have hall : ∀ text ∈ [['.'], ['>'], [':', ':']], ∃ c ∈ signs, text.head? = some c ∧
      c ∉ quoteMarks ∧ text ∈ [[','], [')'], [']'], [';'], ['.'], [':', ':'], ['>']] := by decide
  obtain ⟨c, hsign, hhead, hmark, hclose⟩ := hall _ htext
  have hkind := hright.kind_eq_punct hhead hsign hmark
  have hspace : g.isSpacedMark = false := by rw [isSpacedMark, if_pos hclose]
  simp [isSpaced, hkind, hspace]

/-- No space comes between neighbours that become one token. -/
theorem Fuses.touches {g : Gap} (h : g.Fuses) (hright : g.right.Shape) : g.isSpaced = false := by
  rcases h with ⟨-, hr⟩ | ⟨-, hr⟩ | ⟨-, hr⟩ | ⟨-, hsign, -⟩
  · exact touches_mark hright (by simp [hr])
  · exact touches_mark hright (by simp [hr])
  · exact touches_mark hright (by simp [hr])
  · simp [isSpaced, hsign]

/-- Marks that touch and make an operator are among the pairs that fuse. -/
private theorem fuses_of_operator {g : Gap} (hg : g.isSpaced = false) (hleft : g.left.Shape)
    {a b : Char} {r : List Char} (ha : g.left.text = [a]) (hb : g.right.text = b :: r)
    (hpair : (a, b) ∈ pairOperators) : g.Fuses := by
  rcases g.touches_cases hg with hsign | hopen | ⟨hclose, htype⟩
  · -- only one of the signs begins an operator
    have hall : ∀ p ∈ pairOperators, [p.1] ∈ [['-'], ['+'], ['!'], ['~']] →
        p = ('!', '=') := by decide
    have hlead : g.left.text ∈ [['-'], ['+'], ['!'], ['~']] := by
      rw [Token.isSign, Bool.and_eq_true, decide_eq_true_eq] at hsign
      exact hsign.1
    cases hall _ hpair (by rwa [ha] at hlead)
    exact .inr (.inr (.inr ⟨ha, hsign, by rw [hb]; rfl⟩))
  · have hall : ∀ p ∈ pairOperators, [p.1] ∉ openers := by decide
    rw [ha] at hopen
    exact absurd hopen (hall _ hpair)
  · have hall : ∀ p ∈ pairOperators, ∀ text ∈ closers, text.head? = some p.2 →
        p.1 = '=' ∧ text = ['>'] ∨ p.1 = ':' ∧ text = [':', ':'] ∨
          p.1 = '?' ∧ text = ['?'] := by decide
    rcases hall _ hpair _ hclose (by rw [hb]; rfl) with ⟨rfl, hr⟩ | ⟨rfl, hr⟩ | ⟨rfl, hr⟩
    · exact .inr (.inl ⟨ha, hr⟩)
    · exact .inr (.inr (.inl ⟨ha, hr⟩))
    · -- behind a question mark there is no type, so the next one would be kept apart
      have hkind := hleft.kind_eq_punct (by rw [ha]; rfl) (by decide) (by decide)
      have htypes := htype (by rw [hr]; decide)
      rw [hasTypeLeft_eq_false hkind (by rw [ha]; decide)] at htypes
      cases htypes

/-- Neighbours that touch and do not fuse are read apart. -/
theorem apart_of_not_fuses {g : Gap} (hg : g.isSpaced = false) (hleft : g.left.Shape)
    (h : ¬g.Fuses) : g.left.Apart g.right := by
  refine ⟨?_, fun a b r ha hb hpair => h (fuses_of_operator hg hleft ha hb hpair)⟩
  rintro ⟨hnumber, hjoin⟩
  have hkind : g.left.kind ≠ .punct := by
    intro hkind
    simp [Token.isNumber, hkind] at hnumber
  obtain ⟨hclose, -⟩ := (leads_or_closes hg).resolve_left (hleft.not_mem_leaders hkind)
  have hall : ∀ text ∈ closers, text ≠ ['.'] →
      ∃ c ∈ signs, text.head? = some c ∧ c ≠ '.' := by decide
  have hpoint : g.right.text = ['.'] := by
    by_contra hne
    obtain ⟨c, hsign, hhead, hc⟩ := hall _ hclose hne
    simp [Token.joinsNumber, hhead, isWordPart_sign hsign, hc] at hjoin
  exact h (.inl ⟨hnumber, hpoint⟩)

end Gap

/-- A token that has fused with another one is longer than before. -/
private theorem Token.Fused.longer {left right : Token} {p : List Token × Token}
    (h : Fused left right p) (hright : right.text ≠ []) {u : Token} {ts : List Token}
    (hu : p.2.text.length ≤ u.text.length) :
    ∃ v vs, p.1 ++ u :: ts = v :: vs ∧ left.text.length < v.text.length := by
  cases h with
  | number =>
    refine ⟨u, ts, rfl, lt_of_lt_of_le ?_ hu⟩
    have hpos := List.length_pos_iff.2 hright
    rw [List.length_append]
    omega
  | operator ha => exact ⟨u, ts, rfl, lt_of_lt_of_le (by simp [ha]) hu⟩
  | half ha => exact ⟨_, _, rfl, by simp [ha]⟩

/-- The token that is read where a token is open is no shorter than that. -/
private theorem fusedAfter_eq_cons {rest : List Token} (hrest : ∀ u ∈ rest, u.Shape)
    (before : Option Token) (left t : Token) :
    ∃ u ts, fusedAfter before left t rest = u :: ts ∧ t.text.length ≤ u.text.length := by
  induction rest generalizing before left t with
  | nil => exact ⟨t, [], rfl, le_rfl⟩
  | cons right rest ih =>
    have hright := hrest right (List.mem_cons_self ..)
    rw [fusedAfter]
    split
    · exact ⟨t, _, rfl, le_rfl⟩
    rcases t.fuse_cases hright with hfused | ⟨-, hfuse⟩
    · obtain ⟨u, ts, hu, hlen⟩ := ih (fun v hv => hrest v (List.mem_cons_of_mem _ hv))
        (some left) right (t.fuse right).2
      obtain ⟨v, vs, hv, hlonger⟩ := hfused.longer hright.text_ne_nil hlen
      exact ⟨v, vs, by rw [hu, hv], hlonger.le⟩
    · rw [hfuse]
      exact ⟨t, _, rfl, le_rfl⟩

/-- Every token is read back exactly if no neighbours fuse. -/
private theorem fusedAfter_eq_iff {rest : List Token} (hrest : ∀ u ∈ rest, u.Shape)
    {left : Token} (hleft : left.Shape) (before : Option Token) :
    fusedAfter before left left rest = left :: rest ↔
      ∀ g ∈ gapsAfter before left rest, ¬g.Fuses := by
  induction rest generalizing before left with
  | nil => simp [fusedAfter, gapsAfter]
  | cons right rest ih =>
    have hright := hrest right (List.mem_cons_self ..)
    have htail : ∀ u ∈ rest, u.Shape := fun u hu => hrest u (List.mem_cons_of_mem _ hu)
    rw [fusedAfter, gapsAfter, List.forall_mem_cons, ← ih htail hright (some left)]
    by_cases hg : (Gap.mk before left right rest.head?).isSpaced = true
    · have hnot : ¬(Gap.mk before left right rest.head?).Fuses := fun hf => by
        rw [hf.touches hright] at hg
        cases hg
      simp [hg, hnot]
    · rw [if_neg hg]
      by_cases hf : (Gap.mk before left right rest.head?).Fuses
      · -- the first token that is read is too long
        rcases left.fuse_cases hright with hfused | ⟨hapart, -⟩
        · obtain ⟨u, ts, hu, hlen⟩ := fusedAfter_eq_cons htail (some left) right
            (left.fuse right).2
          obtain ⟨v, vs, hv, hlonger⟩ := hfused.longer hright.text_ne_nil hlen
          rw [hu, hv]
          simp only [hf, not_true_eq_false, false_and, iff_false]
          intro heq
          cases heq
          exact absurd hlonger (lt_irrefl _)
        · exact absurd hapart hf.not_apart
      · have hapart := Gap.apart_of_not_fuses (by simpa using hg) hleft hf
        have hfuse : left.fuse right = ([left], right) := hapart.fuse_eq
        simp [hfuse, hf]

/-- The tokens of a layout are those that were laid out, unless two neighbours fuse. -/
theorem fused_eq_self_iff {ts : List Token} (h : ∀ t ∈ ts, t.Shape) :
    fused ts = ts ↔ ∀ g ∈ gaps ts, ¬g.Fuses := by
  cases ts with
  | nil => simp [fused, gaps]
  | cons t rest =>
    exact fusedAfter_eq_iff (fun u hu => h u (List.mem_cons_of_mem t hu))
      (h t (List.mem_cons_self ..)) none

/-- A text in which every quote is closed is read back from its normalized form with its tokens
fused. -/
theorem QuotesClosed.tokens_normalize {text : String} (h : QuotesClosed text.toList) :
    tokens (normalize text).toList = fused (tokens text.toList) := by
  rw [normalize, String.toList_ofList]
  exact tokens_layout fun t ht => h.closed ht

/-- Where every quote is closed, normalization keeps the tokens of a text if and only if no
neighbours fuse. A text without such neighbours is normalized for good. -/
theorem tokens_normalize_iff {text : String} (hclosed : QuotesClosed text.toList) :
    (tokens (normalize text).toList = tokens text.toList ↔
        ∀ g ∈ gaps (tokens text.toList), ¬g.Fuses) ∧
      ((∀ g ∈ gaps (tokens text.toList), ¬g.Fuses) →
        normalize (normalize text) = normalize text) := by
  have hiff : tokens (normalize text).toList = tokens text.toList ↔
      ∀ g ∈ gaps (tokens text.toList), ¬g.Fuses := by
    rw [hclosed.tokens_normalize]
    exact fused_eq_self_iff fun t ht => shape_of_mem_tokens ht
  refine ⟨hiff, fun hnone => ?_⟩
  have hkeep := hiff.2 hnone
  rw [normalize, hkeep, normalize]

/-- The tokens of a negative default value are kept, and those of a call on a number are not. -/
theorem tokens_normalize_default :
    tokens (normalize "M(int n=-1)").toList = tokens "M(int n=-1)".toList ∧
      tokens (normalize "M(n=1 .F())").toList ≠ tokens "M(n=1 .F())".toList := by
  refine ⟨(tokens_normalize_iff (by decide +kernel)).1.2 (by decide +kernel), ?_⟩
  rw [Ne, (tokens_normalize_iff (by decide +kernel)).1]
  decide +kernel

/-! ### Texts that are left as they are -/

/-- The lexemes of a layout behind the token `left`, when every token is read back. -/
def spreadAfter (before : Option Token) (left : Token) : List Token → List Lexeme
  | [] => []
  | right :: rest =>
    (if (Gap.mk before left right rest.head?).isSpaced then [.blank ' '] else []) ++
      .token right :: spreadAfter (some left) right rest

/-- The lexemes of a layout when every token is read back: tokens, and spaces between them. -/
def spread : List Token → List Lexeme
  | [] => []
  | t :: rest => .token t :: spreadAfter none t rest

/-- The lexeme is one that a reader can find: it begins with a blank only if it is that blank. -/
def Lexeme.IsRead (l : Lexeme) : Prop :=
  ∃ c r, l.text = c :: r ∧ (isBlank c = true ↔ l = .blank c)

/-- Whether the lexeme is a comment. -/
def Lexeme.isComment : Lexeme → Bool
  | .comment _ => true
  | _ => false

/-- A lexeme that is read as a blank is one. -/
private theorem isBlank_of_first {c d : Char} {r : List Char} (h : (first c r).1 = .blank d) :
    isBlank d = true := by
  unfold first at h
  split at h
  · cases h
  split at h
  · cases h
  split at h
  · cases h
  split at h
  · cases h
  split at h
  · next hc => cases h; exact hc
  · cases h

/-- The first lexeme of a text is one that a reader can find. -/
theorem isRead_first (c : Char) (r : List Char) : (first c r).1.IsRead := by
  by_cases hc : isBlank c = true
  · rw [first_blank hc]
    exact ⟨c, [], rfl, by simp [hc]⟩
  · obtain ⟨hne, happ⟩ := first_spec c r
    obtain ⟨d, s, hd⟩ := List.exists_cons_of_ne_nil hne
    rw [hd] at happ
    obtain ⟨rfl, -⟩ := List.cons.inj happ
    exact ⟨d, s, hd, fun h => absurd h hc, fun h => isBlank_of_first h⟩

/-- Every lexeme of a text is one that a reader can find. -/
theorem isRead_of_mem_lexemes {s : List Char} {l : Lexeme} (h : l ∈ lexemes s) : l.IsRead := by
  fun_induction lexemes s with
  | case1 => cases h
  | case2 c r ih =>
    rcases List.mem_cons.1 h with rfl | h
    · exact isRead_first c r
    · exact ih h

/-- A layout is made of its lexemes. -/
theorem flatMap_text_spread (ts : List Token) : (spread ts).flatMap Lexeme.text = layout ts := by
  have hafter : ∀ (rest : List Token) (before : Option Token) (left : Token),
      (spreadAfter before left rest).flatMap Lexeme.text = layoutAfter before left rest := by
    intro rest
    induction rest with
    | nil => simp [spreadAfter, layoutAfter]
    | cons right rest ih =>
      intro before left
      rw [spreadAfter, layoutAfter, List.flatMap_append, List.flatMap_cons, ih, Gap.text]
      split <;> simp [Lexeme.text]
  cases ts with
  | nil => rfl
  | cons t rest => rw [spread, List.flatMap_cons, hafter]; rfl

/-- The tokens among the lexemes of a layout are those that were laid out. -/
theorem filterMap_token?_spread (ts : List Token) :
    (spread ts).filterMap Lexeme.token? = ts := by
  have hafter : ∀ (rest : List Token) (before : Option Token) (left : Token),
      (spreadAfter before left rest).filterMap Lexeme.token? = rest := by
    intro rest
    induction rest with
    | nil => simp [spreadAfter]
    | cons right rest ih =>
      intro before left
      rw [spreadAfter, List.filterMap_append, List.filterMap_cons, ih]
      split <;> simp [Lexeme.token?]
  cases ts with
  | nil => rfl
  | cons t rest => simp [spread, Lexeme.token?, hafter]

/-- A lexeme that is neither its first character as a blank nor a comment is a token. -/
private theorem exists_token {l : Lexeme} {c : Char} {r : List Char} (htext : l.text = c :: r)
    (hblank : l ≠ .blank c) (hcomment : l.isComment = false) : ∃ t, l = .token t := by
  cases l with
  | blank d => cases htext; exact absurd rfl hblank
  | comment text => cases hcomment
  | token t => exact ⟨t, rfl⟩

/-- Lexemes that make up the same text and hold the same tokens begin alike. -/
private theorem head_eq {l l' : Lexeme} {ls ls' : List Lexeme} (hread : l.IsRead)
    (hread' : l'.IsRead) (hnone : l.isComment = false) (hnone' : l'.isComment = false)
    (htext : (l :: ls).flatMap Lexeme.text = (l' :: ls').flatMap Lexeme.text)
    (htokens : (l :: ls).filterMap Lexeme.token? = (l' :: ls').filterMap Lexeme.token?) :
    l = l' := by
  obtain ⟨c, r, hc, hblank⟩ := hread
  obtain ⟨c', r', hc', hblank'⟩ := hread'
  obtain rfl : c = c' := by
    rw [List.flatMap_cons, List.flatMap_cons, hc, hc'] at htext
    exact (List.cons.inj htext).1
  by_cases hb : isBlank c = true
  · rw [hblank.1 hb, hblank'.1 hb]
  · -- neither begins with a blank, so both are the first token
    obtain ⟨t, rfl⟩ := exists_token hc (fun h => hb (hblank.2 h)) hnone
    obtain ⟨u, rfl⟩ := exists_token hc' (fun h => hb (hblank'.2 h)) hnone'
    simp only [List.filterMap_cons, Lexeme.token?, List.cons.injEq] at htokens
    rw [htokens.1]

/-- Lexemes without comments are told by their text and their tokens. -/
theorem eq_of_flatMap_text_eq {ls ls' : List Lexeme}
    (hls : ∀ l ∈ ls, l.IsRead ∧ l.isComment = false)
    (hls' : ∀ l ∈ ls', l.IsRead ∧ l.isComment = false)
    (htext : ls.flatMap Lexeme.text = ls'.flatMap Lexeme.text)
    (htokens : ls.filterMap Lexeme.token? = ls'.filterMap Lexeme.token?) : ls = ls' := by
  induction ls generalizing ls' with
  | nil =>
    cases ls' with
    | nil => rfl
    | cons l' ls' =>
      obtain ⟨⟨c, r, hc, -⟩, -⟩ := hls' l' (List.mem_cons_self ..)
      simp [hc] at htext
  | cons l ls ih =>
    obtain ⟨hread, hnone⟩ := hls l (List.mem_cons_self ..)
    cases ls' with
    | nil =>
      obtain ⟨c, r, hc, -⟩ := hread
      simp [hc] at htext
    | cons l' ls' =>
      obtain ⟨hread', hnone'⟩ := hls' l' (List.mem_cons_self ..)
      -- neither text nor tokens leave a choice for the first lexeme
      obtain rfl := head_eq hread hread' hnone hnone' htext htokens
      have htokens' : ls.filterMap Lexeme.token? = ls'.filterMap Lexeme.token? := by
        simp only [List.filterMap_cons] at htokens
        split at htokens
        · exact htokens
        · exact (List.cons.inj htokens).2
      rw [ih (fun m hm => hls m (List.mem_cons_of_mem _ hm))
        (fun m hm => hls' m (List.mem_cons_of_mem _ hm)) (by simpa using htext) htokens']

/-- The number of characters of a text that are no blanks. -/
def inked (s : List Char) : Nat := s.countP fun c => !isBlank c

@[simp] theorem inked_append (s s' : List Char) : inked (s ++ s') = inked s + inked s' :=
  List.countP_append

/-- Some lexemes hold a character that is no blank for every comment among them, and all of those
that their tokens hold. -/
theorem inked_tokens_add_le {ls : List Lexeme} (hread : ∀ l ∈ ls, l.IsRead) :
    inked ((ls.filterMap Lexeme.token?).flatMap Token.text) + ls.countP Lexeme.isComment ≤
      inked (ls.flatMap Lexeme.text) := by
  induction ls with
  | nil => simp
  | cons l ls ih =>
    have htail := ih fun m hm => hread m (List.mem_cons_of_mem _ hm)
    rw [List.flatMap_cons, inked_append]
    cases l with
    | blank c =>
      simp only [List.filterMap_cons, Lexeme.token?, List.countP_cons, Lexeme.isComment]
      simp
      omega
    | comment text =>
      -- a comment begins with a character that is no blank, which no token holds
      obtain ⟨c, r, hc, hblank⟩ := hread (.comment text) (List.mem_cons_self ..)
      have hink : isBlank c = false := Bool.eq_false_iff.2 fun h => nomatch hblank.1 h
      have hpos : 0 < inked text := by
        rw [show text = c :: r from hc]
        simp [inked, hink]
      simp only [List.filterMap_cons, Lexeme.token?, List.countP_cons, Lexeme.isComment,
        Lexeme.text, if_true]
      omega
    | token t =>
      simp only [List.filterMap_cons, Lexeme.token?, List.countP_cons, Lexeme.isComment,
        List.flatMap_cons, inked_append, Lexeme.text]
      simp
      omega

/-- A layout has just the characters of its tokens, blanks apart. -/
theorem inked_layout (ts : List Token) : inked (layout ts) = inked (ts.flatMap Token.text) := by
  have hgap : ∀ g : Gap, inked g.text = 0 := fun g => by
    rw [Gap.text]
    split <;> decide
  have hafter : ∀ (rest : List Token) (before : Option Token) (left : Token),
      inked (layoutAfter before left rest) = inked (rest.flatMap Token.text) := by
    intro rest
    induction rest with
    | nil => intro before left; rfl
    | cons right rest ih =>
      intro before left
      rw [layoutAfter, inked_append, inked_append, hgap, ih, List.flatMap_cons, inked_append]
      omega
  cases ts with
  | nil => rfl
  | cons t rest => rw [layout, inked_append, hafter, List.flatMap_cons, inked_append]

/-- A lexeme of a layout is a space or one of the tokens. -/
theorem mem_spread {ts : List Token} {l : Lexeme} (h : l ∈ spread ts) :
    l = .blank ' ' ∨ ∃ t ∈ ts, l = .token t := by
  have hafter : ∀ (rest : List Token) (before : Option Token) (left : Token),
      l ∈ spreadAfter before left rest → l = .blank ' ' ∨ ∃ t ∈ rest, l = .token t := by
    intro rest
    induction rest with
    | nil => intro before left h; cases h
    | cons right rest ih =>
      intro before left h
      rw [spreadAfter, List.mem_append, List.mem_cons] at h
      rcases h with h | h | h
      · split at h
        · exact .inl (List.mem_singleton.1 h)
        · cases h
      · exact .inr ⟨right, List.mem_cons_self .., h⟩
      · exact (ih _ _ h).imp_right fun ⟨t, ht, hl⟩ => ⟨t, List.mem_cons_of_mem _ ht, hl⟩
  cases ts with
  | nil => cases h
  | cons t rest =>
    rcases List.mem_cons.1 h with h | h
    · exact .inr ⟨t, List.mem_cons_self .., h⟩
    · exact (hafter _ _ _ h).imp_right fun ⟨u, hu, hl⟩ => ⟨u, List.mem_cons_of_mem _ hu, hl⟩

/-- Normalization leaves a text as it is if and only if the text has no lexemes but its tokens and
the spaces that a layout puts between them. -/
theorem normalize_eq_self_iff {text : String} :
    normalize text = text ↔ lexemes text.toList = spread (tokens text.toList) := by
  have hlist : normalize text = text ↔ layout (tokens text.toList) = text.toList := by
    rw [normalize]
    constructor
    · intro h
      rw [← String.toList_inj, String.toList_ofList] at h
      exact h
    · intro h
      rw [h, String.ofList_toList]
  rw [hlist]
  generalize text.toList = s
  constructor
  · intro h
    have hread : ∀ l ∈ lexemes s, l.IsRead := fun l hl => isRead_of_mem_lexemes hl
    -- a comment would hold characters that the layout does not have
    have hcount : (lexemes s).countP Lexeme.isComment = 0 := by
      have hle := inked_tokens_add_le hread
      rw [flatMap_text_lexemes, ← tokens, ← inked_layout, h] at hle
      omega
    have hnone : ∀ l ∈ lexemes s, l.isComment = false := by
      simpa [List.countP_eq_zero] using hcount
    have hmem : ∀ l ∈ spread (tokens s), l.IsRead ∧ l.isComment = false := by
      intro l hl
      rcases mem_spread hl with rfl | ⟨t, ht, rfl⟩
      · exact ⟨⟨' ', [], rfl, by decide⟩, rfl⟩
      · obtain ⟨m, hm, htoken⟩ := List.mem_filterMap.1 ht
        cases m with
        | token u => cases htoken; exact ⟨hread _ hm, rfl⟩
        | _ => cases htoken
    refine eq_of_flatMap_text_eq (fun l hl => ⟨hread l hl, hnone l hl⟩) hmem ?_ ?_
    · rw [flatMap_text_lexemes, flatMap_text_spread, h]
    · rw [filterMap_token?_spread, tokens]
  · intro h
    rw [← flatMap_text_spread, ← h, flatMap_text_lexemes]

/-- A second normalization changes nothing if and only if the normalized text has no lexemes but
its tokens and the spaces that belong between them. Where every quote is closed, that is a matter
of the tokens of the text: they must be laid out as what they fuse into. -/
theorem normalize_normalize_iff (text : String) :
    (normalize (normalize text) = normalize text ↔
        lexemes (normalize text).toList = spread (tokens (normalize text).toList)) ∧
      (QuotesClosed text.toList →
        (normalize (normalize text) = normalize text ↔
          layout (fused (tokens text.toList)) = layout (tokens text.toList))) := by
  refine ⟨normalize_eq_self_iff, fun hclosed => ?_⟩
  have htokens := hclosed.tokens_normalize
  rw [normalize, htokens, normalize, String.ofList_inj]

/-- An arrow that is made of two tokens is laid out like any other. -/
theorem normalize_normalize_arrow :
    normalize (normalize "a = > b") = normalize "a = > b" :=
  ((normalize_normalize_iff "a = > b").2 (by decide +kernel)).2 (by decide +kernel)

/-- A number and the point after it fuse, and the call behind them is spaced as if it were no
call. -/
theorem normalize_normalize_ne :
    normalize (normalize "void M(string s = 1 .ToString());") ≠
      normalize "void M(string s = 1 .ToString());" := by
  decide +kernel

end TypeCatalog.Signature
