import Mathlib.Data.List.Forall2
import TypeCatalog.Proofs.Signature.Fusion
import TypeCatalog.Proofs.Signature.Grammar

/-!
# The layout of a signature of the grammar

Whether a space stands between two tokens is decided by four tokens, and yet a signature comes out
as its phrases are written one by one. A phrase is laid out alike wherever it stands; all that its
neighbours need to know is which tokens it can begin and end with, and all that it asks of them is
which token may come next. So the layout of a signature is put together from its phrases.

## Main definitions

- `Signature.Phrase` — that some tokens are laid out as a text wherever they stand

## Main statements

- `Signature.Phrase.append` — a phrase behind another one
- `Signature.TypeTerm.phrase` — types of the grammar are phrases
- `Signature.Heading.normalize_eq_render` — a signature is normalized to its conventional text
-/

namespace TypeCatalog.Signature

/-! ### Phrases -/

/-- The layout of tokens that come after the token `before`. -/
def layoutFrom (before : Option Token) : List Token → List Char
  | [] => []
  | t :: rest => t.text ++ layoutAfter before t rest

/-- A layout begins with no token before it. -/
theorem layout_eq (ts : List Token) : layout ts = layoutFrom none ts := by
  cases ts <;> rfl

/-- Behind a token come the gap and the layout from the next token on. -/
theorem layoutAfter_cons (before : Option Token) (left right : Token) (rest : List Token) :
    layoutAfter before left (right :: rest) =
      (Gap.mk before left right rest.head?).text ++ layoutFrom (some left) (right :: rest) := by
  rw [layoutAfter, layoutFrom, List.append_assoc]

/-- The tokens are laid out as the text wherever they stand. They begin with a token that `starts`
allows and end with one that `ends` allows, as long as `follows` allows what comes next. -/
structure Phrase (starts ends : Token → Prop) (follows : Option Token → Prop)
    (ts : List Token) (text : List Char) : Prop where
  first : ∃ t rest, ts = t :: rest ∧ starts t
  lays : ∀ before, ∃ prev last, ends last ∧ ∀ rest : List Token, follows rest.head? →
    layoutFrom before (ts ++ rest) = text ++ layoutAfter prev last rest

/-- Nothing is asked of the token that comes next. -/
def anything (_ : Option Token) : Prop := True

namespace Phrase

variable {starts starts₁ starts₂ ends ends₁ ends₂ : Token → Prop}
  {follows follows₁ follows₂ : Option Token → Prop} {ts ts₁ ts₂ : List Token}
  {text text₁ text₂ : List Char}

/-- A phrase may promise less and ask for more. -/
theorem mono (h : Phrase starts₁ ends₁ follows₁ ts text) (hstarts : ∀ t, starts₁ t → starts₂ t)
    (hends : ∀ t, ends₁ t → ends₂ t) (hfollows : ∀ t, follows₂ t → follows₁ t) :
    Phrase starts₂ ends₂ follows₂ ts text := by
  obtain ⟨t, rest, hts, ht⟩ := h.first
  refine ⟨⟨t, rest, hts, hstarts t ht⟩, fun before => ?_⟩
  obtain ⟨prev, last, hlast, hlay⟩ := h.lays before
  exact ⟨prev, last, hends last hlast, fun rest hrest => hlay rest (hfollows _ hrest)⟩

/-- A token is a phrase. -/
theorem token (t : Token) : Phrase (· = t) (· = t) anything [t] t.text :=
  ⟨⟨t, [], rfl, rfl⟩, fun before => ⟨before, t, rfl, fun _ _ => rfl⟩⟩

/-- A phrase behind another one, with what their neighbouring tokens put between them. -/
theorem append {s : List Char} (h₁ : Phrase starts₁ ends₁ follows₁ ts₁ text₁)
    (h₂ : Phrase starts₂ ends₂ follows₂ ts₂ text₂) (hfollows : ∀ t, starts₂ t → follows₁ (some t))
    (hgap : ∀ g : Gap, ends₁ g.left → starts₂ g.right → g.text = s) :
    Phrase starts₁ ends₂ follows₂ (ts₁ ++ ts₂) (text₁ ++ (s ++ text₂)) := by
  obtain ⟨t₁, rest₁, hts₁, ht₁⟩ := h₁.first
  obtain ⟨t₂, rest₂, hts₂, ht₂⟩ := h₂.first
  refine ⟨⟨t₁, rest₁ ++ ts₂, by rw [hts₁]; rfl, ht₁⟩, fun before => ?_⟩
  -- the second phrase is laid out behind the last token of the first one
  obtain ⟨prev₁, last₁, hlast₁, hlay₁⟩ := h₁.lays before
  obtain ⟨prev₂, last₂, hlast₂, hlay₂⟩ := h₂.lays (some last₁)
  refine ⟨prev₂, last₂, hlast₂, fun rest hrest => ?_⟩
  have hnext : follows₁ (ts₂ ++ rest).head? := by
    rw [hts₂]
    exact hfollows t₂ ht₂
  rw [List.append_assoc, hlay₁ _ hnext, List.append_assoc, List.append_assoc, ← hlay₂ rest hrest,
    hts₂, List.cons_append, layoutAfter_cons, hgap _ hlast₁ ht₂]

end Phrase

/-! ### Neighbours in the grammar -/

namespace Token

/-- The token may begin a type or a parameter. -/
def Opens (t : Token) : Prop := t.kind = .word ∨ t = mark '('

/-- The token is a name. -/
def IsName (t : Token) : Prop := ∃ n : Name, t = n.token

/-- The token needs no operand behind it. -/
def Ends (t : Token) : Prop := t.text ∉ leaders

instance (t : Token) : Decidable t.Ends := inferInstanceAs (Decidable (t.text ∉ leaders))

/-- The token may end a qualified name. -/
def EndsPath (t : Token) : Prop := t.Ends ∧ (t.canEndType = true ∨ t.text = ['>'])

/-- What may come behind a nullable type. -/
def Follows (t : Option Token) : Prop := marksNullable t = true

end Token

/-- The marks of the grammar that no space ever comes before. -/
def closingMarks : List Char := [',', ')', ']', ';', '.', '>']

namespace Gap

variable {g : Gap}

/-- Nothing is written before a mark that closes. -/
theorem text_of_closer {c : Char} (hc : c ∈ closingMarks) (h : g.right = mark c) :
    g.text = [] := by
  have hall : ∀ d ∈ closingMarks,
      [d] ∈ [[','], [')'], [']'], [';'], ['.'], [':', ':'], ['>']] := by decide
  have hspace : g.isSpacedMark = false := by
    rw [isSpacedMark, h]
    exact if_pos (hall c hc)
  simp [text, isSpaced, h, mark, hspace]

/-- There is no space before two colons. -/
theorem text_of_colons (h : g.right = ⟨.punct, [':', ':']⟩) : g.text = [] := by
  have hspace : g.isSpacedMark = false := by
    rw [isSpacedMark, h]
    exact if_pos (by decide)
  simp [text, isSpaced, h, hspace]

/-- There is no space behind an opening mark. -/
theorem text_of_opener {t : Token} (ht : t.isPunctOf openers = true) (h : g.left = t) :
    g.text = [] := by
  rw [← h, openers] at ht
  simp [text, isSpaced, ht]

/-- Behind a token that needs no operand, the space depends on the mark on the right alone. -/
theorem isSpaced_of_ends (hleft : g.left.Ends) :
    g.isSpaced = (g.right.kind != .punct || g.isSpacedMark) := by
  have hsign : Token.isSign g.before g.left = false :=
    Bool.eq_false_iff.2 fun hsign => hleft (Token.mem_leaders_of_isSign hsign)
  have hopen : g.left.isPunctOf openers = false := by
    rw [Token.isPunctOf, Bool.and_eq_false_iff]
    exact .inr (decide_eq_false fun hmem => hleft (List.mem_append_right _ hmem))
  rw [openers] at hopen
  by_cases hkind : g.right.kind = .punct <;> simp [isSpaced, hsign, hopen, hkind]

/-- A space is written before a word or a literal. -/
theorem text_of_kind (hleft : g.left.Ends) (hright : g.right.kind ≠ .punct) : g.text = [' '] := by
  simp [text, isSpaced_of_ends hleft, hright]

/-- Nothing is written between a qualified name and a bracket. -/
theorem text_of_bracket (hleft : g.left.EndsPath) {c : Char} (hc : c ∈ ['(', '<', '['])
    (hright : g.right = mark c) : g.text = [] := by
  have hnew : g.left.text ≠ ['n', 'e', 'w'] := by
    intro hnew
    rcases hleft.2 with htype | hangle
    · simp [Token.canEndType, hnew, Token.nonTypeKeywords] at htype
    · simp [hnew] at hangle
  have htype : ∀ ends, ['>'] ∈ ends → g.hasTypeLeft ends = true := by
    intro ends hends
    rcases hleft.2 with htype | hangle
    · simp [hasTypeLeft, htype]
    · simp [hasTypeLeft, hangle, hends]
  have hspace : g.isSpacedMark = false := by
    simp only [List.mem_cons, List.not_mem_nil, or_false] at hc
    rcases hc with rfl | rfl | rfl <;> simp [isSpacedMark, hright, mark, hnew, htype]
  rw [text, isSpaced_of_ends hleft.1, hspace, hright]
  rfl

/-- There is a space before an operator that stands behind an operand. -/
theorem text_of_operator {c : Char} (hc : c ∈ ['=', '-']) (hleft : g.left.Ends)
    (hright : g.right = mark c) : g.text = [' '] := by
  have hspace : g.isSpacedMark = true := by
    simp only [List.mem_cons, List.not_mem_nil, or_false] at hc
    rcases hc with rfl | rfl <;> simp [isSpacedMark, hright, mark]
  simp [text, isSpaced_of_ends hleft, hspace]

/-- There is no space behind the minus sign of a default value. -/
theorem text_of_minus (hbefore : g.before = some (mark '=')) (hleft : g.left = mark '-') :
    g.text = [] := by
  have hsign : Token.isSign g.before g.left = true := by
    rw [hbefore, hleft]
    decide
  simp [text, isSpaced, hsign]

/-- There is a space behind a comma that something opens after. -/
theorem text_of_comma (hleft : g.left = mark ',') (hright : g.right.Opens) : g.text = [' '] := by
  have hends : g.left.Ends := by rw [hleft]; decide
  rcases hright with hword | hopen
  · exact text_of_kind hends (by rw [hword]; decide)
  · have hspace : g.isSpacedMark = true := by
      simp [isSpacedMark, hopen, hleft, mark, hasTypeLeft, Token.canEndType]
    simp [text, isSpaced_of_ends hends, hspace]

/-- A space is written between a modifier and a type. Where `new` begins no value, it is a modifier
like any other. -/
theorem text_of_modifier {w : List Char} (hw : w ∈ Token.nonTypeKeywords)
    (hleft : g.left = ⟨.word, w⟩)
    (hnew : w = ['n', 'e', 'w'] → g.before.any Token.opensValue = false)
    (hright : g.right.Opens) : g.text = [' '] := by
  have hall : ∀ v ∈ Token.nonTypeKeywords, v ∉ leaders ∧ v ≠ ['>'] := by decide
  obtain ⟨hlead, hangle⟩ := hall w hw
  have hends : g.left.Ends := by rw [hleft]; exact hlead
  rcases hright with hword | hopen
  · exact text_of_kind hends (by rw [hword]; decide)
  · have hspace : g.isSpacedMark = true := by
      by_cases h : w = ['n', 'e', 'w']
      · simp [isSpacedMark, hopen, hleft, mark, h, hnew h]
      · simp [isSpacedMark, hopen, hleft, mark, h, hasTypeLeft, Token.canEndType, hw, hangle]
    simp [text, isSpaced_of_ends hends, hspace]

/-- Nothing is written before the mark of a nullable type. -/
theorem text_of_nullable (hleft : g.left.EndsPath ∨ g.left = mark ')')
    (hright : g.right = mark '?') (hafter : Token.Follows g.after) : g.text = [] := by
  have hends : g.left.Ends := by
    rcases hleft with hpath | htuple
    · exact hpath.1
    · rw [htuple]
      decide
  have htype : g.hasTypeLeft [['>'], [']'], [')']] = true := by
    rcases hleft with ⟨-, htype | hangle⟩ | htuple
    · simp [hasTypeLeft, htype]
    · simp [hasTypeLeft, hangle]
    · simp [hasTypeLeft, htuple, mark]
  have hspace : g.isSpacedMark = false := by
    rw [Token.Follows] at hafter
    simp [isSpacedMark, hright, mark, htype, hafter]
  rw [text, isSpaced_of_ends hends, hspace, hright]
  rfl

end Gap

/-! ### Phrases of the grammar -/

theorem ends_word {text : List Char} (h : word? text = some (text, [])) :
    Token.Ends ⟨.word, text⟩ :=
  (read_of_word? h).shape.not_mem_leaders nofun

theorem ends_literal {text : List Char} (h : literal? text = some (text, [])) :
    Token.Ends ⟨.literal, text⟩ :=
  (read_of_literal? h).shape.not_mem_leaders nofun

theorem Token.IsName.follows {t : Token} (h : t.IsName) : Token.Follows (some t) := by
  obtain ⟨n, rfl⟩ := h
  exact decide_eq_true n.notValue

theorem Token.IsName.endsPath {t : Token} (h : t.IsName) : t.EndsPath := by
  obtain ⟨n, rfl⟩ := h
  refine ⟨ends_word n.isWord, .inl ?_⟩
  simp [Token.canEndType, Name.token, n.notModifier]

theorem Token.IsName.kind_ne {t : Token} (h : t.IsName) : t.kind ≠ .punct := by
  obtain ⟨n, rfl⟩ := h
  exact nofun

theorem Token.IsName.opens {t : Token} (h : t.IsName) : t.Opens := by
  obtain ⟨n, rfl⟩ := h
  exact .inl rfl

/-- What every phrase between commas is: a type, an element of a tuple, a parameter or a name. -/
abbrev ItemPhrase (ts : List Token) (text : List Char) : Prop :=
  Phrase Token.Opens Token.Ends Token.Follows ts text

/-- A name is laid out as it is. -/
theorem Name.phrase (n : Name) : Phrase Token.IsName Token.EndsPath anything [n.token] n.text := by
  refine (Phrase.token n.token).mono ?_ ?_ fun _ h => h
  · rintro t rfl
    exact ⟨n, rfl⟩
  · rintro t rfl
    exact Token.IsName.endsPath ⟨n, rfl⟩

/-- What begins with a name and ends as a qualified name does may stand between commas. -/
theorem Phrase.toItem {ts : List Token} {text : List Char}
    (h : Phrase Token.IsName Token.EndsPath anything ts text) : ItemPhrase ts text :=
  h.mono (fun _ ht => ht.opens) (fun _ ht => ht.1) fun _ _ => trivial

section

variable {starts ends : Token → Prop} {follows : Option Token → Prop} {ts : List Token}
  {text : List Char}

/-- A phrase with a closing mark behind it. -/
theorem Phrase.closed (h : Phrase starts ends follows ts text) {c : Char} (hc : c ∈ closingMarks)
    (hfollows : follows (some (mark c))) :
    Phrase starts (· = mark c) anything (ts ++ [mark c]) (text ++ [c]) := by
  refine h.append (Phrase.token (mark c)) (s := []) ?_ fun g _ hr => Gap.text_of_closer hc hr
  rintro t rfl
  exact hfollows

/-- A qualified name with one more name behind it. -/
theorem Phrase.member (h : Phrase starts ends anything ts text) (n : Name) :
    Phrase starts Token.EndsPath anything (ts ++ [mark '.', n.token]) (text ++ '.' :: n.text) := by
  have hpoint := h.closed (c := '.') (by decide) trivial
  have hname := hpoint.append n.phrase (s := []) (fun _ _ => trivial)
    fun g hl _ => Gap.text_of_opener (by decide) hl
  simpa using hname

end

/-- Phrases with commas between them are a phrase. -/
theorem phrase_separated {tss : List (List Token)} {texts : List (List Char)}
    (h : List.Forall₂ ItemPhrase tss texts) (hne : tss ≠ []) :
    ItemPhrase ([mark ','].intercalate tss) ([',', ' '].intercalate texts) := by
  induction h with
  | nil => exact absurd rfl hne
  | @cons ts text tss texts hhead htail ih =>
    cases htail with
    | nil => simpa using hhead
    | cons hnext htail =>
      have hcomma := hhead.closed (c := ',') (by decide) rfl
      have hrest := hcomma.append (ih (by simp)) (s := [' ']) (fun _ _ => trivial)
        fun g hl hr => Gap.text_of_comma hl hr
      simpa [List.intercalate_cons_cons] using hrest

/-- The brackets of the grammar. -/
def brackets : List (Char × Char) := [('(', ')'), ('<', '>')]

/-- Phrases between brackets are a phrase. -/
theorem phrase_bracketed {left right : Char} (hb : (left, right) ∈ brackets)
    {tss : List (List Token)} {texts : List (List Char)}
    (h : List.Forall₂ ItemPhrase tss texts) :
    Phrase (· = mark left) (· = mark right) anything (bracketed left right tss)
      (writeBracketed left right texts) := by
  have hall : ∀ p ∈ brackets, (mark p.1).isPunctOf openers = true ∧ p.2 ∈ closingMarks ∧
      Token.marksNullable (some (mark p.2)) = true := by decide
  obtain ⟨hopen, hclose, hfollow⟩ := hall _ hb
  have hleft := Phrase.token (mark left)
  by_cases hne : tss = []
  · subst hne
    cases h
    simpa [bracketed, writeBracketed, mark] using hleft.closed hclose trivial
  · have hinner := hleft.append (phrase_separated h hne) (s := []) (fun _ _ => trivial)
      fun g hl _ => Gap.text_of_opener hopen hl
    simpa [bracketed, writeBracketed, mark] using hinner.closed hclose hfollow

section

variable {starts ends : Token → Prop} {follows : Option Token → Prop} {ts : List Token}
  {text : List Char}

/-- A qualified name may have type arguments behind it. -/
theorem Phrase.angled (h : Phrase starts Token.EndsPath anything ts text)
    {tss : List (List Token)} {texts : List (List Char)}
    (hargs : List.Forall₂ ItemPhrase tss texts) :
    Phrase starts Token.EndsPath anything (ts ++ angled tss) (text ++ writeAngled texts) := by
  cases hargs with
  | nil => simpa [Signature.angled, writeAngled] using h
  | cons hfirst hrest =>
    have hargs := phrase_bracketed (show ('<', '>') ∈ brackets by decide) (.cons hfirst hrest)
    have hboth := h.append hargs (s := []) (fun _ _ => trivial)
      fun g hl hr => Gap.text_of_bracket hl (by decide) hr
    refine hboth.mono (fun _ ht => ht) ?_ fun _ ht => ht
    rintro t rfl
    exact ⟨by decide, .inr rfl⟩

/-- A type may be marked as nullable, if what follows does not make the mark an operator. -/
theorem Phrase.nullable (h : Phrase starts ends anything ts text)
    (hends : ∀ t, ends t → t.EndsPath ∨ t = mark ')') :
    Phrase starts Token.Ends Token.Follows (ts ++ [mark '?']) (text ++ ['?']) := by
  obtain ⟨t, tail, hts, ht⟩ := h.first
  refine ⟨⟨t, tail ++ [mark '?'], by rw [hts]; rfl, ht⟩, fun before => ?_⟩
  obtain ⟨prev, last, hlast, hlay⟩ := h.lays before
  refine ⟨some last, mark '?', by decide, fun rest hrest => ?_⟩
  have hgap : (Gap.mk prev last (mark '?') rest.head?).text = [] :=
    Gap.text_of_nullable (hends last hlast) rfl hrest
  rw [List.append_assoc, hlay _ trivial, List.singleton_append, layoutAfter_cons, hgap, layoutFrom,
    List.append_assoc]
  rfl

/-- The brackets of an array are laid out with nothing between them. -/
theorem phrase_rank (commas : Nat) :
    Phrase (· = mark '[') (· = mark ']') anything (Suffix.array commas).tokens
      (Suffix.array commas).render := by
  have hcommas : Phrase (· = mark '[') (fun _ => True) anything
      (mark '[' :: List.replicate commas (mark ',')) ('[' :: List.replicate commas ',') := by
    induction commas with
    | zero =>
      exact (Phrase.token (mark '[')).mono (fun _ ht => ht) (fun _ _ => trivial) fun _ ht => ht
    | succ n ih =>
      rw [List.replicate_succ', List.replicate_succ']
      exact (ih.closed (c := ',') (by decide) trivial).mono (fun _ ht => ht) (fun _ _ => trivial)
        fun _ ht => ht
  exact hcommas.closed (c := ']') (by decide) trivial

/-- A qualified name with a suffix is a type. -/
theorem Phrase.suffix (h : Phrase Token.IsName Token.EndsPath anything ts text) (s : Suffix) :
    ItemPhrase (ts ++ s.tokens) (text ++ s.render) := by
  cases s with
  | bare => simpa [Suffix.tokens, Suffix.render] using h.toItem
  | nullable =>
    exact (h.nullable fun _ ht => .inl ht).mono (fun _ ht => ht.opens) (fun _ ht => ht)
      fun _ ht => ht
  | array commas =>
    have hboth := h.append (phrase_rank commas) (s := []) (fun _ _ => trivial)
      fun g hl hr => Gap.text_of_bracket hl (by decide) hr
    refine hboth.mono (fun _ ht => ht.opens) ?_ fun _ _ => trivial
    rintro t rfl
    decide

/-- A tuple is a type, which may be marked as nullable. -/
theorem phrase_tuple {tss : List (List Token)} {texts : List (List Char)}
    (h : List.Forall₂ ItemPhrase tss texts) (nullable : Bool) :
    ItemPhrase (bracketed '(' ')' tss ++ if nullable then [mark '?'] else [])
      (writeBracketed '(' ')' texts ++ if nullable then ['?'] else []) := by
  have htuple := phrase_bracketed (show ('(', ')') ∈ brackets by decide) h
  cases nullable with
  | false =>
    rw [if_neg nofun, if_neg nofun, List.append_nil, List.append_nil]
    refine htuple.mono (fun _ ht => .inr ht) ?_ fun _ _ => trivial
    rintro t rfl
    decide
  | true =>
    exact (htuple.nullable fun _ ht => .inr ht).mono (fun _ ht => .inr ht) (fun _ ht => ht)
      fun _ ht => ht

end

mutual

/-- Types are phrases. -/
theorem TypeTerm.phrase (t : TypeTerm) : ItemPhrase t.tokens t.render := by
  cases t with
  | named path suffix => exact path.phrase.suffix suffix
  | tuple first second more nullable =>
    exact phrase_tuple (.cons first.phrase (.cons second.phrase (elementPhrases more))) nullable

/-- A qualified name is laid out with nothing around its points. -/
theorem Path.phrase (p : Path) :
    Phrase Token.IsName Token.EndsPath anything p.tokens p.render := by
  cases p with
  | segment qualifier name args =>
    cases qualifier with
    | none => exact name.phrase.angled (typePhrases args)
    | some qualifier =>
      have hcolons := qualifier.phrase.append (Phrase.token ⟨.punct, [':', ':']⟩) (s := [])
        (fun _ _ => trivial) fun g _ hr => Gap.text_of_colons hr
      have hname := hcolons.append name.phrase (s := []) (fun _ _ => trivial)
        fun g hl _ => Gap.text_of_opener (by decide) hl
      simpa [Path.tokens, Path.render] using hname.angled (typePhrases args)
  | member path name args =>
    simpa [Path.tokens, Path.render] using (path.phrase.member name).angled (typePhrases args)

/-- An element of a tuple is laid out as it is rendered. -/
theorem Element.phrase (e : Element) : ItemPhrase e.tokens e.render := by
  cases e with
  | mk type label =>
    cases label with
    | none => exact type.phrase
    | some label =>
      have hboth := type.phrase.append label.phrase (s := [' ']) (fun _ ht => ht.follows)
        fun g hl hr => Gap.text_of_kind hl hr.kind_ne
      exact hboth.mono (fun _ ht => ht) (fun _ ht => ht.1) fun _ _ => trivial

/-- Every type of a list is laid out as it is rendered. -/
theorem typePhrases (ts : List TypeTerm) :
    List.Forall₂ ItemPhrase (typeTokens ts) (typeTexts ts) := by
  cases ts with
  | nil => exact .nil
  | cons t ts => exact .cons t.phrase (typePhrases ts)

/-- Every element of a tuple is laid out as it is rendered. -/
theorem elementPhrases (es : List Element) :
    List.Forall₂ ItemPhrase (elementTokens es) (elementTexts es) := by
  cases es with
  | nil => exact .nil
  | cons e es => exact .cons e.phrase (elementPhrases es)

end

/-! ### Parameters and whole signatures -/

/-- An equals sign is written with a space behind it. -/
theorem phrase_equals {t : Token} (ht : t.Ends) (hkind : t.kind ≠ .punct) :
    Phrase (· = mark '=') Token.Ends anything [mark '=', t] ('=' :: ' ' :: t.text) := by
  have hboth := (Phrase.token (mark '=')).append (Phrase.token t) (s := [' '])
    (fun _ _ => trivial) fun g hl hr => Gap.text_of_kind (by rw [hl]; decide) (by rwa [hr])
  refine hboth.mono (fun _ ht => ht) ?_ fun _ ht => ht
  rintro u rfl
  exact ht

/-- A default value is laid out with spaces around its equals sign. -/
theorem DefaultValue.phrase (value : DefaultValue) :
    Phrase (· = mark '=') Token.Ends anything value.tokens value.render := by
  cases value with
  | literal text h => exact phrase_equals (ends_literal h) nofun
  | word text h => exact phrase_equals (ends_word h) nofun
  | negative text h =>
    -- the minus is a sign because of the equals sign before it
    refine ⟨⟨_, _, rfl, rfl⟩, fun before =>
      ⟨some (mark '-'), ⟨.literal, text⟩, ends_literal h, fun rest _ => ?_⟩⟩
    have hminus (after : Option Token) :
        (Gap.mk before (mark '=') (mark '-') after).text = [' '] :=
      Gap.text_of_operator (by decide) (show (mark '=').Ends by decide) rfl
    have hoperand (after : Option Token) :
        (Gap.mk (some (mark '=')) (mark '-') ⟨.literal, text⟩ after).text = [] :=
      Gap.text_of_minus rfl rfl
    rw [DefaultValue.tokens, List.cons_append, List.cons_append, List.cons_append, layoutFrom,
      layoutAfter, hminus, layoutAfter, hoperand]
    simp [DefaultValue.render, mark]

section

variable {ends : Token → Prop} {follows : Option Token → Prop} {ts : List Token}
  {text : List Char} {ws : List (List Char)}

/-- A phrase begins like one when modifiers are put before it. -/
theorem first_modifiers (h : Phrase Token.Opens ends follows ts text) (ws : List (List Char)) :
    ∃ t rest, ws.map (fun w => (⟨.word, w⟩ : Token)) ++ ts = t :: rest ∧ t.Opens := by
  cases ws with
  | nil => exact h.first
  | cons w ws => exact ⟨⟨.word, w⟩, _, rfl, .inl rfl⟩

/-- Modifiers before a phrase are laid out one by one, unless the first of them is a `new` that
begins a value. -/
theorem layoutFrom_modifiers (h : Phrase Token.Opens ends follows ts text)
    (hws : ∀ w ∈ ws, w ∈ Token.nonTypeKeywords) {before : Option Token}
    (hnew : ['n', 'e', 'w'] ∈ ws → before.any Token.opensValue = false) :
    ∃ prev last, ends last ∧ ∀ rest : List Token, follows rest.head? →
      layoutFrom before (ws.map (fun w => ⟨.word, w⟩) ++ ts ++ rest) =
        writeModifiers ws ++ text ++ layoutAfter prev last rest := by
  induction ws generalizing before with
  | nil => simpa [writeModifiers] using h.lays before
  | cons w ws ih =>
    have hword : (some (⟨.word, w⟩ : Token)).any Token.opensValue = false := rfl
    obtain ⟨prev, last, hlast, hlay⟩ :=
      ih (fun v hv => hws v (List.mem_cons_of_mem w hv)) fun _ => hword
    refine ⟨prev, last, hlast, fun rest hrest => ?_⟩
    obtain ⟨t, tail, hnext, ht⟩ := first_modifiers h ws
    have hgap : (Gap.mk before ⟨.word, w⟩ t (tail ++ rest).head?).text = [' '] :=
      Gap.text_of_modifier (hws w (List.mem_cons_self ..)) rfl
        (fun hw => hnew (List.mem_cons.2 (.inl hw.symm))) ht
    have htail := hlay rest hrest
    rw [hnext, List.cons_append] at htail
    rw [List.map_cons, List.cons_append, List.cons_append, hnext, List.cons_append, layoutFrom,
      layoutAfter_cons, hgap, htail]
    simp [writeModifiers]

/-- The modifiers of a parameter are part of it. -/
theorem phrase_modifiers (hws : ∀ w ∈ ws, w ∈ parameterModifiers)
    (h : Phrase Token.Opens ends follows ts text) :
    Phrase Token.Opens ends follows (ws.map (fun w => ⟨.word, w⟩) ++ ts)
      (writeModifiers ws ++ text) := by
  have hall : ∀ w ∈ parameterModifiers, w ∈ Token.nonTypeKeywords ∧ w ≠ ['n', 'e', 'w'] := by
    decide
  refine ⟨first_modifiers h ws, fun before => ?_⟩
  exact layoutFrom_modifiers h (fun w hw => (hall w (hws w hw)).1)
    fun hnew => absurd rfl (hall _ (hws _ hnew)).2

end

/-- A parameter is laid out as it is rendered. -/
theorem Parameter.phrase (p : Parameter) : ItemPhrase p.tokens p.render := by
  have hname := p.type.phrase.append p.name.phrase (s := [' ']) (fun _ ht => ht.follows)
    fun g hl hr => Gap.text_of_kind hl hr.kind_ne
  have hmodifiers : ∀ w ∈ p.modifiers.map Subtype.val, w ∈ parameterModifiers := by
    intro w hw
    obtain ⟨m, -, rfl⟩ := List.mem_map.1 hw
    exact m.2
  have hbody := phrase_modifiers hmodifiers hname
  rw [List.map_map] at hbody
  unfold tokens render
  cases p.default with
  | none =>
    have hitem : ItemPhrase _ _ := hbody.mono (fun _ ht => ht) (fun _ ht => ht.1) fun _ _ => trivial
    simpa using hitem
  | some value =>
    have hboth := hbody.append value.phrase (s := [' ']) (fun _ _ => trivial)
      fun g hl hr => Gap.text_of_operator (by decide) hl.1 hr
    have hitem : ItemPhrase _ _ := hboth.mono (fun _ ht => ht) (fun _ ht => ht) fun _ _ => trivial
    simpa using hitem

/-- The name of a signature, with the interface before it, is laid out as it is rendered. -/
theorem Heading.title_phrase (h : Heading) :
    Phrase Token.IsName Token.EndsPath anything h.titleTokens h.title := by
  unfold titleTokens title
  cases h.interface with
  | none => exact h.name.phrase
  | some path => exact path.phrase.member h.name

/-- A signature is a phrase from its result on. -/
theorem Heading.body_phrase (h : Heading) :
    Phrase Token.Opens (· = mark ';') anything
      (h.result.tokens ++ h.titleTokens ++
        Signature.angled (h.typeParameters.map fun n => [n.token]) ++
        bracketed '(' ')' (h.parameters.map Parameter.tokens) ++ [mark ';'])
      (h.result.render ++ ' ' :: h.title ++ writeAngled (h.typeParameters.map Name.text) ++
        writeBracketed '(' ')' (h.parameters.map Parameter.render) ++ [';']) := by
  have hnames : List.Forall₂ ItemPhrase (h.typeParameters.map fun n => [n.token])
      (h.typeParameters.map Name.text) := by
    rw [List.forall₂_map_left_iff, List.forall₂_map_right_iff, List.forall₂_same]
    exact fun n _ => n.phrase.toItem
  have hparameters : List.Forall₂ ItemPhrase (h.parameters.map Parameter.tokens)
      (h.parameters.map Parameter.render) := by
    rw [List.forall₂_map_left_iff, List.forall₂_map_right_iff, List.forall₂_same]
    exact fun p _ => p.phrase
  have htitle := (h.result.phrase.append h.title_phrase (s := [' ']) (fun _ ht => ht.follows)
    fun g hl hr => Gap.text_of_kind hl hr.kind_ne).angled hnames
  have hlist := htitle.append (phrase_bracketed (show ('(', ')') ∈ brackets by decide) hparameters)
    (s := []) (fun _ _ => trivial) fun g hl hr => Gap.text_of_bracket hl (by decide) hr
  simpa using hlist.closed (c := ';') (by decide) trivial

/-- Every text with the tokens of a signature of the grammar is normalized to the conventional text
of that signature. -/
theorem Heading.normalize_eq_render {h : Heading} {text : String}
    (htokens : Signature.tokens text.toList = h.tokens) :
    normalize text = String.ofList h.render := by
  have hmodifiers : ∀ w ∈ h.modifiers.map Subtype.val, w ∈ Token.nonTypeKeywords := by
    intro w hw
    obtain ⟨m, -, rfl⟩ := List.mem_map.1 hw
    exact m.2
  have hbefore : (none : Option Token).any Token.opensValue = false := rfl
  obtain ⟨prev, last, -, hlay⟩ :=
    layoutFrom_modifiers h.body_phrase hmodifiers fun _ => hbefore
  have hall := hlay [] trivial
  rw [List.append_nil, layoutAfter, List.append_nil, List.map_map] at hall
  rw [normalize, htokens, layout_eq]
  congr 1
  simpa [Heading.tokens, Heading.render] using hall

/-- The name that a word is. -/
def Name.ofWord (text : List Char) (h : word? text = some (text, []) ∧
    text ∉ Token.nonTypeKeywords ∧ text ∉ Token.valueStarters) : Name :=
  ⟨text, h.1, h.2.1, h.2.2⟩

/-- A signature with a tuple, an array, a nullable type and default values. -/
def sampleHeading : Heading where
  modifiers := [⟨"public".toList, by decide⟩, ⟨"new".toList, by decide⟩]
  result :=
    .tuple (.mk (.named (.segment none (.ofWord ['T'] (by decide)) []) (.array 1)) none)
      (.mk (.named (.segment none (.ofWord "int".toList (by decide)) []) .nullable)
        (some (.ofWord ['n'] (by decide)))) [] true
  interface := some (.segment none (.ofWord ['I'] (by decide))
    [.named (.segment none (.ofWord ['T'] (by decide)) []) .bare])
  name := .ofWord ['F'] (by decide)
  typeParameters := [.ofWord ['T'] (by decide), .ofWord ['U'] (by decide)]
  parameters :=
    [⟨[⟨"ref".toList, by decide⟩], .named (.segment none (.ofWord ['T'] (by decide)) []) .bare,
        .ofWord ['x'] (by decide), none⟩,
      ⟨[], .named (.segment none (.ofWord ['U'] (by decide)) []) .bare,
        .ofWord ['y'] (by decide), some (.negative ['1'] (by decide))⟩]

/-- A text with the tokens of the sample is normalized to the conventional text. -/
theorem normalize_sample :
    Signature.tokens "public new(T[ , ],int ? n)?I<T>.F<T,U>(ref T x,U y=-1);".toList =
        sampleHeading.tokens ∧
      normalize "public new(T[ , ],int ? n)?I<T>.F<T,U>(ref T x,U y=-1);" =
        "public new (T[,], int? n)? I<T>.F<T, U>(ref T x, U y = -1);" := by
  have htokens : Signature.tokens "public new(T[ , ],int ? n)?I<T>.F<T,U>(ref T x,U y=-1);".toList =
      sampleHeading.tokens := by decide +kernel
  refine ⟨htokens, ?_⟩
  rw [Heading.normalize_eq_render htokens]
  decide +kernel

end TypeCatalog.Signature
