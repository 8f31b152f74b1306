import TypeCatalog.Proofs.Signature.Canonical

/-!
# Suffixes of a type

A type is made nullable, an array or a pointer by a suffix, and suffixes may be put behind each
other. Behind the name of the type, and behind the rank of an array, every suffix is written without
a space. Behind a question mark only a rank is, and behind a star none is: so a pointer to a pointer
and an array of pointers come out with spaces in them.

## Main definitions

- `Signature.TypeSuffix` — the suffixes of a type
- `Signature.TypeSuffix.hugs` — whether a suffix is written right behind another one
- `Signature.writeSuffixes` — a row of suffixes as it is laid out

## Main statements

- `Signature.writeSuffixes_eq_iff` — the rows that are laid out without spaces
- `Signature.normalize_suffixed` — how a type with any row of suffixes is normalized
-/

namespace TypeCatalog.Signature

inductive TypeSuffix where
  | nullable
  /-- The rank of an array: commas between brackets. -/
  | rank (commas : Nat)
  | pointer
  deriving DecidableEq, Repr

namespace TypeSuffix

def tokens : TypeSuffix → List Token
  | nullable => [mark '?']
  | rank commas => (Suffix.array commas).tokens
  | pointer => [mark '*']

def text : TypeSuffix → List Char
  | nullable => ['?']
  | rank commas => (Suffix.array commas).render
  | pointer => ['*']

/-- The token that a suffix begins with. -/
def opener : TypeSuffix → Token
  | nullable => mark '?'
  | rank _ => mark '['
  | pointer => mark '*'

/-- The token that a suffix ends with. -/
def closer : TypeSuffix → Token
  | nullable => mark '?'
  | rank _ => mark ']'
  | pointer => mark '*'

/-- Whether a suffix is written right behind another one, or behind the name of a type. -/
def hugs : Option TypeSuffix → TypeSuffix → Bool
  | none, _ => true
  | some (rank _), _ => true
  | some nullable, rank _ => true
  | _, _ => false

/-- The token may stand on the left of a suffix: it ends the suffix before, or names a type. -/
def Closes (before : Option TypeSuffix) (t : Token) : Prop :=
  match before with
  | none => t.canEndType = true ∧ t.Ends
  | some s => t = s.closer

/-- What a suffix may come behind needs no operand. -/
theorem Closes.ends {before : Option TypeSuffix} {t : Token} (h : Closes before t) : t.Ends := by
  cases before with
  | none => exact h.2
  | some s =>
    obtain rfl : t = s.closer := h
    cases s with
    | nullable => decide
    | rank => exact (by decide : (mark ']').Ends)
    | pointer => decide

theorem tokens_eq_cons (s : TypeSuffix) : ∃ rest, s.tokens = s.opener :: rest := by
  cases s with
  | nullable => exact ⟨[], rfl⟩
  | rank => exact ⟨_, rfl⟩
  | pointer => exact ⟨[], rfl⟩

/-- A suffix does not begin with a space. -/
theorem text_eq_cons (s : TypeSuffix) : ∃ c rest, s.text = c :: rest ∧ c ≠ ' ' := by
  cases s with
  | nullable => exact ⟨'?', [], rfl, by decide⟩
  | rank => exact ⟨'[', _, rfl, by decide⟩
  | pointer => exact ⟨'*', [], rfl, by decide⟩

theorem follows_opener (s : TypeSuffix) : Token.Follows (some s.opener) := by
  cases s <;> rfl

/-- A suffix is laid out alike wherever it stands. -/
theorem phrase (s : TypeSuffix) :
    Phrase (· = s.opener) (· = s.closer) anything s.tokens s.text := by
  cases s with
  | nullable => exact Phrase.token (mark '?')
  | rank commas => exact phrase_rank commas
  | pointer => exact Phrase.token (mark '*')

end TypeSuffix

/-- A space is written before a suffix unless it hugs what is before it. That a question mark is no
operator is told by what comes next. -/
theorem Gap.text_of_suffix {g : Gap} {before : Option TypeSuffix} {s : TypeSuffix}
    (hleft : TypeSuffix.Closes before g.left) (hright : g.right = s.opener)
    (hafter : s = .nullable → Token.Follows g.after) :
    g.text = if TypeSuffix.hugs before s then [] else [' '] := by
  have htype (ends : List (List Char)) :
      g.hasTypeLeft ends = before.all fun b => decide (b.closer.text ∈ ends) := by
    cases before with
    | none => simp [hasTypeLeft, hleft.1]
    | some b =>
      rw [hasTypeLeft, show g.left = b.closer from hleft]
      cases b <;> rfl
  -- for each suffix and each one before it
  have hspace : g.isSpacedMark = !TypeSuffix.hugs before s := by
    cases s with
    | nullable =>
      have hnext : Token.marksNullable g.after = true := hafter rfl
      rcases before with _ | _ | _ | _ <;>
        simp [isSpacedMark, hright, TypeSuffix.opener, mark, htype, hnext, TypeSuffix.closer,
          TypeSuffix.hugs]
    | rank =>
      rcases before with _ | _ | _ | _ <;>
        simp [isSpacedMark, hright, TypeSuffix.opener, mark, htype, TypeSuffix.closer,
          TypeSuffix.hugs]
    | pointer =>
      rcases before with _ | _ | _ | _ <;>
        simp [isSpacedMark, hright, TypeSuffix.opener, mark, htype, TypeSuffix.closer,
          TypeSuffix.hugs]
  have hkind : g.right.kind = .punct := by
    rw [hright]
    cases s <;> rfl
  rw [text, isSpaced_of_ends hleft.ends, hspace, hkind]
  cases TypeSuffix.hugs before s <;> rfl

/-! ### Rows of suffixes -/

/-- Suffixes behind the last one before them, or behind the name of a type. -/
def writeSuffixes (before : Option TypeSuffix) : List TypeSuffix → List Char
  | [] => []
  | s :: rest =>
    (if TypeSuffix.hugs before s then [] else [' ']) ++ s.text ++ writeSuffixes (some s) rest

/-- A row of suffixes is written without a space if and only if each hugs the one before it. -/
theorem writeSuffixes_eq_iff (before : Option TypeSuffix) (suffixes : List TypeSuffix) :
    writeSuffixes before suffixes = suffixes.flatMap TypeSuffix.text ↔
      (∀ s ∈ suffixes.head?, TypeSuffix.hugs before s = true) ∧
        suffixes.IsChain fun a b => TypeSuffix.hugs (some a) b = true := by
  induction suffixes generalizing before with
  | nil => simp [writeSuffixes]
  | cons s rest ih =>
    rw [writeSuffixes, List.flatMap_cons]
    by_cases hs : TypeSuffix.hugs before s = true
    · have hrest := ih (some s)
      cases rest <;> simpa [hs, List.isChain_cons_cons] using hrest
    · -- the space is no part of the suffix
      obtain ⟨c, tail, htext, hc⟩ := s.text_eq_cons
      simp [hs, htext, Ne.symm hc]

/-- What may be written behind a type: the name of a parameter, or nothing. -/
def writeLabel (label : Option (List Char)) : List Char := label.elim [] (' ' :: ·)

/-- The tokens of a row of suffixes and of what comes behind the type. -/
def suffixTokens (suffixes : List TypeSuffix) (label : Option (List Char)) : List Token :=
  suffixes.flatMap TypeSuffix.tokens ++ label.toList.map (Token.mk .word)

theorem suffixTokens_cons (s : TypeSuffix) (rest : List TypeSuffix) (label : Option (List Char)) :
    suffixTokens (s :: rest) label = s.tokens ++ suffixTokens rest label := by
  simp [suffixTokens]

/-- A row of suffixes with what comes behind the type may come behind a nullable type, unless the
latter begins a value. -/
theorem follows_suffixTokens {label : Option (List Char)}
    (hlabel : ∀ text ∈ label, text ∉ Token.valueStarters) (suffixes : List TypeSuffix) :
    Token.Follows (suffixTokens suffixes label).head? := by
  cases suffixes with
  | nil =>
    cases label with
    | none => rfl
    | some text => exact decide_eq_true (hlabel text rfl)
  | cons s rest =>
    obtain ⟨tail, htail⟩ := s.tokens_eq_cons
    rw [suffixTokens_cons, htail]
    exact s.follows_opener

/-- A row of suffixes is laid out as it is written. -/
theorem layoutAfter_suffixes {before : Option TypeSuffix} {left : Token}
    (hleft : TypeSuffix.Closes before left) {label : Option (List Char)}
    (hlabel : ∀ text ∈ label, text ∉ Token.valueStarters) (suffixes : List TypeSuffix)
    (prev : Option Token) :
    layoutAfter prev left (suffixTokens suffixes label) =
      writeSuffixes before suffixes ++ writeLabel label := by
  -- along the row; each suffix leaves its last token on the left of the next one
  induction suffixes generalizing before left prev with
  | nil =>
    cases label with
    | none => rfl
    | some text =>
      have hgap : (Gap.mk prev left ⟨.word, text⟩ none).text = [' '] :=
        Gap.text_of_kind hleft.ends nofun
      simp [suffixTokens, layoutAfter, hgap, writeSuffixes, writeLabel]
  | cons s rest ih =>
    obtain ⟨tail, htail⟩ := s.tokens_eq_cons
    have hafter : s = .nullable → Token.Follows (tail ++ suffixTokens rest label).head? := by
      rintro rfl
      cases htail
      exact follows_suffixTokens hlabel rest
    have hgap : (Gap.mk prev left s.opener (tail ++ suffixTokens rest label).head?).text =
        if TypeSuffix.hugs before s then [] else [' '] := Gap.text_of_suffix hleft rfl hafter
    obtain ⟨prev', last, hlast, hlay⟩ := s.phrase.lays (some left)
    have hclosed : TypeSuffix.Closes (some s) last := hlast
    have hrest : layoutFrom (some left) (s.opener :: (tail ++ suffixTokens rest label)) =
        s.text ++ (writeSuffixes (some s) rest ++ writeLabel label) := by
      rw [← ih hclosed prev', ← hlay _ trivial, htail]
      rfl
    rw [suffixTokens_cons, htail, List.cons_append, layoutAfter_cons, hgap, hrest, writeSuffixes,
      List.append_assoc, List.append_assoc]

/-- The name of a type is normalized with its suffixes behind it, and a space stands before those,
and only those, that do not hug what is before them. So a row of suffixes is written without spaces
if and only if each hugs the one before it. -/
theorem normalize_suffixed {name : List Char} (hname : name ∉ Token.nonTypeKeywords)
    {suffixes : List TypeSuffix} {label : Option (List Char)}
    (hlabel : ∀ text ∈ label, text ∉ Token.valueStarters) {text : String}
    (htokens : tokens text.toList = ⟨.word, name⟩ :: suffixTokens suffixes label) :
    normalize text = String.ofList (name ++ writeSuffixes none suffixes ++ writeLabel label) ∧
      (normalize text =
          String.ofList (name ++ suffixes.flatMap TypeSuffix.text ++ writeLabel label) ↔
        suffixes.IsChain fun a b => TypeSuffix.hugs (some a) b = true) := by
  have hshape : Token.Shape ⟨.word, name⟩ := shape_of_mem_tokens (s := text.toList) (by
    rw [htokens]
    exact List.mem_cons_self ..)
  have hleft : TypeSuffix.Closes none ⟨.word, name⟩ :=
    ⟨by simp [Token.canEndType, hname], hshape.not_mem_leaders nofun⟩
  have hnormal : normalize text =
      String.ofList (name ++ writeSuffixes none suffixes ++ writeLabel label) := by
    rw [normalize, htokens, layout, layoutAfter_suffixes hleft hlabel, List.append_assoc]
  refine ⟨hnormal, ?_⟩
  have hchain := writeSuffixes_eq_iff none suffixes
  rw [hnormal, String.ofList_inj, List.append_left_inj, List.append_right_inj, hchain]
  simp [TypeSuffix.hugs]

/-- Ranks and question marks hug in any order, and a star hugs the name of its type. -/
theorem normalize_suffixed_ranks :
    tokens "int ? [ , ] [ ] ? values".toList = ⟨.word, "int".toList⟩ ::
        suffixTokens [.nullable, .rank 1, .rank 0, .nullable] "values".toList ∧
      normalize "int ? [ , ] [ ] ? values" = "int?[,][]? values" := by
  have htokens : tokens "int ? [ , ] [ ] ? values".toList = ⟨.word, "int".toList⟩ ::
      suffixTokens [.nullable, .rank 1, .rank 0, .nullable] "values".toList := by decide +kernel
  refine ⟨htokens, ?_⟩
  rw [(normalize_suffixed (by decide) (by decide) htokens).1]
  decide +kernel

/-- A pointer to a pointer comes out with a space before its second star. -/
theorem normalize_pointer_ne :
    tokens "int** p".toList =
        ⟨.word, "int".toList⟩ :: suffixTokens [.pointer, .pointer] (some ['p']) ∧
      normalize "int** p" ≠ "int** p" := by
  decide +kernel

end TypeCatalog.Signature
