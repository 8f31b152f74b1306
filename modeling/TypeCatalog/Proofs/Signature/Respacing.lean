import TypeCatalog.Proofs.Signature.TokenEnd

/-!
# Texts with the same tokens

A signature may be written in many ways: what stands between its tokens can be any mix of blanks
and comments, and nothing at all where two tokens touch already. `Signature.Respaced` is the
relation between two such texts. Wherever every quote is closed and no block comment is left open,
both have the same tokens, and so the same normalized form.

## Main definitions

- `Signature.Filler` — a mix of blanks and complete comments
- `Signature.IsGap` — a filler that begins and ends with a blank, or nothing
- `Signature.places` — tokens with whether they touch the token before them
- `Signature.Spaced` — a text made of tokens in gaps
- `Signature.Respaced` — a text made of the tokens of another one

## Main statements

- `Signature.Respaced.normalize_eq` — a text that is respaced has the same normalized form
-/

namespace TypeCatalog.Signature

open Text

/-! ### Gaps -/

/-- A mix of blanks and complete comments: block comments up to their closing mark, and line
comments with the end of their line. -/
inductive Filler : List Char → Prop where
  | nil : Filler []
  | blank {c : Char} {s : List Char} (hc : isBlank c = true) (hs : Filler s) : Filler (c :: s)
  | line {body s : List Char} (hbody : '\n' ∉ body) (hs : Filler s) :
      Filler ('/' :: '/' :: (body ++ '\n' :: s))
  | block {body s : List Char} (hbody : ¬['*', '/'] <:+: body) (hs : Filler s) :
      Filler ('/' :: '*' :: (body ++ '*' :: '/' :: s))

/-- What may stand between two tokens: nothing, or a filler with a blank at both ends. -/
structure IsGap (g : List Char) : Prop where
  filler : Filler g
  first : ∀ c, g.head? = some c → isBlank c = true
  last : ∀ c, g.getLast? = some c → isBlank c = true

theorem IsGap.nil : IsGap [] := ⟨.nil, by simp, by simp⟩

theorem IsGap.blank {c : Char} (hc : isBlank c = true) : IsGap [c] := by
  refine ⟨.blank hc .nil, ?_, ?_⟩ <;> rintro d ⟨⟩ <;> exact hc

/-- A block comment is closed by the first closing mark. -/
theorem blockTail?_append {body : List Char} (hbody : ¬['*', '/'] <:+: body) (x : List Char) :
    blockTail? (body ++ '*' :: '/' :: x) = some (body ++ ['*', '/'], x) := by
  induction body with
  | nil => rfl
  | cons c body ih =>
    have htail : ¬['*', '/'] <:+: body := fun h => hbody (h.trans (List.suffix_cons c body).isInfix)
    have hmark : ∀ r, c = '*' → body ++ '*' :: '/' :: x = '/' :: r → False := by
      rintro r rfl hr
      cases body with
      | nil => cases hr
      | cons d body =>
        cases hr
        exact hbody ⟨[], body, rfl⟩
    rw [List.cons_append, blockTail?, ih htail]
    · rfl
    · exact hmark

/-- A comment leaves no token. -/
theorem tokens_comment {c : Char} {r : List Char} {p : Split} (h : comment? (c :: r) = some p) :
    tokens (c :: r) = tokens p.2 := by
  rw [tokens_cons, first]
  simp [h, Lexeme.token?]

/-- A filler holds no tokens, whatever comes after it. -/
theorem Filler.tokens_append {g : List Char} (hg : Filler g) (s : List Char) :
    tokens (g ++ s) = tokens s := by
  induction hg with
  | nil => rfl
  | blank hc _ ih => rw [List.cons_append, tokens_blank hc, ih]
  | @line body g hbody _ ih =>
    have hin : ∀ c ∈ body, (c != '\n') = true := by
      rintro c hc
      simpa using fun h : c = '\n' => hbody (h ▸ hc)
    have hread : comment? ('/' :: '/' :: (body ++ '\n' :: (g ++ s))) =
        some ('/' :: '/' :: body, '\n' :: (g ++ s)) := by
      simp [comment?, List.takeWhile_append_of_pos hin, List.dropWhile_append_of_pos hin]
    simp only [List.cons_append, List.append_assoc]
    rw [tokens_comment hread, tokens_blank (by decide), ih]
  | @block body g hbody _ ih =>
    have hread : comment? ('/' :: '*' :: (body ++ '*' :: '/' :: (g ++ s))) =
        some ('/' :: '*' :: (body ++ ['*', '/']), g ++ s) := by
      simp [comment?, blockTail?_append hbody, Split.push]
    simp only [List.cons_append, List.append_assoc]
    rw [tokens_comment hread, ih]

/-! ### Texts made of given tokens -/

/-- The tokens among some lexemes, each with whether it touches the token before it. The first
counts as touching if `touching` is set and no blank or comment comes before it. -/
def places (touching : Bool) : List Lexeme → List (Bool × Token)
  | [] => []
  | .token t :: rest => (touching, t) :: places true rest
  | _ :: rest => places false rest

/-- The text consists of the tokens in their order, with gaps before, between and after them. A
gap before a token is empty only where the token may touch the one before it. -/
inductive Spaced : List (Bool × Token) → List Char → Prop where
  | done {g : List Char} (hg : IsGap g) : Spaced [] g
  | token {touching : Bool} {t : Token} {items : List (Bool × Token)} {g s : List Char}
      (hg : IsGap g) (htouch : g = [] → touching = true) (hs : Spaced items s) :
      Spaced ((touching, t) :: items) (g ++ (t.text ++ s))

/-- The second text is made of the tokens of the first one. It leaves no gap only before the first
token, behind the last, and between tokens that touch in the first text. -/
def Respaced (s s' : List Char) : Prop :=
  Spaced (places true ((lexemes s).dropWhile fun l => l.token?.isNone)) s'

/-! ### Reading a respaced text -/

/-- A gap that is not empty begins with a blank, whatever stands behind it. -/
private theorem IsGap.head_append {g s : List Char} (hg : IsGap g) (hne : g ≠ []) (c : Char)
    (hc : (g ++ s).head? = some c) : isBlank c = true := by
  obtain ⟨d, g, rfl⟩ := List.exists_cons_of_ne_nil hne
  exact hg.first c hc

/-- Where no token may touch, a text is empty or begins with a blank. -/
private theorem Spaced.head_apart {ls : List Lexeme} {s : List Char}
    (h : Spaced (places false ls) s) : ∀ c, s.head? = some c → isBlank c = true := by
  induction ls with
  | nil => cases h with
    | done hg => exact hg.first
  | cons l ls ih =>
    cases l with
    | blank c => exact ih h
    | comment text => exact ih h
    | token t =>
      cases h with
      | token hg htouch hs => exact hg.head_append fun hnil => nomatch htouch hnil

/-- A text made of the tokens of another one is empty, begins with a blank, or begins with the
token that the other begins with. -/
private theorem Spaced.cases_touching {r s : List Char} (h : Spaced (places true (lexemes r)) s) :
    (∀ c, s.head? = some c → isBlank c = true) ∨
      ∃ (u : Token) (r' s' : List Char), r = u.text ++ r' ∧ s = u.text ++ s' ∧ u.text ≠ [] ∧
        Spaced (places true (lexemes r')) s' := by
  cases r with
  | nil =>
    rw [lexemes_nil] at h
    cases h with
    | done hg => exact .inl hg.first
  | cons c r =>
    rw [lexemes_cons] at h
    cases hl : first c r with
    | mk l r' =>
      rw [hl] at h
      -- a token behind a blank or a comment no longer touches what is before it
      cases l with
      | blank d => exact .inl h.head_apart
      | comment text => exact .inl h.head_apart
      | token u =>
        cases h with
        | @token _ _ _ g s' hg htouch hs =>
          by_cases hnil : g = []
          · subst hnil
            have hspec := first_spec c r
            rw [hl] at hspec
            exact .inr ⟨u, r', s', hspec.2.symm, rfl, hspec.1, hs⟩
          · exact .inl (hg.head_append hnil)

/-- A token that ends where a text begins also ends where the text is respaced. Two characters
behind it matter, and they are the same unless a gap was put before one of them. -/
private theorem Token.Stops.of_spaced {t : Token} {r s : List Char} (ht : t.Stops r)
    (h : Spaced (places true (lexemes r)) s) : t.Stops s := by
  rcases h.cases_touching with hblank | ⟨u, r', s', rfl, rfl, hu, hs⟩
  · exact t.stops_of_isBlank hblank
  · obtain ⟨c, body, hbody⟩ := List.exists_cons_of_ne_nil hu
    rw [hbody, List.cons_append] at ht ⊢
    refine ⟨?_, ?_⟩
    · rintro d x ⟨⟩
      exact ht.head c _ rfl
    · intro d e x hx
      obtain ⟨rfl, htail⟩ := List.cons.inj hx
      cases body with
      | cons b body =>
        cases htail
        exact ht.pair c e _ rfl
      | nil =>
        -- the token is a single character, and what comes after it may have moved away
        rcases hs.cases_touching with hblank | ⟨v, r, s, rfl, rfl, hv, -⟩
        · rw [List.nil_append] at htail
          exact t.takesPair_of_isBlank c (hblank e (by rw [htail]; rfl))
        · obtain ⟨b, front, hfront⟩ := List.exists_cons_of_ne_nil hv
          rw [hfront] at ht htail
          cases htail
          exact ht.pair c e _ rfl

private theorem tokens_star (r : List Char) : tokens ('*' :: r) = ⟨.punct, ['*']⟩ :: tokens r :=
  tokens_sign (by decide) (by decide)
    (literal?_eq_none (by decide) (by decide) (by decide) (by decide) (by decide))
    (word?_eq_none (by decide) (isWordStart_sign (by decide))) (by simp [pairOperators])

/-- The first token of a text is read back before gaps, if the rest of the text is. -/
private theorem tokens_token {c : Char} {r rest s : List Char} {t : Token}
    (hread : first c r = (.token t, rest)) (hclosed : QuotesClosed (c :: r))
    (hslash : ¬[⟨.punct, ['/']⟩, ⟨.punct, ['*']⟩] <:+: tokens (c :: r))
    (hs : Spaced (places true (lexemes rest)) s) : tokens (t.text ++ s) = t :: tokens s := by
  have htokens := tokens_of_first hread
  have hrest : QuotesClosed rest := fun u hu => hclosed u (by simp [htokens, hu])
  have hstar : t = ⟨.punct, ['/']⟩ → ∀ x, rest ≠ '*' :: x := by
    rintro rfl x rfl
    refine hslash ⟨[], tokens x, ?_⟩
    rw [htokens, tokens_star]
    rfl
  have hform := read_of_first hread
  have hstops : t.Stops s := (hform.stops hrest hstar).of_spaced hs
  exact Token.Closed.tokens_append ⟨hform.shape, hclosed t (by simp [htokens])⟩ hstops

/-- A text made of the tokens of another one, the first of which may touch what is before it or
not, has the same tokens. -/
private theorem tokens_spaced {s s' : List Char} {touching : Bool} (hclosed : QuotesClosed s)
    (hslash : ¬[⟨.punct, ['/']⟩, ⟨.punct, ['*']⟩] <:+: tokens s)
    (h : Spaced (places touching (lexemes s)) s') : tokens s' = tokens s := by
  -- along the lexemes of the first text; only its tokens are found again in the second one
  fun_induction lexemes s generalizing s' touching with
  | case1 =>
    cases h with
    | done hg => simpa using hg.filler.tokens_append []
  | case2 c r ih =>
    cases hl : first c r with
    | mk l rest =>
      rw [hl] at h ih
      cases l with
      | blank d =>
        have htokens : tokens (c :: r) = tokens rest := by rw [tokens_cons, hl]; rfl
        rw [htokens] at hslash ⊢
        exact ih (fun t ht => hclosed t (by rwa [htokens])) hslash h
      | comment text =>
        have htokens : tokens (c :: r) = tokens rest := by rw [tokens_cons, hl]; rfl
        rw [htokens] at hslash ⊢
        exact ih (fun t ht => hclosed t (by rwa [htokens])) hslash h
      | token t =>
        have htokens := tokens_of_first hl
        cases h with
        | @token _ _ _ g s'' hg htouch hs =>
          have hrest := ih (fun u hu => hclosed u (by simp [htokens, hu]))
            (fun hin => hslash (by rw [htokens]; exact hin.trans (List.suffix_cons _ _).isInfix)) hs
          rw [hg.filler.tokens_append, tokens_token hl hclosed hslash hs, htokens, hrest]

/-- A text keeps its tokens when its gaps are changed. -/
private theorem tokens_respaced {s s' : List Char} (hclosed : QuotesClosed s)
    (hslash : ¬[⟨.punct, ['/']⟩, ⟨.punct, ['*']⟩] <:+: tokens s) (h : Respaced s s') :
    tokens s' = tokens s := by
  unfold Respaced at h
  fun_induction lexemes s with
  | case1 =>
    cases h with
    | done hg => simpa using hg.filler.tokens_append []
  | case2 c r ih =>
    cases hl : (first c r).1.token? with
    | none =>
      have htokens : tokens (c :: r) = tokens (first c r).2 := by simp [tokens_cons, hl]
      rw [htokens] at hslash ⊢
      refine ih (fun t ht => hclosed t (by rwa [htokens])) hslash ?_
      simpa [hl] using h
    | some t =>
      rw [List.dropWhile_cons_of_neg (by simp [hl]), ← lexemes_cons] at h
      exact tokens_spaced hclosed hslash h

/-- Where every quote is closed and no slash comes before a star, a text that is respaced keeps
its tokens and its normalized form. -/
theorem Respaced.normalize_eq {text text' : String} (hclosed : QuotesClosed text.toList)
    (hslash : ¬[⟨.punct, ['/']⟩, ⟨.punct, ['*']⟩] <:+: tokens text.toList)
    (h : Respaced text.toList text'.toList) :
    tokens text'.toList = tokens text.toList ∧ normalize text' = normalize text := by
  have htokens := tokens_respaced hclosed hslash h
  exact ⟨htokens, by rw [normalize, htokens, normalize]⟩

/-- Arguments may move to a line of their own, behind a comment that holds a quote. -/
theorem normalize_eq_over_lines :
    Respaced "F(/* a */1,b)".toList "F( // \"\n1 , b)".toList ∧
      tokens "F( // \"\n1 , b)".toList = tokens "F(/* a */1,b)".toList ∧
      normalize "F( // \"\n1 , b)" = normalize "F(/* a */1,b)" := by
  have hline : Filler ('/' :: '/' :: ([' ', '"'] ++ '\n' :: [])) := .line (by decide) .nil
  have hcomment : IsGap " // \"\n".toList := by
    refine ⟨.blank (by decide) hline, ?_, ?_⟩ <;> rintro c ⟨⟩ <;> decide
  have hplaces : places true
      ((lexemes "F(/* a */1,b)".toList).dropWhile fun l => l.token?.isNone) =
        [(true, ⟨.word, ['F']⟩), (true, ⟨.punct, ['(']⟩), (false, ⟨.literal, ['1']⟩),
          (true, ⟨.punct, [',']⟩), (true, ⟨.word, ['b']⟩), (true, ⟨.punct, [')']⟩)] := by
    decide +kernel
  have h : Respaced "F(/* a */1,b)".toList "F( // \"\n1 , b)".toList := by
    rw [Respaced, hplaces]
    exact .token .nil (fun _ => rfl) (.token .nil (fun _ => rfl) (.token hcomment nofun
      (.token (.blank rfl) (fun _ => rfl) (.token (.blank rfl) (fun _ => rfl)
        (.token .nil (fun _ => rfl) (.done .nil))))))
  exact ⟨h, Respaced.normalize_eq (by decide +kernel) (by decide +kernel) h⟩

end TypeCatalog.Signature
