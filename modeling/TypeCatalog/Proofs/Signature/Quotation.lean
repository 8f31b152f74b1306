import TypeCatalog.Proofs.Signature.Closed
import TypeCatalog.Proofs.Signature.Spacing

/-!
# Strings and characters as default values

A string or a character is written between quotes, in one of several ways that differ in what may
stand between them. A reader finds it as one token if it takes the text between the quotes by the
rule that the marks in front of it call for; then it is kept as it is. There are two ways that no
rule fits: a string behind `@$` is read by the rule of strings on one line, and one between three or
more quotes is read as an empty string and more.

## Main definitions

- `Signature.Quotation` — the ways of writing a string or a character
- `Signature.Quotation.Fits` — which texts a reader takes between the quotes
- `Signature.DefaultPlace` — what stands around a default value

## Main statements

- `Signature.Quotation.shape_iff` — which strings and characters are tokens
- `Signature.Closed.tokens_append_quotation` — a quotation behind an equals sign is read by itself
- `Signature.normalize_quotation` — which default values are kept as they are
-/

namespace TypeCatalog.Signature

open Text

/-! ### Ways of writing a string or a character -/

/-- The ways of writing a string or a character. -/
inductive Quotation where
  /-- A character, as in `'a'`. -/
  | character
  | regular
  /-- A string behind `$`. -/
  | interpolated
  /-- A string behind `@`. -/
  | verbatim
  /-- A string behind `$@`. -/
  | interpolatedVerbatim
  /-- A string behind `@$`, which the language takes for the same as one behind `$@`. -/
  | verbatimInterpolated
  /-- A string between three quotes and so many more. -/
  | raw (more : Nat)
  deriving DecidableEq, Repr

namespace Quotation

/-- What comes before the text. -/
def opening : Quotation → List Char
  | character => ['\'']
  | regular => ['"']
  | interpolated => ['$', '"']
  | verbatim => ['@', '"']
  | interpolatedVerbatim => ['$', '@', '"']
  | verbatimInterpolated => ['@', '$', '"']
  | raw more => List.replicate (3 + more) '"'

/-- What comes behind the text. -/
def closing : Quotation → List Char
  | character => ['\'']
  | raw more => List.replicate (3 + more) '"'
  | _ => ['"']

/-- The text between its quotes. -/
def write (q : Quotation) (body : List Char) : List Char := q.opening ++ body ++ q.closing

/-- Whether a reader takes the text between the quotes. But for the last two ways, this is what the
language allows there. -/
def Fits : Quotation → List Char → Prop
  | character => Escaped '\''
  | regular => Escaped '"'
  | interpolated => Escaped '"'
  | verbatim => Doubled
  | interpolatedVerbatim => Doubled
  | verbatimInterpolated => Escaped '"'
  | raw _ => fun _ => False

end Quotation

/-! ### Quotations that are tokens -/

/-- A text is a literal if it is read as one to its end. -/
theorem shape_literal_iff {s : List Char} :
    Token.Shape ⟨.literal, s⟩ ↔ literal? s = some (s, []) := by
  constructor
  · intro h
    cases h with
    | verbatim hfront hbody => exact literal?_verbatim hfront hbody
    | quoted hfront hbody => exact literal?_quoted hfront hbody
    | @number c body hc hbody =>
      rw [literal?_number body hc, hbody]
      rfl
  · intro h
    exact (read_of_literal? h).shape

/-- A front that was put before the parts of a text can be taken off again. -/
theorem map_push_eq_some_iff {front p r : List Char} {o : Option Split} :
    o.map (Split.push front) = some (front ++ p, r) ↔ o = some (p, r) := by
  cases o with
  | none => simp
  | some q =>
    obtain ⟨a, b⟩ := q
    simp [Split.push]

/-- Behind a front with a quote, a literal ends at the closing quote. -/
theorem literal?_quoted_eq {front : List Char} {quote : Char}
    (hfront : (front, quote) ∈ quotedFronts) (s : List Char) :
    literal? (front ++ s) = (quotedTail? quote s).map (Split.push front) := by
  cases hread : quotedTail? quote s with
  | some p => exact literal?_quoted hfront hread
  | none =>
    simp only [quotedFronts, List.mem_cons, List.not_mem_nil, or_false, Prod.mk.injEq] at hfront
    rcases hfront with ⟨rfl, rfl⟩ | ⟨rfl, rfl⟩ | ⟨rfl, rfl⟩ | ⟨rfl, rfl⟩ <;>
      simp [literal?, verbatim?, regular?, character?, number?, hread]

/-- Behind a front that marks it as verbatim, a literal ends at the first quote that is not doubled.
-/
theorem literal?_verbatim_eq {front : List Char} (hfront : front ∈ verbatimFronts)
    (s : List Char) : literal? (front ++ s) = (verbatimTail? s).map (Split.push front) := by
  cases hread : verbatimTail? s with
  | some p => exact literal?_verbatim hfront hread
  | none =>
    -- without a quote behind the mark, no rule finds the end of the string
    have hquoted : quotedTail? '"' s = none := by
      cases hq : quotedTail? '"' s with
      | none => rfl
      | some p => exact absurd (mem_of_quotedTail? hq) (verbatimTail?_eq_none_iff.1 hread)
    simp only [verbatimFronts, List.mem_cons, List.not_mem_nil, or_false] at hfront
    rcases hfront with rfl | rfl <;>
      simp [literal?, verbatim?, regular?, character?, number?, hread, hquoted]

namespace Quotation

/-- What is quoted begins with a quote or a mark that may stand before one. -/
theorem head_write (q : Quotation) (body : List Char) :
    ∃ c ∈ quoteMarks, (q.write body).head? = some c := by
  cases q with
  | raw more =>
    exact ⟨'"', by decide, by simp [write, opening, Nat.add_comm 3, List.replicate_succ]⟩
  | _ => exact ⟨_, by decide, rfl⟩

/-- A quoted text on one line is a token exactly if it is escaped. -/
theorem shape_write_of_quoted {q : Quotation} {quote : Char}
    (hopening : (q.opening, quote) ∈ quotedFronts) (hclosing : q.closing = [quote])
    (body : List Char) : Token.Shape ⟨.literal, q.write body⟩ ↔ Escaped quote body := by
  have hquote : quote ≠ '\\' := by
    have hall : ∀ p ∈ quotedFronts, p.2 ≠ '\\' := by decide
    exact hall _ hopening
  rw [shape_literal_iff, write, hclosing, List.append_assoc, literal?_quoted_eq hopening,
    map_push_eq_some_iff, quotedTail?_eq_iff hquote]

/-- A verbatim text is a token exactly if the quotes in it are doubled. -/
theorem shape_write_of_verbatim {q : Quotation} (hopening : q.opening ∈ verbatimFronts)
    (hclosing : q.closing = ['"']) (body : List Char) :
    Token.Shape ⟨.literal, q.write body⟩ ↔ Doubled body := by
  rw [shape_literal_iff, write, hclosing, List.append_assoc, literal?_verbatim_eq hopening,
    map_push_eq_some_iff, verbatimTail?_eq_iff]

/-- A raw string is no token. -/
theorem not_shape_write_raw (more : Nat) (body : List Char) :
    ¬Token.Shape ⟨.literal, (raw more).write body⟩ := by
  -- the second quote closes the string that the first one opens
  have htext : (raw more).write body = ['"'] ++ '"' :: ('"' :: (List.replicate more '"' ++ body ++
      (raw more).closing)) := by
    simp [write, opening, Nat.add_comm 3, List.replicate_succ]
  have hfront : (['"'], '"') ∈ quotedFronts := by decide
  rw [shape_literal_iff, htext, literal?_quoted_eq hfront, map_push_eq_some_iff]
  simp [quotedTail?]

/-- A quotation is a token if and only if the text between its quotes fits. -/
theorem shape_iff (q : Quotation) (body : List Char) :
    Token.Shape ⟨.literal, q.write body⟩ ↔ q.Fits body := by
  cases q with
  | character => exact shape_write_of_quoted (by decide) rfl body
  | regular => exact shape_write_of_quoted (by decide) rfl body
  | interpolated => exact shape_write_of_quoted (by decide) rfl body
  | verbatim => exact shape_write_of_verbatim (by decide) rfl body
  | interpolatedVerbatim => exact shape_write_of_verbatim (by decide) rfl body
  | verbatimInterpolated => exact shape_write_of_quoted (by decide) rfl body
  | raw more => exact iff_of_false (not_shape_write_raw more body) not_false

end Quotation

/-! ### Default values -/

/-- What stands around a default value: a closed text that ends with an equals sign, blanks and
comments apart, and a text that begins with a comma or a parenthesis, blanks and comments apart. -/
structure DefaultPlace (before after : List Char) : Prop where
  closed : Closed before
  equals : (tokens before).getLast? = some (mark '=')
  next : (tokens after).head? = some (mark ',') ∨ (tokens after).head? = some (mark ')')

instance (before after : List Char) : Decidable (DefaultPlace before after) :=
  decidable_of_iff
    (Closed before ∧ (tokens before).getLast? = some (mark '=') ∧
      ((tokens after).head? = some (mark ',') ∨ (tokens after).head? = some (mark ')')))
    ⟨fun ⟨hclosed, hequals, hnext⟩ => ⟨hclosed, hequals, hnext⟩,
      fun ⟨hclosed, hequals, hnext⟩ => ⟨hclosed, hequals, hnext⟩⟩

variable {s x : List Char}

/-- A character that is not blank is a token by itself. -/
theorem tokens_singleton {c : Char} (hc : isBlank c = false) :
    ∃ t, tokens [c] = [t] ∧ t.text = [c] := by
  have hcomment : comment? [c] = none := by
    unfold comment?
    split
    · simp_all
    · simp_all
    · rfl
  obtain ⟨t, text, rest, htokens, htext, hrest⟩ := exists_tokens_eq_cons hcomment hc
  obtain ⟨rfl, rfl⟩ := List.append_eq_nil_iff.1 hrest
  exact ⟨t, htokens.trans (by simp [tokens]), htext⟩

/-- A token that ends before a text also ends where a quotation follows that text, as long as the
last token before the quotation is an equals sign. -/
theorem stops_append_of_equals {t : Token} {rest : List Char} (h : t.Stops rest)
    (hlast : (t :: tokens rest).getLast? = some (mark '='))
    (hx : ∀ c, x.head? = some c → c ∈ quoteMarks) : t.Stops (rest ++ x) := by
  have hequals (hrest : rest = []) : t = mark '=' := by
    rw [hrest] at hlast
    simpa [tokens] using hlast
  constructor
  · intro c r hr
    cases rest with
    | nil =>
      have hall : ∀ d ∈ quoteMarks, (mark '=').takes d = false := by decide
      rw [List.nil_append] at hr
      rw [hequals rfl]
      exact hall c (hx c (by rw [hr]; rfl))
    | cons b rest =>
      obtain ⟨rfl, -⟩ := List.cons.inj hr
      exact h.head b rest rfl
  · intro c d r hr
    cases rest with
    | nil =>
      rw [hequals rfl]
      simp [Token.takesPair, Token.isNumber, Token.isPunctOf, mark]
    | cons b rest =>
      obtain ⟨rfl, htail⟩ := List.cons.inj hr
      cases rest with
      | nil =>
        -- a single character is a blank, or it is the equals sign itself
        by_cases hblank : isBlank b = true
        · exact Token.takesPair_of_break_left (.inl hblank)
        · obtain ⟨u, hu, htext⟩ := tokens_singleton (by simpa using hblank)
          rw [hu] at hlast
          obtain rfl : u = mark '=' := by simpa using hlast
          obtain rfl : '=' = b := by simpa [mark] using htext
          simp [Token.takesPair]
      | cons e rest =>
        obtain ⟨rfl, -⟩ := List.cons.inj htail
        exact h.pair b e rest rfl

/-- A closed text whose last token is an equals sign is read by itself when a quotation follows. -/
theorem Closed.lexemes_append_quotation (h : Closed s)
    (hlast : ∀ t, (tokens s).getLast? = some t → t = mark '=')
    (hx : ∀ c, x.head? = some c → c ∈ quoteMarks) :
    lexemes (s ++ x) = lexemes s ++ lexemes x := by
  -- behind the equals sign there are no tokens, so `hlast` asks for nothing in their absence
  fun_induction lexemes s with
  | case1 => rfl
  | case2 c r ih =>
    have hrest : ∀ t, (tokens (first c r).2).getLast? = some t → t = mark '=' := by
      intro t ht
      apply hlast
      rw [tokens_cons, List.getLast?_append, ht]
      rfl
    have hfirst : first c (r ++ x) = ((first c r).1, (first c r).2 ++ x) := by
      apply h.first_append_of_stops
      intro t ht hstops
      refine stops_append_of_equals hstops ?_ hx
      have htokens : tokens (c :: r) = t :: tokens (first c r).2 := by
        rw [tokens_cons, ht]
        rfl
      cases hl : (t :: tokens (first c r).2).getLast? with
      | none => simp at hl
      | some u => rw [hlast u (by rw [htokens, hl])]
    rw [List.cons_append, lexemes_cons, hfirst, ih h.rest hrest, List.cons_append]

/-- A closed text that ends with an equals sign is read by itself before a quotation. -/
theorem Closed.tokens_append_quotation (h : Closed s)
    (hlast : (tokens s).getLast? = some (mark '='))
    (hx : ∀ c, x.head? = some c → c ∈ quoteMarks) : tokens (s ++ x) = tokens s ++ tokens x := by
  have hequals : ∀ t, (tokens s).getLast? = some t → t = mark '=' := by
    intro t ht
    exact Option.some.inj (ht.symm.trans hlast)
  rw [tokens, h.lexemes_append_quotation hequals hx, List.filterMap_append]
  rfl

/-- A quotation ends before any text that does not begin with a quote. -/
theorem Token.stops_quotation {text rest : List Char} {c : Char} (hc : c ∈ quoteMarks)
    (hhead : text.head? = some c) (hrest : rest.head? ≠ some '"') :
    Token.Stops ⟨.literal, text⟩ rest := by
  have hnumber : Token.isNumber ⟨.literal, text⟩ = false := by
    have hall : ∀ d ∈ quoteMarks, d.isDigit = false := by decide
    simp [isNumber, hhead, hall c hc]
  constructor
  · rintro d r rfl
    have hd : d ≠ '"' := by simpa using hrest
    simp [takes, hnumber, hd]
  · rintro d e r -
    simp [takesPair, hnumber, isPunctOf]

/-- A text does not begin with a quote if its first token does not. -/
theorem head?_ne_quote_of_tokens {t : Token} (h : (tokens s).head? = some t)
    (ht : t.text.head? ≠ some '"') : s.head? ≠ some '"' := by
  intro hquote
  obtain ⟨r, rfl⟩ := List.head?_eq_some_iff.1 hquote
  obtain ⟨u, text, rest, htokens, htext, -⟩ :=
    exists_tokens_eq_cons (c := '"') (r := r) (comment?_eq_none (by decide))
      (isBlank_sign (by decide))
  rw [htokens] at h
  obtain rfl : u = t := Option.some.inj h
  rw [htext] at ht
  exact ht rfl

/-- What stands behind a default value does not begin with a quote. -/
theorem DefaultPlace.head?_ne_quote {before after : List Char} (h : DefaultPlace before after) :
    after.head? ≠ some '"' := by
  rcases h.next with hnext | hnext
  · exact head?_ne_quote_of_tokens hnext (by decide)
  · exact head?_ne_quote_of_tokens hnext (by decide)

/-- Every token of a layout is found in it as it is. -/
theorem text_infix_layout {ts : List Token} {t : Token} (h : t ∈ ts) :
    t.text <:+: layout ts := by
  cases ts with
  | nil => cases h
  | cons first rest =>
    rw [layout_eq_flatMap]
    rcases List.mem_cons.1 h with rfl | h
    · exact ⟨[], (gaps (t :: rest)).flatMap fun g => g.text ++ g.right.text, by simp⟩
    · have hrest : (gaps (first :: rest)).map Gap.right = rest := map_right_gaps (first :: rest)
      rw [← hrest] at h
      obtain ⟨g, hg, rfl⟩ := List.mem_map.1 h
      obtain ⟨left, right, hsplit⟩ := List.append_of_mem hg
      rw [hsplit]
      refine ⟨first.text ++ left.flatMap (fun g => g.text ++ g.right.text) ++ g.text,
        right.flatMap fun g => g.text ++ g.right.text, ?_⟩
      simp

/-- A default value is read as one token, between those before and those behind it, if and only if
the text between its quotes fits. Then it is found in the normalized text as it is. -/
theorem normalize_quotation (q : Quotation) (body : List Char) {before after : String}
    (h : DefaultPlace before.toList after.toList) :
    let text := before ++ String.ofList (q.write body) ++ after
    (tokens text.toList =
        tokens before.toList ++ ⟨.literal, q.write body⟩ :: tokens after.toList ↔ q.Fits body) ∧
      (q.Fits body → q.write body <:+: (normalize text).toList) := by
  intro text
  obtain ⟨c, hc, hhead⟩ := q.head_write body
  have htext : text.toList = before.toList ++ (q.write body ++ after.toList) := by simp [text]
  -- no quotation goes on with the equals sign before it
  have hbefore : tokens text.toList = tokens before.toList ++
      tokens (q.write body ++ after.toList) := by
    rw [htext]
    apply h.closed.tokens_append_quotation h.equals
    intro d hd
    rw [List.head?_append, hhead] at hd
    exact Option.some.inj hd ▸ hc
  have hkept : q.Fits body → tokens text.toList =
      tokens before.toList ++ ⟨.literal, q.write body⟩ :: tokens after.toList := by
    intro hfits
    have hclosed : Token.Closed ⟨.literal, q.write body⟩ := ⟨(q.shape_iff body).2 hfits, rfl⟩
    rw [hbefore, hclosed.tokens_append (Token.stops_quotation hc hhead h.head?_ne_quote)]
  refine ⟨⟨fun hread => ?_, hkept⟩, fun hfits => ?_⟩
  · apply (q.shape_iff body).1
    apply shape_of_mem_tokens (s := text.toList)
    rw [hread]
    exact List.mem_append_right _ (List.mem_cons_self ..)
  · have hmem : (⟨.literal, q.write body⟩ : Token) ∈ tokens text.toList := by
      rw [hkept hfits]
      exact List.mem_append_right _ (List.mem_cons_self ..)
    have hlayout := text_infix_layout hmem
    rwa [normalize, String.toList_ofList]

/-- A verbatim string with a doubled quote, blanks and a comment mark in it is kept. -/
theorem normalize_quotation_verbatim :
    DefaultPlace "void M(string s = ".toList " , int n)".toList ∧
      Quotation.verbatim.Fits "a  \"\" // b".toList ∧
      Quotation.verbatim.write "a  \"\" // b".toList <:+:
        (normalize "void M(string s = @\"a  \"\" // b\" , int n)").toList := by
  have hplace : DefaultPlace "void M(string s = ".toList " , int n)".toList := by
    decide +kernel
  have hfits : Quotation.verbatim.Fits "a  \"\" // b".toList :=
    verbatimTail?_eq_iff.1 (by decide +kernel)
  have hkept := (normalize_quotation .verbatim "a  \"\" // b".toList hplace).2 hfits
  exact ⟨hplace, hfits, hkept⟩

/-- A string behind `@$` with a doubled quote is not kept, though the same text behind `$@` is; nor
is a string between three quotes. -/
theorem normalize_quotation_ne :
    DefaultPlace "void M(string s = ".toList ");".toList ∧
      Doubled "a\"\"b".toList ∧
      ¬Quotation.verbatimInterpolated.write "a\"\"b".toList <:+:
        (normalize "void M(string s = @$\"a\"\"b\");").toList ∧
      ¬(Quotation.raw 0).write "a  b".toList <:+:
        (normalize "void M(string s = \"\"\"a  b\"\"\");").toList := by
  have hplace : DefaultPlace "void M(string s = ".toList ");".toList := by
    decide +kernel
  have hdoubled : Doubled "a\"\"b".toList := verbatimTail?_eq_iff.1 (by decide +kernel)
  exact ⟨hplace, hdoubled, by decide +kernel, by decide +kernel⟩

end TypeCatalog.Signature
