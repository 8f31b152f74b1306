import TypeCatalog.Proofs.Signature.TokenShape

/-!
# Texts between quotes

A reader that has come past the opening quote takes a text up to the closing one. Strings on one
line and characters have a backslash before what does not stand for itself; in verbatim strings a
quote is doubled. Each of the two readers takes just the texts of its own rule.

## Main definitions

- `Signature.Escaped`, `Signature.Doubled` — texts between quotes, by either rule

## Main statements

- `Signature.quotedTail?_eq_iff`, `Signature.verbatimTail?_eq_iff` — the readers and the rules
-/

namespace TypeCatalog.Signature

/-! ### Strings on one line -/

/-- A text on one line between the quotes: a backslash comes before any character that would not
stand for itself. -/
inductive Escaped (quote : Char) : List Char → Prop where
  | nil : Escaped quote []
  | plain {c : Char} {s : List Char} (hquote : c ≠ quote) (hslash : c ≠ '\\') (hline : c ≠ '\n')
      (hs : Escaped quote s) : Escaped quote (c :: s)
  | escape {c : Char} {s : List Char} (hline : c ≠ '\n') (hs : Escaped quote s) :
      Escaped quote ('\\' :: c :: s)

/-- An escaped text is read up to the quote that ends it. -/
theorem Escaped.quotedTail?_eq {quote : Char} (hquote : quote ≠ '\\') {body : List Char}
    (h : Escaped quote body) :
    quotedTail? quote (body ++ [quote]) = some (body ++ [quote], []) := by
  induction h with
  | nil => simp [quotedTail?_cons _ hquote]
  | plain hc hslash hline _ ih =>
    rw [List.cons_append, quotedTail?_cons _ hslash, if_neg hc, if_neg hline, ih]
    rfl
  | @escape c s hline _ ih =>
    show quotedTail? quote ('\\' :: c :: (s ++ [quote])) = _
    rw [quotedTail?, if_neg hline, ih]
    rfl

/-- What the reader of strings on one line takes ends with the quote. -/
theorem exists_escaped {quote : Char} {s : List Char} {p : Split}
    (h : quotedTail? quote s = some p) : ∃ body, p.1 = body ++ [quote] ∧ Escaped quote body := by
  fun_induction quotedTail? quote s generalizing p with
  | case1 => cases h
  | case2 => cases h
  | case3 r => cases h
  | case4 c r hline ih =>
    obtain ⟨q, hq, rfl⟩ := Option.map_eq_some_iff.1 h
    obtain ⟨body, hp, hbody⟩ := ih hq
    exact ⟨'\\' :: c :: body, by simp [Split.push, hp], .escape hline hbody⟩
  | case5 r _ _ =>
    cases h
    exact ⟨[], rfl, .nil⟩
  | case6 => cases h
  | case7 c r h₁ h₂ hquote hline ih =>
    obtain ⟨q, hq, rfl⟩ := Option.map_eq_some_iff.1 h
    obtain ⟨body, hp, hbody⟩ := ih hq
    exact ⟨c :: body, by simp [Split.push, hp], .plain hquote (ne_backslash h₁ h₂) hline hbody⟩

/-- The reader of strings on one line takes just the texts in which what needs a backslash has
one. -/
theorem quotedTail?_eq_iff {quote : Char} (hquote : quote ≠ '\\') {body : List Char} :
    quotedTail? quote (body ++ [quote]) = some (body ++ [quote], []) ↔ Escaped quote body := by
  constructor
  · intro h
    obtain ⟨body', heq, hbody⟩ := exists_escaped h
    rwa [List.append_cancel_right heq]
  · exact Escaped.quotedTail?_eq hquote

/-! ### Verbatim strings -/

/-- A text over any number of lines between the quotes: every quote in it is doubled. -/
inductive Doubled : List Char → Prop where
  | nil : Doubled []
  | plain {c : Char} {s : List Char} (hc : c ≠ '"') (hs : Doubled s) : Doubled (c :: s)
  | quote {s : List Char} (hs : Doubled s) : Doubled ('"' :: '"' :: s)

/-- A text whose quotes are doubled is read up to the single quote that ends it. -/
theorem Doubled.verbatimTail?_eq {body : List Char} (h : Doubled body) :
    verbatimTail? (body ++ ['"']) = some (body ++ ['"'], []) := by
  induction h with
  | nil => rfl
  | plain hc _ ih =>
    rw [List.cons_append, verbatimTail?_cons _ hc, ih]
    rfl
  | @quote s _ ih =>
    show verbatimTail? ('"' :: '"' :: (s ++ ['"'])) = _
    rw [verbatimTail?, ih]
    rfl

/-- What the reader of verbatim strings takes ends with a quote. -/
theorem exists_doubled {s : List Char} {p : Split} (h : verbatimTail? s = some p) :
    ∃ body, p.1 = body ++ ['"'] ∧ Doubled body := by
  fun_induction verbatimTail? s generalizing p with
  | case1 => cases h
  | case2 r ih =>
    rw [Option.some.injEq] at h
    split at h
    · next q hq =>
      cases h
      obtain ⟨body, hp, hbody⟩ := ih hq
      exact ⟨'"' :: '"' :: body, by simp [Split.push, hp], .quote hbody⟩
    · cases h
      exact ⟨[], rfl, .nil⟩
  | case3 r _ =>
    cases h
    exact ⟨[], rfl, .nil⟩
  | case4 c r _ hc ih =>
    obtain ⟨q, hq, rfl⟩ := Option.map_eq_some_iff.1 h
    obtain ⟨body, hp, hbody⟩ := ih hq
    exact ⟨c :: body, by simp [Split.push, hp], .plain hc hbody⟩

/-- The reader of verbatim strings takes just the texts in which every quote is doubled. -/
theorem verbatimTail?_eq_iff {body : List Char} :
    verbatimTail? (body ++ ['"']) = some (body ++ ['"'], []) ↔ Doubled body := by
  constructor
  · intro h
    obtain ⟨body', heq, hbody⟩ := exists_doubled h
    rwa [List.append_cancel_right heq]
  · exact Doubled.verbatimTail?_eq

end TypeCatalog.Signature
