import TypeCatalog.Proofs.Method.Parts
import TypeCatalog.Proofs.Signature.Respacing

/-!
# The source of a method

The source of a method is written from all of its parts, one behind the other. Where each part is
closed, every token of every part is read back. The comments above the declaration come first, each
with a space behind it, and a space does not end a comment that runs to the end of its line: such a
comment takes with it whatever is written on the rest of the line.

## Main definitions

- `Signature.IsBlockComment`, `Signature.IsLineComment` — the two sorts of comment by themselves
- `Method.SourceClosed` — that each part but the comments is closed
- `Method.sourceTokens` — the tokens of these parts, one part after the other

## Main statements

- `Method.SourceClosed.tokens_source_nil` — the source of a method without comments
- `Method.tokens_source_blocks` — block comments leave no trace
- `Method.tokens_source_below_comments` — what is read back of a method, whatever its comments are
-/

namespace TypeCatalog

open Signature Text

namespace Signature

/-! ### Comments by themselves -/

/-- A block comment up to its first closing mark. -/
def IsBlockComment (s : List Char) : Prop :=
  ∃ body, ¬['*', '/'] <:+: body ∧ s = '/' :: '*' :: (body ++ ['*', '/'])

/-- A comment to the end of its line, without the end of the line. -/
def IsLineComment (s : List Char) : Prop := ∃ body, '\n' ∉ body ∧ s = '/' :: '/' :: body

variable {s x : List Char}

/-- A block comment does not change the tokens of what follows. -/
theorem IsBlockComment.tokens_append (h : IsBlockComment s) (x : List Char) :
    tokens (s ++ x) = tokens x := by
  obtain ⟨body, hbody, rfl⟩ := h
  have hfiller : Filler ('/' :: '*' :: (body ++ '*' :: '/' :: [])) := .block hbody .nil
  exact hfiller.tokens_append x

/-- What is written behind a comment to the end of its line is part of the comment, up to the next
line. -/
theorem IsLineComment.tokens_append (h : IsLineComment s) (x : List Char) :
    tokens (s ++ x) = tokens (x.dropWhile (· != '\n')) := by
  obtain ⟨body, hbody, rfl⟩ := h
  have hin : ∀ c ∈ body, (c != '\n') = true := by
    intro c hc
    simpa using fun h : c = '\n' => hbody (h ▸ hc)
  have hread : comment? ('/' :: '/' :: (body ++ x)) =
      some ('/' :: '/' :: (body ++ x.takeWhile (· != '\n')), x.dropWhile (· != '\n')) := by
    simp [comment?, List.takeWhile_append_of_pos hin, List.dropWhile_append_of_pos hin]
  exact tokens_comment hread

/-- A text that begins with a parenthesis has a token. -/
theorem tokens_ne_nil_of_parenthesis (h : s.head? = some '(') : tokens s ≠ [] := by
  obtain ⟨r, rfl⟩ := List.head?_eq_some_iff.1 h
  obtain ⟨t, text, rest, htokens, -, -⟩ :=
    exists_tokens_eq_cons (c := '(') (r := r) (comment?_eq_none (by decide))
      (isBlank_sign (by decide))
  rw [htokens]
  exact List.cons_ne_nil _ _

/-! ### Texts with a space before them -/

/-- Parts with a space before each of them go on with no token. -/
theorem breaks_join (parts : List String) (hx : Breaks x) :
    Breaks ((String.join (parts.map (" " ++ ·))).toList ++ x) := by
  cases parts with
  | nil => exact hx
  | cons part parts =>
    have htext : (String.join ((part :: parts).map (" " ++ ·))).toList ++ x =
        ' ' :: (part.toList ++ ((String.join (parts.map (" " ++ ·))).toList ++ x)) := by
      simp [String.toList_join]
    rw [htext]
    exact .blank isBlank_space _

/-- Texts that are closed, each with a space before it, are read one after the other. -/
theorem tokens_join_spaced {parts : List String} (h : ∀ part ∈ parts, Closed part.toList)
    (hx : Breaks x) :
    tokens ((String.join (parts.map (" " ++ ·))).toList ++ x) =
      parts.flatMap (tokens ·.toList) ++ tokens x := by
  induction parts with
  | nil => simp
  | cons part parts ih =>
    have hpart : Closed part.toList := h part (List.mem_cons_self ..)
    have hrest := ih fun p hp => h p (List.mem_cons_of_mem _ hp)
    have htext : (String.join ((part :: parts).map (" " ++ ·))).toList ++ x =
        ' ' :: (part.toList ++ ((String.join (parts.map (" " ++ ·))).toList ++ x)) := by
      simp [String.toList_join]
    rw [htext, tokens_blank (by decide), hpart.tokens_append (breaks_join parts hx), hrest,
      List.flatMap_cons, List.append_assoc]

end Signature

namespace Method

variable {m : Method}

/-- The text of a body. -/
def Body.text : Body → String
  | block text => text
  | expression text => text

/-- Each part but the comments is closed, and the two that are written right behind the part before
them begin with their bracket. -/
structure SourceClosed (m : Method) : Prop extends m.PartsClosed where
  attributes : ∀ text ∈ m.attributes, Closed text.toList
  constraints : ∀ text ∈ m.constraints, Closed text.toList
  body : ∀ body ∈ m.body, Closed body.text.toList

instance (m : Method) : Decidable m.SourceClosed :=
  decidable_of_iff
    (m.PartsClosed ∧ (∀ text ∈ m.attributes, Closed text.toList) ∧
      (∀ text ∈ m.constraints, Closed text.toList) ∧ ∀ body ∈ m.body, Closed body.text.toList)
    ⟨fun ⟨hparts, hattributes, hconstraints, hbody⟩ =>
        ⟨hparts, hattributes, hconstraints, hbody⟩,
      fun ⟨hparts, hattributes, hconstraints, hbody⟩ =>
        ⟨hparts, hattributes, hconstraints, hbody⟩⟩

/-- The tokens of the body, and a semicolon unless the body is a block. -/
def endingTokens (m : Method) : List Token :=
  match m.body with
  | some (.block text) => tokens text.toList
  | some (.expression text) => tokens text.toList ++ [mark ';']
  | none => [mark ';']

/-- The tokens of all parts but the comments, in source order. -/
def sourceTokens (m : Method) : List Token :=
  m.attributes.flatMap (tokens ·.toList) ++ m.modifiers.flatMap (tokens ·.toList) ++
    tokens m.returnType.toList ++ tokens m.name.toList ++
    tokens (m.typeParameters.getD "").toList ++ tokens m.parameters.toList ++
    m.constraints.flatMap (tokens ·.toList) ++ m.endingTokens

/-! ### A method without comments -/

/-- The ending of a method goes on with no token: it begins with a space, or it is the semicolon. -/
theorem breaks_ending (m : Method) : Breaks m.ending.toList := by
  unfold ending
  split
  · rw [String.toList_append]
    exact .blank isBlank_space _
  · rw [String.toList_append, String.toList_append]
    exact .blank isBlank_space _
  · exact .mark (by decide) []

namespace SourceClosed

/-- The tokens of the ending are those of the constraints, of the body and of the semicolon. -/
theorem tokens_ending (h : m.SourceClosed) : tokens m.ending.toList = m.endingTokens := by
  have hbody := h.body
  unfold ending endingTokens
  cases hm : m.body with
  | none => exact tokens_semicolon
  | some body =>
    rw [hm] at hbody
    cases body with
    | block text =>
      show tokens (" " ++ text).toList = tokens text.toList
      rw [String.toList_append]
      exact tokens_blank (by decide) _
    | expression text =>
      have hclosed : Closed text.toList := hbody _ rfl
      have hsemicolon : Breaks [';'] := .mark (by decide) []
      have htext : (" " ++ text ++ semicolon).toList = ' ' :: (text.toList ++ [';']) := by
        simp [semicolon]
      show tokens (" " ++ text ++ semicolon).toList = tokens text.toList ++ [mark ';']
      rw [htext, tokens_blank (by decide), hclosed.tokens_append hsemicolon, tokens_semicolon]

/-- Without comments all leading parts are closed. -/
theorem closed_leading (h : m.SourceClosed) (hnone : m.comments = []) :
    ∀ part ∈ m.leading, Closed part.toList := by
  intro part hpart
  have hmem := (List.mem_filter.1 hpart).1
  rw [hnone, List.nil_append] at hmem
  rcases List.mem_append.1 hmem with hmem | htype
  · rcases List.mem_append.1 hmem with hattribute | hmodifier
    · exact h.attributes part hattribute
    · exact h.modifiers part hmodifier
  · rw [List.mem_singleton.1 htype]
    exact h.returnType

/-- Without comments a method is written as the tokens of its parts. -/
theorem tokens_source_nil (h : m.SourceClosed) (hnone : m.comments = []) :
    tokens m.source.toList = m.sourceTokens := by
  have hconstraints := breaks_join m.constraints m.breaks_ending
  have htext : m.source.toList = (String.join (m.leading.map (· ++ " "))).toList ++
      (m.name.toList ++ ((m.typeParameters.getD "").toList ++ (m.parameters.toList ++
        ((String.join (m.constraints.map (" " ++ ·))).toList ++ m.ending.toList)))) := by
    simp [source, head]
  rw [htext, tokens_join (h.closed_leading hnone), h.tokens_head hconstraints,
    tokens_join_spaced h.constraints m.breaks_ending, h.tokens_ending, leading,
    flatMap_tokens_filter, hnone]
  simp [sourceTokens]

theorem sourceTokens_ne_nil (h : m.SourceClosed) : m.sourceTokens ≠ [] := by
  have hparameters := tokens_ne_nil_of_parenthesis h.parenthesis
  simp [sourceTokens, hparameters]

end SourceClosed

/-! ### Comments above a method -/

/-- Comments are written before all else, each with a space behind it. -/
theorem toList_source_append (comments rest : List String) :
    { m with comments := comments ++ rest }.source.toList =
      (String.join ((comments.filter (!·.isEmpty)).map (· ++ " "))).toList ++
        { m with comments := rest }.source.toList := by
  simp [source, leading, head, ending, String.toList_join]

/-- The first comment is written first, with a space behind it. -/
theorem toList_source_cons {comment : String} (hne : comment ≠ "") (rest : List String) :
    { m with comments := comment :: rest }.source.toList =
      comment.toList ++ ' ' :: { m with comments := rest }.source.toList := by
  have happend := toList_source_append (m := m) [comment] rest
  rw [List.singleton_append] at happend
  rw [happend]
  simp [hne]

/-- Block comments at the front do not change the tokens. -/
theorem tokens_source_blocks {blocks : List String}
    (h : ∀ comment ∈ blocks, IsBlockComment comment.toList) (rest : List String) :
    tokens { m with comments := blocks ++ rest }.source.toList =
      tokens { m with comments := rest }.source.toList := by
  induction blocks with
  | nil => rfl
  | cons comment blocks ih =>
    have hcomment := h comment (List.mem_cons_self ..)
    have hne : comment ≠ "" := by
      rintro rfl
      obtain ⟨body, -, hbody⟩ := hcomment
      cases hbody
    rw [List.cons_append, toList_source_cons hne, hcomment.tokens_append, tokens_blank (by decide),
      ih fun c hc => h c (List.mem_cons_of_mem _ hc)]

/-- A line comment at the front hides what is behind it, up to the next line. -/
theorem tokens_source_line {line : String} (h : IsLineComment line.toList) (rest : List String) :
    tokens { m with comments := line :: rest }.source.toList =
      tokens ({ m with comments := rest }.source.toList.dropWhile (· != '\n')) := by
  have hne : line ≠ "" := by
    rintro rfl
    obtain ⟨body, -, hbody⟩ := h
    cases hbody
  rw [toList_source_cons hne, h.tokens_append]
  rfl

/-- Comments are all block comments, or a line comment comes first behind some block comments. -/
theorem blocks_or_first_line {comments : List String}
    (h : ∀ c ∈ comments, IsBlockComment c.toList ∨ IsLineComment c.toList) :
    (∀ c ∈ comments, IsBlockComment c.toList) ∨
      ∃ blocks line rest, comments = blocks ++ line :: rest ∧
        (∀ c ∈ blocks, IsBlockComment c.toList) ∧ IsLineComment line.toList := by
  induction comments with
  | nil => exact .inl (by simp)
  | cons comment comments ih =>
    rcases h comment (List.mem_cons_self ..) with hblock | hline
    · rcases ih fun c hc => h c (List.mem_cons_of_mem _ hc) with hall | ⟨blocks, line, rest, hfirst⟩
      · exact .inl (List.forall_mem_cons.2 ⟨hblock, hall⟩)
      · obtain ⟨rfl, hblocks, hline⟩ := hfirst
        exact .inr ⟨comment :: blocks, line, rest, rfl, List.forall_mem_cons.2 ⟨hblock, hblocks⟩,
          hline⟩
    · exact .inr ⟨[], comment, comments, rfl, by simp, hline⟩

/-- Every part of a method is read back from its source if the comments above it are block comments.
Otherwise the first comment that runs to the end of its line hides what is written behind it, up to
the next line; so a method whose source is one line is read back only if there is no such
comment. -/
theorem tokens_source_below_comments (h : m.SourceClosed)
    (hcomments : ∀ c ∈ m.comments, IsBlockComment c.toList ∨ IsLineComment c.toList) :
    ((∀ c ∈ m.comments, IsBlockComment c.toList) → tokens m.source.toList = m.sourceTokens) ∧
      (∀ blocks line rest, m.comments = blocks ++ line :: rest →
        (∀ c ∈ blocks, IsBlockComment c.toList) → IsLineComment line.toList →
          tokens m.source.toList =
            tokens ({ m with comments := rest }.source.toList.dropWhile (· != '\n'))) ∧
      ('\n' ∉ m.source.toList →
        (tokens m.source.toList = m.sourceTokens ↔
          ∀ c ∈ m.comments, IsBlockComment c.toList)) := by
  have hblocks : (∀ c ∈ m.comments, IsBlockComment c.toList) →
      tokens m.source.toList = m.sourceTokens := by
    intro hall
    -- that a method is closed does not depend on its comments
    have hnone : ({ m with comments := [] } : Method).SourceClosed :=
      ⟨⟨h.modifiers, h.returnType, h.name, h.typeParameters, h.parameters, h.parenthesis⟩,
        h.attributes, h.constraints, h.body⟩
    have hdropped := tokens_source_blocks (m := m) hall []
    rw [List.append_nil] at hdropped
    exact hdropped.trans (hnone.tokens_source_nil rfl)
  have hline : ∀ blocks line rest, m.comments = blocks ++ line :: rest →
      (∀ c ∈ blocks, IsBlockComment c.toList) → IsLineComment line.toList →
        tokens m.source.toList =
          tokens ({ m with comments := rest }.source.toList.dropWhile (· != '\n')) := by
    intro blocks line rest hsplit hbefore hline
    calc tokens m.source.toList
        = tokens { m with comments := blocks ++ line :: rest }.source.toList := by rw [← hsplit]
      _ = tokens { m with comments := line :: rest }.source.toList :=
          tokens_source_blocks hbefore _
      _ = _ := tokens_source_line hline rest
  refine ⟨hblocks, hline, fun honeLine => ⟨fun hkept => ?_, hblocks⟩⟩
  rcases blocks_or_first_line hcomments with hall | ⟨blocks, line, rest, hsplit, hbefore, hfirst⟩
  · exact hall
  · -- the comment hides all that comes after it, and a method is never without tokens
    have hmem : '\n' ∉ { m with comments := rest }.source.toList := by
      intro hin
      apply honeLine
      have hsource : m.source.toList =
          { m with comments := (blocks ++ [line]) ++ rest }.source.toList := by
        rw [List.append_assoc, List.singleton_append, ← hsplit]
      rw [hsource, toList_source_append]
      exact List.mem_append_right _ hin
    have hnothing : { m with comments := rest }.source.toList.dropWhile (· != '\n') = [] := by
      rw [List.dropWhile_eq_nil_iff]
      intro c hc
      simpa using fun heq : c = '\n' => hmem (heq ▸ hc)
    have hempty : tokens [] = [] := by simp [tokens]
    rw [hline blocks line rest hsplit hbefore hfirst, hnothing, hempty] at hkept
    exact absurd hkept.symm h.sourceTokens_ne_nil

/-- Of a method below a block comment every part is read back. -/
theorem tokens_source_below_block :
    let m : Method :=
      { comments := ["/* \"finds */"], attributes := ["[Pure]"], modifiers := ["public"]
        returnType := "T", name := "Find", typeParameters := some "<T>", parameters := "(T a)"
        constraints := ["where T : new()"], body := some (.expression "=> a // it\n") }
    m.SourceClosed ∧ IsBlockComment "/* \"finds */".toList ∧
      tokens m.source.toList =
        tokens "[Pure] public T Find<T>(T a) where T : new() => a;".toList := by
  intro m
  have hclosed : m.SourceClosed := by decide +kernel
  have hblock : IsBlockComment "/* \"finds */".toList := ⟨" \"finds ".toList, by decide, by decide⟩
  have hall : ∀ c ∈ m.comments, IsBlockComment c.toList := by
    intro c hc
    obtain rfl := List.mem_singleton.1 hc
    exact hblock
  refine ⟨hclosed, hblock, ?_⟩
  rw [(tokens_source_below_comments hclosed fun c hc => .inl (hall c hc)).1 hall]
  decide +kernel

/-- Of a method below a comment that runs to the end of its line, nothing is read back. -/
theorem tokens_source_below_line :
    let m : Method :=
      { comments := ["// finds"], returnType := "void", name := "Find", parameters := "()" }
    m.SourceClosed ∧ IsLineComment "// finds".toList ∧ tokens m.source.toList = [] ∧
      tokens m.source.toList ≠ m.sourceTokens := by
  intro m
  exact ⟨by decide +kernel, ⟨" finds".toList, by decide, by decide⟩, by decide +kernel,
    by decide +kernel⟩

end Method

end TypeCatalog
