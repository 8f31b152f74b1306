import TypeCatalog.Method
import TypeCatalog.Proofs.Signature.Closed

/-!
# The parts of a signature

A signature is read off one text, in which the parts of a method stand behind each other, some with
a space in between and some without. Where each part that it shows is closed, no token and no
comment reaches from one part into the next, whatever the parts that it does without contain.

## Main definitions

- `Method.PartsClosed` — that each part shown by the signature is closed
- `Method.signatureTokens` — the tokens of these parts, one part after the other

## Main statements

- `Method.signature_of_partsClosed` — the signature is laid out from the tokens of its parts
-/

namespace TypeCatalog

open Signature Text

namespace Signature

/-- Texts that are closed, each with a space behind it, are read one after the other. -/
theorem tokens_join {parts : List String} (h : ∀ part ∈ parts, Closed part.toList)
    (rest : List Char) :
    tokens ((String.join (parts.map (· ++ " "))).toList ++ rest) =
      parts.flatMap (tokens ·.toList) ++ tokens rest := by
  induction parts with
  | nil => simp
  | cons part parts ih =>
    have hpart : Closed part.toList := h part (List.mem_cons_self ..)
    have hrest := ih fun p hp => h p (List.mem_cons_of_mem _ hp)
    have htext : (String.join ((part :: parts).map (· ++ " "))).toList ++ rest =
        part.toList ++ ' ' :: ((String.join (parts.map (· ++ " "))).toList ++ rest) := by
      simp [String.toList_join]
    rw [htext, hpart.tokens_append (.blank isBlank_space _), tokens_blank isBlank_space,
      hrest, List.flatMap_cons, List.append_assoc]

/-- An empty text has no tokens, so it may be left out. -/
theorem flatMap_tokens_filter (parts : List String) :
    (parts.filter (!·.isEmpty)).flatMap (tokens ·.toList) = parts.flatMap (tokens ·.toList) := by
  induction parts with
  | nil => rfl
  | cons part parts ih =>
    by_cases hempty : part = ""
    · subst hempty
      simpa [tokens] using ih
    · simp [hempty, ih]

end Signature

namespace Method

variable {m : Method}

/-- Each part shown by the signature is closed, and the two that are written right behind the part
before them begin with their bracket. -/
structure PartsClosed (m : Method) : Prop where
  modifiers : ∀ text ∈ m.modifiers, Closed text.toList
  returnType : Closed m.returnType.toList
  name : Closed m.name.toList
  typeParameters : ∀ text ∈ m.typeParameters, Closed text.toList ∧ text.toList.head? = some '<'
  parameters : Closed m.parameters.toList
  parenthesis : m.parameters.toList.head? = some '('

instance (m : Method) : Decidable m.PartsClosed :=
  decidable_of_iff
    ((∀ text ∈ m.modifiers, Closed text.toList) ∧ Closed m.returnType.toList ∧
      Closed m.name.toList ∧
      (∀ text ∈ m.typeParameters, Closed text.toList ∧ text.toList.head? = some '<') ∧
      Closed m.parameters.toList ∧ m.parameters.toList.head? = some '(')
    ⟨fun ⟨hmodifiers, htype, hname, htypes, hparameters, hparenthesis⟩ =>
        ⟨hmodifiers, htype, hname, htypes, hparameters, hparenthesis⟩,
      fun ⟨hmodifiers, htype, hname, htypes, hparameters, hparenthesis⟩ =>
        ⟨hmodifiers, htype, hname, htypes, hparameters, hparenthesis⟩⟩

/-- The tokens of the parts shown by the signature, and a semicolon. -/
def signatureTokens (m : Method) : List Token :=
  m.modifiers.flatMap (tokens ·.toList) ++ tokens m.returnType.toList ++ tokens m.name.toList ++
    tokens (m.typeParameters.getD "").toList ++ tokens m.parameters.toList ++ [mark ';']

/-- A method with nothing but what its signature shows is written as those parts and a semicolon. -/
theorem toList_source_bare (m : Method) :
    m.bare.source.toList =
      (String.join (((m.modifiers ++ [m.returnType]).filter (!·.isEmpty)).map (· ++ " "))).toList ++
        (m.name.toList ++ ((m.typeParameters.getD "").toList ++ (m.parameters.toList ++ [';']))) := by
  simp [source, bare, without, leading, head, ending, semicolon]

theorem tokens_semicolon : tokens [';'] = [mark ';'] := by decide +kernel

/-- The parts that are written without a space, and what comes behind them. -/
theorem PartsClosed.tokens_head (h : m.PartsClosed) {x : List Char} (hx : Breaks x) :
    tokens (m.name.toList ++
        ((m.typeParameters.getD "").toList ++ (m.parameters.toList ++ x))) =
      tokens m.name.toList ++ (tokens (m.typeParameters.getD "").toList ++
        (tokens m.parameters.toList ++ tokens x)) := by
  have hparameters : Breaks (m.parameters.toList ++ x) := by
    rw [Breaks, List.head?_append, h.parenthesis]
    rintro c ⟨⟩
    exact .inr (by decide)
  cases htypes : m.typeParameters with
  | none =>
    rw [Option.getD_none, String.toList_empty, List.nil_append, h.name.tokens_append hparameters,
      h.parameters.tokens_append hx]
    simp [tokens]
  | some text =>
    obtain ⟨htext, hangle⟩ := h.typeParameters text htypes
    have htypes : Breaks (text.toList ++ (m.parameters.toList ++ x)) := by
      rw [Breaks, List.head?_append, hangle]
      rintro c ⟨⟩
      exact .inr (by decide)
    rw [Option.getD_some, h.name.tokens_append htypes, htext.tokens_append hparameters,
      h.parameters.tokens_append hx]

/-- What a signature shows is read as the tokens of the parts, one part after the other. -/
theorem PartsClosed.tokens_source (h : m.PartsClosed) :
    tokens m.bare.source.toList = m.signatureTokens := by
  have hclosed : ∀ part ∈ (m.modifiers ++ [m.returnType]).filter (!·.isEmpty),
      Closed part.toList := by
    intro part hpart
    rcases List.mem_append.1 (List.mem_filter.1 hpart).1 with hmodifier | htype
    · exact h.modifiers part hmodifier
    · rw [List.mem_singleton.1 htype]
      exact h.returnType
  have hsemicolon : Breaks [';'] := .mark (by decide) []
  rw [toList_source_bare, tokens_join hclosed, flatMap_tokens_filter, h.tokens_head hsemicolon,
    tokens_semicolon]
  simp [signatureTokens]

/-- A signature shows the modifiers, the return type, the name, the type parameters and the
parameters, and nothing of the other parts. It ends with a semicolon. -/
theorem signature_of_partsClosed (h : m.PartsClosed) :
    tokens m.bare.source.toList = m.signatureTokens ∧
      m.signature = String.ofList (layout m.signatureTokens) ∧
      (∃ front, m.signature = front ++ ";") ∧
      ∀ comments attributes constraints body,
        { m with
          comments := comments, attributes := attributes, constraints := constraints,
          body := body }.signature = m.signature := by
  have htokens := h.tokens_source
  have hsignature : m.signature = String.ofList (layout m.signatureTokens) := by
    rw [signature, Signature.normalize, htokens]
  refine ⟨htokens, hsignature, ?_, fun _ _ _ _ => rfl⟩
  obtain ⟨front, hfront⟩ := layout_concat
    (m.modifiers.flatMap (tokens ·.toList) ++ tokens m.returnType.toList ++ tokens m.name.toList ++
      tokens (m.typeParameters.getD "").toList ++ tokens m.parameters.toList) (mark ';')
  refine ⟨String.ofList front, ?_⟩
  rw [hsignature, signatureTokens, hfront, String.ofList_append]
  rfl

/-- An attribute, a constraint and a body that are never closed leave no trace. -/
theorem signature_of_partsClosed_unclosed :
    let m : Method :=
      { attributes := ["[A(\""], modifiers := ["public", "static // new\n"]
        returnType := "List<int /* key */>", name := "Find", typeParameters := some "<T>"
        parameters := "(T a, string b = \";\")", constraints := ["where T : '"]
        body := some (.block "/* ") }
    m.PartsClosed ∧ m.signature = "public static List<int> Find<T>(T a, string b = \";\");" := by
  intro m
  have hclosed : m.PartsClosed := by decide +kernel
  refine ⟨hclosed, ?_⟩
  rw [(signature_of_partsClosed hclosed).2.1]
  decide +kernel

end Method

end TypeCatalog
