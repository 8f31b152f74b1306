import Mathlib.Data.List.Basic
import Mathlib.Data.List.TakeWhile
import TypeCatalog.Declaration.Reading

/-!
# The layout of a method declaration

The parts of a method are told from each other by their kinds and by where they stand, save the
return type, which may be of almost any kind and even an identifier as the name is. Comments may
stand between any two of them. However the children of a declaration are laid out, the parts that
are taken from it are the right ones.

## Main definitions

- `MethodLayout` — children of a node that are the parts of a method
- `SyntaxTree.withoutComments` — a node with the comments among its children left out

## Main statements

- `Source.method?_withoutComments` — comments between the parts do not matter
- `Source.method?_of_layout` — the parts of a method
- `Source.method?_eq_none_iff` — when there is no method
-/

namespace TypeCatalog

open SyntaxTree (Visit)

/-! ### Leaving out comments -/

namespace SyntaxTree

variable {t : SyntaxTree} {kind : String}

/-- The node with the comments among its children left out. -/
def withoutComments (t : SyntaxTree) : SyntaxTree := node t.info (t.children.filter (!·.isComment))

@[simp] theorem children_withoutComments (t : SyntaxTree) :
    t.withoutComments.children = t.children.filter (!·.isComment) := rfl

theorem not_isComment_of_kind_ne (h : t.kind ≠ "comment") : (!t.isComment) = true := by
  simp [isComment, h]

/-- The children of another kind are all kept. -/
theorem childrenOfKind_withoutComments (h : kind ≠ "comment") :
    t.withoutComments.childrenOfKind kind = t.childrenOfKind kind := by
  rw [childrenOfKind, children_withoutComments, List.filter_filter]
  refine List.filter_congr fun c _ => ?_
  by_cases hkind : c.kind = kind
  · simp [hkind, not_isComment_of_kind_ne (hkind ▸ h)]
  · simp [hkind]

/-- The child of a kind is the first of the children of that kind. -/
theorem head?_childrenOfKind (t : SyntaxTree) (kind : String) :
    (t.childrenOfKind kind).head? = t.childOfKind? kind :=
  List.head?_filter

/-- The first child of another kind is found as before. -/
theorem childOfKind?_withoutComments (h : kind ≠ "comment") :
    t.withoutComments.childOfKind? kind = t.childOfKind? kind := by
  rw [← head?_childrenOfKind, ← head?_childrenOfKind, childrenOfKind_withoutComments h]

end SyntaxTree

namespace Source

variable {s : Source} {v : Visit} {t identifier : SyntaxTree} {head before : List SyntaxTree}

/-- What stands before the parameters does not hold comments anyway. -/
theorem methodHead_withoutComments (t : SyntaxTree) :
    methodHead t.withoutComments = methodHead t := by
  -- a comment neither ends the head nor stays in it
  have hend (c : SyntaxTree) : (!(!c.isComment) || c.kind != "parameter_list") =
      (c.kind != "parameter_list") := by
    by_cases h : c.kind = "comment" <;> simp [SyntaxTree.isComment, h]
  have haside (c : SyntaxTree) : (!asideKinds.contains c.kind && !c.isComment) =
      !asideKinds.contains c.kind := by
    by_cases h : c.kind = "comment" <;> simp [SyntaxTree.isComment, asideKinds, h]
  simp only [methodHead, SyntaxTree.children_withoutComments, List.takeWhile_filter,
    List.filter_filter, hend, haside]

/-- Only a block and an arrow clause are bodies. -/
theorem methodBody?_eq_none (s : Source) (hblock : t.kind ≠ "block")
    (harrow : t.kind ≠ "arrow_expression_clause") : s.methodBody? t = none := by
  rw [methodBody?, if_neg hblock, if_neg harrow]

/-! ### The name -/

/-- A head is split unless there is no identifier in it. -/
theorem splitName?_eq_none_iff : splitName? head = none ↔ ∀ t ∈ head, t.kind ≠ "identifier" := by
  have hdrop : splitName? head = none ↔
      head.reverse.dropWhile (·.kind != "identifier") = [] := by
    rw [splitName?]
    cases head.reverse.dropWhile (·.kind != "identifier") <;> simp
  rw [hdrop, List.dropWhile_eq_nil_iff]
  simp

/-- An identifier at the end is the last one. -/
theorem splitName?_append (h : identifier.kind = "identifier") :
    splitName? (before ++ [identifier]) = some (before, identifier) := by
  rw [splitName?, List.reverse_append, List.reverse_singleton, List.singleton_append,
    List.dropWhile_cons_of_neg (by simp [h])]
  simp

/-! ### The method -/

/-- A method has the same parts with the comments among its children left out. -/
theorem method?_withoutComments (s : Source) (v : Visit) :
    s.method? { v with node := v.node.withoutComments } = s.method? v := by
  have htexts {kind : String} (h : kind ≠ "comment") :
      s.textsOfKind v.node.withoutComments kind = s.textsOfKind v.node kind := by
    rw [textsOfKind, textsOfKind, SyntaxTree.childrenOfKind_withoutComments h]
  have hbody : v.node.withoutComments.children.findSome? s.methodBody? =
      v.node.children.findSome? s.methodBody? := by
    rw [SyntaxTree.children_withoutComments, ← List.head?_filterMap, ← List.head?_filterMap,
      List.filterMap_filter]
    congr 1
    refine List.filterMap_congr fun c _ => ?_
    by_cases h : c.kind = "comment" <;> simp [SyntaxTree.isComment, methodBody?, h]
  simp only [method?, methodHead_withoutComments, htexts, hbody,
    SyntaxTree.childOfKind?_withoutComments, ne_eq, String.reduceEq, not_false_eq_true]
  rfl

/-- The head is what stands before the first parameter list, without attributes, modifiers and type
parameters. -/
theorem methodHead_of_children {parameters : SyntaxTree} {rest : List SyntaxTree}
    (h : t.children = before ++ parameters :: rest)
    (hparameters : parameters.kind = "parameter_list")
    (hbefore : ∀ c ∈ before, c.kind ≠ "parameter_list") :
    methodHead t = before.filter (!asideKinds.contains ·.kind) := by
  have hpass : ∀ c ∈ before, (c.kind != "parameter_list") = true := fun c hc =>
    bne_iff_ne.2 (hbefore c hc)
  rw [methodHead, h, List.takeWhile_append_of_pos hpass,
    List.takeWhile_cons_of_neg (by simp [hparameters]), List.append_nil]

/-- There is no method if and only if there are no parameters or there is no name before them. -/
theorem method?_eq_none_iff : s.method? v = none ↔
    (∀ c ∈ v.node.children, c.kind ≠ "parameter_list") ∨
      ∃ before parameters rest, v.node.children = before ++ parameters :: rest ∧
        parameters.kind = "parameter_list" ∧ (∀ c ∈ before, c.kind ≠ "parameter_list") ∧
        ∀ c ∈ before, c.kind ≠ "identifier" := by
  have hsplit : s.method? v = none ↔
      v.node.childOfKind? "parameter_list" = none ∨ splitName? (methodHead v.node) = none := by
    rw [method?]
    cases v.node.childOfKind? "parameter_list" with
    | none => simp
    | some parameters => cases splitName? (methodHead v.node) <;> simp
  have haside {before : List SyntaxTree} :
      splitName? (before.filter (!asideKinds.contains ·.kind)) = none ↔
        ∀ c ∈ before, c.kind ≠ "identifier" := by
    simp only [splitName?_eq_none_iff, List.mem_filter, and_imp]
    refine forall₂_congr fun c _ => ⟨fun h hkind => h (by rw [hkind]; decide) hkind, fun h _ => h⟩
  -- only what stands before the first parameter list is searched for the name
  rw [hsplit]
  constructor
  · intro h
    cases hfind : v.node.childOfKind? "parameter_list" with
    | none => exact .inl (by simpa [SyntaxTree.childOfKind?] using hfind)
    | some parameters =>
      obtain ⟨hkind, before, rest, hchildren, hbefore⟩ := List.find?_eq_some_iff_append.1 hfind
      have hkind : parameters.kind = "parameter_list" := beq_iff_eq.1 hkind
      have hbefore : ∀ c ∈ before, c.kind ≠ "parameter_list" := by simpa using hbefore
      refine .inr ⟨before, parameters, rest, hchildren, hkind, hbefore, ?_⟩
      rw [hfind, methodHead_of_children hchildren hkind hbefore, haside] at h
      exact h.resolve_left (by simp)
  · rintro (h | ⟨before, parameters, rest, hchildren, hkind, hbefore, hnone⟩)
    · exact .inl (by simpa [SyntaxTree.childOfKind?] using h)
    · exact .inr (by rwa [methodHead_of_children hchildren hkind hbefore, haside])

end Source

/-! ### Layouts -/

/-- The kinds of node that are parts of a method. -/
def MethodLayout.partKinds : List String :=
  ["attribute_list", "modifier", "explicit_interface_specifier", "identifier",
    "type_parameter_list", "parameter_list", "type_parameter_constraints_clause", "block",
    "arrow_expression_clause"]

/-- Children of a node that are the parts of a method. Comments may stand anywhere, and behind the
parameters tokens of other kinds. -/
structure MethodLayout (children : List SyntaxTree) where
  attributes : List SyntaxTree
  modifiers : List SyntaxTree
  returnType : SyntaxTree
  qualifier : Option SyntaxTree
  identifier : SyntaxTree
  typeParameters : Option SyntaxTree
  parameters : SyntaxTree
  constraints : List SyntaxTree
  body : Option SyntaxTree
  /-- What stands behind the parameters. -/
  after : List SyntaxTree
  children_eq : children.filter (!·.isComment) =
    attributes ++ modifiers ++ [returnType] ++ qualifier.toList ++ [identifier] ++
      typeParameters.toList ++ parameters :: after
  after_eq : after.filter (MethodLayout.partKinds.contains ·.kind) = constraints ++ body.toList
  attributes_kind : ∀ t ∈ attributes, t.kind = "attribute_list"
  modifiers_kind : ∀ t ∈ modifiers, t.kind = "modifier"
  /-- A type may be written as a mere name. -/
  returnType_kind : returnType.kind = "identifier" ∨ returnType.kind ∉ MethodLayout.partKinds
  qualifier_kind : ∀ t ∈ qualifier.toList, t.kind = "explicit_interface_specifier"
  identifier_kind : identifier.kind = "identifier"
  typeParameters_kind : ∀ t ∈ typeParameters.toList, t.kind = "type_parameter_list"
  parameters_kind : parameters.kind = "parameter_list"
  constraints_kind : ∀ t ∈ constraints, t.kind = "type_parameter_constraints_clause"
  body_kind : ∀ t ∈ body.toList, t.kind = "block" ∨ t.kind = "arrow_expression_clause"

namespace MethodLayout

variable {children : List SyntaxTree}

/-- The method whose parts are laid out. -/
def method (s : Source) (comments : List String) (layout : MethodLayout children) : Method where
  comments := comments
  attributes := layout.attributes.map s.text
  modifiers := layout.modifiers.map s.text
  returnType := s.text layout.returnType
  name := (layout.qualifier.map s.text).getD "" ++ s.text layout.identifier
  typeParameters := layout.typeParameters.map s.text
  parameters := s.text layout.parameters
  constraints := layout.constraints.map s.text
  body := layout.body.map fun t =>
    if t.kind = "block" then .block (s.text t) else .expression (s.text t)

/-- What stands before the parameters. -/
def before (layout : MethodLayout children) : List SyntaxTree :=
  layout.attributes ++ layout.modifiers ++ [layout.returnType] ++ layout.qualifier.toList ++
    [layout.identifier] ++ layout.typeParameters.toList

/-- Nodes of one kind are kept all or none by a test of their kinds. -/
theorem filter_of_kind {ts : List SyntaxTree} {kind : String} (h : ∀ t ∈ ts, t.kind = kind)
    (p : String → Bool) : ts.filter (p ·.kind) = if p kind then ts else [] := by
  split
  case isTrue hp => exact List.filter_eq_self.2 fun t ht => (h t ht).symm ▸ hp
  case isFalse hp => exact List.filter_eq_nil_iff.2 fun t ht => (h t ht).symm ▸ hp

/-- A test of kinds keeps each part that stands before the parameters, or leaves it out. -/
theorem filter_before (layout : MethodLayout children) (p : String → Bool) :
    layout.before.filter (p ·.kind) =
      (if p "attribute_list" then layout.attributes else []) ++
        (if p "modifier" then layout.modifiers else []) ++
        (if p layout.returnType.kind then [layout.returnType] else []) ++
        (if p "explicit_interface_specifier" then layout.qualifier.toList else []) ++
        (if p "identifier" then [layout.identifier] else []) ++
        (if p "type_parameter_list" then layout.typeParameters.toList else []) := by
  have hidentifier : ∀ t ∈ [layout.identifier], t.kind = "identifier" := by
    simpa using layout.identifier_kind
  have hreturn : ∀ t ∈ [layout.returnType], t.kind = layout.returnType.kind := by simp
  simp only [before, List.filter_append, filter_of_kind layout.attributes_kind,
    filter_of_kind layout.modifiers_kind, filter_of_kind hreturn,
    filter_of_kind layout.qualifier_kind, filter_of_kind hidentifier,
    filter_of_kind layout.typeParameters_kind]

/-- The type is of none of the kinds that the other parts have. -/
theorem returnType_kind_ne (layout : MethodLayout children) {kind : String}
    (hpart : kind ∈ partKinds) (hkind : kind ≠ "identifier") : layout.returnType.kind ≠ kind := by
  rintro rfl
  exact layout.returnType_kind.elim hkind (absurd hpart)

/-- The nodes of such a kind behind the parameters are constraints or the body. -/
theorem filter_after (layout : MethodLayout children) {kind : String} (h : kind ∈ partKinds) :
    layout.after.filter (·.kind == kind) =
      (layout.constraints ++ layout.body.toList).filter (·.kind == kind) := by
  rw [← layout.after_eq, List.filter_filter]
  refine List.filter_congr fun t _ => ?_
  by_cases hkind : t.kind = kind
  · simp [hkind, h]
  · simp [hkind]

variable {t : SyntaxTree}

/-- The children that are not comments are the parts before the parameters, the parameters, and what
is behind them. -/
theorem children_withoutComments (layout : MethodLayout t.children) :
    t.withoutComments.children = layout.before ++ layout.parameters :: layout.after :=
  layout.children_eq

/-- The children of a kind are the parts of that kind. -/
theorem childrenOfKind (layout : MethodLayout t.children) (kind : String) (hpart : kind ∈ partKinds)
    (hother : kind ∉ ["identifier", "parameter_list", "block", "arrow_expression_clause"]) :
    t.withoutComments.childrenOfKind kind =
      (if "attribute_list" = kind then layout.attributes else []) ++
        (if "modifier" = kind then layout.modifiers else []) ++
        (if "explicit_interface_specifier" = kind then layout.qualifier.toList else []) ++
        (if "type_parameter_list" = kind then layout.typeParameters.toList else []) ++
        (if "type_parameter_constraints_clause" = kind then layout.constraints else []) := by
  simp only [List.mem_cons, List.not_mem_nil, or_false, not_or] at hother
  obtain ⟨hidentifier, hparameters, hblock, harrow⟩ := hother
  have hbody : layout.body.toList.filter (·.kind == kind) = [] := by
    refine List.filter_eq_nil_iff.2 fun t ht => ?_
    rcases layout.body_kind t ht with hkind | hkind <;> simp [Ne.symm, *]
  have hreturn := layout.returnType_kind_ne hpart hidentifier
  rw [SyntaxTree.childrenOfKind, layout.children_withoutComments, List.filter_append,
    layout.filter_before (· == kind), List.filter_cons_of_neg, layout.filter_after hpart,
    List.filter_append, filter_of_kind layout.constraints_kind (· == kind), hbody]
  · simp [hreturn, Ne.symm hidentifier]
  · simp [layout.parameters_kind, Ne.symm hparameters]

/-- No part before the parameters is of the kind of a part behind them. -/
theorem before_kind_ne (layout : MethodLayout children) {kind : String} (hpart : kind ∈ partKinds)
    (hother : kind ∉ ["attribute_list", "modifier", "explicit_interface_specifier", "identifier",
      "type_parameter_list"]) : ∀ t ∈ layout.before, t.kind ≠ kind := by
  simp only [List.mem_cons, List.not_mem_nil, or_false, not_or] at hother
  have hreturn := layout.returnType_kind_ne hpart hother.2.2.2.1
  have hnone := layout.filter_before (· == kind)
  simpa [hreturn, Ne.symm, hother, List.filter_eq_nil_iff] using hnone

/-- The parameters are the only parameter list. -/
theorem childOfKind?_parameters (layout : MethodLayout t.children) :
    t.withoutComments.childOfKind? "parameter_list" = some layout.parameters := by
  have hnone : layout.before.find? (·.kind == "parameter_list") = none :=
    List.find?_eq_none.2 fun c hc => by
      simpa using layout.before_kind_ne (by decide) (by decide) c hc
  rw [SyntaxTree.childOfKind?, layout.children_withoutComments, List.find?_append, hnone,
    Option.none_or, List.find?_cons_of_pos (by simp [layout.parameters_kind])]

/-- The head of a method is its type, its qualifier and its name. -/
theorem methodHead_eq (layout : MethodLayout t.children) :
    Source.methodHead t.withoutComments =
      layout.returnType :: layout.qualifier.toList ++ [layout.identifier] := by
  have hcomment : layout.returnType.kind ≠ "comment" := by
    have hmem : layout.returnType ∈ t.children.filter (!·.isComment) := by
      simp [layout.children_eq]
    simpa [SyntaxTree.isComment] using (List.mem_filter.1 hmem).2
  have haside : ∀ kind ∈ Source.asideKinds, kind = "comment" ∨
      kind ∈ partKinds ∧ kind ≠ "identifier" := by decide
  -- so the return type, whatever its kind, is not put aside
  have hreturn : Source.asideKinds.contains layout.returnType.kind = false := by
    rw [Bool.eq_false_iff, ne_eq, List.contains_iff_mem]
    intro hmem
    obtain hkind | ⟨hpart, hkind⟩ := haside _ hmem
    · exact hcomment hkind
    · exact layout.returnType_kind_ne hpart hkind rfl
  rw [Source.methodHead_of_children layout.children_withoutComments layout.parameters_kind
    (layout.before_kind_ne (by decide) (by decide)),
    layout.filter_before (!Source.asideKinds.contains ·), hreturn]
  simp [Source.asideKinds]

/-- Before the name, the type ends where the qualifier begins. -/
theorem span_returnType (layout : MethodLayout children) :
    (layout.returnType :: layout.qualifier.toList).takeWhile
        (·.kind != "explicit_interface_specifier") = [layout.returnType] ∧
      (layout.returnType :: layout.qualifier.toList).dropWhile
        (·.kind != "explicit_interface_specifier") = layout.qualifier.toList := by
  have hreturn : layout.returnType.kind ≠ "explicit_interface_specifier" :=
    layout.returnType_kind_ne (by decide) (by decide)
  have hkind := layout.qualifier_kind
  cases hqualifier : layout.qualifier <;> simp_all

/-- The body found is the body laid out, as a block or as an expression. -/
theorem findSome?_methodBody? (layout : MethodLayout t.children) (s : Source) :
    t.withoutComments.children.findSome? s.methodBody? =
      layout.body.map fun t => if t.kind = "block" then .block (s.text t)
        else .expression (s.text t) := by
  have hbefore : layout.before.filterMap s.methodBody? = [] :=
    List.filterMap_eq_nil_iff.2 fun c hc => Source.methodBody?_eq_none s
      (layout.before_kind_ne (by decide) (by decide) c hc)
      (layout.before_kind_ne (by decide) (by decide) c hc)
  have hparameters : s.methodBody? layout.parameters = none := by
    rw [Source.methodBody?, layout.parameters_kind]
    rfl
  have hconstraints : layout.constraints.filterMap s.methodBody? = [] := by
    refine List.filterMap_eq_nil_iff.2 fun c hc => ?_
    rw [Source.methodBody?, layout.constraints_kind c hc]
    rfl
  -- tokens of other kinds may stand behind the parameters, but none of them is a body
  have hafter : layout.after.filterMap s.methodBody? =
      (layout.constraints ++ layout.body.toList).filterMap s.methodBody? := by
    rw [← layout.after_eq, List.filterMap_filter]
    refine List.filterMap_congr fun c _ => ?_
    split
    case isTrue => rfl
    case isFalse hother =>
      refine Source.methodBody?_eq_none s (fun hkind => hother ?_) fun hkind => hother ?_
      all_goals
        rw [hkind]
        decide
  rw [layout.children_withoutComments, ← List.head?_filterMap, List.filterMap_append, hbefore,
    List.nil_append, List.filterMap_cons_none hparameters, hafter, List.filterMap_append,
    hconstraints, List.nil_append]
  cases hbody : layout.body with
  | none => rfl
  | some body =>
    rcases layout.body_kind body (by simp [hbody]) with hkind | hkind <;>
      simp [Source.methodBody?, hkind]

end MethodLayout

namespace Source

/-- A node whose children are laid out as a method is read as that method. -/
theorem method?_of_layout (s : Source) (v : Visit) (layout : MethodLayout v.node.children) :
    s.method? v = some (layout.method s (s.commentsAbove v)) := by
  -- the type and the name are told apart by their places, all other parts by their kinds
  have hsplit : splitName? (methodHead v.node.withoutComments) =
      some (layout.returnType :: layout.qualifier.toList, layout.identifier) := by
    rw [layout.methodHead_eq]
    exact splitName?_append layout.identifier_kind
  have hattributes : v.node.withoutComments.childrenOfKind "attribute_list" =
      layout.attributes := by
    simp [layout.childrenOfKind "attribute_list" (by decide) (by decide)]
  have hmodifiers : v.node.withoutComments.childrenOfKind "modifier" = layout.modifiers := by
    simp [layout.childrenOfKind "modifier" (by decide) (by decide)]
  have hconstraints : v.node.withoutComments.childrenOfKind "type_parameter_constraints_clause" =
      layout.constraints := by
    simp [layout.childrenOfKind "type_parameter_constraints_clause" (by decide) (by decide)]
  have htypeParameters : v.node.withoutComments.childOfKind? "type_parameter_list" =
      layout.typeParameters := by
    simp [← SyntaxTree.head?_childrenOfKind,
      layout.childrenOfKind "type_parameter_list" (by decide) (by decide)]
  obtain ⟨hreturnType, hqualifier⟩ := layout.span_returnType
  have hname : String.join (layout.qualifier.toList.map s.text) =
      (layout.qualifier.map s.text).getD "" := by
    cases layout.qualifier <;> simp [String.join]
  rw [← method?_withoutComments]
  simp only [method?, textsOfKind, layout.childOfKind?_parameters, hsplit,
    layout.findSome?_methodBody?, hattributes, hmodifiers, hconstraints, htypeParameters,
    Option.bind_eq_bind, Option.bind_some, hreturnType, hqualifier, hname]
  rfl

/-- However the parts of a method are laid out, each of them is found, whatever comments stand
between them; and a node is a method unless it has no parameters or no name before the first of
them. -/
theorem method?_layout (s : Source) (v : Visit) :
    (∀ layout : MethodLayout v.node.children,
        s.method? v = some (layout.method s (s.commentsAbove v))) ∧
      s.method? { v with node := v.node.withoutComments } = s.method? v ∧
      (s.method? v = none ↔ (∀ c ∈ v.node.children, c.kind ≠ "parameter_list") ∨
        ∃ before parameters rest, v.node.children = before ++ parameters :: rest ∧
          parameters.kind = "parameter_list" ∧ (∀ c ∈ before, c.kind ≠ "parameter_list") ∧
          ∀ c ∈ before, c.kind ≠ "identifier") :=
  ⟨method?_of_layout s v, method?_withoutComments s v, method?_eq_none_iff⟩

/-- The last identifier before the parameters is the name, although the return type is one too, and
the comment between them is no part. -/
theorem method?_layout_explicit :
    let s := ofText "A.cs" .csharp "T /* c */ I.M(int x) => x;"
    let type : SyntaxTree := .node ⟨"identifier", 0, 1, true, false, some "returns"⟩ []
    let comment : SyntaxTree := .node ⟨"comment", 2, 9, true, false, none⟩ []
    let interface : SyntaxTree :=
      .node ⟨"explicit_interface_specifier", 10, 12, true, false, none⟩ []
    let name : SyntaxTree := .node ⟨"identifier", 12, 13, true, false, some "name"⟩ []
    let parameters : SyntaxTree :=
      .node ⟨"parameter_list", 13, 20, true, false, some "parameters"⟩ []
    let body : SyntaxTree := .node ⟨"arrow_expression_clause", 21, 25, true, false, some "body"⟩ []
    let semicolon : SyntaxTree := .node ⟨";", 25, 26, false, false, none⟩ []
    let v : Visit := ⟨0, .node ⟨"method_declaration", 0, 26, true, false, none⟩
      [type, comment, interface, name, parameters, body, semicolon], []⟩
    s.method? v = some
      { returnType := "T", name := "I.M", parameters := "(int x)",
        body := some (.expression "=> x") } := by
  intro s type comment interface name parameters body semicolon v
  let layout : MethodLayout v.node.children :=
    { attributes := [], modifiers := [], returnType := type, qualifier := some interface,
      identifier := name, typeParameters := none, parameters := parameters, constraints := [],
      body := some body, after := [body, semicolon], children_eq := rfl, after_eq := rfl,
      attributes_kind := by simp, modifiers_kind := by simp, returnType_kind := .inl rfl,
      qualifier_kind := by simp [interface, SyntaxTree.kind, SyntaxTree.info],
      identifier_kind := rfl, typeParameters_kind := by simp, parameters_kind := rfl,
      constraints_kind := by simp, body_kind := by simp [body, SyntaxTree.kind, SyntaxTree.info] }
  obtain ⟨hlayout, -⟩ := method?_layout s v
  exact (hlayout layout).trans (by rfl)

end Source

end TypeCatalog
