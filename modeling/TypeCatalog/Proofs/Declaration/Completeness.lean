import TypeCatalog.Proofs.Catalog.Growth
import TypeCatalog.Proofs.Session.Transaction
import TypeCatalog.Proofs.SyntaxTree.Preorder

/-!
# From trees to catalogs

Nothing that is declared in a tree is lost or repeated, however deep it is: its declarations are
those of the nodes that declare something, in pre-order. Where second declarations are refused, a
text is therefore accepted just if the names of its classes differ, and so do those of its enums,
and the catalogs then list these names in pre-order.

## Main definitions

- `SyntaxTree.declarationKinds` — the kinds of node that declare something
- `SyntaxTree.Named` — that a node has a child that names it
- `Source.Declares` — the declaration that a node is

## Main statements

- `Source.forall₂_declares` — a tree declares what its nodes do
- `Source.exists_preorder_namesOf` — the names that a tree declares are those of its nodes
- `Intake.ofText_preorder` — from a text to catalogs
-/

namespace TypeCatalog

namespace SyntaxTree

/-- The kinds of node that declare something. -/
def declarationKinds : List String :=
  ["class_declaration", "enum_declaration", "interface_declaration", "struct_declaration",
    "record_declaration", "record_struct_declaration", "delegate_declaration",
    "namespace_declaration", "file_scoped_namespace_declaration"]

/-- A child of the node names it: one with the role `name`, or an identifier. -/
def Named (t : SyntaxTree) : Prop :=
  ∃ child ∈ t.children, child.info.field = some "name" ∨ child.kind = "identifier"

instance (t : SyntaxTree) : Decidable t.Named :=
  inferInstanceAs (Decidable (∃ child ∈ t.children, _ ∨ _))

/-- A node that is named has a child that is taken for its name. -/
theorem Named.exists_nameNode {t : SyntaxTree} (h : t.Named) : ∃ n, t.nameNode? = some n := by
  obtain ⟨child, hchild, hname⟩ := h
  rw [nameNode?]
  cases hfield : t.childWithField? "name" with
  | some n => exact ⟨n, rfl⟩
  | none =>
    have hkind : child.kind = "identifier" :=
      hname.resolve_left fun heq => List.find?_eq_none.1 hfield child hchild (by simp [heq])
    obtain ⟨n, hn⟩ : ∃ n, t.childOfKind? "identifier" = some n := by
      rw [← Option.isSome_iff_exists, childOfKind?, List.find?_isSome]
      exact ⟨child, hchild, by simp [hkind]⟩
    exact ⟨n, hn⟩

end SyntaxTree

/-- The kind of the nodes that declare something of a recorded sort. -/
def TypeKind.nodeKind : TypeKind → String
  | classKind => "class_declaration"
  | enumKind => "enum_declaration"

namespace Source

variable {s : Source} {t : SyntaxTree} {declaration : Declaration}

/-- The kinds of node that declare something of a sort that is passed over. -/
def kindsOf : OtherKind → List String
  | .interfaceKind => ["interface_declaration"]
  | .structKind => ["struct_declaration"]
  | .recordKind => ["record_declaration", "record_struct_declaration"]
  | .delegateKind => ["delegate_declaration"]
  | .namespaceKind => ["namespace_declaration", "file_scoped_namespace_declaration"]

/-- The declaration that a node is: of the sort that the kind of the node tells, with the name that
the node has and, if it is a class or an enum, with the members of the node. -/
inductive Declares (s : Source) (t : SyntaxTree) : Declaration → Prop where
  | ofClass {name : String} (hkind : t.kind = "class_declaration") (hname : s.name? t = some name) :
      Declares s t (.ofClass (s.classNamed t name))
  | ofEnum {name : String} (hkind : t.kind = "enum_declaration") (hname : s.name? t = some name) :
      Declares s t (.ofEnum ⟨name, s.constants t⟩)
  | other (sort : OtherKind) (hkind : t.kind ∈ kindsOf sort) : Declares s t (.other sort (s.name? t))

theorem exists_name (s : Source) (h : t.Named) : ∃ name, s.name? t = some name := by
  obtain ⟨n, hn⟩ := h.exists_nameNode
  exact ⟨s.text n, by rw [name?, hn]; rfl⟩

/-- The kind of a node tells which sort of declaration is passed over. -/
theorem otherKind?_eq_some_iff {kind : String} {sort : OtherKind} :
    otherKind? kind = some sort ↔ kind ∈ kindsOf sort := by
  constructor
  · intro h
    obtain ⟨before, after, hentries, -⟩ := List.lookup_eq_some_iff.1 h
    have hmem : (kind, sort) ∈ before ++ (kind, sort) :: after := by simp
    rw [← hentries] at hmem
    simp only [List.mem_cons, Prod.mk.injEq, List.not_mem_nil, or_false] at hmem
    rcases hmem with ⟨rfl, rfl⟩ | ⟨rfl, rfl⟩ | ⟨rfl, rfl⟩ | ⟨rfl, rfl⟩ | ⟨rfl, rfl⟩ | ⟨rfl, rfl⟩ |
      ⟨rfl, rfl⟩ <;> decide
  · intro h
    cases sort <;> simp only [kindsOf, List.mem_cons, List.not_mem_nil, or_false] at h
    case recordKind | namespaceKind => rcases h with rfl | rfl <;> rfl
    all_goals
      subst h
      rfl

/-- What declares something is a class, an enum, or of a sort that is passed over. -/
theorem mem_declarationKinds_iff {kind : String} :
    kind ∈ SyntaxTree.declarationKinds ↔ kind = "class_declaration" ∨ kind = "enum_declaration" ∨
      ∃ sort, kind ∈ kindsOf sort := by
  constructor
  · intro h
    simp only [SyntaxTree.declarationKinds, List.mem_cons, List.not_mem_nil, or_false] at h
    rcases h with rfl | rfl | rfl | rfl | rfl | rfl | rfl | rfl | rfl
    · exact .inl rfl
    · exact .inr (.inl rfl)
    all_goals exact .inr (.inr ⟨_, otherKind?_eq_some_iff.1 rfl⟩)
  · rintro (rfl | rfl | ⟨sort, h⟩)
    · decide
    · decide
    · cases sort <;> simp only [kindsOf, List.mem_cons, List.not_mem_nil, or_false] at h
      case recordKind | namespaceKind => rcases h with rfl | rfl <;> decide
      all_goals
        subst h
        decide

/-- A node that declares something is read as what it declares. -/
theorem declaration?_of_mem (s : Source) (h : t.kind ∈ SyntaxTree.declarationKinds)
    (hnamed : t.kind = "class_declaration" ∨ t.kind = "enum_declaration" → t.Named) :
    ∃ declaration, s.declaration? t = some declaration ∧ s.Declares t declaration := by
  rw [declaration?]
  by_cases hclass : t.kind = "class_declaration"
  · obtain ⟨name, hname⟩ := s.exists_name (hnamed (.inl hclass))
    rw [if_pos hclass, hname]
    exact ⟨_, rfl, .ofClass hclass hname⟩
  by_cases henum : t.kind = "enum_declaration"
  · obtain ⟨name, hname⟩ := s.exists_name (hnamed (.inr henum))
    rw [if_neg hclass, if_pos henum, hname]
    exact ⟨_, rfl, .ofEnum henum hname⟩
  · obtain ⟨sort, hsort⟩ := ((mem_declarationKinds_iff.1 h).resolve_left hclass).resolve_left henum
    rw [if_neg hclass, if_neg henum, otherKind?_eq_some_iff.2 hsort]
    exact ⟨_, rfl, .other sort hsort⟩

/-- Any other node declares nothing. -/
theorem declaration?_of_not_mem (s : Source) (h : t.kind ∉ SyntaxTree.declarationKinds) :
    s.declaration? t = none := by
  rw [mem_declarationKinds_iff, not_or, not_or] at h
  obtain ⟨hclass, henum, hother⟩ := h
  rw [declaration?, if_neg hclass, if_neg henum, Option.map_eq_none_iff,
    Option.eq_none_iff_forall_ne_some]
  exact fun sort hsort => hother ⟨sort, otherKind?_eq_some_iff.1 hsort⟩

/-! ### Streams of nodes -/

/-- What is selected from a list agrees with what is chosen from it, one by one. -/
theorem forall₂_filter_filterMap {α β : Type} {related : α → β → Prop} {selected : α → Bool}
    {choice : α → Option β} {xs : List α}
    (hsome : ∀ x ∈ xs, selected x = true → ∃ y, choice x = some y ∧ related x y)
    (hnone : ∀ x ∈ xs, ¬ selected x = true → choice x = none) :
    List.Forall₂ related (xs.filter selected) (xs.filterMap choice) := by
  induction xs with
  | nil => exact .nil
  | cons x rest ih =>
    rw [List.forall_mem_cons] at hsome hnone
    have hrest := ih hsome.2 hnone.2
    by_cases hx : selected x = true
    · obtain ⟨y, hy, hrelated⟩ := hsome.1 hx
      rw [List.filter_cons_of_pos hx, List.filterMap_cons_some hy]
      exact .cons hrelated hrest
    · rw [List.filter_cons_of_neg hx, List.filterMap_cons_none (hnone.1 hx)]
      exact hrest

/-- Where a choice is always made, none is left out. -/
theorem map_eq_map_some_filterMap {α β : Type} {choice : α → Option β} {xs : List α}
    (h : ∀ x ∈ xs, ∃ y, choice x = some y) : xs.map choice = (xs.filterMap choice).map some := by
  induction xs with
  | nil => rfl
  | cons x rest ih =>
    rw [List.forall_mem_cons] at h
    obtain ⟨⟨y, hy⟩, hrest⟩ := h
    rw [List.map_cons, ih hrest, hy, List.filterMap_cons_some hy, List.map_cons]

/-- The declarations of a tree are those of its nodes, as a walk meets them. -/
theorem declarations_eq (s : Source) (t : SyntaxTree) :
    s.declarations t = (t.walk.map (·.node)).filterMap s.declaration? := by
  rw [declarations, List.filterMap_map]
  rfl

/-- A tree declares what its nodes do, as far as its classes and enums have names. -/
theorem forall₂_declares (s : Source) {nodes : List SyntaxTree}
    (hnamed : ∀ t ∈ nodes, t.kind = "class_declaration" ∨ t.kind = "enum_declaration" → t.Named) :
    List.Forall₂ s.Declares (nodes.filter (SyntaxTree.declarationKinds.contains ·.kind))
      (nodes.filterMap s.declaration?) := by
  refine forall₂_filter_filterMap (fun t ht hkind => ?_) fun t _ hkind => ?_
  · exact s.declaration?_of_mem (List.contains_iff_mem.1 hkind) (hnamed t ht)
  · exact s.declaration?_of_not_mem fun hmem => hkind (List.contains_iff_mem.2 hmem)

/-- The name that a node declares of a sort is its own name, if it is of the kind of the sort. -/
theorem bind_nameOf?_declaration? (s : Source) (t : SyntaxTree) (kind : TypeKind) :
    (s.declaration? t).bind (Declaration.nameOf? kind) =
      if t.kind == kind.nodeKind then s.name? t else none := by
  rw [declaration?]
  by_cases hclass : t.kind = "class_declaration"
  · rw [if_pos hclass, hclass]
    cases kind <;> cases s.name? t <;> rfl
  rw [if_neg hclass]
  by_cases henum : t.kind = "enum_declaration"
  · rw [if_pos henum, henum]
    cases kind <;> cases s.name? t <;> rfl
  rw [if_neg henum]
  -- a declaration of another sort is not recorded, so its name does not count
  have hother : ¬ (t.kind == kind.nodeKind) = true := by
    cases kind
    · exact hclass ∘ beq_iff_eq.1
    · exact henum ∘ beq_iff_eq.1
  rw [if_neg hother]
  cases otherKind? t.kind <;> rfl

/-- The names that nodes declare of a sort are the names of the nodes of its kind. -/
theorem namesOf_filterMap (s : Source) (kind : TypeKind) (nodes : List SyntaxTree) :
    Declaration.namesOf kind (nodes.filterMap s.declaration?) =
      (nodes.filter (·.kind == kind.nodeKind)).filterMap s.name? := by
  rw [Declaration.namesOf, List.filterMap_filterMap, List.filterMap_filter]
  exact List.filterMap_congr fun t _ => s.bind_nameOf?_declaration? t kind

/-- The names that a tree declares of a recorded sort are those of its nodes of one kind, in
pre-order, if each of these has a name. -/
theorem exists_preorder_namesOf (s : Source) (t : SyntaxTree) (kind : TypeKind)
    (hnamed : ∀ n ∈ t.walk.map (·.node), n.kind = kind.nodeKind → n.Named) :
    ∃ nodes, t.Preorder (·.kind = kind.nodeKind) nodes ∧
      nodes.map s.name? = (Declaration.namesOf kind (s.declarations t)).map some := by
  refine ⟨_, SyntaxTree.preorder_filter_walk t fun n => beq_iff_eq, ?_⟩
  rw [s.declarations_eq, s.namesOf_filterMap]
  refine map_eq_map_some_filterMap fun n hn => ?_
  obtain ⟨hmem, hkind⟩ := List.mem_filter.1 hn
  exact s.exists_name (hnamed n hmem (beq_iff_eq.1 hkind))

end Source

/-! ### From a text to catalogs -/

namespace Catalogs

variable {path : String} {declarations : List Declaration} {c : Catalogs}

/-- Where second declarations are refused, a stream is collected if and only if the names of its
classes differ and so do those of its enums. -/
theorem exists_ofDeclarations_reject_iff (path : String) :
    (∃ c, (ofDeclarations .reject path declarations).answer = .ok c) ↔
      (Declaration.namesOf .classKind declarations).Nodup ∧
        (Declaration.namesOf .enumKind declarations).Nodup := by
  rw [← admits_empty_reject_iff]
  constructor
  · rintro ⟨c, hc⟩
    exact (ofDeclarations_answer_eq_ok_iff.1 hc).1
  · exact fun h => ⟨_, ofDeclarations_of_admits path h⟩

/-- Where names may not come again, a catalog has the names just as they were declared. -/
theorem names_of_ofDeclarations_reject
    (h : (ofDeclarations .reject path declarations).answer = .ok c) :
    c.classes.names = Declaration.namesOf .classKind declarations ∧
      c.enums.names = Declaration.namesOf .enumKind declarations := by
  obtain ⟨⟨hclasses, henums⟩, rfl⟩ := ofDeclarations_answer_eq_ok_iff.1 h
  rw [← Declaration.map_name_classRecords, ← Declaration.map_name_enumRecords]
  exact ⟨Catalog.names_fileAll_of_accepts hclasses, Catalog.names_fileAll_of_accepts henums⟩

end Catalogs

/-- A text declares what the nodes of its tree declare, each once and in pre-order. Where second
declarations are refused, it is accepted if and only if the names of its classes differ and so do
those of its enums; and then the catalogs list just these names in pre-order. -/
theorem Intake.ofText_preorder (parse : Parser) (path text : String) (language : Language)
    (hnamed : ∀ address n, (parse text).at? address = some n →
      n.kind = "class_declaration" ∨ n.kind = "enum_declaration" → n.Named) :
    let s := Source.ofText path language text
    ∃ (nodes classes enums : List SyntaxTree) (classNames enumNames : List String),
      (parse text).Preorder (·.kind ∈ SyntaxTree.declarationKinds) nodes ∧
      (parse text).Preorder (·.kind = "class_declaration") classes ∧
      (parse text).Preorder (·.kind = "enum_declaration") enums ∧
      List.Forall₂ s.Declares nodes (s.declarations (parse text)) ∧
      classes.map s.name? = classNames.map some ∧ enums.map s.name? = enumNames.map some ∧
      ((∃ c, (ofText parse .reject path text language.name).answer = .ok c) ↔
        classNames.Nodup ∧ enumNames.Nodup) ∧
      ∀ c, (ofText parse .reject path text language.name).answer = .ok c →
        c.classes.names = classNames ∧ c.enums.names = enumNames := by
  intro s
  -- the walk meets every node that has an address
  have hwalked : ∀ n ∈ (parse text).walk.map (·.node),
      n.kind = "class_declaration" ∨ n.kind = "enum_declaration" → n.Named := by
    intro n hn
    obtain ⟨address, haddress⟩ := SyntaxTree.mem_walk_iff.1 hn
    exact hnamed address n haddress
  obtain ⟨classes, hclasses, hclassNames⟩ := s.exists_preorder_namesOf (parse text) .classKind
    fun n hn hkind => hwalked n hn (.inl hkind)
  obtain ⟨enums, henums, henumNames⟩ := s.exists_preorder_namesOf (parse text) .enumKind
    fun n hn hkind => hwalked n hn (.inr hkind)
  refine ⟨_, classes, enums, _, _,
    SyntaxTree.preorder_filter_walk _ fun n => List.contains_iff_mem, hclasses, henums, ?_,
    hclassNames, henumNames, ?_, fun c hc => ?_⟩
  · rw [s.declarations_eq]
    exact s.forall₂_declares hwalked
  · rw [ofText_answer]
    exact Catalogs.exists_ofDeclarations_reject_iff path
  · rw [ofText_answer] at hc
    exact Catalogs.names_of_ofDeclarations_reject hc

/-- The tree of `class A { class B { } enum E { } }` after an error. -/
def SyntaxTree.nested : SyntaxTree :=
  let name (start : Nat) : SyntaxTree :=
    node { kind := "identifier", start := start, stop := start + 1, field := some "name" } []
  node { kind := "compilation_unit", start := 0, stop := 34, faulty := true }
    [node { kind := "ERROR", start := 0, stop := 34, faulty := true }
      [node { kind := "class_declaration", start := 0, stop := 34 }
        [name 6,
          node { kind := "declaration_list", start := 8, stop := 34, field := some "body" }
            [node { kind := "class_declaration", start := 10, stop := 21 } [name 16],
              node { kind := "enum_declaration", start := 22, stop := 32 } [name 27]]]]]

/-- What stands in an error is declared, and what it contains comes after it. -/
theorem Intake.ofText_preorder_nested :
    (∀ address n, SyntaxTree.nested.at? address = some n →
      n.kind = "class_declaration" ∨ n.kind = "enum_declaration" → n.Named) ∧
      (ofText (fun _ => SyntaxTree.nested) .reject "A.cs" "class A { class B { } enum E { } }"
        Language.csharp.name).answer =
          .ok ⟨⟨[("A", { name := "A" }), ("B", { name := "B" })]⟩, ⟨[("E", { name := "E" })]⟩⟩ ∧
      ∃ classes enums : List SyntaxTree,
        SyntaxTree.nested.Preorder (·.kind = "class_declaration") classes ∧
          SyntaxTree.nested.Preorder (·.kind = "enum_declaration") enums ∧
          classes.map (Source.ofText "A.cs" .csharp "class A { class B { } enum E { } }").name? =
            [some "A", some "B"] ∧
          enums.map (Source.ofText "A.cs" .csharp "class A { class B { } enum E { } }").name? =
            [some "E"] := by
  have hwalked : ∀ n ∈ SyntaxTree.nested.walk.map (·.node),
      n.kind = "class_declaration" ∨ n.kind = "enum_declaration" → n.Named := by decide
  have hnamed : ∀ address n, SyntaxTree.nested.at? address = some n →
      n.kind = "class_declaration" ∨ n.kind = "enum_declaration" → n.Named :=
    fun address n h => hwalked n (SyntaxTree.mem_walk_iff.2 ⟨address, h⟩)
  have hanswer : (ofText (fun _ => SyntaxTree.nested) .reject "A.cs"
      "class A { class B { } enum E { } }" Language.csharp.name).answer =
        .ok ⟨⟨[("A", { name := "A" }), ("B", { name := "B" })]⟩, ⟨[("E", { name := "E" })]⟩⟩ := by
    rfl
  obtain ⟨-, classes, enums, classNames, enumNames, -, hclasses, henums, -, hclassNames,
    henumNames, -, hnames⟩ := ofText_preorder (fun _ => SyntaxTree.nested) "A.cs"
      "class A { class B { } enum E { } }" .csharp hnamed
  obtain ⟨rfl, rfl⟩ := hnames _ hanswer
  exact ⟨hnamed, hanswer, classes, enums, hclasses, henums, hclassNames, henumNames⟩

end TypeCatalog
