import TypeCatalog.Proofs.Declaration.Completeness
import TypeCatalog.Proofs.Source.CommentsAbove

/-!
# Members and the types they belong to

A node is known by its place in the tree, since equal nodes may stand in several places. The members
of a class and the constants of an enum are children of its body, so the place of such a node tells
the type that it belongs to, however deep types are nested.

## Main definitions

- `SyntaxTree.InOrder` — that places are all those that fulfil a condition, in order
- `SyntaxTree.IsPart` — the children of the body of a type
- `SyntaxTree.IsMember`, `SyntaxTree.IsConstant` — the members of a class, the constants of an enum
- `Source.ClassAt`, `Source.EnumAt` — what is read of the class or the enum at a place

## Main statements

- `SyntaxTree.IsMember.unique` — a node is a member of one class only, and of one sort
- `SyntaxTree.exists_inOrder_isPart` — the children of a body have places in the tree
- `Source.declarations_members` — every member belongs to the type that directly contains it
-/

namespace TypeCatalog

/-- The sorts of direct members that a class declaration has. -/
inductive MemberSort where
  | field
  | property
  | event
  | method
  deriving DecidableEq, Repr

/-- The kind of the nodes that are members of a sort. -/
def MemberSort.nodeKind : MemberSort → String
  | field => "field_declaration"
  | property => "property_declaration"
  | event => "event_field_declaration"
  | method => "method_declaration"

/-- Members of different sorts are nodes of different kinds. -/
theorem MemberSort.nodeKind_injective : Function.Injective nodeKind := by
  intro sort sort' h
  cases sort <;> cases sort' <;> first | rfl | exact absurd h (by decide)

namespace SyntaxTree

variable {t c body n : SyntaxTree} {kind : String} {p : SyntaxTree → Prop}
  {owner owner' place : List Nat} {sort sort' : MemberSort} {i : Nat}

/-! ### Bodies -/

/-- Which child of a type declaration is its body: the first one with the role `body` if it is of
the given kind, else the first one of that kind. -/
def bodyIndex? (t : SyntaxTree) (kind : String) : Option Nat :=
  (t.children.findIdx? (·.info.field == some "body")).filter
      (fun i => t.children[i]?.any (·.kind == kind)) <|>
    t.children.findIdx? (·.kind == kind)

/-- The body of a type declaration is one of its children, at a known place. -/
theorem bodyOfKind?_eq (t : SyntaxTree) (kind : String) :
    t.bodyOfKind? kind = (t.bodyIndex? kind).bind (t.children[·]?) := by
  rw [bodyOfKind?, childWithField?, childOfKind?, List.find?_eq_bind_findIdx?_getElem?,
    List.find?_eq_bind_findIdx?_getElem?, bodyIndex?]
  cases t.children.findIdx? (·.info.field == some "body") with
  | none => simp
  | some i =>
    cases hi : t.children[i]? with
    | none => simp [hi, Option.filter]
    | some body => by_cases hkind : body.kind = kind <;> simp [hi, hkind, Option.filter]

/-! ### Parts -/

/-- The places are those that fulfil a condition, each of them once, in the order of addresses. -/
def InOrder (places : List (List Nat)) (condition : List Nat → Prop) : Prop :=
  places.Pairwise Precedes ∧ ∀ place, place ∈ places ↔ condition place

/-- The node at a place is a direct part of the one at the place of its owner: a child of its body
that fulfils a condition. -/
inductive IsPart (t : SyntaxTree) (kind : String) (p : SyntaxTree → Prop) (owner : List Nat) :
    List Nat → Prop where
  | intro {c body n : SyntaxTree} {i k : Nat} (howner : t.at? owner = some c)
      (hindex : c.bodyIndex? kind = some i) (hbody : c.children[i]? = some body)
      (hn : body.children[k]? = some n) (hp : p n) : IsPart t kind p owner (owner ++ [i, k])

/-- The node at a place is a member of the class at the place of its owner: a child of the body that
the grammar names, of the kind of the sort. -/
def IsMember (t : SyntaxTree) (sort : MemberSort) (owner place : List Nat) : Prop :=
  t.IsPart "declaration_list" (fun n => n.info.named = true ∧ n.kind = sort.nodeKind) owner place

/-- The node at a place is a constant of the enum at the place of its owner: a child of the body
that has a name. -/
def IsConstant (t : SyntaxTree) (owner place : List Nat) : Prop :=
  t.IsPart "enum_member_declaration_list"
    (fun n => n.kind = "enum_member_declaration" ∧ n.Named) owner place

/-- A part is found at its place. -/
theorem IsPart.exists_node (h : t.IsPart kind p owner place) :
    ∃ n, t.at? place = some n ∧ p n := by
  cases h with
  | @intro c body n i k howner _ hbody hn hp =>
    have hstem : t.at? (owner ++ [i]) = some body := (at?_append_singleton howner i).trans hbody
    have hplace : t.at? (owner ++ [i, k]) = some n := by
      rw [List.append_cons, at?_append_singleton hstem, hn]
    exact ⟨n, hplace, hp⟩

/-- The place of a part is two steps below that of its owner. -/
theorem IsPart.dropLast (h : t.IsPart kind p owner place) : place.dropLast.dropLast = owner := by
  cases h
  simp

/-- A node is a member of one class only, and of one sort. -/
theorem IsMember.unique (h : t.IsMember sort owner place) (h' : t.IsMember sort' owner' place) :
    owner = owner' ∧ sort = sort' := by
  obtain ⟨n, hn, -, hkind⟩ := h.exists_node
  obtain ⟨n', hn', -, hkind'⟩ := h'.exists_node
  obtain rfl : n = n' := Option.some.inj (hn.symm.trans hn')
  exact ⟨h.dropLast.symm.trans h'.dropLast,
    MemberSort.nodeKind_injective (hkind.symm.trans hkind')⟩

/-- The children of the body of a type, as a walk over them alone meets them. -/
def parts (t : SyntaxTree) (kind : String) : List Visit :=
  match t.bodyOfKind? kind with
  | none => []
  | some body => visits 0 [] body.children

/-- The children of a node are visited alike from the root and by themselves, but for their depth.
-/
theorem map_visitAt?_children {stem : List Nat} (h : t.at? stem = some body) :
    ((List.range body.children.length).map (stem ++ [·])).map t.visitAt? =
      (visits 0 [] body.children).map fun v => some { v with depth := stem.length + 1 } := by
  refine List.ext_getElem? fun k => ?_
  rw [List.map_map, List.getElem?_map, List.getElem?_map, getElem?_visits]
  by_cases hk : k < body.children.length
  · rw [List.getElem?_range hk, Option.map_some, Function.comp_apply, visitAt?,
      visitFrom?_append_singleton, h, Option.bind_some, List.getElem?_eq_getElem hk,
      List.append_nil, Nat.zero_add]
    rfl
  · rw [List.getElem?_eq_none (by simpa using hk), List.getElem?_eq_none (by simpa using hk)]
    rfl

/-- The children of a node that fulfil a condition have places in the tree, in order. -/
theorem exists_inOrder_children {stem : List Nat} {q : SyntaxTree → Bool}
    (h : t.at? stem = some body) (hq : ∀ n, q n = true ↔ p n) :
    ∃ places, InOrder places
        (fun place => ∃ k n, place = stem ++ [k] ∧ body.children[k]? = some n ∧ p n) ∧
      places.map t.visitAt? = ((visits 0 [] body.children).filter (q ·.node)).map
        fun v => some { v with depth := stem.length + 1 } := by
  have hat := at?_append_singleton h
  let all := (List.range body.children.length).map (stem ++ [·])
  refine ⟨all.filter (Option.any q ∘ t.at?), ⟨?_, fun place => ?_⟩, ?_⟩
  · refine List.Pairwise.filter _ (List.pairwise_map.2 ?_)
    exact List.pairwise_lt_range.imp fun hlt => .branch stem hlt [] []
  · rw [List.mem_filter, List.mem_map, Function.comp_apply, Option.any_eq_true]
    constructor
    · rintro ⟨⟨k, -, rfl⟩, n, hn, hpass⟩
      exact ⟨k, n, rfl, (hat k).symm.trans hn, (hq n).1 hpass⟩
    · rintro ⟨k, n, rfl, hn, hp⟩
      obtain ⟨hk, -⟩ := List.getElem?_eq_some_iff.1 hn
      exact ⟨⟨k, List.mem_range.2 hk, rfl⟩, n, (hat k).trans hn, (hq n).2 hp⟩
  · have hnode : Option.any q ∘ t.at? = Option.any (q ·.node) ∘ t.visitAt? := by
      funext place
      rw [Function.comp_apply, Function.comp_apply, visitAt?, ← map_node_visitFrom? 0 [],
        Option.any_map]
    rw [hnode, ← List.filter_map, map_visitAt?_children h, List.filter_map]
    rfl

/-- A type without a body has no parts. -/
theorem not_isPart (howner : t.at? owner = some c) (hnone : c.bodyOfKind? kind = none) :
    ¬ t.IsPart kind p owner place := by
  intro h
  cases h with
  | @intro c' body _ i _ howner' hindex hbody _ _ =>
    obtain rfl : c = c' := Option.some.inj (howner.symm.trans howner')
    rw [bodyOfKind?_eq, hindex, Option.bind_some, hbody] at hnone
    cases hnone

/-- The parts of a type are the children of its body that fulfil the condition. -/
theorem isPart_iff (howner : t.at? owner = some c) (hindex : c.bodyIndex? kind = some i)
    (hbody : c.children[i]? = some body) : t.IsPart kind p owner place ↔
      ∃ k n, place = owner ++ [i] ++ [k] ∧ body.children[k]? = some n ∧ p n := by
  constructor
  · intro h
    cases h with
    | @intro c' body' n i' k howner' hindex' hbody' hn hp =>
      obtain rfl : c = c' := Option.some.inj (howner.symm.trans howner')
      obtain rfl : i = i' := Option.some.inj (hindex.symm.trans hindex')
      obtain rfl : body = body' := Option.some.inj (hbody.symm.trans hbody')
      exact ⟨k, n, (List.append_assoc owner [i] [k]).symm, hn, hp⟩
  · rintro ⟨k, n, rfl, hn, hp⟩
    rw [List.append_assoc]
    exact .intro howner hindex hbody hn hp

/-- The children of the body of a type that fulfil a condition have places in the tree, in order. -/
theorem exists_inOrder_isPart {q : SyntaxTree → Bool} (howner : t.at? owner = some c)
    (hq : ∀ n, q n = true ↔ p n) :
    ∃ places, InOrder places (t.IsPart kind p owner) ∧ places.map t.visitAt? =
      ((c.parts kind).filter (q ·.node)).map fun v =>
        some { v with depth := owner.length + 2 } := by
  rw [parts]
  cases hfind : c.bodyOfKind? kind with
  | none =>
    have hnone (place : List Nat) : place ∈ [] ↔ t.IsPart kind p owner place :=
      iff_of_false List.not_mem_nil (not_isPart howner hfind)
    exact ⟨[], ⟨.nil, hnone⟩, rfl⟩
  | some body =>
    obtain ⟨i, hindex, hbody⟩ := Option.bind_eq_some_iff.1 (c.bodyOfKind?_eq kind ▸ hfind)
    have hstem : t.at? (owner ++ [i]) = some body := (at?_append_singleton howner i).trans hbody
    obtain ⟨places, ⟨hordered, hmem⟩, hvisits⟩ := exists_inOrder_children hstem hq
    rw [List.length_append, List.length_singleton] at hvisits
    have hparts (place : List Nat) : place ∈ places ↔ t.IsPart kind p owner place :=
      (hmem place).trans (isPart_iff howner hindex hbody).symm
    exact ⟨places, ⟨hordered, hparts⟩, hvisits⟩

/-! ### Entries and names -/

/-- The entries of the base list of a class: the named children of the list other than comments and
arguments. -/
def baseEntries (t : SyntaxTree) : List SyntaxTree :=
  ((t.childOfKind? "base_list").map children).getD [] |>.filter fun c =>
    c.info.named && c.kind ∉ ["comment", "argument_list"]

/-- A node with all its children but the one that names it left out. -/
def bare (t : SyntaxTree) : SyntaxTree := node t.info t.nameNode?.toList

/-- A child that was found by its role is a child and has the role. -/
theorem of_childWithField? {field : String} (h : t.childWithField? field = some n) :
    n ∈ t.children ∧ n.info.field = some field := by
  rw [childWithField?] at h
  have hfield := List.find?_some h
  exact ⟨List.mem_of_find?_eq_some h, beq_iff_eq.1 hfield⟩

/-- A child that was found by its kind is a child and of the kind. -/
theorem of_childOfKind? (h : t.childOfKind? kind = some n) : n ∈ t.children ∧ n.kind = kind := by
  rw [childOfKind?] at h
  have hkind := List.find?_some h
  exact ⟨List.mem_of_find?_eq_some h, beq_iff_eq.1 hkind⟩

/-- The child that names a node has the role `name`, or no child has, and it is the first
identifier. -/
theorem nameNode?_eq_some_iff : t.nameNode? = some n ↔ t.childWithField? "name" = some n ∨
    t.childWithField? "name" = none ∧ t.childOfKind? "identifier" = some n := by
  rw [nameNode?, Option.orElse_eq_orElse, Option.orElse_eq_or, Option.or_eq_some_iff]

/-- A node that has a name has a child that names it. -/
theorem named_of_nameNode? (h : t.nameNode? = some n) : t.Named := by
  obtain h | ⟨-, h⟩ := nameNode?_eq_some_iff.1 h
  · obtain ⟨hmem, hfield⟩ := of_childWithField? h
    exact ⟨n, hmem, .inl hfield⟩
  · obtain ⟨hmem, hkind⟩ := of_childOfKind? h
    exact ⟨n, hmem, .inr hkind⟩

/-- What else stands below a node does not change its name. -/
theorem nameNode?_bare (t : SyntaxTree) : t.bare.nameNode? = t.nameNode? := by
  rw [bare]
  cases hname : t.nameNode? with
  | none => rfl
  | some n =>
    rw [Option.toList_some, nameNode?_eq_some_iff]
    simp only [childWithField?, childOfKind?, children, List.find?_singleton]
    obtain h | ⟨hnone, h⟩ := nameNode?_eq_some_iff.1 hname
    · obtain ⟨-, hfield⟩ := of_childWithField? h
      exact .inl (if_pos (beq_iff_eq.2 hfield))
    · obtain ⟨hmem, hkind⟩ := of_childOfKind? h
      exact .inr ⟨if_neg (List.find?_eq_none.1 hnone n hmem), if_pos (beq_iff_eq.2 hkind)⟩

end SyntaxTree

namespace Source

open SyntaxTree

variable {s : Source} {t n : SyntaxTree} {owner : List Nat} {declaration : Declaration}

/-- The text that an entry of a base list stands for: that of the entry, or of its type if it also
passes arguments and has a type, which is the child with that role or else the first named one. -/
inductive IsParent (s : Source) (entry : SyntaxTree) : String → Prop where
  | plain (hkind : entry.kind ≠ "primary_constructor_base_type") : IsParent s entry (s.text entry)
  | typed {type : SyntaxTree} (hkind : entry.kind = "primary_constructor_base_type")
      (htype : entry.childWithField? "type" = some type) : IsParent s entry (s.text type)
  | named {type : SyntaxTree} (hkind : entry.kind = "primary_constructor_base_type")
      (hrole : entry.childWithField? "type" = none)
      (htype : entry.namedChildren.head? = some type) : IsParent s entry (s.text type)
  | untyped (hkind : entry.kind = "primary_constructor_base_type")
      (hrole : entry.childWithField? "type" = none) (hnone : entry.namedChildren = []) :
      IsParent s entry (s.text entry)

/-- The texts are those of the nodes at all places that fulfil a condition, in order. -/
def ReadsTexts (s : Source) (t : SyntaxTree) (condition : List Nat → Prop)
    (texts : List String) : Prop :=
  ∃ places, InOrder places condition ∧
    texts.map some = places.map fun place => (t.at? place).map s.text

/-- The declaration is what the class at a place declares. -/
structure ClassAt (s : Source) (t : SyntaxTree) (owner : List Nat) (d : ClassDeclaration) :
    Prop where
  node : ∃ n, t.at? owner = some n ∧ n.kind = "class_declaration" ∧ s.name? n = some d.name ∧
    List.Forall₂ s.IsParent n.baseEntries d.parents
  fields : s.ReadsTexts t (t.IsMember .field owner) d.fields
  properties : s.ReadsTexts t (t.IsMember .property owner) d.properties
  events : s.ReadsTexts t (t.IsMember .event owner) d.events
  methods : ∃ places, InOrder places (t.IsMember .method owner) ∧
    d.methods = places.filterMap fun place => (t.visitAt? place).bind s.method?

/-- The declaration is what the enum at a place declares: the names of its constants, whatever else
is written of them. -/
structure EnumAt (s : Source) (t : SyntaxTree) (owner : List Nat) (d : EnumDeclaration) :
    Prop where
  node : ∃ n, t.at? owner = some n ∧ n.kind = "enum_declaration" ∧ s.name? n = some d.name
  constants : ∃ places, InOrder places (t.IsConstant owner) ∧
    d.constants.map some = places.map fun place => (t.at? place).bind (s.name? ·.bare)

/-- The declaration is what the node at a place declares. -/
inductive DeclaredAt (s : Source) (t : SyntaxTree) (owner : List Nat) : Declaration → Prop where
  | ofClass {d : ClassDeclaration} (h : s.ClassAt t owner d) : DeclaredAt s t owner (.ofClass d)
  | ofEnum {d : EnumDeclaration} (h : s.EnumAt t owner d) : DeclaredAt s t owner (.ofEnum d)
  | other {n : SyntaxTree} {sort : OtherKind} (hn : t.at? owner = some n)
      (hkind : n.kind ∈ kindsOf sort) : DeclaredAt s t owner (.other sort (s.name? n))

/-! ### Classes -/

/-- What is read of an entry of a base list is what the entry stands for. -/
theorem isParent_parent (s : Source) (entry : SyntaxTree) : s.IsParent entry (s.parent entry) := by
  rw [parent]
  split
  case isFalse hkind => exact .plain hkind
  case isTrue hkind =>
    cases hrole : entry.childWithField? "type" with
    | some type => exact .typed hkind hrole
    | none =>
      cases hnamed : entry.namedChildren with
      | nil => exact .untyped hkind hrole hnamed
      | cons type rest => exact .named hkind hrole (by rw [hnamed]; rfl)

/-- The parents that are read of a class are those that the entries of its base list stand for, one
for one. -/
theorem forall₂_isParent (s : Source) (n : SyntaxTree) :
    List.Forall₂ s.IsParent n.baseEntries (s.parents n) := by
  have hparents : s.parents n = n.baseEntries.map s.parent := by
    rw [parents, baseEntries]
    cases n.childOfKind? "base_list" with
    | none => rfl
    | some baseList =>
      simp only [namedChildren, List.filter_filter]
      refine congrArg _ (List.filter_congr fun c _ => ?_)
      by_cases hcomment : c.kind = "comment" <;> by_cases hargument : c.kind = "argument_list" <;>
        simp [isComment, hcomment, hargument]
  rw [hparents, List.forall₂_map_right_iff, List.forall₂_same]
  exact fun entry _ => s.isParent_parent entry

/-- The members of a kind are the children of the body of this kind that the grammar names. -/
theorem membersOfKind_eq (n : SyntaxTree) (kind : String) :
    membersOfKind n kind = (n.parts "declaration_list").filter fun v =>
      v.node.info.named && v.node.kind == kind := by
  rw [membersOfKind, members, parts]
  cases n.bodyOfKind? "declaration_list" with
  | none => rfl
  | some body =>
    rw [List.filter_filter]
    exact List.filter_congr fun v _ => Bool.and_comm ..

/-- The members of one sort that are read of a class have places in the tree, in order. -/
theorem exists_inOrder_isMember (hn : t.at? owner = some n) (sort : MemberSort) :
    ∃ places, InOrder places (t.IsMember sort owner) ∧ places.map t.visitAt? =
      (membersOfKind n sort.nodeKind).map fun v => some { v with depth := owner.length + 2 } := by
  rw [membersOfKind_eq]
  exact exists_inOrder_isPart (q := fun n => n.info.named && n.kind == sort.nodeKind) hn
    fun n => by simp

/-- The texts that are read of the members of one sort are those of all of them, in order. -/
theorem readsTexts_memberTexts (s : Source) (hn : t.at? owner = some n) (sort : MemberSort) :
    s.ReadsTexts t (t.IsMember sort owner) (s.memberTexts n sort.nodeKind) := by
  obtain ⟨places, hplaces, hvisits⟩ := exists_inOrder_isMember hn sort
  refine ⟨places, hplaces, ?_⟩
  calc (s.memberTexts n sort.nodeKind).map some
      = ((membersOfKind n sort.nodeKind).map fun v =>
          some { v with depth := owner.length + 2 }).map (Option.map (s.text ·.node)) := by
        rw [memberTexts, List.map_map, List.map_map]
        rfl
    _ = places.map fun place => (t.at? place).map s.text := by
        rw [← hvisits, List.map_map]
        refine List.map_congr_left fun place _ => ?_
        rw [← map_node_visitFrom? 0 [], Option.map_map]
        rfl

/-- A method is read alike at whatever depth it is met. -/
theorem methods_classNamed (s : Source) (hn : t.at? owner = some n) (name : String) :
    ∃ places, InOrder places (t.IsMember .method owner) ∧
      (s.classNamed n name).methods =
        places.filterMap fun place => (t.visitAt? place).bind s.method? := by
  obtain ⟨places, hplaces, hvisits⟩ := exists_inOrder_isMember hn .method
  refine ⟨places, hplaces, ?_⟩
  calc (membersOfKind n "method_declaration").filterMap s.method?
      = ((membersOfKind n "method_declaration").map fun v =>
          some { v with depth := owner.length + 2 }).filterMap (·.bind s.method?) := by
        rw [List.filterMap_map]
        rfl
    _ = places.filterMap fun place => (t.visitAt? place).bind s.method? := by
        rw [← MemberSort.nodeKind, ← hvisits, List.filterMap_map]
        rfl

/-- What is read of a class is what the class at its place declares. -/
theorem classAt_classNamed (s : Source) {name : String} (hn : t.at? owner = some n)
    (hkind : n.kind = "class_declaration") (hname : s.name? n = some name) :
    s.ClassAt t owner (s.classNamed n name) where
  node := ⟨n, hn, hkind, hname, s.forall₂_isParent n⟩
  fields := s.readsTexts_memberTexts hn .field
  properties := s.readsTexts_memberTexts hn .property
  events := s.readsTexts_memberTexts hn .event
  methods := s.methods_classNamed hn name

/-! ### Enums -/

/-- What else stands below a node does not change the text of its name. -/
theorem name?_bare (s : Source) (n : SyntaxTree) : s.name? n.bare = s.name? n := by
  rw [name?, name?, nameNode?_bare]

/-- Whether a child of the body of an enum names a constant. -/
def namesConstant (t : SyntaxTree) : Bool :=
  t.kind == "enum_member_declaration" && decide t.Named

/-- The children of the body of an enum that name its constants. -/
def constantParts (n : SyntaxTree) : List Visit :=
  (n.parts "enum_member_declaration_list").filter (namesConstant ·.node)

/-- A node without a name is no constant. -/
theorem filterMap_name?_childrenOfKind (s : Source) (body : SyntaxTree) :
    (body.childrenOfKind "enum_member_declaration").filterMap s.name? =
      (body.children.filter namesConstant).filterMap s.name? := by
  rw [childrenOfKind, List.filterMap_filter, List.filterMap_filter]
  refine List.filterMap_congr fun t _ => ?_
  by_cases hnamed : t.Named
  · simp [namesConstant, hnamed]
  · have hnone : s.name? t = none := by
      rw [name?, Option.map_eq_none_iff, Option.eq_none_iff_forall_ne_some]
      exact fun n hn => hnamed (named_of_nameNode? hn)
    simp [hnone]

/-- The constants that are read of an enum are the names of those children, none left out. -/
theorem map_name?_constantParts (s : Source) (n : SyntaxTree) :
    (constantParts n).map (s.name? ·.node) = (s.constants n).map some := by
  have hconstants : s.constants n = (constantParts n).filterMap (s.name? ·.node) := by
    rw [constants, constantParts, parts]
    cases n.bodyOfKind? "enum_member_declaration_list" with
    | none => rfl
    | some body =>
      have hnodes := map_node_visits 0 [] body.children
      calc (body.childrenOfKind "enum_member_declaration").filterMap s.name?
          = (((visits 0 [] body.children).map (·.node)).filter namesConstant).filterMap
              s.name? := by
            rw [hnodes, filterMap_name?_childrenOfKind]
        _ = ((visits 0 [] body.children).filter (namesConstant ·.node)).filterMap
              (s.name? ·.node) := by
            rw [List.filter_map, List.filterMap_map]
            rfl
  rw [hconstants]
  refine map_eq_map_some_filterMap fun v hv => ?_
  have hnamed := (List.mem_filter.1 hv).2
  rw [namesConstant, Bool.and_eq_true, decide_eq_true_eq] at hnamed
  exact s.exists_name hnamed.2

/-- The constants that are read of an enum have places in the tree, in order. -/
theorem exists_inOrder_isConstant (hn : t.at? owner = some n) :
    ∃ places, InOrder places (t.IsConstant owner) ∧ places.map t.visitAt? =
      (constantParts n).map fun v => some { v with depth := owner.length + 2 } :=
  exists_inOrder_isPart hn fun n => by
    rw [namesConstant, Bool.and_eq_true, beq_iff_eq, decide_eq_true_eq]

/-- What is read of an enum is what the enum at its place declares. -/
theorem enumAt_constants (s : Source) {name : String} (hn : t.at? owner = some n)
    (hkind : n.kind = "enum_declaration") (hname : s.name? n = some name) :
    s.EnumAt t owner ⟨name, s.constants n⟩ := by
  refine ⟨⟨n, hn, hkind, hname⟩, ?_⟩
  obtain ⟨places, hplaces, hvisits⟩ := exists_inOrder_isConstant hn
  refine ⟨places, hplaces, ?_⟩
  calc (s.constants n).map some
      = ((constantParts n).map fun v =>
          some { v with depth := owner.length + 2 }).map (·.bind (s.name? ·.node.bare)) := by
        rw [← map_name?_constantParts, List.map_map]
        exact List.map_congr_left fun v _ => (s.name?_bare v.node).symm
    _ = places.map fun place => (t.at? place).bind (s.name? ·.bare) := by
        rw [← hvisits, List.map_map]
        refine List.map_congr_left fun place _ => ?_
        rw [← map_node_visitFrom? 0 [], Option.bind_map]
        rfl

/-! ### Declarations -/

/-- What is read of a node is what the node at its place declares. -/
theorem declaredAt_of_declaration? (hn : t.at? owner = some n)
    (h : s.declaration? n = some declaration) : s.DeclaredAt t owner declaration := by
  rw [declaration?] at h
  by_cases hclass : n.kind = "class_declaration"
  · rw [if_pos hclass] at h
    obtain ⟨name, hname, rfl⟩ := Option.map_eq_some_iff.1 h
    exact .ofClass (s.classAt_classNamed hn hclass hname)
  rw [if_neg hclass] at h
  by_cases henum : n.kind = "enum_declaration"
  · rw [if_pos henum] at h
    obtain ⟨name, hname, rfl⟩ := Option.map_eq_some_iff.1 h
    exact .ofEnum (s.enumAt_constants hn henum hname)
  · rw [if_neg henum] at h
    obtain ⟨sort, hsort, rfl⟩ := Option.map_eq_some_iff.1 h
    exact .other hn (otherKind?_eq_some_iff.1 hsort)

/-- The declarations of a tree are those of the nodes at its addresses, in order. -/
theorem declarations_eq_filterMap_addresses (s : Source) (t : SyntaxTree) :
    s.declarations t = t.addresses.filterMap fun place => (t.at? place).bind s.declaration? := by
  have hplaces : (t.addresses.filterMap fun place => (t.at? place).bind s.declaration?) =
      (t.addresses.map t.at?).filterMap (·.bind s.declaration?) := by
    rw [List.filterMap_map]
    rfl
  rw [hplaces, map_at?_addresses, List.filterMap_map, s.declarations_eq]
  rfl

/-- Every member of a class, and every constant of an enum, belongs to the type that directly
contains it: what a tree declares are its classes and enums that have names, in pre-order, each with
just the children of its own body, in order. No node is a member of two classes, or a member of two
sorts. -/
theorem declarations_members (s : Source) (t : SyntaxTree) :
    ∃ owners : List (List Nat), owners.Pairwise Precedes ∧
      List.Forall₂ (s.DeclaredAt t) owners (s.declarations t) ∧
      (∀ owner n, t.at? owner = some n →
        n.kind = "class_declaration" ∨ n.kind = "enum_declaration" → n.Named → owner ∈ owners) ∧
      ∀ sort sort' owner owner' place, t.IsMember sort owner place →
        t.IsMember sort' owner' place → owner = owner' ∧ sort = sort' := by
  let choice (place : List Nat) : Option Declaration := (t.at? place).bind s.declaration?
  refine ⟨t.addresses.filter fun place => (choice place).isSome, (pairwise_addresses t).filter _,
    ?_, fun owner n hn hkind hnamed => ?_, fun sort sort' owner owner' place => IsMember.unique⟩
  · rw [declarations_eq_filterMap_addresses]
    refine forall₂_filter_filterMap (fun place _ hsome => ?_) fun place _ hnone => ?_
    · obtain ⟨d, hd⟩ := Option.isSome_iff_exists.1 hsome
      obtain ⟨n, hn, hdeclared⟩ := Option.bind_eq_some_iff.1 hd
      exact ⟨d, hd, declaredAt_of_declaration? hn hdeclared⟩
    · rwa [Bool.not_eq_true, Option.isSome_eq_false_iff, Option.isNone_iff_eq_none] at hnone
  · have hdeclares : n.kind ∈ declarationKinds :=
      mem_declarationKinds_iff.2 (hkind.imp_right Or.inl)
    obtain ⟨d, hd, -⟩ := s.declaration?_of_mem hdeclares fun _ => hnamed
    refine List.mem_filter.2 ⟨mem_addresses_iff.2 ⟨n, hn⟩, ?_⟩
    simp [choice, hn, hd]

end Source

/-- The tree of `class A : B { int a; class C { void M(); } enum E { X = 1, Y } }`. -/
def SyntaxTree.nestedMembers : SyntaxTree :=
  let leaf (kind : String) (start stop : Nat) (field : Option String) : SyntaxTree :=
    node { kind := kind, start := start, stop := stop, field := field } []
  let method : SyntaxTree := node { kind := "method_declaration", start := 31, stop := 40 }
    [leaf "predefined_type" 31 35 (some "returns"), leaf "identifier" 36 37 (some "name"),
      leaf "parameter_list" 37 39 (some "parameters")]
  let inner : SyntaxTree := node { kind := "class_declaration", start := 21, stop := 42 }
    [leaf "identifier" 27 28 (some "name"),
      node { kind := "declaration_list", start := 29, stop := 42, field := some "body" } [method]]
  let enum : SyntaxTree := node { kind := "enum_declaration", start := 43, stop := 62 }
    [leaf "identifier" 48 49 (some "name"),
      node { kind := "enum_member_declaration_list", start := 50, stop := 62, field := some "body" }
        [node { kind := "enum_member_declaration", start := 52, stop := 57 }
            [leaf "identifier" 52 53 (some "name"), leaf "integer_literal" 56 57 (some "value")],
          node { kind := "enum_member_declaration", start := 59, stop := 60 }
            [leaf "identifier" 59 60 (some "name")]]]
  node { kind := "compilation_unit", start := 0, stop := 64 }
    [node { kind := "class_declaration", start := 0, stop := 64 }
      [leaf "identifier" 6 7 (some "name"),
        node { kind := "base_list", start := 8, stop := 11 } [leaf "identifier" 10 11 none],
        node { kind := "declaration_list", start := 12, stop := 64, field := some "body" }
          [leaf "field_declaration" 14 20 none, inner, enum]]]

/-- The method of a nested class is a member of that class and of no other, and the value of a
constant is no part of its name. -/
theorem Source.declarations_members_nested :
    let s := ofText "A.cs" .csharp
      "class A : B { int a; class C { void M(); } enum E { X = 1, Y } }"
    (∃ owners, [0] ∈ owners ∧ [0, 2, 1] ∈ owners ∧ [0, 2, 2] ∈ owners ∧
      List.Forall₂ (s.DeclaredAt SyntaxTree.nestedMembers) owners
        [.ofClass { name := "A", parents := ["B"], fields := ["int a;"] },
          .ofClass
            { name := "C", methods := [{ returnType := "void", name := "M", parameters := "()" }] },
          .ofEnum { name := "E", constants := ["X", "Y"] }]) ∧
      ∀ sort owner, SyntaxTree.nestedMembers.IsMember sort owner [0, 2, 1, 1, 0] →
        owner = [0, 2, 1] ∧ sort = .method := by
  intro s
  obtain ⟨owners, -, hdeclared, howners, hunique⟩ := s.declarations_members SyntaxTree.nestedMembers
  refine ⟨⟨owners, howners [0] _ rfl (.inl rfl) (by decide),
    howners [0, 2, 1] _ rfl (.inl rfl) (by decide), howners [0, 2, 2] _ rfl (.inr rfl) (by decide),
    hdeclared⟩, fun sort owner h => ?_⟩
  have hmember : SyntaxTree.nestedMembers.IsMember .method [0, 2, 1] [0, 2, 1, 1, 0] :=
    @SyntaxTree.IsPart.intro _ _ _ [0, 2, 1] _ _ _ 1 0 rfl rfl rfl rfl ⟨rfl, rfl⟩
  exact hunique sort .method owner [0, 2, 1] [0, 2, 1, 1, 0] h hmember

end TypeCatalog
