import TypeCatalog.SyntaxTree

/-!
# Pre-order

A node of a tree has an address: which child to go to, from the root on. One address comes before
another if it is above it, or if the two part at a node where the first goes to an earlier child.
The walk of a tree meets every address once, and in this order.

## Main definitions

- `SyntaxTree.at?` — the node at an address
- `SyntaxTree.visitAt?` — the same as a walk meets it
- `SyntaxTree.Precedes` — the order of addresses
- `SyntaxTree.Preorder` — that nodes are all those of a tree which fulfil a condition, in order

## Main statements

- `SyntaxTree.mem_addresses_iff`, `SyntaxTree.pairwise_addresses`, `SyntaxTree.map_at?_addresses` —
  the addresses of a tree, their order, and their nodes
- `SyntaxTree.map_visitAt?_addresses` — a walk is what it meets at the addresses
- `SyntaxTree.preorder_filter_walk` — what a walk selects is in pre-order
- `SyntaxTree.Preorder.unique` — there is only one list of nodes in pre-order
-/

namespace TypeCatalog.SyntaxTree

/-! ### Addresses -/

/-- The node at an address, which tells the child to go to from each node on the way. -/
def at? (t : SyntaxTree) : List Nat → Option SyntaxTree
  | [] => some t
  | i :: rest => t.children[i]?.bind (at? · rest)

/-- What a walk meets at an address, if the root has the given depth and earlier siblings. -/
def visitFrom? (depth : Nat) (earlier : List SyntaxTree) (t : SyntaxTree) :
    List Nat → Option Visit
  | [] => some ⟨depth, t, earlier⟩
  | i :: rest => t.children[i]?.bind (visitFrom? (depth + 1) (t.children.take i).reverse · rest)

/-- The node at an address with its depth and its earlier siblings, as a walk meets it. -/
def visitAt? (t : SyntaxTree) (address : List Nat) : Option Visit := visitFrom? 0 [] t address

/-- One address comes before another. -/
inductive Precedes : List Nat → List Nat → Prop where
  /-- A node comes before what is below it. -/
  | above (address : List Nat) (i : Nat) (rest : List Nat) :
      Precedes address (address ++ i :: rest)
  /-- Of two branches below a node, the earlier one comes first. -/
  | branch (stem : List Nat) {i j : Nat} (h : i < j) (rest rest' : List Nat) :
      Precedes (stem ++ i :: rest) (stem ++ j :: rest')

mutual

/-- The addresses of a tree, in the order in which a walk meets them. -/
def addresses : SyntaxTree → List (List Nat)
  | node _ children => [] :: addressesBelow 0 children

/-- The addresses of several siblings, of which the first is the given child. -/
def addressesBelow (i : Nat) : List SyntaxTree → List (List Nat)
  | [] => []
  | t :: rest => (addresses t).map (i :: ·) ++ addressesBelow (i + 1) rest

end

/-- Addresses below the same child are ordered as they are below that child. -/
theorem Precedes.cons {x y : List Nat} (h : Precedes x y) (i : Nat) :
    Precedes (i :: x) (i :: y) := by
  cases h with
  | above _ j rest => exact .above (i :: x) j rest
  | branch stem hlt rest rest' => exact .branch (i :: stem) hlt rest rest'

/-- An address below siblings begins with the number of one of them. -/
theorem exists_of_mem_addressesBelow {address : List Nat} {i : Nat} {ts : List SyntaxTree}
    (h : address ∈ addressesBelow i ts) : ∃ j rest, address = j :: rest ∧ i ≤ j := by
  induction ts generalizing i with
  | nil => exact nomatch h
  | cons t rest ih =>
    rw [addressesBelow, List.mem_append, List.mem_map] at h
    obtain ⟨x, -, rfl⟩ | hlater := h
    · exact ⟨i, x, rfl, Nat.le_refl i⟩
    · obtain ⟨j, x, rfl, hle⟩ := ih hlater
      exact ⟨j, x, rfl, Nat.le_of_succ_le hle⟩

mutual

/-- The addresses of a tree are listed in order. -/
theorem pairwise_addresses (t : SyntaxTree) : t.addresses.Pairwise Precedes := by
  cases t with
  | node info children =>
    rw [addresses, List.pairwise_cons]
    refine ⟨fun address haddress => ?_, pairwise_addressesBelow 0 children⟩
    obtain ⟨j, rest, rfl, -⟩ := exists_of_mem_addressesBelow haddress
    exact .above [] j rest

/-- The addresses of several siblings are listed in order. -/
theorem pairwise_addressesBelow (i : Nat) (ts : List SyntaxTree) :
    (addressesBelow i ts).Pairwise Precedes := by
  cases ts with
  | nil => exact .nil
  | cons t rest =>
    rw [addressesBelow, List.pairwise_append, List.pairwise_map]
    refine ⟨(pairwise_addresses t).imp fun h => h.cons i, pairwise_addressesBelow (i + 1) rest, ?_⟩
    -- the addresses of the later siblings part from those of the first one right here
    intro x hx y hy
    obtain ⟨x, -, rfl⟩ := List.mem_map.1 hx
    obtain ⟨j, y, rfl, hlt⟩ := exists_of_mem_addressesBelow hy
    exact .branch [] hlt x y

end

mutual

/-- A walk meets the nodes at the addresses of the tree, one after the other. -/
theorem map_visitFrom?_addresses (depth : Nat) (earlier : List SyntaxTree) (t : SyntaxTree) :
    t.addresses.map (visitFrom? depth earlier t) = (walkFrom depth earlier t).map some := by
  cases t with
  | node info children =>
    rw [addresses, walkFrom, List.map_cons, List.map_cons]
    exact congrArg _ (map_visitFrom?_addressesBelow depth earlier info [] children)

/-- From one of the children of a node on, a walk meets the nodes at the addresses below the
children. -/
theorem map_visitFrom?_addressesBelow (depth : Nat) (earlier : List SyntaxTree) (info : Info)
    (before ts : List SyntaxTree) :
    (addressesBelow before.length ts).map (visitFrom? depth earlier (node info (before ++ ts))) =
      (walkSiblings (depth + 1) before.reverse ts).map some := by
  -- the addresses lead from the node above, so the siblings before these must be there
  cases ts with
  | nil => rfl
  | cons t rest =>
    have hfirst : visitFrom? depth earlier (node info (before ++ t :: rest)) ∘
        (before.length :: ·) = visitFrom? (depth + 1) before.reverse t := by
      funext address
      simp [visitFrom?, children]
    have hrest := map_visitFrom?_addressesBelow depth earlier info (before ++ [t]) rest
    rw [List.length_append, List.length_singleton, List.append_assoc, List.singleton_append,
      List.reverse_append, List.reverse_singleton, List.singleton_append] at hrest
    rw [addressesBelow, walkSiblings, List.map_append, List.map_append, List.map_map, hfirst,
      map_visitFrom?_addresses (depth + 1) before.reverse t, hrest]

end

/-- A walk is what it meets at the addresses of a tree, in order. -/
theorem map_visitAt?_addresses (t : SyntaxTree) :
    t.addresses.map t.visitAt? = t.walk.map some :=
  map_visitFrom?_addresses 0 [] t

/-- What a walk meets at an address is the node there. -/
theorem map_node_visitFrom? (depth : Nat) (earlier : List SyntaxTree) (t : SyntaxTree)
    (address : List Nat) : (visitFrom? depth earlier t address).map (·.node) = t.at? address := by
  induction address generalizing depth earlier t with
  | nil => rfl
  | cons i rest ih =>
    rw [visitFrom?, at?, Option.map_bind]
    exact congrArg _ (funext fun child => ih (depth + 1) (t.children.take i).reverse child)

/-- A walk meets the nodes at the addresses of a tree, in order. -/
theorem map_at?_addresses (t : SyntaxTree) :
    t.addresses.map t.at? = (t.walk.map (·.node)).map some := by
  calc t.addresses.map t.at?
      = (t.addresses.map t.visitAt?).map (Option.map (·.node)) := by
        rw [List.map_map]
        exact List.map_congr_left fun address _ => (map_node_visitFrom? 0 [] t address).symm
    _ = (t.walk.map (·.node)).map some := by
        rw [map_visitAt?_addresses, List.map_map, List.map_map]
        rfl

/-- A child is met one step below its parent, behind the siblings before it. -/
theorem visitFrom?_append_singleton (depth : Nat) (earlier : List SyntaxTree) (t : SyntaxTree)
    (stem : List Nat) (i : Nat) :
    visitFrom? depth earlier t (stem ++ [i]) = (t.at? stem).bind fun parent =>
      parent.children[i]?.map fun n =>
        ⟨depth + stem.length + 1, n, (parent.children.take i).reverse⟩ := by
  induction stem generalizing depth earlier t with
  | nil => cases h : t.children[i]? <;> simp [visitFrom?, at?, h]
  | cons j rest ih =>
    rw [List.cons_append, visitFrom?, at?, Option.bind_assoc]
    refine congrArg _ (funext fun child => ?_)
    have hdepth : depth + (j :: rest).length + 1 = depth + 1 + rest.length + 1 := by
      rw [List.length_cons]
      omega
    rw [ih, hdepth]

/-- An address is followed in two parts. -/
theorem at?_append (t : SyntaxTree) (address address' : List Nat) :
    t.at? (address ++ address') = (t.at? address).bind (·.at? address') := by
  induction address generalizing t with
  | nil => rfl
  | cons i rest ih =>
    rw [List.cons_append, at?, at?, Option.bind_assoc]
    exact congrArg _ (funext fun child => ih child)

/-- The last step of an address leads to a child. -/
theorem at?_append_singleton {t parent : SyntaxTree} {stem : List Nat}
    (h : t.at? stem = some parent) (i : Nat) : t.at? (stem ++ [i]) = parent.children[i]? := by
  rw [at?_append, h, Option.bind_some, at?]
  cases parent.children[i]? <;> rfl

variable {t : SyntaxTree} {address : List Nat} {p : SyntaxTree → Prop}
  {nodes nodes' : List SyntaxTree}

/-- The addresses of a sibling, with its number before them, are addresses below the siblings. -/
theorem cons_mem_addressesBelow {i k : Nat} {ts : List SyntaxTree} (ht : ts[k]? = some t)
    (h : address ∈ t.addresses) : (i + k) :: address ∈ addressesBelow i ts := by
  induction ts generalizing i k with
  | nil => cases ht
  | cons first rest ih =>
    rw [addressesBelow, List.mem_append]
    cases k with
    | zero =>
      cases ht
      exact .inl (List.mem_map_of_mem h)
    | succ k =>
      have hshift : i + (k + 1) = i + 1 + k := by omega
      rw [hshift]
      exact .inr (ih ht)

/-- An address of a tree is one that leads to a node. -/
theorem mem_addresses_iff : address ∈ t.addresses ↔ ∃ n, t.at? address = some n := by
  constructor
  · intro h
    have hmem : t.at? address ∈ t.addresses.map t.at? := List.mem_map_of_mem h
    rw [map_at?_addresses, List.mem_map] at hmem
    obtain ⟨n, -, hn⟩ := hmem
    exact ⟨n, hn.symm⟩
  · rintro ⟨n, hn⟩
    -- the induction is on the way to the node, not on the tree
    induction address generalizing t with
    | nil =>
      cases t
      exact List.mem_cons_self
    | cons i rest ih =>
      obtain ⟨child, hchild, hrest⟩ := Option.bind_eq_some_iff.1 hn
      cases t with
      | node info ts =>
        have hbelow := @cons_mem_addressesBelow child rest 0 i ts hchild (ih hrest)
        rw [Nat.zero_add] at hbelow
        exact List.mem_cons_of_mem _ hbelow

/-- A walk meets the nodes at all addresses, and no others. -/
theorem mem_walk_iff {n : SyntaxTree} :
    n ∈ t.walk.map (·.node) ↔ ∃ address, t.at? address = some n := by
  constructor
  · intro h
    have hmem : some n ∈ t.addresses.map t.at? := by
      rw [map_at?_addresses]
      exact List.mem_map_of_mem h
    obtain ⟨address, -, haddress⟩ := List.mem_map.1 hmem
    exact ⟨address, haddress⟩
  · rintro ⟨address, h⟩
    have hmem : t.at? address ∈ t.addresses.map t.at? :=
      List.mem_map_of_mem (mem_addresses_iff.2 ⟨n, h⟩)
    rw [map_at?_addresses, h, List.mem_map] at hmem
    obtain ⟨m, hm, heq⟩ := hmem
    exact Option.some.inj heq ▸ hm

/-! ### Nodes in order -/

/-- The nodes are those of the tree that fulfil the condition, each of them once, in the order of
their addresses. -/
def Preorder (t : SyntaxTree) (p : SyntaxTree → Prop) (nodes : List SyntaxTree) : Prop :=
  ∃ places : List (List Nat), places.Pairwise Precedes ∧ places.map t.at? = nodes.map some ∧
    ∀ address, address ∈ places ↔ ∃ n, t.at? address = some n ∧ p n

/-- What a walk selects is in pre-order. -/
theorem preorder_filter_walk (t : SyntaxTree) {q : SyntaxTree → Bool}
    (hq : ∀ n, q n = true ↔ p n) : t.Preorder p ((t.walk.map (·.node)).filter q) := by
  refine ⟨t.addresses.filter (Option.any q ∘ t.at?), ?_, ?_, fun address => ?_⟩
  · exact (pairwise_addresses t).filter _
  · calc (t.addresses.filter (Option.any q ∘ t.at?)).map t.at?
        = (t.addresses.map t.at?).filter (Option.any q) := List.filter_map.symm
      _ = ((t.walk.map (·.node)).map some).filter (Option.any q) := by rw [map_at?_addresses]
      _ = ((t.walk.map (·.node)).filter q).map some := List.filter_map
  · rw [List.mem_filter, mem_addresses_iff, Function.comp_apply, Option.any_eq_true]
    simp only [hq]
    constructor
    · rintro ⟨-, n, hn, hp⟩
      exact ⟨n, hn, hp⟩
    · rintro ⟨n, hn, hp⟩
      exact ⟨⟨n, hn⟩, n, hn, hp⟩

/-- The order of addresses is that of dictionaries. -/
theorem Precedes.lt {x y : List Nat} (h : Precedes x y) : x < y := by
  cases h with
  | above _ i rest =>
    induction x with
    | nil => exact List.nil_lt_cons ..
    | cons j stem ih => exact List.cons_lt_cons_iff.2 (.inr ⟨rfl, ih⟩)
  | branch stem hlt rest rest' =>
    induction stem with
    | nil => exact List.cons_lt_cons_iff.2 (.inl hlt)
    | cons j stem ih => exact List.cons_lt_cons_iff.2 (.inr ⟨rfl, ih⟩)

/-- There is only one list of nodes in pre-order. -/
theorem Preorder.unique (h : t.Preorder p nodes) (h' : t.Preorder p nodes') : nodes = nodes' := by
  obtain ⟨places, hplaces, hnodes, hmem⟩ := h
  obtain ⟨places', hplaces', hnodes', hmem'⟩ := h'
  have hne {x y : List Nat} (hxy : Precedes x y) : x ≠ y := fun heq =>
    List.lt_irrefl x (heq ▸ hxy.lt)
  have hperm : places.Perm places' :=
    (List.perm_ext_iff_of_nodup (hplaces.imp hne) (hplaces'.imp hne)).2 fun address =>
      (hmem address).trans (hmem' address).symm
  have heq : places = places' := hperm.eq_of_pairwise
    (fun x y _ _ hxy hyx => absurd hyx.lt (List.lt_asymm hxy.lt)) hplaces hplaces'
  rw [heq, hnodes'] at hnodes
  exact ((List.map_inj_right fun _ _ => Option.some.inj).1 hnodes).symm

end TypeCatalog.SyntaxTree
