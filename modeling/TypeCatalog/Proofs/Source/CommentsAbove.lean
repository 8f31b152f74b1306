import Mathlib.Data.List.DropRight
import TypeCatalog.Proofs.SyntaxTree.Preorder
import TypeCatalog.Source

/-!
# Comments above a node

The comments above a node are the longest run of comments that ends directly before it among the
children of its parent, whether or not the grammar names them. Any other child ends the run.

## Main definitions

- `SyntaxTree.IsRunBefore` — the longest run of comments that ends before a child

## Main statements

- `SyntaxTree.visitAt?_append_singleton`, `SyntaxTree.getElem?_visits` — what comes before a child
- `Source.commentsAbove_longest` — the comments above every node of a tree
-/

namespace TypeCatalog

namespace SyntaxTree

variable {t parent n : SyntaxTree} {ts run : List SyntaxTree} {i : Nat} {v : Visit}

/-! ### Earlier siblings -/

/-- The visit is that of one of several siblings. -/
structure Visit.IsChild (v : Visit) (ts : List SyntaxTree) (i : Nat) : Prop where
  node : ts[i]? = some v.node
  earlier : v.earlier = (ts.take i).reverse

/-- A walk meets a child behind the siblings before it. -/
theorem visitAt?_append_singleton {stem : List Nat} (hparent : t.at? stem = some parent)
    (hn : parent.children[i]? = some n) :
    ∃ v, t.visitAt? (stem ++ [i]) = some v ∧ v.node = n ∧ v.IsChild parent.children i := by
  refine ⟨⟨stem.length + 1, n, (parent.children.take i).reverse⟩, ?_, rfl, hn, rfl⟩
  rw [visitAt?, visitFrom?_append_singleton, hparent, Option.bind_some, hn, Option.map_some,
    Nat.zero_add]

/-- A sibling is met behind those before it, the nearest first. -/
theorem getElem?_visits (depth : Nat) (earlier ts : List SyntaxTree) (i : Nat) :
    (visits depth earlier ts)[i]? =
      ts[i]?.map fun n => ⟨depth, n, (ts.take i).reverse ++ earlier⟩ := by
  induction ts generalizing earlier i with
  | nil => rfl
  | cons t rest ih =>
    cases i with
    | zero => rfl
    | succ i => simp [visits, ih]

/-! ### Runs of comments -/

/-- The run is the longest block of comments that ends directly before a child: any child before it
is no comment. -/
structure IsRunBefore (ts : List SyntaxTree) (i : Nat) (run : List SyntaxTree) : Prop where
  suffix : run <:+ ts.take i
  comments : ∀ c ∈ run, c.kind = "comment"
  stops : ∀ before last, ts.take i = before ++ last :: run → last.kind ≠ "comment"
  longest : ∀ block, block <:+ ts.take i → (∀ c ∈ block, c.kind = "comment") → block <:+ run

theorem isComment_iff : t.isComment = true ↔ t.kind = "comment" := beq_iff_eq

/-- Looking backwards as long as there are comments finds the longest run of them. -/
theorem Visit.IsChild.isRunBefore (h : v.IsChild ts i) : IsRunBefore ts i v.commentsAbove := by
  have hrun : v.commentsAbove = (ts.take i).rtakeWhile isComment := by
    rw [Visit.commentsAbove, h.earlier, List.rtakeWhile]
  have hlongest : ∀ block, block <:+ ts.take i → (∀ c ∈ block, c.kind = "comment") →
      block <:+ v.commentsAbove := by
    rintro block ⟨before, hbefore⟩ hblock
    have hcomments : ∀ c ∈ block.reverse, c.isComment = true := fun c hc =>
      isComment_iff.2 (hblock c (List.mem_reverse.1 hc))
    rw [hrun, ← hbefore, List.rtakeWhile, List.reverse_append,
      List.takeWhile_append_of_pos hcomments, List.reverse_append, List.reverse_reverse]
    exact List.suffix_append _ block
  have hcomments : ∀ c ∈ v.commentsAbove, c.kind = "comment" := fun c hc =>
    isComment_iff.1 (List.mem_rtakeWhile_imp (hrun ▸ hc))
  refine ⟨hrun ▸ List.rtakeWhile_suffix _ _, hcomments, fun before last hlast hkind => ?_, hlongest⟩
  -- a comment before the run would make a longer block
  have hlonger := hlongest (last :: v.commentsAbove) ⟨before, hlast.symm⟩
    (List.forall_mem_cons.2 ⟨hkind, hcomments⟩)
  exact absurd hlonger.length_le (by simp)

end SyntaxTree

namespace Source

open SyntaxTree

/-- The comments above a node are the longest run of comments that ends directly before it among the
children of its parent, from top to bottom; above the root there are none. This holds of every node
that a walk of the tree meets, and of the children of a node that are looked at by themselves. -/
theorem commentsAbove_longest (s : Source) (t : SyntaxTree) :
    t.addresses.map t.visitAt? = t.walk.map some ∧
      (t.visitAt? []).map s.commentsAbove = some [] ∧
      ∀ stem parent i n, t.at? stem = some parent → parent.children[i]? = some n →
        ∃ run, IsRunBefore parent.children i run ∧
          (∃ v, t.visitAt? (stem ++ [i]) = some v ∧ v.node = n ∧
            s.commentsAbove v = run.map s.text) ∧
          ∃ v, (visits 0 [] parent.children)[i]? = some v ∧ v.node = n ∧
            s.commentsAbove v = run.map s.text := by
  refine ⟨t.map_visitAt?_addresses, rfl, fun stem parent i n hparent hn => ?_⟩
  obtain ⟨v, hv, hnode, hchild⟩ := visitAt?_append_singleton hparent hn
  have hvisit : (visits 0 [] parent.children)[i]? =
      some ⟨0, n, (parent.children.take i).reverse⟩ := by
    rw [getElem?_visits, hn, List.append_nil]
    rfl
  refine ⟨v.commentsAbove, hchild.isRunBefore, ⟨v, hv, hnode, rfl⟩, _, hvisit, rfl, ?_⟩
  rw [commentsAbove, Visit.commentsAbove, Visit.commentsAbove, hchild.earlier]

/-- The field ends the run above the method, so the comment above the field is no part of it. -/
theorem commentsAbove_longest_method :
    let s := ofText "A.cs" .csharp "/*1*/ int a; /*2*/ //3\n void M();"
    let comment (start stop : Nat) : SyntaxTree :=
      .node ⟨"comment", start, stop, true, false, none⟩ []
    let method : SyntaxTree := .node ⟨"method_declaration", 24, 33, true, false, none⟩ []
    let parent : SyntaxTree := .node ⟨"ERROR", 0, 33, true, true, none⟩
      [comment 0 5, .node ⟨"field_declaration", 6, 12, true, false, none⟩ [], comment 13 18,
        comment 19 22, method]
    ∃ run, IsRunBefore parent.children 4 run ∧ run.map s.text = ["/*2*/", "//3"] := by
  intro s comment method parent
  obtain ⟨-, -, hchildren⟩ := commentsAbove_longest s parent
  obtain ⟨run, hrun, ⟨v, hv, -, htexts⟩, -⟩ := hchildren [] parent 4 method rfl rfl
  refine ⟨run, hrun, ?_⟩
  rw [← htexts]
  obtain rfl := Option.some.inj hv
  rfl

end Source

end TypeCatalog
