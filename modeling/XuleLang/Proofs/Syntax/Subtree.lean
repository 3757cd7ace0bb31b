import XuleLang.Syntax.Tree

/-!
What is below a tree.

What is below a child is below the tree, in the same order, and so are the leaves. A property that
passes from nodes to their children holds of all that is below a tree of which it holds
(`Tree.of_mem_subtrees`), which is the one induction needed for this.
-/

namespace XuleLang.Tree

variable {t u c : Tree} {ts : List Tree}

theorem mem_subtreesOfAll : u ∈ subtreesOfAll ts ↔ ∃ t ∈ ts, u ∈ t.subtrees := by
  induction ts with
  | nil => simp [subtreesOfAll]
  | cons t ts ih => simp [subtreesOfAll, ih]

theorem self_mem_subtrees (t : Tree) : t ∈ t.subtrees := by
  cases t <;> exact .head _

mutual

/-- What passes from nodes to their children holds of all that is below a tree. -/
theorem of_mem_subtrees {P : Tree → Prop} (passes : ∀ t, P t → ∀ c ∈ t.children, P c) :
    (t : Tree) → P t → ∀ u ∈ t.subtrees, P u
  | leaf _, holds, _, member => List.mem_singleton.mp member ▸ holds
  | node i r s cs, holds, u, member => by
    rcases List.mem_cons.mp member with rfl | below
    · exact holds
    · exact of_mem_subtreesOfAll passes cs (passes _ holds) u below

theorem of_mem_subtreesOfAll {P : Tree → Prop} (passes : ∀ t, P t → ∀ c ∈ t.children, P c) :
    (ts : List Tree) → (∀ t ∈ ts, P t) → ∀ u ∈ subtreesOfAll ts, P u
  | [], _, _, member => nomatch member
  | t :: ts, hold, u, member => by
    obtain ⟨first, others⟩ := List.forall_mem_cons.mp hold
    rcases List.mem_append.mp member with here | later
    · exact of_mem_subtrees passes t first u here
    · exact of_mem_subtreesOfAll passes ts others u later

end

theorem subtrees_sublist_subtreesOfAll (member : t ∈ ts) :
    t.subtrees.Sublist (subtreesOfAll ts) := by
  induction ts with
  | nil => cases member
  | cons u ts ih =>
    rcases List.mem_cons.mp member with rfl | later
    · exact List.sublist_append_left _ _
    · exact (ih later).trans (List.sublist_append_right _ _)

theorem leaves_sublist_leavesOfAll (member : t ∈ ts) : t.leaves.Sublist (leavesOfAll ts) := by
  induction ts with
  | nil => cases member
  | cons u ts ih =>
    rcases List.mem_cons.mp member with rfl | later
    · exact List.sublist_append_left _ _
    · exact (ih later).trans (List.sublist_append_right _ _)

/-- What is below a part is below the whole, in the same order. -/
theorem subtrees_sublist (below : u ∈ t.subtrees) : u.subtrees.Sublist t.subtrees := by
  refine of_mem_subtrees (P := (·.subtrees.Sublist t.subtrees)) ?_ t (.refl _) u below
  intro v within c child
  cases v with
  | leaf => cases child
  | node i r s cs =>
    exact ((subtrees_sublist_subtreesOfAll child).trans (List.sublist_cons_self _ _)).trans within

/-- The leaves of a part are among those of the whole, in their order. -/
theorem leaves_sublist (below : u ∈ t.subtrees) : u.leaves.Sublist t.leaves := by
  refine of_mem_subtrees (P := (·.leaves.Sublist t.leaves)) ?_ t (.refl _) u below
  intro v within c child
  cases v with
  | leaf => cases child
  | node i r s cs => exact (leaves_sublist_leavesOfAll child).trans within

/-- A child of what is below a tree is below it, too. -/
theorem children_subset_subtrees (below : u ∈ t.subtrees) : u.children ⊆ t.subtrees := by
  intro c child
  refine (subtrees_sublist below).subset ?_
  cases u with
  | leaf => cases child
  | node i r s cs => exact .tail _ (mem_subtreesOfAll.mpr ⟨c, child, c.self_mem_subtrees⟩)

end XuleLang.Tree
