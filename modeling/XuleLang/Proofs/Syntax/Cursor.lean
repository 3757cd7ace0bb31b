import XuleLang.Proofs.Syntax.FileTree
import XuleLang.Proofs.Syntax.Subtree
import Mathlib.Data.List.Chain
import Mathlib.Data.List.Nodup

/-!
Places in a tree.

A place that is not the root of a tree is that of a child of the innermost node above it, and each
child of a node has its place there. All numbers in a tree but that of its root are those of
children, as often as they occur. Where no number occurs twice, a place is known by the number of
its subtree.
-/

namespace XuleLang

/-- The place of a child. -/
def Cursor.child (p : Cursor) (u : Tree) : Cursor := ⟨u, p.tree :: p.above⟩

namespace Tree

variable {t u : Tree} {above : List Tree} {c p : Cursor}

theorem mem_cursorsUnder_self (above : List Tree) (t : Tree) :
    ⟨t, above⟩ ∈ t.cursorsUnder above := by
  cases t <;> exact .head _

theorem cursorsUnder_subset_of_mem {ts : List Tree} (member : t ∈ ts) :
    t.cursorsUnder above ⊆ cursorsOfAll above ts := by
  induction ts with
  | nil => cases member
  | cons s ts ih =>
    rw [cursorsOfAll]
    rcases List.mem_cons.mp member with rfl | later
    · exact List.subset_append_left _ _
    · exact List.Subset.trans (ih later) (List.subset_append_right _ _)

mutual

/-- Each child of a node has its place in the tree. -/
theorem child_mem_cursorsUnder {above : List Tree} : (t : Tree) → ∀ p ∈ t.cursorsUnder above,
    ∀ u ∈ p.tree.children, p.child u ∈ t.cursorsUnder above
  | leaf l, p, member, u, child => by
    cases List.mem_singleton.mp member
    cases child
  | node i r s cs, p, member, u, child => by
    rw [cursorsUnder] at member ⊢
    rcases List.mem_cons.mp member with rfl | below
    · exact .tail _ (cursorsUnder_subset_of_mem child (mem_cursorsUnder_self _ u))
    · exact .tail _ (child_mem_cursorsOfAll cs p below u child)

theorem child_mem_cursorsOfAll {above : List Tree} : (ts : List Tree) →
    ∀ p ∈ cursorsOfAll above ts, ∀ u ∈ p.tree.children, p.child u ∈ cursorsOfAll above ts
  | [], _, member, _, _ => nomatch member
  | t :: ts, p, member, u, child => by
    rw [cursorsOfAll] at member ⊢
    rcases List.mem_append.mp member with here | later
    · exact List.mem_append_left _ (child_mem_cursorsUnder t p here u child)
    · exact List.mem_append_right _ (child_mem_cursorsOfAll ts p later u child)

end

mutual

/-- A place is that of the whole tree or that of a child of a place. -/
theorem exists_parent_of_mem_cursorsUnder {above : List Tree} : (t : Tree) →
    ∀ c ∈ t.cursorsUnder above,
      c = ⟨t, above⟩ ∨ ∃ p ∈ t.cursorsUnder above, ∃ u ∈ p.tree.children, c = p.child u
  | leaf l, c, member => .inl (List.mem_singleton.mp member)
  | node i r s cs, c, member => by
    rw [cursorsUnder] at member ⊢
    rcases List.mem_cons.mp member with here | below
    · exact .inl here
    · rcases exists_parent_of_mem_cursorsOfAll cs c below with ⟨u, child, rfl⟩ | ⟨p, there, found⟩
      · exact .inr ⟨_, .head _, u, child, rfl⟩
      · exact .inr ⟨p, .tail _ there, found⟩

theorem exists_parent_of_mem_cursorsOfAll {above : List Tree} : (ts : List Tree) →
    ∀ c ∈ cursorsOfAll above ts, (∃ u ∈ ts, c = ⟨u, above⟩) ∨
      ∃ p ∈ cursorsOfAll above ts, ∃ u ∈ p.tree.children, c = p.child u
  | [], _, member => nomatch member
  | t :: ts, c, member => by
    rw [cursorsOfAll] at member ⊢
    rcases List.mem_append.mp member with here | later
    · rcases exists_parent_of_mem_cursorsUnder t c here with rfl | ⟨p, there, found⟩
      · exact .inl ⟨t, .head _, rfl⟩
      · exact .inr ⟨p, List.mem_append_left _ there, found⟩
    · rcases exists_parent_of_mem_cursorsOfAll ts c later with ⟨u, there, rfl⟩ | ⟨p, there, found⟩
      · exact .inl ⟨u, .tail _ there, rfl⟩
      · exact .inr ⟨p, List.mem_append_right _ there, found⟩

end

theorem mem_subtrees_of_mem_cursors (member : c ∈ t.cursors) : c.tree ∈ t.subtrees := by
  rw [← map_tree_cursorsUnder []]
  exact List.mem_map_of_mem member

/-- The leaves at a place are leaves of the tree. -/
theorem leaves_sublist_of_mem_cursorsUnder {above : List Tree} (t : Tree) :
    ∀ c ∈ t.cursorsUnder above, c.tree.leaves.Sublist t.leaves := by
  intro c member
  refine leaves_sublist ?_
  rw [← map_tree_cursorsUnder above]
  exact List.mem_map_of_mem member

mutual

/-- Each leaf has its place in the tree. -/
theorem exists_cursor_of_mem_leaves (above : List Tree) : (t : Tree) → ∀ l ∈ t.leaves,
    ∃ c ∈ t.cursorsUnder above, c.tree = leaf l
  | leaf k, l, member => by
    cases List.mem_singleton.mp member
    exact ⟨⟨leaf k, above⟩, .head _, rfl⟩
  | node i r s cs, l, member => by
    obtain ⟨c, below, same⟩ :=
      exists_cursor_of_mem_leavesOfAll (node i r s cs :: above) cs l member
    exact ⟨c, .tail _ below, same⟩

theorem exists_cursor_of_mem_leavesOfAll (above : List Tree) : (ts : List Tree) →
    ∀ l ∈ leavesOfAll ts, ∃ c ∈ cursorsOfAll above ts, c.tree = leaf l
  | [], _, member => nomatch member
  | t :: ts, l, member => by
    rw [leavesOfAll] at member
    rw [cursorsOfAll]
    rcases List.mem_append.mp member with here | later
    · obtain ⟨c, there, same⟩ := exists_cursor_of_mem_leaves above t l here
      exact ⟨c, List.mem_append_left _ there, same⟩
    · obtain ⟨c, there, same⟩ := exists_cursor_of_mem_leavesOfAll above ts l later
      exact ⟨c, List.mem_append_right _ there, same⟩

end

/-- The numbers of the children of a node. -/
def childIds (t : Tree) : List Nat := t.children.map id

mutual

/-- All numbers in a tree but that of its root are those of children, as often as they occur. -/
theorem flatMap_childIds_perm : (t : Tree) →
    (t.id :: t.subtrees.flatMap childIds).Perm (t.subtrees.map id)
  | leaf l => .refl _
  | node i r s cs => by
    rw [subtrees, List.flatMap_cons, List.map_cons]
    exact (flatMap_childIds_all_perm cs).cons i

theorem flatMap_childIds_all_perm : (ts : List Tree) →
    (ts.map id ++ (subtreesOfAll ts).flatMap childIds).Perm ((subtreesOfAll ts).map id)
  | [] => .refl _
  | t :: ts => by
    rw [subtreesOfAll, List.flatMap_append, List.map_append, List.map_cons]
    have first := flatMap_childIds_perm t
    have others := flatMap_childIds_all_perm ts
    refine .trans ?_ (first.append others)
    rw [List.cons_append, List.cons_append]
    exact .cons _ (List.perm_append_comm_assoc _ _ _)

end

theorem mem_of_cursor? {n : Nat} (found : t.cursor? n = some c) :
    c ∈ t.cursors ∧ c.tree.id = n := by
  rw [cursor?] at found
  exact ⟨List.mem_of_find?_eq_some found, by simpa using List.find?_some found⟩

theorem cursor?_isSome_iff {n : Nat} : (t.cursor? n).isSome ↔ n ∈ t.subtrees.map id := by
  rw [cursor?, List.find?_isSome, ← map_tree_cursorsUnder []]
  simp [cursors]

/-- Where no number occurs twice, a place is known by its number. -/
theorem cursor?_eq_some_iff (distinct : (t.subtrees.map id).Nodup) {n : Nat} :
    t.cursor? n = some c ↔ c ∈ t.cursors ∧ c.tree.id = n := by
  refine ⟨mem_of_cursor?, ?_⟩
  rintro ⟨member, rfl⟩
  obtain ⟨d, found⟩ : ∃ d, t.cursor? c.tree.id = some d :=
    Option.isSome_iff_exists.mp (List.find?_isSome.mpr ⟨c, member, beq_self_eq_true _⟩)
  obtain ⟨there, same⟩ := mem_of_cursor? found
  rw [← map_tree_cursorsUnder [], List.map_map] at distinct
  rw [found, List.inj_on_of_nodup_map distinct there member same]

end Tree

end XuleLang
