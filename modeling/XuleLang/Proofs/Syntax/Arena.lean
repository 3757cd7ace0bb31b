import XuleLang.Proofs.Syntax.Cursor
import XuleLang.Proofs.Syntax.Hull
import XuleLang.Syntax.Arena

/-!
Trees in arenas.

An arena holds a tree if its entries are those of the tree's leaves and nodes: each has its number,
the numbers of its children, and the number of its parent (`Tree.entries`). Then whatever is asked
of the arena by numbers is answered as the places of the tree answer it, and walks come to an end:
up, after the nodes above a place, and down, after the subtrees below it.
-/

namespace XuleLang

/-! ## Entries -/

/-- An array holds entries, all of them and no others, each at its number. -/
structure Stores (nodes : Array NodeData) (es : List (Nat × NodeData)) : Prop where
  numbers : (es.map (·.1)).Perm (List.range nodes.size)
  entry : ∀ e ∈ es, nodes[e.1]? = some e.2

namespace Stores

variable {nodes : Array NodeData} {es es' : List (Nat × NodeData)} {n : Nat} {d : NodeData}

theorem of_perm (stores : Stores nodes es) (same : es.Perm es') : Stores nodes es' :=
  { numbers := (same.symm.map _).trans stores.numbers
    entry := fun e member => stores.entry e (same.mem_iff.mpr member) }

theorem lt_size (stores : Stores nodes es) {e : Nat × NodeData} (member : e ∈ es) :
    e.1 < nodes.size :=
  List.mem_range.mp (stores.numbers.mem_iff.mp (List.mem_map_of_mem member))

/-- A new entry gets the next number. -/
theorem push (stores : Stores nodes es) (d : NodeData) :
    Stores (nodes.push d) ((nodes.size, d) :: es) := by
  refine ⟨?_, fun e member => ?_⟩
  · rw [List.map_cons, Array.size_push, List.range_succ]
    exact (stores.numbers.cons _).trans (List.perm_append_singleton _ _).symm
  · rcases List.mem_cons.mp member with rfl | early
    · exact Array.getElem?_push_size
    · rw [Array.getElem?_push, if_neg (Nat.ne_of_lt (stores.lt_size early)), stores.entry e early]

/-- Changing an entry keeps the others. -/
theorem modify (stores : Stores nodes ((n, d) :: es)) (f : NodeData → NodeData) :
    Stores (nodes.modify n f) ((n, f d) :: es) := by
  have distinct : (n :: es.map (·.1)).Nodup := stores.numbers.nodup_iff.mpr List.nodup_range
  refine ⟨?_, fun e member => ?_⟩
  · rw [Array.size_modify]
    exact stores.numbers
  · rcases List.mem_cons.mp member with rfl | other
    · rw [Array.getElem?_modify, if_pos rfl, stores.entry (n, d) (.head _), Option.map_some]
    · have apart : n ≠ e.1 := fun same =>
        (List.nodup_cons.mp distinct).1 (same ▸ List.mem_map_of_mem other)
      rw [Array.getElem?_modify, if_neg apart, stores.entry e (.tail _ other)]

end Stores

namespace Tree

/-- The entry of a leaf or node with a parent. -/
def data (parent : Option Nat) : Tree → NodeData
  | leaf l => ⟨.token l.token.index, parent, [], some l.token.span⟩
  | node _ r s cs => ⟨.rule r, parent, cs.map id, s⟩

mutual

/-- The entries of a tree with a parent. -/
def entries (parent : Option Nat) : Tree → List (Nat × NodeData)
  | leaf l => [(l.id, (leaf l).data parent)]
  | node i r s cs => (i, (node i r s cs).data parent) :: entriesOfAll (some i) cs

def entriesOfAll (parent : Option Nat) : List Tree → List (Nat × NodeData)
  | [] => []
  | t :: ts => entries parent t ++ entriesOfAll parent ts

end

variable {t : Tree} {ts us : List Tree}

theorem entries_eq (parent : Option Nat) (t : Tree) :
    t.entries parent = (t.id, t.data parent) :: entriesOfAll (some t.id) t.children := by
  cases t <;> simp [entries, id, children, entriesOfAll]

theorem data_withParent (t : Tree) (old parent : Option Nat) :
    { t.data old with parent := parent } = t.data parent := by
  cases t <;> rfl

theorem entriesOfAll_eq_flatMap (parent : Option Nat) (ts : List Tree) :
    entriesOfAll parent ts = ts.flatMap (entries parent) := by
  induction ts with
  | nil => rfl
  | cons t ts ih => rw [entriesOfAll, ih, List.flatMap_cons]

theorem entriesOfAll_perm (parent : Option Nat) (same : ts.Perm us) :
    (entriesOfAll parent ts).Perm (entriesOfAll parent us) := by
  rw [entriesOfAll_eq_flatMap, entriesOfAll_eq_flatMap]
  exact same.flatMap_right _

/-- A tree among others has its entry. -/
theorem mem_entriesOfAll (parent : Option Nat) (member : t ∈ ts) :
    (t.id, t.data parent) ∈ entriesOfAll parent ts := by
  rw [entriesOfAll_eq_flatMap]
  exact List.mem_flatMap.mpr ⟨t, member, by simp [entries_eq]⟩

end Tree

/-- The number of a place and its entry. -/
def Cursor.entry (c : Cursor) : Nat × NodeData :=
  (c.tree.id, c.tree.data (c.parent?.map Tree.id))

namespace Tree

mutual

/-- The entries of a tree are those of its places. -/
theorem map_entry_cursorsUnder (above : List Tree) : (t : Tree) →
    (t.cursorsUnder above).map Cursor.entry = t.entries (above.head?.map id)
  | leaf _ => rfl
  | node i r s cs => congrArg (_ :: ·) (map_entry_cursorsOfAll (node i r s cs :: above) cs)

theorem map_entry_cursorsOfAll (above : List Tree) : (ts : List Tree) →
    (cursorsOfAll above ts).map Cursor.entry = entriesOfAll (above.head?.map id) ts
  | [] => rfl
  | t :: ts => by
    rw [cursorsOfAll, List.map_append, map_entry_cursorsUnder above t,
      map_entry_cursorsOfAll above ts, entriesOfAll]

end

/-- Each subtree has its place. -/
theorem exists_cursor_of_mem_subtrees {t u : Tree} (below : u ∈ t.subtrees) :
    ∃ c ∈ t.cursors, c.tree = u := by
  rw [← map_tree_cursorsUnder []] at below
  exact List.mem_map.mp below

theorem map_entry_cursors (t : Tree) : t.cursors.map Cursor.entry = t.entries none :=
  map_entry_cursorsUnder [] t

/-! ## How far walks go -/

mutual

/-- No place has more nodes above it than the tree has. -/
theorem length_ancestors_le {above : List Tree} : (t : Tree) → ∀ c ∈ t.cursorsUnder above,
    c.ancestors.length ≤ t.subtrees.length + above.length
  | leaf l, c, member => by
    cases List.mem_singleton.mp member
    simp [Cursor.ancestors, subtrees, Nat.add_comm]
  | node i r s cs, c, member => by
    rw [subtrees, List.length_cons]
    rcases List.mem_cons.mp member with rfl | below
    · simp only [Cursor.ancestors, List.length_cons]
      omega
    · have deep := length_ancestors_all_le cs c below
      rw [List.length_cons] at deep
      omega

theorem length_ancestors_all_le {above : List Tree} : (ts : List Tree) →
    ∀ c ∈ cursorsOfAll above ts, c.ancestors.length ≤ (subtreesOfAll ts).length + above.length
  | [], _, member => nomatch member
  | t :: ts, c, member => by
    rw [subtreesOfAll, List.length_append]
    rw [cursorsOfAll] at member
    rcases List.mem_append.mp member with here | later
    · have deep := length_ancestors_le t c here
      omega
    · have deep := length_ancestors_all_le ts c later
      omega

end

mutual

/-- The leaves are the subtrees that are leaves. -/
theorem map_id_filter_subtrees : (t : Tree) →
    (t.subtrees.filter isLeaf).map id = t.leaves.map (·.id)
  | leaf _ => rfl
  | node _ _ _ cs => map_id_filter_subtreesOfAll cs

theorem map_id_filter_subtreesOfAll : (ts : List Tree) →
    ((subtreesOfAll ts).filter isLeaf).map id = (leavesOfAll ts).map (·.id)
  | [] => rfl
  | t :: ts => by
    rw [subtreesOfAll, leavesOfAll, List.filter_append, List.map_append, List.map_append,
      map_id_filter_subtrees t, map_id_filter_subtreesOfAll ts]

end

end Tree

/-! ## Arenas with a tree in them -/

/-- The entries of an arena are those of a tree, and so is its stream. -/
structure Arena.Holds (a : Arena) (t : SyntaxTree) : Prop where
  nodes : Stores a.nodes (t.root.entries none)
  tokens : a.tokens = t.tokens

namespace Arena

theorem descend_nil (a : Arena) (fuel : Nat) : a.descend fuel [] = [] := by
  cases fuel <;> rfl

mutual

/-- If the stored children are those of the subtrees, a walk down meets a tree on top of the stack
subtree by subtree, and what was under it after that. -/
theorem descend_subtrees {a : Arena} (fuel : Nat) (stack : List Nat) : (u : Tree) →
    (∀ v ∈ u.subtrees, a.children v.id = v.childIds) →
    a.descend (u.subtrees.length + fuel) (u.id :: stack) =
      u.subtrees.map Tree.id ++ a.descend fuel stack
  | .leaf l, known => by
    rw [Tree.subtrees, List.length_singleton, Nat.add_comm, descend, known _ (.head _)]
    rfl
  | .node i r s cs, known => by
    rw [Tree.subtrees] at known ⊢
    rw [List.length_cons, Nat.add_right_comm, descend, known _ (.head _), List.map_cons,
      List.cons_append,
      ← descend_subtreesOfAll fuel stack cs fun v below => known v (.tail _ below)]
    rfl

theorem descend_subtreesOfAll {a : Arena} (fuel : Nat) (stack : List Nat) : (us : List Tree) →
    (∀ v ∈ Tree.subtreesOfAll us, a.children v.id = v.childIds) →
    a.descend ((Tree.subtreesOfAll us).length + fuel) (us.map Tree.id ++ stack) =
      (Tree.subtreesOfAll us).map Tree.id ++ a.descend fuel stack
  | [], _ => by
    rw [Tree.subtreesOfAll, List.length_nil, Nat.zero_add]
    rfl
  | u :: us, known => by
    rw [Tree.subtreesOfAll] at known ⊢
    obtain ⟨first, others⟩ := List.forall_mem_append.mp known
    rw [List.length_append, Nat.add_assoc, List.map_cons, List.cons_append,
      descend_subtrees _ _ u first, descend_subtreesOfAll fuel stack us others, List.map_append,
      List.append_assoc]

end

namespace Holds

variable {a : Arena} {t : SyntaxTree} {c : Cursor} {u : Tree} {n m : Nat}

theorem lookup (holds : a.Holds t) (member : c ∈ t.root.cursors) :
    a.nodes[c.tree.id]? = some (c.tree.data (c.parent?.map Tree.id)) := by
  refine holds.nodes.entry c.entry ?_
  rw [← Tree.map_entry_cursors]
  exact List.mem_map_of_mem member

/-- The numbers of the tree are the places in the arena. -/
theorem numbers (holds : a.Holds t) :
    (t.root.cursors.map (·.tree.id)).Perm (List.range a.size) := by
  have perm := holds.nodes.numbers
  rw [← Tree.map_entry_cursors, List.map_map] at perm
  exact perm

theorem exists_cursor (holds : a.Holds t) (below : n < a.size) :
    ∃ c ∈ t.root.cursors, c.tree.id = n :=
  List.mem_map.mp (holds.numbers.mem_iff.mpr (List.mem_range.mpr below))

theorem size_eq (holds : a.Holds t) : a.size = t.root.subtrees.length := by
  have same := holds.numbers.length_eq
  rw [List.length_map, List.length_range] at same
  rw [← same, ← Tree.map_tree_cursorsUnder [] t.root, List.length_map]
  rfl

/-- No number occurs twice. -/
theorem nodup (holds : a.Holds t) : (t.root.subtrees.map Tree.id).Nodup := by
  rw [← Tree.map_tree_cursorsUnder [] t.root, List.map_map]
  exact holds.numbers.nodup_iff.mpr List.nodup_range

theorem mem_ids (holds : a.Holds t) : n ∈ t.root.subtrees.map Tree.id ↔ n < a.size := by
  rw [← Tree.map_tree_cursorsUnder [] t.root, List.map_map, ← List.mem_range]
  exact holds.numbers.mem_iff

theorem parent?_eq (holds : a.Holds t) (member : c ∈ t.root.cursors) :
    a.parent? c.tree.id = c.parent?.map Tree.id := by
  rw [parent?, holds.lookup member]
  cases c.tree <;> rfl

theorem children_eq (holds : a.Holds t) (member : c ∈ t.root.cursors) :
    a.children c.tree.id = c.tree.childIds := by
  rw [children, holds.lookup member]
  cases c.tree <;> rfl

theorem span?_eq (holds : a.Holds t) (member : c ∈ t.root.cursors) :
    a.span? c.tree.id = c.tree.span? := by
  rw [span?, holds.lookup member]
  cases c.tree <;> rfl

theorem rule?_eq (holds : a.Holds t) (member : c ∈ t.root.cursors) :
    a.rule? c.tree.id = c.tree.rule? := by
  rw [rule?, holds.lookup member]
  cases c.tree <;> rfl

theorem isTerminal_eq (holds : a.Holds t) (member : c ∈ t.root.cursors) :
    a.isTerminal c.tree.id = c.tree.isLeaf := by
  rw [isTerminal, holds.lookup member]
  cases c.tree <;> rfl

theorem token?_leaf (holds : a.Holds t) (member : c ∈ t.root.cursors) {l : Leaf}
    (leaf : c.tree = .leaf l) : a.token? l.id = t.tokens[l.token.index]? := by
  have found := holds.lookup member
  rw [leaf] at found
  rw [token?, show a.nodes[l.id]? = _ from found, ← holds.tokens]
  rfl

/-! ### Neighbours -/

/-- The children of an entry are those whose parent it is. -/
theorem mem_children_iff (holds : a.Holds t) : m ∈ a.children n ↔ a.parent? m = some n := by
  constructor
  · intro child
    have below : n < a.size := by
      refine Decidable.byContradiction fun beyond => ?_
      rw [children, Array.getElem?_eq_none (Nat.le_of_not_lt beyond)] at child
      cases child
    obtain ⟨p, member, rfl⟩ := holds.exists_cursor below
    rw [holds.children_eq member] at child
    obtain ⟨u, part, rfl⟩ := List.mem_map.mp child
    exact holds.parent?_eq (Tree.child_mem_cursorsUnder t.root p member u part)
  · intro parent
    have below : m < a.size := by
      refine Decidable.byContradiction fun beyond => ?_
      rw [parent?, Array.getElem?_eq_none (Nat.le_of_not_lt beyond)] at parent
      cases parent
    obtain ⟨c, member, rfl⟩ := holds.exists_cursor below
    rw [holds.parent?_eq member] at parent
    rcases Tree.exists_parent_of_mem_cursorsUnder t.root c member with
      rfl | ⟨p, there, u, part, rfl⟩
    · cases parent
    · obtain rfl : p.tree.id = n := Option.some.inj parent
      rw [holds.children_eq there]
      exact List.mem_map_of_mem part

/-- All entries but the root are children, each of one node and once. -/
theorem children_perm (holds : a.Holds t) :
    (t.root.id :: (List.range a.size).flatMap a.children).Perm (List.range a.size) := by
  have known : ∀ c ∈ t.root.cursors, a.children c.tree.id = c.tree.childIds :=
    fun c member => holds.children_eq member
  have all : (t.root.cursors.map (·.tree.id)).flatMap a.children =
      t.root.subtrees.flatMap Tree.childIds := by
    rw [List.flatMap_map, List.flatMap_congr known, ← Tree.map_tree_cursorsUnder [] t.root,
      List.flatMap_map]
    rfl
  have tree := t.root.flatMap_childIds_perm
  rw [← Tree.map_tree_cursorsUnder [] t.root, List.map_map, Tree.map_tree_cursorsUnder, ← all]
    at tree
  exact ((holds.numbers.symm.flatMap_right _).cons _).trans (tree.trans holds.numbers)

theorem parent?_root (holds : a.Holds t) : a.parent? t.root.id = none :=
  holds.parent?_eq (Tree.mem_cursorsUnder_self [] t.root)

/-! ### Walks -/

theorem climb_eq (holds : a.Holds t) {fuel : Nat} (member : c ∈ t.root.cursors)
    (enough : c.ancestors.length ≤ fuel) : a.climb fuel c.tree.id = c.ancestors.map Tree.id := by
  obtain ⟨u, above⟩ := c
  induction above generalizing u fuel with
  | nil =>
    obtain ⟨k, rfl⟩ : ∃ k, fuel = k + 1 := Nat.exists_eq_add_of_le' enough
    rw [climb, holds.parent?_eq member]
    rfl
  | cons q above ih =>
    obtain ⟨k, rfl⟩ : ∃ k, fuel = k + 1 :=
      Nat.exists_eq_add_of_le' (Nat.le_trans (Nat.le_add_left 1 _) enough)
    have here : a.parent? u.id = some q.id := holds.parent?_eq member
    rcases Tree.exists_parent_of_mem_cursorsUnder t.root _ member with same | ⟨p, there, v, -, same⟩
    · cases same
    · obtain ⟨tree, around⟩ := p
      cases same
      rw [climb, here]
      exact congrArg (_ :: ·) (ih tree there (Nat.le_of_succ_le_succ enough))

/-- Going from parent to parent leads to the root. -/
theorem ancestors_climb (holds : a.Holds t) (member : c ∈ t.root.cursors) :
    (c.ancestors.map Tree.id).IsChain (fun m p => a.parent? m = some p) ∧
      c.ancestors.getLast? = some t.root := by
  obtain ⟨u, above⟩ := c
  induction above generalizing u with
  | nil =>
    rcases Tree.exists_parent_of_mem_cursorsUnder t.root _ member with same | ⟨p, -, v, -, same⟩
    · cases same
      exact ⟨.singleton _, rfl⟩
    · cases same
  | cons q above ih =>
    have parent : a.parent? u.id = some q.id := holds.parent?_eq member
    rcases Tree.exists_parent_of_mem_cursorsUnder t.root _ member with same | ⟨p, there, v, -, same⟩
    · cases same
    · obtain ⟨tree, around⟩ := p
      cases same
      obtain ⟨climbs, last⟩ := ih tree there
      refine ⟨.cons_cons parent climbs, ?_⟩
      rw [Cursor.ancestors, List.getLast?_cons_cons]
      exact last

/-- Going up from a place, the walk ends after the nodes above it. -/
theorem ancestors_eq (holds : a.Holds t) (member : c ∈ t.root.cursors) :
    a.ancestors c.tree.id = c.ancestors.map Tree.id :=
  holds.climb_eq member (holds.size_eq ▸ t.root.length_ancestors_le c member)

/-- Going down from a place, the walk ends after the subtrees below it. -/
theorem descendants_eq (holds : a.Holds t) (member : c ∈ t.root.cursors) :
    a.descendants c.tree.id = c.tree.subtrees.map Tree.id := by
  have within := Tree.subtrees_sublist (Tree.mem_subtrees_of_mem_cursors member)
  have known : ∀ v ∈ c.tree.subtrees, a.children v.id = v.childIds := fun v below => by
    obtain ⟨d, place, rfl⟩ := Tree.exists_cursor_of_mem_subtrees (within.subset below)
    exact holds.children_eq place
  obtain ⟨rest, size⟩ := Nat.exists_eq_add_of_le within.length_le
  rw [descendants, holds.size_eq, size, descend_subtrees rest [] c.tree known, descend_nil,
    List.append_nil]

theorem terminals_eq (holds : a.Holds t) (member : c ∈ t.root.cursors) :
    a.terminals c.tree.id = c.tree.leaves.map (·.id) := by
  have within := Tree.subtrees_sublist (Tree.mem_subtrees_of_mem_cursors member)
  have known : ∀ v ∈ c.tree.subtrees, a.isTerminal v.id = v.isLeaf := fun v below => by
    obtain ⟨d, place, rfl⟩ := Tree.exists_cursor_of_mem_subtrees (within.subset below)
    exact holds.isTerminal_eq place
  rw [terminals, holds.descendants_eq member, List.filter_map, ← Tree.map_id_filter_subtrees]
  exact congrArg _ (List.filter_congr known)

/-- The tokens at and below a place, where the stream is numbered. -/
theorem map_token?_terminals (holds : a.Holds t) (member : c ∈ t.root.cursors)
    (known : ∀ l ∈ t.root.leaves, t.tokens[l.token.index]? = some l.token) :
    (a.terminals c.tree.id).map a.token? = c.tree.tokens.map some := by
  rw [holds.terminals_eq member, Tree.tokens, List.map_map, List.map_map]
  refine List.map_congr_left fun l below => ?_
  have there := (Tree.leaves_sublist_of_mem_cursorsUnder t.root c member).subset below
  obtain ⟨d, place, leaf⟩ := Tree.exists_cursor_of_mem_leaves [] t.root l there
  exact (holds.token?_leaf place leaf).trans (known l there)

/-- What the children of a place cover. -/
theorem filterMap_span?_children (holds : a.Holds t) (member : c ∈ t.root.cursors) :
    (a.children c.tree.id).filterMap a.span? = c.tree.children.filterMap Tree.span? := by
  rw [holds.children_eq member, Tree.childIds, List.filterMap_map]
  refine List.filterMap_congr fun u part => ?_
  exact holds.span?_eq (Tree.child_mem_cursorsUnder t.root c member u part)

end Holds

end Arena

end XuleLang
