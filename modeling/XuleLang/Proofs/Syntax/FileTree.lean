import XuleLang.Source.File
import XuleLang.Proofs.Parser.File
import XuleLang.Proofs.Token.Visible

/-!
The trees of rule files.

In the tree of a rule file every leaf and every node has a number of its own, and every node stands
where its rule may stand: declarations are parts of the file and of nothing else, and what declares
a variable lies in a scope. This is so whatever is wrong with the text.
-/

namespace XuleLang

namespace Tree

/-- The numbers of the leaves and nodes of some trees. -/
def idsOfAll (ts : List Tree) : List Nat := (subtreesOfAll ts).map id

theorem subtreesOfAll_append (ts us : List Tree) :
    subtreesOfAll (ts ++ us) = subtreesOfAll ts ++ subtreesOfAll us := by
  induction ts with
  | nil => rfl
  | cons t ts ih => simp [subtreesOfAll, ih]

@[simp] theorem idsOfAll_append (ts us : List Tree) :
    idsOfAll (ts ++ us) = idsOfAll ts ++ idsOfAll us := by
  simp [idsOfAll, subtreesOfAll_append]

@[simp] theorem idsOfAll_nil : idsOfAll [] = [] := rfl

@[simp] theorem idsOfAll_leaf (l : Leaf) : idsOfAll [.leaf l] = [l.id] := rfl

@[simp] theorem idsOfAll_node (n : Nat) (r : Rule) (s : Option Span) (cs : List Tree) :
    idsOfAll [.node n r s cs] = n :: idsOfAll cs := by
  simp [idsOfAll, subtreesOfAll, subtrees, id]

@[simp] theorem idsOfAll_ofChildren (n : Nat) (r : Rule) (cs : List Tree) :
    idsOfAll [ofChildren n r cs] = n :: idsOfAll cs := idsOfAll_node ..

mutual

/-- Places are listed in the order of the subtrees there. -/
theorem map_tree_cursorsUnder (above : List Tree) : (t : Tree) →
    (t.cursorsUnder above).map (·.tree) = t.subtrees
  | leaf _ => rfl
  | node i r s cs => congrArg (node i r s cs :: ·) (map_tree_cursorsOfAll _ cs)

theorem map_tree_cursorsOfAll (above : List Tree) : (ts : List Tree) →
    (cursorsOfAll above ts).map (·.tree) = subtreesOfAll ts
  | [] => rfl
  | t :: ts => by
    rw [cursorsOfAll, subtreesOfAll, List.map_append, map_tree_cursorsUnder,
      map_tree_cursorsOfAll]

end

/-- Every node of the tree stands where its rule may stand. -/
inductive IsPlaced : Region → Tree → Prop where
  | leaf (g : Region) (l : Leaf) : IsPlaced g (.leaf l)
  | node (n : Nat) (span : Option Span) (admitted : g.admits r)
    (parts : ∀ c ∈ cs, IsPlaced (g.below r) c) : IsPlaced g (.node n r span cs)

theorem IsPlaced.admits {t : Tree} (placed : t.IsPlaced g) (rule : t.rule? = some r) :
    g.admits r := by
  cases placed with
  | leaf => cases rule
  | node n span admitted parts =>
    cases rule
    exact admitted

end Tree

/-- The numbers from one up to another one. -/
def idsUpTo (m n : Nat) : List Nat := List.range' m (n - m)

theorem idsUpTo_append (first : l ≤ m) (second : m ≤ n) :
    idsUpTo l m ++ idsUpTo m n = idsUpTo l n := by
  have apart : n - l = m - l + (n - m) := by omega
  have start : m = l + (m - l) := by omega
  rw [idsUpTo, idsUpTo, idsUpTo, apart, ← List.range'_append_1, ← start]

theorem idsUpTo_eq_cons (less : m < n) : idsUpTo m n = m :: idsUpTo (m + 1) n := by
  have apart : n - m = n - (m + 1) + 1 := by omega
  rw [idsUpTo, apart, List.range'_succ, idsUpTo]

/-- The children of an open node get the numbers from one up to another one, each once. -/
theorem Grows.ids {a b : Growth} (grows : Grows g a b) : a.nextId ≤ b.nextId ∧
    (Tree.idsOfAll b.trees.reverse).Perm
      (Tree.idsOfAll a.trees.reverse ++ idsUpTo a.nextId b.nextId) := by
  induction grows with
  | still a => simp [idsUpTo]
  | next first second ihFirst ihSecond =>
    obtain ⟨up, ids⟩ := ihFirst
    obtain ⟨upAgain, more⟩ := ihSecond
    refine ⟨Nat.le_trans up upAgain, more.trans ?_⟩
    rw [← idsUpTo_append up upAgain, ← List.append_assoc]
    exact ids.append_right _
  | leaf inside rest n ts => simp [idsUpTo]
  | node admitted ts body ih =>
    obtain ⟨up, ids⟩ := ih
    refine ⟨Nat.le_of_succ_le up, ?_⟩
    rw [idsUpTo_eq_cons up]
    simpa using (ids.cons _).append_left (Tree.idsOfAll ts.reverse)
  | around wraps deep ts body ih =>
    obtain ⟨up, ids⟩ := ih
    refine ⟨Nat.le_of_succ_le up, ?_⟩
    -- The number of the new node is smaller than those behind the child it stands around.
    rw [idsUpTo_eq_cons up]
    simpa using ((ids.cons _).trans List.perm_middle.symm).append_left (Tree.idsOfAll ts.reverse)

/-- The children of an open node stand where they may stand. -/
theorem Grows.isPlaced {a b : Growth} (grows : Grows g a b)
    (before : ∀ t ∈ a.trees, t.IsPlaced g) : ∀ t ∈ b.trees, t.IsPlaced g := by
  induction grows with
  | still => exact before
  | next first second ihFirst ihSecond => exact ihSecond (ihFirst before)
  | leaf inside rest n ts => exact List.forall_mem_cons.mpr ⟨.leaf _ _, before⟩
  | node admitted ts body ih =>
    have parts := ih (by simp)
    exact List.forall_mem_cons.mpr ⟨.node _ _ admitted (by simpa using parts), before⟩
  | around wraps deep ts body ih =>
    obtain ⟨child, others⟩ := List.forall_mem_cons.mp before
    have parts := ih (by simpa using child)
    have admitted := Region.admits_of_wraps wraps deep
    refine List.forall_mem_cons.mpr ⟨.node _ _ admitted ?_, others⟩
    rw [Region.below_of_wraps wraps deep]
    simpa using parts

namespace Tree

/-- A tree is that of a file: no number occurs twice in it, and all stands where it may stand. -/
structure IsFile (t : Tree) : Prop where
  rule : t.rule? = some .file
  distinct : (t.subtrees.map id).Nodup
  placed : ∀ c ∈ t.children, c.IsPlaced .file

end Tree

/-- The numbers of the leaves and nodes are those below their number, each once. -/
theorem parse_ids (ends : EndsOnce (visibleTokens tokens)) :
    ((parse tokens).tree.root.subtrees.map Tree.id).Perm
      (List.range (parse tokens).tree.size) := by
  obtain ⟨last, n, trees, -, grows, root⟩ := parse_root ends
  obtain ⟨up, ids⟩ := grows.ids
  -- The end gets the last number, and the root has the first.
  have parts : (Tree.idsOfAll (trees.reverse ++ [.leaf ⟨n, last⟩])).Perm (idsUpTo 1 (n + 1)) := by
    rw [← idsUpTo_append up (Nat.le_succ n)]
    simpa [idsUpTo] using ids.append_right [n]
  have all : ((parse tokens).tree.root.subtrees.map Tree.id).Perm (List.range (n + 1)) := by
    rw [root, List.range_eq_range', ← Nat.sub_zero (n + 1)]
    change (0 :: Tree.idsOfAll _).Perm (idsUpTo 0 (n + 1))
    rw [idsUpTo_eq_cons (Nat.succ_pos n)]
    exact parts.cons 0
  have size : (parse tokens).tree.root.subtrees.length = n + 1 := by simpa using all.length_eq
  rw [SyntaxTree.size, size]
  exact all

/-- What the parser makes of a stream is the tree of a file. -/
theorem parse_isFile (ends : EndsOnce (visibleTokens tokens)) :
    (parse tokens).tree.root.IsFile := by
  have distinct := (parse_ids ends).nodup_iff.mpr List.nodup_range
  obtain ⟨last, n, trees, -, grows, root⟩ := parse_root ends
  have parts := grows.isPlaced (by simp)
  rw [root] at distinct ⊢
  refine { rule := rfl, distinct := distinct, placed := fun c member => ?_ }
  rcases List.mem_append.mp member with part | ending
  · exact parts c (List.mem_reverse.mp part)
  · cases List.mem_singleton.mp ending
    exact .leaf _ _

theorem RuleFile.edited_isFile (s : SourceText) : (edited s).tree.root.IsFile := by
  unfold edited
  split
  case h_1 stream read =>
    exact parse_isFile (visible_of_tokenizeWithSeams read).2.2
  case h_2 => exact parse_isFile (by decide)

theorem RuleFile.isFile_of_imported? (s : SourceText) {f : RuleFile} (read : imported? s = some f) :
    f.tree.root.IsFile := by
  unfold imported? at read
  split at read
  case h_1 stream reads =>
    cases read
    exact parse_isFile (TokenStream.visible_of_ofSteps arranges_id (ofSteps_of_tokenize reads)).2.2
  case h_2 => cases read

/-- All files of a rule set have trees of files, whatever the texts are. -/
theorem RuleSet.isFile_of_mem_files {edited : SourceText} {imports : List SourceText} {f : RuleFile}
    (member : f ∈ (ofTexts edited imports).files) : f.tree.root.IsFile := by
  rcases List.mem_cons.mp member with rfl | imported
  · exact RuleFile.edited_isFile edited
  · obtain ⟨s, -, read⟩ := List.mem_filterMap.mp imported
    exact RuleFile.isFile_of_imported? s read

end XuleLang
