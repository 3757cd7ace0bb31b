import XuleLang.Proofs.Parser.Renumbering
import XuleLang.Proofs.Parser.Lossless
import XuleLang.Scope.Build

/-!
Files with markers and without them declare the same.

The file that is edited is read with markers between touching tokens, a file that is imported
without them. The two readings of one text fail together, or give the same complaints and the same
tree up to the numbers of the tokens, and what is declared in them is the same up to the number of
the token from which it is visible. That number may be the one behind a token, where a marker may
stand; still the same tokens see the declaration.
-/

namespace XuleLang

variable (place : Nat → Nat)

/-! ## Trees under other numbers -/

namespace Tree

@[simp] theorem renumbered_id (t : Tree) : (t.renumbered place).id = t.id := by
  cases t <;> simp [id, Leaf.renumbered]

@[simp] theorem renumbered_rule? (t : Tree) : (t.renumbered place).rule? = t.rule? := by
  cases t <;> simp [rule?]

@[simp] theorem renumbered_children (t : Tree) :
    (t.renumbered place).children = t.children.map (·.renumbered place) := by
  cases t <;> simp [children]

mutual

@[simp] theorem renumbered_leaves : (t : Tree) →
    (t.renumbered place).leaves = t.leaves.map (·.renumbered place)
  | leaf l => by simp [leaves]
  | node i r s cs => by
    rw [renumbered_node, leaves, leaves, renumbered_leavesOfAll cs]

@[simp] theorem renumbered_leavesOfAll : (ts : List Tree) →
    leavesOfAll (ts.map (·.renumbered place)) = (leavesOfAll ts).map (·.renumbered place)
  | [] => rfl
  | t :: ts => by
    rw [List.map_cons, leavesOfAll, leavesOfAll, List.map_append, renumbered_leaves t,
      renumbered_leavesOfAll ts]

end

theorem renumbered_firstLeaf? (t : Tree) :
    (t.renumbered place).firstLeaf? = t.firstLeaf?.map (·.renumbered place) := by
  simp [firstLeaf?]

theorem renumbered_childOfKind? (t : Tree) (k : TokenKind) :
    (t.renumbered place).childOfKind? k = (t.childOfKind? k).map (·.renumbered place) := by
  unfold childOfKind?
  rw [renumbered_children, List.findSome?_map, List.map_findSome?]
  congr 1
  funext c
  cases c <;> simp [Leaf.renumbered, Token.renumbered]

theorem mem_leavesOfAll {t : Tree} {ts : List Tree} {l : Leaf} (member : t ∈ ts)
    (below : l ∈ t.leaves) : l ∈ leavesOfAll ts := by
  induction ts with
  | nil => cases member
  | cons u us ih =>
    rw [leavesOfAll, List.mem_append]
    rcases List.mem_cons.mp member with rfl | later
    · exact .inl below
    · exact .inr (ih later)

theorem mem_leaves_of_childOfKind? {t : Tree} {k : TokenKind} {l : Leaf}
    (found : t.childOfKind? k = some l) : l ∈ t.leaves := by
  cases t with
  | leaf => cases found
  | node i r s cs =>
    obtain ⟨c, member, here⟩ := List.exists_of_findSome?_eq_some found
    cases c with
    | node => cases here
    | leaf l' =>
      obtain ⟨-, rfl⟩ : _ ∧ l' = l := by simpa using here
      rw [leaves]
      exact mem_leavesOfAll member (by simp [leaves])

mutual

theorem renumbered_self : (t : Tree) → t.renumbered (fun i => i) = t
  | leaf l => by rw [renumbered_leaf]; rfl
  | node i r s cs => by rw [renumbered, renumberedAll_self cs]

theorem renumberedAll_self : (ts : List Tree) → renumberedAll (fun i => i) ts = ts
  | [] => rfl
  | t :: ts => by rw [renumberedAll, renumbered_self t, renumberedAll_self ts]

end

/-- The number behind that of each token is taken to the one behind. -/
def KeepsNext (t : Tree) : Prop :=
  ∀ l ∈ t.leaves, place (l.token.index + 1) = place l.token.index + 1

end Tree

/-! ## Declarations under other numbers -/

/-- The binding with the numbers that `place` gives for those of its file. -/
def Binding.renumbered (place : Nat → Nat → Nat) (b : Binding) : Binding :=
  { b with visibleFrom := place b.declaredAt.file b.visibleFrom }

def Environment.renumbered (place : Nat → Nat → Nat) (e : Environment) : Environment :=
  { e with bindings := e.bindings.map (·.renumbered place) }

/-- The same environments and bindings, with the numbers that `place` gives for those of each
file. -/
def SymbolTable.renumbered (place : Nat → Nat → Nat) (t : SymbolTable) : SymbolTable :=
  { t with envs := t.envs.map (·.renumbered place) }

variable {place : Nat → Nat} {places : Nat → Nat → Nat} {file : Nat}

theorem indexBehind_renumbered {assignment : Tree} {name : Leaf}
    (keeps : assignment.KeepsNext place)
    (own : place (name.token.index + 1) = place name.token.index + 1) :
    indexBehind (assignment.renumbered place) (name.renumbered place) =
      place (indexBehind assignment name) := by
  unfold indexBehind
  rw [Tree.renumbered_childOfKind?]
  cases found : assignment.childOfKind? (.punctuator .semicolon) with
  | some semicolon => exact (keeps semicolon (Tree.mem_leaves_of_childOfKind? found)).symm
  | none =>
    rw [Tree.renumbered_leaves, List.getLast?_map]
    cases last : assignment.leaves.getLast? with
    | none => exact own.symm
    | some l => exact (keeps l (List.mem_of_getLast? last)).symm

theorem declaredBy?_renumbered {parent node : Tree} (around : parent.KeepsNext (places file))
    (keeps : node.KeepsNext (places file)) :
    declaredBy? file (parent.renumbered (places file)) (node.renumbered (places file)) =
      (declaredBy? file parent node).map (·.renumbered places) := by
  unfold declaredBy?
  rw [Tree.renumbered_rule?]
  cases node.rule? with
  | none => rfl
  | some rule =>
    cases declares : rule.declares? with
    | none => simp [declares]
    | some kinds =>
      cases found : node.childOfKind? kinds.1 with
      | none => simp [declares, Tree.renumbered_childOfKind?, found]
      | some name =>
        have own := keeps name (Tree.mem_leaves_of_childOfKind? found)
        have visibleFrom : (if rule = .assignedVariable then
              indexBehind (parent.renumbered (places file)) (name.renumbered (places file))
            else (name.renumbered (places file)).token.index) =
            places file (if rule = .assignedVariable then indexBehind parent name
              else name.token.index) := by
          by_cases assigned : rule = .assignedVariable
          · rw [if_pos assigned, if_pos assigned, indexBehind_renumbered around own]
          · rw [if_neg assigned, if_neg assigned]
            rfl
        simp only [declares, Tree.renumbered_childOfKind?, found, Option.bind_eq_bind,
          Option.bind_some, Option.map_some, visibleFrom]
        rfl

theorem implicitBinding?_renumbered (node : Tree) :
    implicitBinding? file (node.renumbered (places file)) =
      (implicitBinding? file node).map (·.renumbered places) := by
  unfold implicitBinding?
  rw [Tree.renumbered_rule?, Tree.renumbered_firstLeaf?]
  cases node.rule? with
  | none => rfl
  | some rule =>
    cases named : rule.implicitVariable? with
    | none => simp [named]
    | some name =>
      cases node.firstLeaf? with
      | none => simp
      | some first =>
        simp only [named, Option.bind_eq_bind, Option.bind_some, Option.map_some]
        rfl

namespace SymbolTable

theorem declare_renumbered (t : SymbolTable) (env : Nat) (b : Option Binding) :
    (t.renumbered places).declare env (b.map (·.renumbered places)) =
      (t.declare env b).renumbered places := by
  cases b with
  | none => rfl
  | some b =>
    have added : (t.envs.map (·.renumbered places)).modify env
          (fun e => { e with bindings := e.bindings ++ [b.renumbered places] }) =
        (t.envs.modify env fun e => { e with bindings := e.bindings ++ [b] }).map
          (·.renumbered places) := by
      refine List.ext_getElem? fun i => ?_
      simp only [List.getElem?_modify, List.getElem?_map]
      cases t.envs[i]? with
      | none => rfl
      | some e => by_cases here : env = i <;> simp [here, Environment.renumbered]
    simp only [declare, renumbered, Option.map_some, added]

theorem openScope_renumbered (t : SymbolTable) (owner : NodeRef) (parent : Nat)
    (b : Option Binding) :
    (t.renumbered places).openScope owner parent (b.map (·.renumbered places)) =
      (t.openScope owner parent b).renumbered places := by
  cases b <;> simp [openScope, renumbered, Environment.renumbered]

theorem sharesScope_renumbered (parent : Tree) (r : Rule) :
    sharesScope (parent.renumbered place) r = sharesScope parent r := by
  simp [sharesScope]

mutual

theorem visit_renumbered {parent : Tree} (around : parent.KeepsNext (places file)) (env : Nat)
    (t : SymbolTable) : (node : Tree) → node.KeepsNext (places file) →
    visit file (parent.renumbered (places file)) env (t.renumbered places)
      (node.renumbered (places file)) = (visit file parent env t node).renumbered places
  | .leaf l, _ => by simp [visit]
  | .node i r s cs, keeps => by
    have below : ∀ c ∈ cs, c.KeepsNext (places file) := fun c member l inside =>
      keeps l (by rw [Tree.leaves]; exact Tree.mem_leavesOfAll member inside)
    have declared := declaredBy?_renumbered around keeps
    have implicit : implicitBinding? file ((Tree.node i r s cs).renumbered (places file)) =
        (implicitBinding? file (.node i r s cs)).map (·.renumbered places) :=
      implicitBinding?_renumbered _
    have inside (inner : Nat) (u : SymbolTable) := visitAll_renumbered keeps inner u cs below
    have length (u : SymbolTable) : (u.renumbered places).envs.length = u.envs.length :=
      List.length_map ..
    rw [Tree.renumbered_node] at declared implicit inside ⊢
    rw [visit, visit, declared, implicit, declare_renumbered, length, openScope_renumbered,
      sharesScope_renumbered]
    split
    · exact inside _ _
    · exact inside _ _

theorem visitAll_renumbered {parent : Tree} (around : parent.KeepsNext (places file)) (env : Nat)
    (t : SymbolTable) : (ns : List Tree) → (∀ n ∈ ns, n.KeepsNext (places file)) →
    visitAll file (parent.renumbered (places file)) env (t.renumbered places)
      (ns.map (·.renumbered (places file))) = (visitAll file parent env t ns).renumbered places
  | [], _ => by simp [visitAll]
  | n :: ns, keeps => by
    obtain ⟨here, others⟩ := List.forall_mem_cons.mp keeps
    rw [List.map_cons, visitAll, visitAll, visit_renumbered around env t n here,
      visitAll_renumbered around env _ ns others]

end

/-- A file under other numbers declares the same under those numbers. -/
theorem addFile_renumbered {f g : RuleFile} (t : SymbolTable)
    (same : g.tree.root = f.tree.root.renumbered (places file))
    (keeps : f.tree.root.KeepsNext (places file)) :
    (t.renumbered places).addFile file g = (t.addFile file f).renumbered places := by
  have below : ∀ c ∈ f.tree.root.children, c.KeepsNext (places file) := by
    intro c member l inside
    refine keeps l ?_
    cases root : f.tree.root with
    | leaf => simp [root, Tree.children] at member
    | node i r s cs =>
      rw [root] at member
      rw [Tree.leaves]
      exact Tree.mem_leavesOfAll member inside
  simp only [addFile, same, Tree.renumbered_children, Tree.renumbered_id]
  exact visitAll_renumbered keeps globalEnv
    { t with scopes := t.scopes ++ [(⟨file, f.tree.root.id⟩, globalEnv)] } _ below

/-- Files whose numbers stay the same declare the same. -/
theorem addFiles_renumbered (files : List (RuleFile × Nat)) (t : SymbolTable)
    (stay : ∀ f ∈ files, places f.2 = fun i => i) :
    files.foldl (fun t (f, i) => t.addFile i f) (t.renumbered places) =
      (files.foldl (fun t (f, i) => t.addFile i f) t).renumbered places := by
  induction files generalizing t with
  | nil => rfl
  | cons file files ih =>
    obtain ⟨f, i⟩ := file
    obtain ⟨here, others⟩ := List.forall_mem_cons.mp stay
    have same : f.tree.root = f.tree.root.renumbered (places i) := by
      rw [here, Tree.renumbered_self]
    have keeps : f.tree.root.KeepsNext (places i) := fun l _ => by rw [here]
    have added := addFile_renumbered t same keeps
    simp only [List.foldl_cons, added, ih _ others]

/-- An edited file under other numbers declares the same in a rule set. -/
theorem ofRuleSet_renumbered {f g : RuleFile} (imports : List RuleFile)
    (same : g.tree.root = f.tree.root.renumbered (places 0))
    (keeps : f.tree.root.KeepsNext (places 0)) (stay : ∀ i, places (i + 1) = fun v => v) :
    ofRuleSet ⟨g, imports⟩ = (ofRuleSet ⟨f, imports⟩).renumbered places := by
  have first : addFile empty 0 g = (addFile empty 0 f).renumbered places :=
    addFile_renumbered empty same keeps
  have others : ∀ f ∈ imports.zipIdx 1, places f.2 = fun v => v := by
    intro f member
    obtain ⟨i, number⟩ := Nat.exists_eq_add_of_le (List.le_snd_of_mem_zipIdx member)
    rw [number, Nat.add_comm, stay]
  simp only [ofRuleSet, RuleSet.files, List.zipIdx_cons, List.foldl_cons, first]
  exact addFiles_renumbered _ _ others

end SymbolTable

/-! ## Edited and imported files -/

/-- The numbers of one file without its markers, and those of all others as they are. -/
def placesWithoutMarkers (file : Nat) (tokens : List Token) (other i : Nat) : Nat :=
  if other = file then placeWithoutMarkers tokens i else i

/-- **Markers change numbers only.** A text is read with markers and without them, or in both ways
the same failure stops the reader. Where it is read, the tokens are the same, except for the markers
themselves and the numbers, and the order of places to tokens is kept. The complaints are the same,
and so is the tree up to the numbers of its tokens. In a rule set the two files
declare the same, visible from the tokens that correspond to each other. -/
theorem markers_change_numbers_only (s : SourceText) (imports : List RuleFile) :
    (∃ failure, tokenize s.text = .error failure ∧ tokenizeWithSeams s.text = .error failure) ∨
    ∃ plain seamed imported, tokenize s.text = .ok plain ∧ tokenizeWithSeams s.text = .ok seamed ∧
      RuleFile.imported? s = some imported ∧
      plain.tokens = (seamed.tokens.filter (·.channel != .marker)).map
        (·.renumbered (placeWithoutMarkers seamed.tokens)) ∧
      (∀ t ∈ seamed.tokens, t.channel ≠ .marker → ∀ v,
        placeWithoutMarkers seamed.tokens v ≤ placeWithoutMarkers seamed.tokens t.index ↔
          v ≤ t.index) ∧
      imported.errors = (RuleFile.edited s).errors ∧
      imported.tree.root =
        (RuleFile.edited s).tree.root.renumbered (placeWithoutMarkers seamed.tokens) ∧
      SymbolTable.ofRuleSet ⟨imported, imports⟩ =
        (SymbolTable.ofRuleSet ⟨.edited s, imports⟩).renumbered
          (placesWithoutMarkers 0 seamed.tokens) := by
  rcases tokenize_beside_tokenizeWithSeams s.text with failed |
    ⟨plain, seamed, read, read', complaints, beside⟩
  · exact .inl failed
  have edited : RuleFile.edited s = .ofStream s seamed := by simp only [RuleFile.edited, read']
  have imported : RuleFile.imported? s = some (.ofStream s plain) := by
    simp only [RuleFile.imported?, read]
  obtain ⟨-, -, ends⟩ := visible_of_tokenizeWithSeams read'
  obtain ⟨root, errors⟩ := parse_renumbered ends beside.visible beside.ended
  -- The leaves are tokens of the stream, and none of them is a marker.
  have keeps : (parse seamed.tokens).tree.root.KeepsNext
      (placeWithoutMarkers seamed.tokens) := by
    intro l member
    have leaf := List.mem_map_of_mem (f := (·.token)) member
    rw [leaves_parse ends] at leaf
    obtain ⟨inside, visible⟩ := List.mem_filter.mp leaf
    refine placeWithoutMarkers_succ (beside.numbers.getElem?_index inside) ?_
    intro marker
    simp [Token.isVisible, marker] at visible
  refine .inr ⟨plain, seamed, _, read, read', imported, beside.tokens, ?_, ?_, ?_, ?_⟩
  · intro t member unmarked v
    exact placeWithoutMarkers_le_iff (beside.numbers.getElem?_index member) unmarked
  · simp only [edited, RuleFile.ofStream, parseStream, complaints, errors]
  · rw [edited]
    exact root
  · rw [edited]
    exact SymbolTable.ofRuleSet_renumbered imports root keeps fun i => rfl

end XuleLang
