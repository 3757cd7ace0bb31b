import XuleLang.Proofs.Scope.Lookup
import XuleLang.Proofs.Syntax.Cursor

/-!
Environments form a forest.

Each node that opens a scope has one environment, in the order of the places, and no other node has
one. That environment lies inside the one around the node, so that all of them lie inside the
global one in the end. The global environment stands for the roots of all files. Variables are never
in it, and there is nothing else in the others.
-/

namespace XuleLang

open Place

/-- The nodes at some places that open scopes, in their order. -/
def Place.openersAmong (ps : List Place) : List NodeRef := (ps.filter (·.opensScope)).map Place.ref

/-- What is around the nodes around a place has been visited as well. -/
theorem Walk.parent_mem (walk : Walk ps) {p : Place} (member : p ∈ ps)
    (below : p.cursor.above = parent :: above) : ⟨p.file, parent, above⟩ ∈ ps := by
  induction walk with
  | start => cases member
  | file walk fresh top rule ih =>
    rcases List.mem_append.mp member with early | new
    · exact List.mem_append_left _ (ih early)
    · cases List.mem_singleton.mp new
      cases top.symm.trans below
  | part walk fresh around inside ih =>
    rcases List.mem_append.mp member with early | new
    · exact List.mem_append_left _ (ih early)
    · cases List.mem_singleton.mp new
      cases around.symm.trans below
      exact List.mem_append_left _ inside

namespace SymbolTable

variable {t : SymbolTable} {ps : List Place} {ds : List Declaration} {p : Place}

/-! ## Chains -/

/-- A chain starts at its environment, goes on from each environment to the one around it, and ends
at the global one. -/
structure IsChainOf (t : SymbolTable) (k : Nat) (chain : List (Nat × Environment)) : Prop where
  starts : chain.head?.map (·.1) = some k
  climbs : chain.IsChain fun inner outer => inner.2.parent = some outer.1
  ends : chain.getLast?.map (·.1) = some globalEnv
  listed : ∀ entry ∈ chain, t.envs[entry.1]? = some entry.2

/-- Where only the global environment has none around it, all chains end there. -/
theorem chain_isChainOf (nested : t.IsNested)
    (rooted : ∀ k (e : Environment), t.envs[k]? = some e → e.parent = none → k = globalEnv)
    {k : Nat} (inside : k < t.envs.length) : t.IsChainOf k (t.chain k) := by
  -- Environments around have smaller numbers, which carries the induction.
  induction k using Nat.strongRecOn with
  | _ k ih =>
    have here : t.envs[k]? = some t.envs[k] := List.getElem?_eq_getElem inside
    have listed : ∀ entry ∈ t.chain k, t.envs[entry.1]? = some entry.2 := fun _ member =>
      getElem?_of_mem_chainUpTo member
    have unfolded := chain_of_getElem? nested here
    cases around : t.envs[k].parent with
    | none =>
      simp only [around, Option.map_none, Option.getD_none] at unfolded
      refine { starts := ?_, climbs := ?_, ends := ?_, listed }
      · simp [unfolded]
      · simp [unfolded]
      · rw [unfolded]
        exact congrArg some (rooted k _ here around)
    | some m =>
      have less := nested k _ m here around
      have outer := ih m less (less.trans inside)
      simp only [around, Option.map_some, Option.getD_some] at unfolded
      cases next : t.chain m with
      | nil => simpa [next] using outer.starts
      | cons entry rest =>
        have first : entry.1 = m := by simpa [next] using outer.starts
        rw [next] at unfolded
        refine { starts := ?_, climbs := ?_, ends := ?_, listed }
        · simp [unfolded]
        · rw [unfolded]
          exact .cons_cons (first ▸ around) (next ▸ outer.climbs)
        · simpa [unfolded, next] using outer.ends

/-! ## Which node has which environment -/

theorem lt_length_of_frame? {k : Nat} {frame : Option Nat × Option NodeRef}
    (found : t.frame? k = some frame) : k < t.envs.length := by
  obtain ⟨e, here, -⟩ := Option.map_eq_some_iff.mp found
  exact (List.getElem?_eq_some_iff.mp here).1

/-- The environment that a place opens lies inside the one around the place. -/
structure Nests (t : SymbolTable) (p : Place) (k : Nat) (parent : Tree) (above : List Tree) :
    Prop where
  below : p.cursor.above = parent :: above
  stands : t.scopeOf? p.ref = some k
  frame : t.frame? k = some (some (t.governingEnv p.file ⟨parent, above⟩), some p.ref)

/-- The environments of a table are those of the places of a walk. -/
structure Houses (t : SymbolTable) (ps : List Place) : Prop where
  openers : t.openers = none :: (openersAmong ps).map some
  nests : ∀ p ∈ ps, p.opensScope → ∃ k parent above, t.Nests p k parent above
  roots : ∀ p ∈ ps, p.cursor.above = [] → t.scopeOf? p.ref = some globalEnv
  outermost : t.frame? globalEnv = some (none, none)

theorem empty_houses : empty.Houses [] where
  openers := rfl
  nests := nofun
  roots := nofun
  outermost := rfl

/-- What is entered later changes nothing for the places before. -/
theorem Nests.enter {k : Nat} {parent : Tree} {above : List Tree} {q : Place}
    (nests : t.Nests q k parent above) (walk : Walk ps) (fresh : p.ref ∉ ps.map Place.ref)
    (member : q ∈ ps) : (t.enter p).Nests q k parent above := by
  have apart : q.ref ≠ p.ref := fun same => fresh (same ▸ List.mem_map_of_mem member)
  have around : (t.enter p).governingEnv q.file ⟨parent, above⟩ =
      t.governingEnv q.file ⟨parent, above⟩ :=
    envAround_congr fun n outer => enter_scopeOf?_of_ne fun same =>
      fresh (same ▸ walk.visited _ (walk.parent_mem member nests.below) n outer)
  refine { below := nests.below, stands := ?_, frame := ?_ }
  · rw [enter_scopeOf?_of_ne apart, nests.stands]
  · rw [enter_frame? t p (lt_length_of_frame? nests.frame), nests.frame, around]

/-- A node that opens a scope gets a new environment inside the one around it. -/
theorem Charts.nests_enter {parent : Tree} {above : List Tree} (charts : t.Charts ps)
    (walk : Walk ps) (fresh : p.ref ∉ ps.map Place.ref) (below : p.cursor.above = parent :: above)
    (inside : ⟨p.file, parent, above⟩ ∈ ps) (opens : p.opensScope) :
    (t.enter p).Nests p t.envs.length parent above := by
  have around : (t.enter p).governingEnv p.file ⟨parent, above⟩ =
      t.envAround p.file (parent :: above) := (charts.enter_chains walk fresh inside).1
  refine { below := below, stands := ?_, frame := ?_ }
  · rw [enter_scopeOf?_self (charts.entered _ fresh), below, if_neg (List.cons_ne_nil _ _),
      if_pos opens]
  · rw [around, enter_opening below opens]
    simp [frame?, openScope]

theorem openersAmong_snoc (ps : List Place) (p : Place) : openersAmong (ps ++ [p]) =
    openersAmong ps ++ if p.opensScope then [p.ref] else [] := by
  by_cases opens : p.opensScope <;> simp [openersAmong, opens]

theorem Houses.enter_outermost (houses : t.Houses ps) :
    (t.enter p).frame? globalEnv = some (none, none) := by
  rw [enter_frame? t p (lt_length_of_frame? houses.outermost), houses.outermost]

theorem Houses.root (houses : t.Houses ps) (charts : t.Charts ps) (walk : Walk ps)
    (fresh : p.ref ∉ ps.map Place.ref) (top : p.cursor.above = [])
    (rule : p.cursor.tree.rule? = some .file) : (t.enter p).Houses (ps ++ [p]) := by
  have plain : ¬p.opensScope := by simp [opensScope, rule, Rule.opensScope]
  refine { openers := ?_, nests := fun q member opens => ?_, roots := fun q member outer => ?_
           outermost := houses.enter_outermost }
  · rw [openersAmong_snoc, if_neg plain, List.append_nil, enter_root top]
    exact houses.openers
  · rcases List.mem_append.mp member with early | new
    · obtain ⟨k, parent, above, nests⟩ := houses.nests q early opens
      exact ⟨k, parent, above, nests.enter walk fresh early⟩
    · cases List.mem_singleton.mp new
      exact absurd opens plain
  · rcases List.mem_append.mp member with early | new
    · rw [enter_scopeOf?_of_ne fun same => fresh (same ▸ List.mem_map_of_mem early)]
      exact houses.roots q early outer
    · cases List.mem_singleton.mp new
      rw [enter_scopeOf?_self (charts.entered _ fresh), if_pos top]

theorem Houses.part {parent : Tree} {above : List Tree} (houses : t.Houses ps)
    (charts : t.Charts ps) (walk : Walk ps) (fresh : p.ref ∉ ps.map Place.ref)
    (below : p.cursor.above = parent :: above) (inside : ⟨p.file, parent, above⟩ ∈ ps) :
    (t.enter p).Houses (ps ++ [p]) := by
  refine { openers := ?_, nests := fun q member opens => ?_, roots := fun q member outer => ?_
           outermost := houses.enter_outermost }
  · rw [openersAmong_snoc]
    by_cases opens : p.opensScope
    · rw [enter_opening below opens, openScope_openers, declare_openers, houses.openers]
      simp [opens]
    · rw [enter_plain below opens, declare_openers, houses.openers]
      simp [opens]
  · rcases List.mem_append.mp member with early | new
    · obtain ⟨k, parent, above, nests⟩ := houses.nests q early opens
      exact ⟨k, parent, above, nests.enter walk fresh early⟩
    · cases List.mem_singleton.mp new
      exact ⟨_, parent, above, charts.nests_enter walk fresh below inside opens⟩
  · rcases List.mem_append.mp member with early | new
    · rw [enter_scopeOf?_of_ne fun same => fresh (same ▸ List.mem_map_of_mem early)]
      exact houses.roots q early outer
    · cases List.mem_singleton.mp new
      cases below.symm.trans outer

/-- A node that opens a scope stands for an environment of its own. -/
theorem Houses.exists_opened (houses : t.Houses ps) (member : p ∈ ps) (opens : p.opensScope) :
    ∃ k e parent above, p.cursor.above = parent :: above ∧ t.scopeOf? p.ref = some k ∧
      t.envs[k]? = some e ∧ e.owner = some p.ref ∧
      e.parent = some (t.governingEnv p.file ⟨parent, above⟩) := by
  obtain ⟨k, parent, above, nests⟩ := houses.nests p member opens
  obtain ⟨e, here, frame⟩ := Option.map_eq_some_iff.mp nests.frame
  obtain ⟨inside, owner⟩ := Prod.mk.inj frame
  exact ⟨k, e, parent, above, nests.below, nests.stands, here, owner, inside⟩

/-- Only the global environment is inside of no other one. -/
theorem Houses.parent_eq_none_iff (houses : t.Houses ps) (holds : t.Holds ds) {k : Nat}
    {e : Environment} (here : t.envs[k]? = some e) : e.parent = none ↔ k = globalEnv := by
  constructor
  · intro outside
    rw [← holds.owner_eq_none_iff here]
    -- What has an owner has the frame that its owner gave it.
    refine Option.eq_none_iff_forall_ne_some.mpr fun r owner => ?_
    have opened : some r ∈ t.openers := owner ▸ List.mem_map_of_mem (List.mem_of_getElem? here)
    obtain ⟨p, member, opens, rfl⟩ : ∃ p ∈ ps, p.opensScope ∧ p.ref = r := by
      simpa [houses.openers, openersAmong, and_assoc] using opened
    obtain ⟨k', e', parent, above, -, -, there, owner', inside⟩ :=
      houses.exists_opened member opens
    have same : k = k' := by
      refine holds.eq_of_owner (?_ : t.openers[k]? = some (some p.ref)) ?_
      · simp [SymbolTable.openers, here, owner]
      · simp [SymbolTable.openers, there, owner']
    subst same
    cases here.symm.trans there
    cases outside.symm.trans inside
  · rintro rfl
    simpa [frame?, here] using congrArg (Option.map (·.1)) houses.outermost

end SymbolTable

open SymbolTable

/-- The table of a walk has the environments of the places that open scopes. -/
theorem Walk.houses (walk : Walk ps) : (ofPlaces ps).Houses ps := by
  induction walk with
  | start => exact empty_houses
  | file walk fresh top rule ih => simpa using ih.root walk.charts walk fresh top rule
  | part walk fresh below inside ih => simpa using ih.part walk.charts walk fresh below inside

/-! ## The forest of a rule set -/

/-- The root of a file is its first place. -/
theorem RuleSet.root_mem_places {s : RuleSet} {i : Nat} {f : RuleFile}
    (read : s.files[i]? = some f) : ⟨i, f.tree.root, []⟩ ∈ s.places := by
  have indexed : (f, i) ∈ s.files.zipIdx := List.mem_zipIdx_iff_getElem?.mpr read
  exact List.mem_flatMap.mpr ⟨(f, i), indexed,
    List.mem_map_of_mem (Tree.mem_cursorsUnder_self [] f.tree.root)⟩

/-- The environments of a symbol table form a forest along the trees of a rule set. -/
structure SymbolTable.IsForestOf (t : SymbolTable) (s : RuleSet) : Prop where
  /-- The global environment, and no other, is inside of none. -/
  rooted : ∀ k (e : Environment), t.envs[k]? = some e → (e.parent = none ↔ k = globalEnv)
  /-- The global environment, and no other, was opened by no node. -/
  owned : ∀ k (e : Environment), t.envs[k]? = some e → (e.owner = none ↔ k = globalEnv)
  /-- Environments are inside of those with smaller numbers. -/
  nested : ∀ k (e : Environment) m, t.envs[k]? = some e → e.parent = some m → m < k
  /-- From each environment a search gets to the global one, by way of those around it. -/
  chains : ∀ k < t.envs.length, t.IsChainOf k (t.chain k)
  /-- Behind the global environment there is one for each node that opens a scope, in the order of
  the files and their texts. -/
  openers : t.envs.map (·.owner) = none :: (openersAmong s.places).map some
  /-- No node opens two. -/
  distinct : (openersAmong s.places).Nodup
  /-- A node that opens a scope stands for its environment, which is inside of the one that governs
  the parent of the node. -/
  parents : ∀ p ∈ s.places, p.opensScope → ∃ k e parent above,
    p.cursor.above = parent :: above ∧ t.scopeOf? p.ref = some k ∧ t.envs[k]? = some e ∧
      e.owner = some p.ref ∧ e.parent = some (t.governingEnv p.file ⟨parent, above⟩)
  /-- The root of each file stands for the global environment. -/
  roots : ∀ i (f : RuleFile), s.files[i]? = some f →
    t.scopeOf? ⟨i, f.tree.root.id⟩ = some globalEnv
  /-- In the global environment there are constants, functions and output attributes only. -/
  globals : ∀ b ∈ t.globals,
    b.kind = .constant ∨ b.kind = .function ∨ b.kind = .outputAttribute
  /-- In every other environment there are variables only, declared in the file of its owner. -/
  locals : ∀ (k : Nat) (e : Environment) (r : NodeRef), t.envs[k]? = some e → e.owner = some r →
    ∀ b ∈ e.bindings, b.kind = .variableName ∧ b.declaredAt.file = r.file

/-- What is in an environment was declared in its scope. -/
theorem SymbolTable.Holds.exists_declaration {t : SymbolTable} {ds : List Declaration} {k : Nat}
    {e : Environment} {b : Binding} (holds : t.Holds ds) (here : t.envs[k]? = some e)
    (bound : b ∈ e.bindings) : ∃ d ∈ ds, d.scope = e.owner ∧ d.binding = b := by
  rw [holds.bindings k e here, Declaration.bindingsIn] at bound
  obtain ⟨d, declared, rfl⟩ := List.mem_map.mp bound
  obtain ⟨member, scope⟩ := List.mem_filter.mp declared
  exact ⟨d, member, beq_iff_eq.mp scope, rfl⟩

/-- **Environments form a forest.** The nodes that open scopes have one environment each, inside of
that around them and in the end inside of the global one. Variables are in the environments of
nodes, and all else is in the global one. This is so whatever is wrong with the texts. -/
theorem environments_form_a_forest (edited : SourceText) (imports : List SourceText) :
    let s := RuleSet.ofTexts edited imports
    (SymbolTable.ofRuleSet s).IsForestOf s := by
  intro s
  have files : ∀ f ∈ s.files, f.tree.root.IsFile := fun f => RuleSet.isFile_of_mem_files
  have belongs := RuleSet.belongs files
  obtain ⟨filled, walk⟩ := ofRuleSet_eq files
  rw [filled]
  have holds := walk.charts.holds
  have houses := walk.houses
  have distinct : (openersAmong s.places).Nodup :=
    walk.distinct.sublist (List.filter_sublist.map _)
  refine { rooted := fun k e => houses.parent_eq_none_iff holds
           owned := fun k e => holds.owner_eq_none_iff, nested := holds.nested
           openers := houses.openers, distinct, parents := fun p => houses.exists_opened
           chains := fun k inside => ?_, roots := fun i f read => ?_, globals := fun b bound => ?_
           locals := fun k e r here owner b bound => ?_ }
  · exact chain_isChainOf holds.nested
      (fun k e here => (houses.parent_eq_none_iff holds here).mp) inside
  · exact houses.roots ⟨i, f.tree.root, []⟩ (RuleSet.root_mem_places read) rfl
  · obtain ⟨e, here, owner⟩ : ∃ e, (ofPlaces s.places).envs[globalEnv]? = some e ∧
        e.owner = none := by
      simpa [SymbolTable.openers] using holds.outermost
    have listed : b ∈ e.bindings := by simpa [SymbolTable.globals, here] using bound
    obtain ⟨d, declared, scope, rfl⟩ := holds.exists_declaration here listed
    have other : d.binding.kind ≠ .variableName := fun same =>
      (belongs d declared).kind.mp same (scope.trans owner)
    cases kind : d.binding.kind <;> simp_all
  · obtain ⟨d, declared, scope, rfl⟩ := holds.exists_declaration here bound
    exact ⟨(belongs d declared).kind.mpr (by simp [scope, owner]),
      (belongs d declared).file r (scope.trans owner)⟩

end XuleLang
