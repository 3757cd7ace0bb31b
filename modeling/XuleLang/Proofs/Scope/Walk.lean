import XuleLang.Proofs.Scope.Environments
import XuleLang.Proofs.Syntax.FileTree

/-!
The walk through the files of a rule set.

A symbol table is filled along the places of all files in their order, and the environment of the
place is handed down on the way. It is the same environment that is found again from the place: that
of the innermost node around it that has one. Hence the table comes from the mere list of places,
and what is in it is drawn from that list, place after place.
-/

namespace XuleLang

namespace SymbolTable

/-- The environment that lies around a place below some nodes of a file, the innermost first. -/
def envAround (t : SymbolTable) (file : Nat) (above : List Tree) : Nat :=
  (above.findSome? fun n => t.scopeOf? ⟨file, n.id⟩).getD globalEnv

/-- Adds what is declared at a place to the environment around it. A root stands for the global
environment. -/
def enter (t : SymbolTable) (p : Place) : SymbolTable :=
  match p.cursor.above with
  | [] => { t with scopes := t.scopes ++ [(p.ref, globalEnv)] }
  | parent :: above =>
    let env := t.envAround p.file (parent :: above)
    let declared := t.declare env (declaredBy? p.file parent p.cursor.tree)
    if p.opensScope then
      declared.openScope p.ref env (implicitBinding? p.file p.cursor.tree)
    else declared

/-- What is declared at some places, one after the other. -/
def ofPlaces (ps : List Place) : SymbolTable := ps.foldl enter empty

@[simp] theorem ofPlaces_snoc (ps : List Place) (p : Place) :
    ofPlaces (ps ++ [p]) = (ofPlaces ps).enter p := by
  simp [ofPlaces]

end SymbolTable

namespace Place

variable {p : Place} {parent : Tree} {above : List Tree}

/-! ## What is declared at a place -/

/-- Only what opens a scope binds something unasked. -/
theorem opensScope_of_implicitBinding? {b : Binding}
    (unasked : implicitBinding? p.file p.cursor.tree = some b) : p.opensScope := by
  simp only [implicitBinding?, Option.bind_eq_bind, Option.bind_eq_some_iff] at unasked
  obtain ⟨r, rule, name, binds, -⟩ := unasked
  refine opensScope_of_rule? rule ?_ ?_ <;>
    cases r <;> simp_all [Rule.implicitVariable?, Rule.opensScope]

/-- What is assigned is seen behind the end of its assignment. -/
theorem indexBehind_eq (below : p.cursor.above = parent :: above) (name : Leaf) :
    indexBehind parent name = (p.endOfAssignment name).token.index + 1 := by
  rw [indexBehind, endOfAssignment, Cursor.parent?, below]
  cases semicolon : parent.childOfKind? (.punctuator .semicolon) <;> simp [semicolon]

theorem declaredBy?_eq (below : p.cursor.above = parent :: above) :
    declaredBy? p.file parent p.cursor.tree = p.named?.map fun (name, kind) =>
      ⟨name.token.text, kind, ⟨p.file, name.id⟩, p.visibleFrom name⟩ := by
  simp only [declaredBy?, named?, visibleFrom, indexBehind_eq below]
  cases rule : p.cursor.tree.rule? with
  | none => rfl
  | some r =>
    cases declares : r.declares? with
    | none => simp [declares]
    | some what =>
      cases name : p.cursor.tree.childOfKind? what.1 <;> simp [declares, name]

theorem implicitBinding?_eq : implicitBinding? p.file p.cursor.tree = p.unasked? := by
  rw [implicitBinding?, unasked?]
  cases rule : p.cursor.tree.rule? <;> rfl

theorem declarations_eq (below : p.cursor.above = parent :: above) : p.declarations =
    (declaredBy? p.file parent p.cursor.tree).toList.map
      (.mk (scopesAmong p.file (parent :: above)).head?) ++
    (implicitBinding? p.file p.cursor.tree).toList.map (.mk (some p.ref)) := by
  rw [declarations, declaredBy?_eq below, implicitBinding?_eq, below]

end Place

/-- A walk comes to each place once, and from the outside in. -/
inductive Walk : List Place → Prop where
  | start : Walk []
  | file (walk : Walk ps) (fresh : p.ref ∉ ps.map Place.ref) (top : p.cursor.above = [])
    (rule : p.cursor.tree.rule? = some .file) : Walk (ps ++ [p])
  | part (walk : Walk ps) (fresh : p.ref ∉ ps.map Place.ref)
    (below : p.cursor.above = parent :: above) (inside : ⟨p.file, parent, above⟩ ∈ ps) :
    Walk (ps ++ [p])

/-- A walk has come to all that is around a place before. -/
theorem Walk.visited (walk : Walk ps) : ∀ p ∈ ps, ∀ n ∈ p.cursor.ancestors,
    (⟨p.file, n.id⟩ : NodeRef) ∈ ps.map Place.ref := by
  induction walk with
  | start => nofun
  | file walk fresh top rule ih =>
    intro q member n around
    rw [List.map_append]
    rcases List.mem_append.mp member with early | new
    · exact List.mem_append_left _ (ih q early n around)
    · cases List.mem_singleton.mp new
      rw [Cursor.ancestors, top, List.mem_singleton] at around
      subst around
      exact List.mem_append_right _ (List.mem_singleton_self _)
  | part walk fresh below inside ih =>
    intro q member n around
    rw [List.map_append]
    rcases List.mem_append.mp member with early | new
    · exact List.mem_append_left _ (ih q early n around)
    · cases List.mem_singleton.mp new
      rcases List.mem_cons.mp around with rfl | outside
      · exact List.mem_append_right _ (List.mem_singleton_self _)
      · rw [below] at outside
        exact List.mem_append_left _ (ih _ inside n outside)

namespace SymbolTable

variable {t : SymbolTable} {ps : List Place} {p : Place} {parent : Tree} {above : List Tree}

/-! ## One place -/

theorem enter_root (top : p.cursor.above = []) :
    t.enter p = { t with scopes := t.scopes ++ [(p.ref, globalEnv)] } := by
  simp [enter, top]

theorem enter_opening (below : p.cursor.above = parent :: above) (opens : p.opensScope) :
    t.enter p = (t.declare (t.envAround p.file (parent :: above))
      (declaredBy? p.file parent p.cursor.tree)).openScope p.ref
        (t.envAround p.file (parent :: above)) (implicitBinding? p.file p.cursor.tree) := by
  simp [enter, below, opens]

theorem enter_plain (below : p.cursor.above = parent :: above) (plain : ¬p.opensScope) :
    t.enter p = t.declare (t.envAround p.file (parent :: above))
      (declaredBy? p.file parent p.cursor.tree) := by
  simp [enter, below, plain]

theorem enter_frame? (t : SymbolTable) (p : Place) {k : Nat} (inside : k < t.envs.length) :
    (t.enter p).frame? k = t.frame? k := by
  cases around : p.cursor.above with
  | nil => rw [enter_root around]; rfl
  | cons parent above =>
    by_cases opens : p.opensScope
    · rw [enter_opening around opens, openScope_frame? _ _ _ _ (by simpa using inside),
        declare_frame?]
    · rw [enter_plain around opens, declare_frame?]

theorem enter_openers {r : NodeRef} (member : some r ∈ (t.enter p).openers) :
    some r ∈ t.openers ∨ r = p.ref := by
  cases around : p.cursor.above with
  | nil =>
    rw [enter_root around] at member
    exact .inl member
  | cons parent above =>
    by_cases opens : p.opensScope
    · rw [enter_opening around opens, openScope_openers, declare_openers] at member
      simpa using member
    · rw [enter_plain around opens, declare_openers] at member
      exact .inl member

/-- What is noted about what a place stands for. -/
theorem enter_scopes (t : SymbolTable) (p : Place) : (t.enter p).scopes = t.scopes ++
    if p.cursor.above = [] then [(p.ref, globalEnv)]
    else if p.opensScope then [(p.ref, t.envs.length)] else [] := by
  cases around : p.cursor.above with
  | nil => simp [enter_root around]
  | cons parent above =>
    by_cases opens : p.opensScope
    · simp [enter_opening around opens, openScope, opens]
    · simp [enter_plain around opens, opens]

theorem enter_scopeOf?_of_ne {r : NodeRef} (other : r ≠ p.ref) :
    (t.enter p).scopeOf? r = t.scopeOf? r := by
  rw [scopeOf?, scopeOf?, enter_scopes, List.lookup_append]
  have apart : (r == p.ref) = false := beq_eq_false_iff_ne.mpr other
  split
  · simp [List.lookup_cons, apart]
  · split <;> simp [List.lookup_cons, apart]

/-- What a place that is entered for the first time stands for. -/
theorem enter_scopeOf?_self (fresh : t.scopeOf? p.ref = none) :
    (t.enter p).scopeOf? p.ref =
      if p.cursor.above = [] then some globalEnv
      else if p.opensScope then some t.envs.length else none := by
  rw [scopeOf?] at fresh
  rw [scopeOf?, enter_scopes, List.lookup_append, fresh]
  split
  · simp
  · split <;> simp

theorem envAround_cons (t : SymbolTable) (file : Nat) (n : Tree) (above : List Tree) :
    t.envAround file (n :: above) = (t.scopeOf? ⟨file, n.id⟩).getD (t.envAround file above) := by
  rw [envAround, List.findSome?_cons]
  cases t.scopeOf? ⟨file, n.id⟩ <;> rfl

theorem governingEnv_eq (t : SymbolTable) (p : Place) : t.governingEnv p.file p.cursor =
    (t.scopeOf? p.ref).getD (t.envAround p.file p.cursor.above) :=
  t.envAround_cons p.file p.cursor.tree p.cursor.above

theorem envAround_congr {u : SymbolTable} {file : Nat}
    (same : ∀ n ∈ above, u.scopeOf? ⟨file, n.id⟩ = t.scopeOf? ⟨file, n.id⟩) :
    u.envAround file above = t.envAround file above := by
  induction above with
  | nil => rfl
  | cons n above ih =>
    obtain ⟨here, outside⟩ := List.forall_mem_cons.mp same
    rw [envAround_cons, envAround_cons, here, ih outside]

/-! ## What the table of a walk knows -/

/-- The places of a walk are found again in a table. -/
structure Charts (t : SymbolTable) (ps : List Place) : Prop where
  holds : t.Holds (ps.flatMap (·.declarations))
  entered : ∀ r, r ∉ ps.map Place.ref → t.scopeOf? r = none
  opened : ∀ r, some r ∈ t.openers → r ∈ ps.map Place.ref
  chains : ∀ p ∈ ps, t.owners (t.governingEnv p.file p.cursor) = p.scopes.map some ++ [none]

theorem empty_charts : empty.Charts [] where
  holds := empty_holds
  entered _ _ := rfl
  opened r member := by simp [openers, empty] at member
  chains := nofun

theorem Charts.openers_getElem? (charts : t.Charts ps) (member : p ∈ ps) :
    t.openers[t.governingEnv p.file p.cursor]? = some p.scopes.head? := by
  rw [← owners_head?, charts.chains p member]
  cases p.scopes <;> rfl

/-- Places keep their environments when another one is entered. -/
theorem Charts.enter_chains (charts : t.Charts ps) (walk : Walk ps)
    (fresh : p.ref ∉ ps.map Place.ref) {q : Place} (member : q ∈ ps) :
    (t.enter p).governingEnv q.file q.cursor = t.governingEnv q.file q.cursor ∧
    (t.enter p).owners (t.governingEnv q.file q.cursor) = q.scopes.map some ++ [none] := by
  constructor
  -- The place that is entered is not around an earlier one, since all that is has been visited.
  · refine envAround_congr fun n around => enter_scopeOf?_of_ne ?_
    rintro same
    exact fresh (same ▸ walk.visited q member n around)
  · have bound := (List.getElem?_eq_some_iff.mp (charts.openers_getElem? member)).1
    rw [openers_length] at bound
    rw [owners_congr charts.holds.nested (fun k inside => enter_frame? t p inside) bound]
    exact charts.chains q member

/-- A place that is entered is known like those before. -/
theorem Charts.snoc (charts : t.Charts ps) (walk : Walk ps) (fresh : p.ref ∉ ps.map Place.ref)
    (holds : (t.enter p).Holds ((ps ++ [p]).flatMap (·.declarations)))
    (chain : (t.enter p).owners ((t.enter p).governingEnv p.file p.cursor) =
      p.scopes.map some ++ [none]) : (t.enter p).Charts (ps ++ [p]) := by
  refine { holds, entered := fun r absent => ?_, opened := fun r member => ?_
           chains := fun q member => ?_ }
  · simp only [List.map_append, List.map_cons, List.map_nil, List.mem_append, List.mem_singleton,
      not_or] at absent
    rw [enter_scopeOf?_of_ne absent.2, charts.entered r absent.1]
  · rw [List.map_append]
    rcases enter_openers member with early | rfl
    · exact List.mem_append_left _ (charts.opened r early)
    · exact List.mem_append_right _ (List.mem_singleton_self _)
  · rcases List.mem_append.mp member with early | new
    · obtain ⟨env, chain⟩ := charts.enter_chains walk fresh early
      rw [env, chain]
    · cases List.mem_singleton.mp new
      exact chain

theorem Charts.governingEnv_enter_root (charts : t.Charts ps) (fresh : p.ref ∉ ps.map Place.ref)
    (top : p.cursor.above = []) : (t.enter p).governingEnv p.file p.cursor = globalEnv := by
  rw [governingEnv_eq, enter_scopeOf?_self (charts.entered p.ref fresh), if_pos top]
  rfl

/-- A root declares nothing, and lies in the global environment. -/
theorem Charts.root (charts : t.Charts ps) (walk : Walk ps) (fresh : p.ref ∉ ps.map Place.ref)
    (top : p.cursor.above = []) (rule : p.cursor.tree.rule? = some .file) :
    (t.enter p).Charts (ps ++ [p]) := by
  have holds : (t.enter p).Holds ((ps ++ [p]).flatMap (·.declarations)) := by
    rw [List.flatMap_append, List.flatMap_singleton, Place.declarations_of_root rule,
      List.append_nil, enter_root top]
    exact { charts.holds with }
  refine charts.snoc walk fresh holds ?_
  rw [charts.governingEnv_enter_root fresh top, holds.owners_global,
    Place.scopes_of_root top rule]
  rfl

/-- A place below another one declares in that one's environment. -/
theorem Charts.part_holds (charts : t.Charts ps) (fresh : p.ref ∉ ps.map Place.ref)
    (below : p.cursor.above = parent :: above) (inside : ⟨p.file, parent, above⟩ ∈ ps) :
    (t.enter p).Holds ((ps ++ [p]).flatMap (·.declarations)) := by
  have around : t.openers[t.envAround p.file (parent :: above)]? =
      some (Place.scopesAmong p.file (parent :: above)).head? := charts.openers_getElem? inside
  have declared := charts.holds.declare around (declaredBy? p.file parent p.cursor.tree)
  rw [List.flatMap_append, List.flatMap_singleton, Place.declarations_eq below,
    ← List.append_assoc]
  by_cases opens : p.opensScope
  · rw [enter_opening below opens]
    refine declared.openScope ?_ ?_ _
    · rw [declare_openers]
      exact fun member => fresh (charts.opened _ member)
    · rw [declare_length, ← openers_length]
      exact (List.getElem?_eq_some_iff.mp around).1
  · have nothing : implicitBinding? p.file p.cursor.tree = none :=
      Option.eq_none_iff_forall_ne_some.mpr fun b unasked =>
        opens (Place.opensScope_of_implicitBinding? unasked)
    rw [enter_plain below opens, nothing]
    simpa using declared

/-- What is below a place lies in its environment, or opens one inside it. -/
theorem Charts.governingEnv_enter (charts : t.Charts ps) (walk : Walk ps)
    (fresh : p.ref ∉ ps.map Place.ref) (below : p.cursor.above = parent :: above)
    (inside : ⟨p.file, parent, above⟩ ∈ ps) : (t.enter p).governingEnv p.file p.cursor =
      if p.opensScope then t.envs.length else t.envAround p.file (parent :: above) := by
  have around : (t.enter p).envAround p.file (parent :: above) =
      t.envAround p.file (parent :: above) := (charts.enter_chains walk fresh inside).1
  rw [governingEnv_eq, enter_scopeOf?_self (charts.entered p.ref fresh), below, around,
    if_neg (List.cons_ne_nil _ _)]
  split <;> rfl

theorem Charts.part (charts : t.Charts ps) (walk : Walk ps) (fresh : p.ref ∉ ps.map Place.ref)
    (below : p.cursor.above = parent :: above) (inside : ⟨p.file, parent, above⟩ ∈ ps) :
    (t.enter p).Charts (ps ++ [p]) := by
  have holds := charts.part_holds fresh below inside
  have chain : (t.enter p).owners (t.envAround p.file (parent :: above)) =
      (Place.scopesAmong p.file (parent :: above)).map some ++ [none] :=
    (charts.enter_chains walk fresh inside).2
  refine charts.snoc walk fresh holds ?_
  rw [charts.governingEnv_enter walk fresh below inside, Place.scopes_eq, below]
  by_cases opens : p.opensScope
  · have new : (t.enter p).envs[t.envs.length]? =
        some ⟨(implicitBinding? p.file p.cursor.tree).toList,
          some (t.envAround p.file (parent :: above)), some p.ref⟩ := by
      rw [enter_opening below opens, openScope]
      simp
    rw [if_pos opens, if_pos opens, owners, chain_of_getElem? holds.nested new]
    simpa [owners] using chain
  · rw [if_neg opens, if_neg opens, chain]

end SymbolTable

open SymbolTable

/-- The table of a walk knows all its places. -/
theorem Walk.charts (walk : Walk ps) : (ofPlaces ps).Charts ps := by
  induction walk with
  | start => exact empty_charts
  | file walk fresh top rule ih => simpa using ih.root walk fresh top rule
  | part walk fresh below inside ih => simpa using ih.part walk fresh below inside

end XuleLang
