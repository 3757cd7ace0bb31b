import XuleLang.Proofs.Scope.Lexical

/-!
Environments hold what is declared in their scopes.

While a symbol table is filled, each scope has one environment, and that holds what was declared
in the scope so far. An environment is inside another one with a smaller number, so that the chain
of those around it ends, and it ends at the global one.
-/

namespace XuleLang

namespace Declaration

/-- What some declarations bind in a scope. -/
def bindingsIn (ds : List Declaration) (scope : Option NodeRef) : List Binding :=
  (ds.filter (·.scope == scope)).map (·.binding)

theorem bindingsIn_append (ds es : List Declaration) (scope : Option NodeRef) :
    bindingsIn (ds ++ es) scope = bindingsIn ds scope ++ bindingsIn es scope := by
  simp [bindingsIn]

theorem bindingsIn_map_mk (scope other : Option NodeRef) (bs : List Binding) :
    bindingsIn (bs.map (.mk scope)) other = if scope = other then bs else [] := by
  split <;> simp_all [bindingsIn, List.filter_map, Function.comp_def]

theorem bindingsIn_eq_nil {ds : List Declaration} {scope : Option NodeRef}
    (absent : ∀ d ∈ ds, d.scope ≠ scope) : bindingsIn ds scope = [] := by
  simpa [bindingsIn] using absent

end Declaration

namespace SymbolTable

variable {t u : SymbolTable} {ds : List Declaration} {k env : Nat} {e : Environment}

/-! ## Chains -/

/-- Each environment has a greater number than the one that it is inside of. -/
def IsNested (t : SymbolTable) : Prop :=
  ∀ k (e : Environment) m, t.envs[k]? = some e → e.parent = some m → m < k

theorem chainUpTo_eq (nested : t.IsNested) {fuel fuel' k : Nat} (enough : k < fuel)
    (enough' : k < fuel') : t.chainUpTo fuel k = t.chainUpTo fuel' k := by
  induction fuel generalizing fuel' k with
  | zero => omega
  | succ fuel ih =>
    obtain ⟨fuel', rfl⟩ : ∃ n, fuel' = n + 1 := ⟨fuel' - 1, by omega⟩
    unfold chainUpTo
    cases here : t.envs[k]? with
    | none => rfl
    | some e =>
      cases inside : e.parent with
      | none => simp [inside]
      | some m =>
        have less := nested k e m here inside
        simpa [inside] using ih (by omega) (by omega)

/-- The chain of an environment goes on with that of the one around it. -/
theorem chain_of_getElem? (nested : t.IsNested) (here : t.envs[k]? = some e) :
    t.chain k = (k, e) :: (e.parent.map t.chain).getD [] := by
  rw [chain, chainUpTo, here]
  cases inside : e.parent with
  | none => simp [inside]
  | some m =>
    have less := nested k e m here inside
    have around : t.chainUpTo k m = t.chain m := chainUpTo_eq nested less (Nat.lt_succ_self m)
    simpa [inside] using around

theorem getElem?_of_mem_chainUpTo {fuel k : Nat} {p : Nat × Environment}
    (member : p ∈ t.chainUpTo fuel k) : t.envs[p.1]? = some p.2 := by
  induction fuel generalizing k with
  | zero => cases member
  | succ fuel ih =>
    unfold chainUpTo at member
    cases here : t.envs[k]? with
    | none => simp [here] at member
    | some e =>
      simp only [here] at member
      rcases List.mem_cons.mp member with rfl | around
      · exact here
      · cases inside : e.parent with
        | none => simp [inside] at around
        | some m => exact ih (by simpa [inside] using around)

/-- The nodes that opened an environment and those around it, from the inside out. -/
def owners (t : SymbolTable) (env : Nat) : List (Option NodeRef) :=
  (t.chain env).map (·.2.owner)

/-- What an environment is inside of, and what opened it. -/
def frame? (t : SymbolTable) (k : Nat) : Option (Option Nat × Option NodeRef) :=
  (t.envs[k]?).map fun e => (e.parent, e.owner)

/-- Environments that stay where they are keep the same ones around them. -/
theorem owners_congr (nested : t.IsNested) (same : ∀ k < t.envs.length, u.frame? k = t.frame? k)
    (inside : k < t.envs.length) : u.owners k = t.owners k := by
  -- The induction is on the length of the chain. Environments around an old one are old themselves,
  -- since they have smaller numbers.
  have upTo : ∀ fuel k, k < t.envs.length →
      (u.chainUpTo fuel k).map (·.2.owner) = (t.chainUpTo fuel k).map (·.2.owner) := by
    intro fuel
    induction fuel with
    | zero => exact fun _ _ => rfl
    | succ fuel ih =>
      intro k inside
      obtain ⟨e, here⟩ : ∃ e, t.envs[k]? = some e := ⟨_, List.getElem?_eq_getElem inside⟩
      have frame := same k inside
      simp only [frame?, here, Option.map_some] at frame
      obtain ⟨e', here', parts⟩ := Option.map_eq_some_iff.mp frame
      obtain ⟨parent, owner⟩ := Prod.mk.inj parts
      simp only [chainUpTo, here, here', List.map_cons, owner, parent]
      cases around : e.parent with
      | none => simp
      | some m =>
        have less := nested k e m here around
        simpa using ih m (by omega)
  exact upTo (k + 1) k inside

/-! ## What the environments hold -/

/-- What opened the environments, by number. -/
def openers (t : SymbolTable) : List (Option NodeRef) := t.envs.map (·.owner)

@[simp] theorem openers_length (t : SymbolTable) : t.openers.length = t.envs.length := by
  simp [openers]

/-- Environments hold what was declared. -/
structure Holds (t : SymbolTable) (ds : List Declaration) : Prop where
  bindings : ∀ (k : Nat) (e : Environment), t.envs[k]? = some e →
    e.bindings = Declaration.bindingsIn ds e.owner
  distinct : t.openers.Nodup
  outermost : t.openers[globalEnv]? = some none
  nested : t.IsNested
  known : ∀ d ∈ ds, d.scope ∈ t.openers

theorem empty_holds : empty.Holds [] where
  bindings k e here := by
    obtain ⟨_, rfl⟩ := List.getElem?_eq_some_iff.mp here
    simp [empty, Declaration.bindingsIn]
  distinct := by simp [openers, empty]
  outermost := rfl
  nested := by
    intro k e m here inside
    obtain ⟨_, rfl⟩ := List.getElem?_eq_some_iff.mp here
    simp [empty] at inside
  known := nofun

/-- An environment is known by what opened it. -/
theorem Holds.eq_of_owner (holds : t.Holds ds) {scope : Option NodeRef}
    (here : t.openers[k]? = some scope) (there : t.openers[env]? = some scope) : k = env :=
  (List.getElem?_inj (List.getElem?_eq_some_iff.mp here).1 holds.distinct).mp
    (here.trans there.symm)

theorem owners_head? (t : SymbolTable) (k : Nat) : (t.owners k).head? = t.openers[k]? := by
  rw [owners, chain, chainUpTo]
  cases here : t.envs[k]? <;> simp [openers, here]

/-- The global environment is in no other one. -/
theorem Holds.owners_global (holds : t.Holds ds) : t.owners globalEnv = [none] := by
  obtain ⟨e, here, owner⟩ : ∃ e, t.envs[globalEnv]? = some e ∧ e.owner = none := by
    simpa [openers] using holds.outermost
  have outside : e.parent = none :=
    Option.eq_none_iff_forall_ne_some.mpr fun m inside =>
      absurd (holds.nested globalEnv e m here inside) (Nat.not_lt_zero m)
  simp [owners, chain_of_getElem? holds.nested here, outside, owner]

/-! ## Declaring -/

theorem getElem?_declare (t : SymbolTable) (env : Nat) (b : Option Binding) (k : Nat) :
    (t.declare env b).envs[k]? = (t.envs[k]?).map fun e =>
      if env = k then { e with bindings := e.bindings ++ b.toList } else e := by
  cases b with
  | none => simp [declare]
  | some b => simp [declare, List.getElem?_modify]

@[simp] theorem declare_scopes (t : SymbolTable) (env : Nat) (b : Option Binding) :
    (t.declare env b).scopes = t.scopes := by
  cases b <;> rfl

@[simp] theorem declare_length (t : SymbolTable) (env : Nat) (b : Option Binding) :
    (t.declare env b).envs.length = t.envs.length := by
  cases b <;> simp [declare]

@[simp] theorem declare_frame? (t : SymbolTable) (env : Nat) (b : Option Binding) (k : Nat) :
    (t.declare env b).frame? k = t.frame? k := by
  rw [frame?, getElem?_declare, Option.map_map]
  refine congrArg (fun f => (t.envs[k]?).map f) (funext fun e => ?_)
  dsimp only [Function.comp]
  split <;> rfl

@[simp] theorem declare_openers (t : SymbolTable) (env : Nat) (b : Option Binding) :
    (t.declare env b).openers = t.openers := by
  refine List.ext_getElem? fun k => ?_
  have same := congrArg (Option.map (·.2)) (declare_frame? t env b k)
  simpa [openers, frame?, Function.comp_def] using same

/-- A declaration in the scope of an environment goes into that one. -/
theorem Holds.declare (holds : t.Holds ds) {scope : Option NodeRef}
    (here : t.openers[env]? = some scope) (b : Option Binding) :
    (t.declare env b).Holds (ds ++ b.toList.map (.mk scope)) := by
  refine { bindings := fun k e found => ?_, distinct := ?_, outermost := ?_, nested := ?_
           known := ?_ }
  · rw [getElem?_declare] at found
    obtain ⟨e, before, rfl⟩ := Option.map_eq_some_iff.mp found
    have held := holds.bindings k e before
    have owner : t.openers[k]? = some e.owner := by simp [openers, before]
    rw [Declaration.bindingsIn_append, Declaration.bindingsIn_map_mk]
    split
    case isTrue same =>
      cases same
      cases here.symm.trans owner
      simp [held]
    case isFalse other =>
      -- Another environment was opened by another node.
      have apart : scope ≠ e.owner := by
        rintro rfl
        exact other (holds.eq_of_owner here owner)
      simp [held, apart]
  · simpa using holds.distinct
  · simpa using holds.outermost
  · intro k e m found inside
    rw [getElem?_declare] at found
    obtain ⟨e, before, rfl⟩ := Option.map_eq_some_iff.mp found
    refine holds.nested k e m before ?_
    split at inside <;> exact inside
  · intro d member
    rw [declare_openers]
    rcases List.mem_append.mp member with early | new
    · exact holds.known d early
    · obtain ⟨b, -, rfl⟩ := List.mem_map.mp new
      exact List.mem_of_getElem? here

/-! ## Opening scopes -/

@[simp] theorem openScope_openers (t : SymbolTable) (ref : NodeRef) (env : Nat)
    (b : Option Binding) : (t.openScope ref env b).openers = t.openers ++ [some ref] := by
  simp [openers, openScope]

theorem openScope_frame? (t : SymbolTable) (ref : NodeRef) (env : Nat) (b : Option Binding)
    (inside : k < t.envs.length) : (t.openScope ref env b).frame? k = t.frame? k := by
  simp [frame?, openScope, List.getElem?_append_left inside]

/-- A new scope holds what it binds unasked. -/
theorem Holds.openScope (holds : t.Holds ds) {ref : NodeRef} (fresh : some ref ∉ t.openers)
    (inside : env < t.envs.length) (b : Option Binding) :
    (t.openScope ref env b).Holds (ds ++ b.toList.map (.mk (some ref))) := by
  have found {k : Nat} {e : Environment} (here : (t.openScope ref env b).envs[k]? = some e) :
      t.envs[k]? = some e ∨ k = t.envs.length ∧ e = ⟨b.toList, some env, some ref⟩ := by
    obtain ⟨bound, rfl⟩ := List.getElem?_eq_some_iff.mp here
    simp only [SymbolTable.openScope, List.length_append, List.length_singleton] at bound
    rcases Nat.lt_succ_iff_lt_or_eq.mp bound with before | rfl
    · left
      simp [SymbolTable.openScope, before]
    · right
      simp [SymbolTable.openScope]
  refine { bindings := fun k e here => ?_, distinct := ?_, outermost := ?_, nested := ?_
           known := ?_ }
  · rw [Declaration.bindingsIn_append, Declaration.bindingsIn_map_mk]
    rcases found here with before | ⟨-, rfl⟩
    · have owner : e.owner ∈ t.openers := List.mem_map_of_mem (List.mem_of_getElem? before)
      have apart : some ref ≠ e.owner := fun same => fresh (same ▸ owner)
      simp [holds.bindings k e before, apart]
    · have none : Declaration.bindingsIn ds (some ref) = [] :=
        Declaration.bindingsIn_eq_nil fun d member same => fresh (same ▸ holds.known d member)
      simp [none]
  · rw [openScope_openers, List.nodup_append]
    refine ⟨holds.distinct, by simp, fun o member o' single => ?_⟩
    rw [List.mem_singleton.mp single]
    rintro rfl
    exact fresh member
  · rw [openScope_openers, List.getElem?_append_left
      (List.getElem?_eq_some_iff.mp holds.outermost).1]
    exact holds.outermost
  · intro k e m here around
    rcases found here with before | ⟨rfl, rfl⟩
    · exact holds.nested k e m before around
    · cases around
      exact inside
  · intro d member
    rw [openScope_openers]
    rcases List.mem_append.mp member with early | new
    · exact List.mem_append_left _ (holds.known d early)
    · obtain ⟨b, -, rfl⟩ := List.mem_map.mp new
      simp

end SymbolTable

end XuleLang
