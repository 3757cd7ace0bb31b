import XuleLang.Proofs.Scope.Declarations

/-!
Looking up a name is lexical scoping.

The environments from a place outwards are those of the scopes that the place lies in, and at last
the global one. Each holds what is declared in its scope, and the latest is found first. In the
scopes there are only variables, and in the global environment there are none, so that no kind of
name is ever found in both.
-/

namespace XuleLang

namespace Declaration

variable {ds : List Declaration} {file index : Nat} {name : String} {kind : BindingKind}

theorem latest?_congr {P Q : Declaration → Bool} (same : ∀ d ∈ ds, P d = Q d) :
    latest? ds P = latest? ds Q := by
  rw [latest?, latest?, List.filter_congr same]

theorem latest?_eq_none {P : Declaration → Bool} (absent : ∀ d ∈ ds, ¬P d) :
    latest? ds P = none := by
  rw [latest?, List.filter_eq_nil_iff.mpr absent]
  rfl

theorem latest?_isSome {P : Declaration → Bool} : (latest? ds P).isSome ↔ ∃ d ∈ ds, P d := by
  rw [latest?, Option.isSome_map, Option.isSome_iff_ne_none, ne_eq, List.getLast?_eq_none_iff,
    List.filter_eq_nil_iff]
  simp

/-- What a token of a file can see of one kind in a scope, the latest first. -/
def seenIn (ds : List Declaration) (file index : Nat) (kind : BindingKind)
    (scope : Option NodeRef) : List Binding :=
  (bindingsIn ds scope).reverse.filter fun b => b.kind == kind &&
    (scope.isNone || (b.declaredAt.file == file && b.visibleFrom ≤ index))

/-- What a name means to a token of a file, as far as one scope says. -/
def meaningIn? (ds : List Declaration) (file index : Nat) (name : String) (kind : BindingKind)
    (scope : Option NodeRef) : Option Binding :=
  latest? ds fun d => d.scope == scope && d.declares name kind &&
    (scope.isNone || (d.binding.declaredAt.file == file && d.binding.visibleFrom ≤ index))

/-- The first of a name among what can be seen is the latest that was declared. -/
theorem find?_seenIn (scope : Option NodeRef) :
    (seenIn ds file index kind scope).find? (·.name == name) =
      meaningIn? ds file index name kind scope := by
  rw [seenIn, bindingsIn, meaningIn?, latest?, List.getLast?_filter, ← List.map_reverse,
    List.find?_filter, List.find?_map, ← List.filter_reverse, List.find?_filter]
  congr 2
  funext d
  simp only [Function.comp, declares, Bool.and_eq_true, Bool.decide_and, Bool.decide_eq_true]
  ac_rfl

theorem meaningIn?_scope_of_ne (belongs : ∀ d ∈ ds, d.Belongs) (other : kind ≠ .variableName)
    (r : NodeRef) : meaningIn? ds file index name kind (some r) = none := by
  refine latest?_eq_none fun d declared found => ?_
  simp only [declares, Bool.and_eq_true, beq_iff_eq] at found
  obtain ⟨⟨scope, same, -⟩, -⟩ := found
  exact other (same.symm.trans ((belongs d declared).kind.mpr (by simp [scope])))

theorem meaningIn?_global_of_ne (belongs : ∀ d ∈ ds, d.Belongs) (other : kind ≠ .variableName) :
    meaningIn? ds file index name kind none = latest? ds (·.declares name kind) := by
  refine latest?_congr fun d declared => ?_
  by_cases same : d.declares name kind
  · have unscoped : d.scope = none := Decidable.byContradiction fun inside => by
      simp only [declares, Bool.and_eq_true, beq_iff_eq] at same
      exact other (same.1.symm.trans ((belongs d declared).kind.mpr inside))
    simp [same, unscoped]
  · simp [same]

theorem meaningIn?_global (belongs : ∀ d ∈ ds, d.Belongs) :
    meaningIn? ds file index name .variableName none = none := by
  refine latest?_eq_none fun d declared found => ?_
  simp only [declares, Bool.and_eq_true, beq_iff_eq] at found
  obtain ⟨⟨unscoped, same, -⟩, -⟩ := found
  exact (belongs d declared).kind.mp same unscoped

theorem meaningIn?_scope (belongs : ∀ d ∈ ds, d.Belongs) {r : NodeRef} (here : r.file = file) :
    meaningIn? ds file index name kind (some r) = latest? ds fun d =>
      d.scope == some r && d.declares name kind && d.binding.visibleFrom ≤ index := by
  refine latest?_congr fun d declared => ?_
  by_cases scope : d.scope = some r
  · simp [(belongs d declared).file r scope, here]
  · simp [beq_eq_false_iff_ne.mpr scope]

end Declaration

open Declaration

namespace SymbolTable

variable {t : SymbolTable} {ds : List Declaration} {k : Nat} {e : Environment}

theorem Holds.owner_eq_none_iff (holds : t.Holds ds) (here : t.envs[k]? = some e) :
    e.owner = none ↔ k = globalEnv := by
  have owner : t.openers[k]? = some e.owner := by simp [openers, here]
  constructor
  · exact fun none => holds.eq_of_owner (none ▸ owner) holds.outermost
  · rintro rfl
    exact Option.some.inj (owner.symm.trans holds.outermost)

/-- From an environment one sees what is declared in the scopes of those around it. -/
theorem Holds.candidates_eq (holds : t.Holds ds) (env file index : Nat) (kind : BindingKind) :
    t.candidates env file index kind = (t.owners env).flatMap (seenIn ds file index kind) := by
  rw [candidates, owners, List.flatMap_map, List.flatMap_def, List.flatMap_def]
  refine congrArg List.flatten (List.map_congr_left fun entry member => ?_)
  obtain ⟨k, e⟩ := entry
  have here : t.envs[k]? = some e := getElem?_of_mem_chainUpTo member
  have global : (k == globalEnv) = e.owner.isNone := by
    rw [Bool.eq_iff_iff, beq_iff_eq, Option.isNone_iff_eq_none, holds.owner_eq_none_iff here]
  simp only [seenIn, isVisible, holds.bindings k e here, global]

/-- The first scope with a meaning counts. -/
theorem Holds.lookupFrom_eq (holds : t.Holds ds) (env file index : Nat) (name : String)
    (kind : BindingKind) : t.lookupFrom env file index name kind =
      (t.owners env).findSome? (meaningIn? ds file index name kind) := by
  simp only [lookupFrom, holds.candidates_eq, List.find?_flatMap, find?_seenIn]

end SymbolTable

open SymbolTable

theorem findSome?_congr {f g : α → Option β} {l : List α} (same : ∀ x ∈ l, f x = g x) :
    l.findSome? f = l.findSome? g := by
  induction l with
  | nil => rfl
  | cons x l ih =>
    obtain ⟨first, others⟩ := List.forall_mem_cons.mp same
    rw [List.findSome?_cons, List.findSome?_cons, first, ih others]

theorem RuleSet.lexicalLookup?_of_ne {s : RuleSet} {p : Place} {kind : BindingKind}
    (other : kind ≠ .variableName) (name : String) : s.lexicalLookup? p name kind =
      latest? s.declarations (·.declares name kind) := by
  cases kind <;> first | rfl | exact absurd rfl other

/-- In files of a rule set names are looked up by lexical scoping. -/
theorem RuleSet.lookup_eq {s : RuleSet} (files : ∀ f ∈ s.files, f.tree.root.IsFile) {p : Place}
    (member : p ∈ s.places) (name : String) (kind : BindingKind) :
    (SymbolTable.ofRuleSet s).lookup p.file p.cursor name kind = s.lexicalLookup? p name kind := by
  have belongs := RuleSet.belongs files
  obtain ⟨filled, walk⟩ := ofRuleSet_eq files
  let index := referenceIndex p.cursor.tree
  rw [filled, lookup, walk.charts.holds.lookupFrom_eq, walk.charts.chains p member,
    List.findSome?_append, List.findSome?_map, List.findSome?_singleton]
  -- Variables are declared in scopes only, and all else outside of them only. Whatever the kind is,
  -- just one part of the chain has something to say.
  by_cases ofVariable : kind = .variableName
  · subst ofVariable
    rw [show s.places.flatMap (·.declarations) = s.declarations from rfl,
      meaningIn?_global belongs, Option.or_none, RuleSet.lexicalLookup?]
    exact findSome?_congr fun r inside =>
      meaningIn?_scope belongs (Place.file_of_mem_scopesAmong inside)
  · have scopes : p.scopes.findSome?
        (meaningIn? s.declarations p.file index name kind ∘ some) = none :=
      List.findSome?_eq_none_iff.mpr fun r _ => meaningIn?_scope_of_ne belongs ofVariable r
    rw [RuleSet.lexicalLookup?_of_ne ofVariable, ← meaningIn?_global_of_ne belongs ofVariable]
    exact scopes ▸ Option.none_or

/-- **Looking up a name is lexical scoping.** At every place of all files, whatever is wrong with
their texts, a name means what it means by the trees alone. -/
theorem lookup_is_lexical_scoping (edited : SourceText) (imports : List SourceText) {p : Place}
    (member : p ∈ (RuleSet.ofTexts edited imports).places) (name : String) (kind : BindingKind) :
    let s := RuleSet.ofTexts edited imports
    (SymbolTable.ofRuleSet s).lookup p.file p.cursor name kind = s.lexicalLookup? p name kind := by
  intro s
  have files : ∀ f ∈ s.files, f.tree.root.IsFile := fun f => RuleSet.isFile_of_mem_files
  exact s.lookup_eq files member name kind

/-- A variable whose inner namesake is made from it, read in the assignment, behind it, and behind
the parentheses. -/
def shadowedVariable : SourceText := ⟨"", "output o $x = 1; $y = ($x = $x + 1; $x); $x".toList⟩

/-- A variable hides its namesake outside from the end of its assignment to the end of its scope. -/
theorem inner_variable_hides_the_outer_one :
    let s := RuleSet.ofTexts shadowedVariable []
    let reads := s.places.filter (·.cursor.tree.rule? == some .variableRead)
    reads.map (fun p => ((SymbolTable.ofRuleSet s).lookup p.file p.cursor "$x" .variableName).map
      (·.visibleFrom)) = [some 11, some 29, some 11] := by
  intro s reads
  have lexical (p : Place) (member : p ∈ reads) :=
    lookup_is_lexical_scoping shadowedVariable [] (List.mem_filter.mp member).1 "$x" .variableName
  have meanings : reads.map (fun p => (s.lexicalLookup? p "$x" .variableName).map
      (·.visibleFrom)) = [some 11, some 29, some 11] := by
    decide +kernel
  rw [← meanings]
  exact List.map_congr_left fun p member => congrArg _ (lexical p member)

end XuleLang
