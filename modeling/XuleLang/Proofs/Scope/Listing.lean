import XuleLang.Proofs.Scope.Distinct
import XuleLang.Proofs.Scope.Forest

/-!
What is listed at a place is what lookups find there.

A listing and a lookup go through the same environments. The one takes what it has no namesake of
yet, and the other stops at the first namesake. What a name means is told here without either: the
latest binding of the name that counts in the environment itself, or else what the name means in
the one around it.
-/

namespace XuleLang

namespace SymbolTable

variable {t : SymbolTable} {file index : Nat} {name : String} {kind : BindingKind}

theorem nodup_names_firstPerName (bs : List Binding) :
    ((firstPerName bs).map (·.name)).Nodup := by
  rw [firstPerName, List.map_reverse, List.nodup_reverse]
  exact nodup_foldl_distinct .nil

theorem find?_firstPerName (bs : List Binding) :
    (firstPerName bs).find? (·.name == name) = bs.find? (·.name == name) :=
  find?_foldl_distinct name bs []

theorem firstPerName_sublist (bs : List Binding) : (firstPerName bs).Sublist bs :=
  sublist_foldl_distinct bs []

/-- Where names are distinct, what is there under a name is what a search for the name finds. -/
theorem mem_and_name_iff {bs : List Binding} (distinct : (bs.map (·.name)).Nodup) {b : Binding} :
    b ∈ bs ∧ b.name = name ↔ bs.find? (·.name == name) = some b := by
  constructor
  · rintro ⟨member, rfl⟩
    have hit : (bs.find? (·.name == b.name)).isSome :=
      List.find?_isSome.mpr ⟨b, member, beq_self_eq_true _⟩
    obtain ⟨first, found⟩ := Option.isSome_iff_exists.mp hit
    have same : first.name = b.name := by simpa using List.find?_some found
    rw [found, List.inj_on_of_nodup_map distinct (List.mem_of_find?_eq_some found) member same]
  · intro found
    exact ⟨List.mem_of_find?_eq_some found, by simpa using List.find?_some found⟩

/-! ## What a name means in an environment -/

/-- A binding of environment `k` counts for a token of a file that asks for a kind. -/
def Counts (k file index : Nat) (kind : BindingKind) (b : Binding) : Prop :=
  b.kind = kind ∧ (k = globalEnv ∨ b.declaredAt.file = file ∧ b.visibleFrom ≤ index)

instance (k file index : Nat) (kind : BindingKind) (b : Binding) :
    Decidable (Counts k file index kind b) :=
  inferInstanceAs (Decidable (_ ∧ _))

/-- What a name means to a token of a file in an environment. -/
inductive Means (t : SymbolTable) (file index : Nat) (name : String) (kind : BindingKind) :
    Nat → Binding → Prop where
  /-- Of the bindings in the environment that count, the latest of the name. -/
  | here {k : Nat} {e : Environment} {early late : List Binding} {b : Binding}
      (environment : t.envs[k]? = some e) (split : e.bindings = early ++ b :: late)
      (counts : Counts k file index kind b) (named : b.name = name)
      (latest : ∀ c ∈ late, Counts k file index kind c → c.name ≠ name) :
      Means t file index name kind k b
  /-- Where there is none, what the name means in the environment around. -/
  | around {k m : Nat} {e : Environment} {b : Binding}
      (environment : t.envs[k]? = some e)
      (without : ∀ c ∈ e.bindings, Counts k file index kind c → c.name ≠ name)
      (inside : e.parent = some m) (outer : Means t file index name kind m b) :
      Means t file index name kind k b

/-- Bindings listed from an environment outwards: those of an environment that count, the latest
first, stand before all those of the environments around it. -/
inductive InnermostFirst (t : SymbolTable) (file index : Nat) (kind : BindingKind) :
    Option Nat → List Binding → Prop where
  | outermost : InnermostFirst t file index kind none []
  | environment {k : Nat} {e : Environment} {own outer : List Binding}
      (environment : t.envs[k]? = some e) (latestFirst : own.Sublist e.bindings.reverse)
      (counts : ∀ b ∈ own, Counts k file index kind b)
      (behind : InnermostFirst t file index kind e.parent outer) :
      InnermostFirst t file index kind (some k) (own ++ outer)

/-! ## Candidates by environment -/

section Nested

variable {k : Nat} {e : Environment} {b : Binding} (nested : t.IsNested)
include nested

/-- The candidates of an environment go on with those of the one around it. -/
theorem candidates_of_getElem? (here : t.envs[k]? = some e) :
    t.candidates k file index kind =
      (e.bindings.reverse.filter fun b => decide (Counts k file index kind b)) ++
        (e.parent.map (t.candidates · file index kind)).getD [] := by
  have counted (b : Binding) : (b.kind == kind && isVisible k b file index) =
      decide (Counts k file index kind b) := by
    rw [Bool.eq_iff_iff, decide_eq_true_iff]
    simp [Counts, isVisible]
  rw [candidates, chain_of_getElem? nested here, List.flatMap_cons]
  simp only [counted]
  cases e.parent with
  | none => rfl
  | some m => simp only [Option.map_some, Option.getD_some, candidates]

/-- A lookup in an environment without a match goes on in the one around it. -/
theorem lookupFrom_of_getElem? (here : t.envs[k]? = some e) :
    t.lookupFrom k file index name kind =
      (e.bindings.reverse.find? fun b => Counts k file index kind b ∧ b.name = name).or
        (e.parent.bind (t.lookupFrom · file index name kind)) := by
  rw [lookupFrom, candidates_of_getElem? nested here, List.find?_append, List.find?_filter]
  simp only [decide_eq_true_eq, beq_iff_eq]
  cases e.parent <;> rfl

/-- A lookup finds what the name means. -/
theorem lookupFrom_eq_some_iff :
    t.lookupFrom k file index name kind = some b ↔ t.Means file index name kind k b := by
  constructor
  · -- Environments around have smaller numbers, which carries the induction.
    induction k using Nat.strongRecOn with
    | _ k ih =>
      intro found
      cases here : t.envs[k]? with
      | none => simp [lookupFrom, candidates, chain, chainUpTo, here] at found
      | some e =>
        rw [lookupFrom_of_getElem? nested here, Option.or_eq_some_iff] at found
        rcases found with own | ⟨without, outer⟩
        · obtain ⟨fits, late, early, split, passed⟩ := List.find?_eq_some_iff_append.mp own
          obtain ⟨counts, named⟩ := of_decide_eq_true fits
          have split : e.bindings = early.reverse ++ b :: late.reverse := by
            simpa using congrArg List.reverse split
          refine .here here split counts named fun c later => ?_
          simpa [imp_iff_not_or] using passed c (List.mem_reverse.mp later)
        · obtain ⟨m, inside, found⟩ := Option.bind_eq_some_iff.mp outer
          refine .around here ?_ inside (ih m (nested k e m here inside) found)
          intro c member
          simpa using List.find?_eq_none.mp without c (List.mem_reverse.mpr member)
  · intro means
    induction means with
    | here environment split counts named latest =>
      rw [lookupFrom_of_getElem? nested environment, Option.or_eq_some_iff]
      left
      rw [split, List.reverse_append, List.reverse_cons, List.append_assoc,
        List.find?_eq_some_iff_append]
      refine ⟨decide_eq_true ⟨counts, named⟩, _, _, rfl, fun c later => ?_⟩
      simpa [imp_iff_not_or] using latest c (List.mem_reverse.mp later)
    | around environment without inside outer ih =>
      rw [lookupFrom_of_getElem? nested environment, Option.or_eq_some_iff]
      right
      rw [inside]
      refine ⟨List.find?_eq_none.mpr fun c member => ?_, ih⟩
      simpa using without c (List.mem_reverse.mp member)

/-- What is taken of the candidates in their order stands innermost first. -/
theorem innermostFirst_of_sublist {listed : List Binding} (inside : k < t.envs.length)
    (taken : listed.Sublist (t.candidates k file index kind)) :
    t.InnermostFirst file index kind (some k) listed := by
  induction k using Nat.strongRecOn generalizing listed with
  | _ k ih =>
    have here : t.envs[k]? = some t.envs[k] := List.getElem?_eq_getElem inside
    rw [candidates_of_getElem? nested here] at taken
    obtain ⟨own, outer, rfl, ofOwn, ofOuter⟩ := List.sublist_append_iff.mp taken
    refine .environment here (ofOwn.trans List.filter_sublist) (fun b member => ?_) ?_
    · exact of_decide_eq_true (List.mem_filter.mp (ofOwn.subset member)).2
    · cases around : t.envs[k].parent with
      | none =>
        simp only [around, Option.map_none, Option.getD_none, List.sublist_nil] at ofOuter
        exact ofOuter ▸ .outermost
      | some m =>
        simp only [around, Option.map_some, Option.getD_some] at ofOuter
        have less := nested k _ m here around
        exact ih m less (less.trans inside) ofOuter

end Nested

/-- What is listed for a token of a file in an environment is what its lookups find. -/
structure ListsMeanings (t : SymbolTable) (env file index : Nat) (kind : BindingKind)
    (listed : List Binding) : Prop where
  /-- No two entries have one name. -/
  distinct : (listed.map (·.name)).Nodup
  /-- A binding is the entry of a name iff a lookup of the name finds it. -/
  found : ∀ name b, b ∈ listed ∧ b.name = name ↔ t.lookupFrom env file index name kind = some b
  /-- That is what the name means. -/
  meant : ∀ name b, t.lookupFrom env file index name kind = some b ↔
    t.Means file index name kind env b
  /-- Entries of an inner environment stand before those of the ones around it. -/
  ordered : t.InnermostFirst file index kind (some env) listed

/-- Where environments are nested, listings and lookups agree. -/
theorem IsNested.visibleBindings_listsMeanings (nested : t.IsNested) {env : Nat}
    (inside : env < t.envs.length) (file index : Nat) (kind : BindingKind) :
    t.ListsMeanings env file index kind (t.visibleBindings env file index kind) where
  distinct := nodup_names_firstPerName _
  found name b := by
    rw [visibleBindings, mem_and_name_iff (nodup_names_firstPerName _), find?_firstPerName]
    rfl
  meant _ _ := lookupFrom_eq_some_iff nested
  ordered := innermostFirst_of_sublist nested inside (firstPerName_sublist _)

end SymbolTable

open SymbolTable

/-- **Listing and resolving agree.** In every environment of a rule set, for a token of any file and
any kind, no two entries of the list have one name, and a lookup of a name finds its entry, or
nothing where there is none. Entries of inner environments come first. -/
theorem listing_and_resolving_agree (edited : SourceText) (imports : List SourceText)
    (env file index : Nat) (kind : BindingKind) :
    let t := SymbolTable.ofRuleSet (RuleSet.ofTexts edited imports)
    env < t.envs.length →
      t.ListsMeanings env file index kind (t.visibleBindings env file index kind) := by
  intro t inside
  have files : ∀ f ∈ (RuleSet.ofTexts edited imports).files, f.tree.root.IsFile := fun f =>
    RuleSet.isFile_of_mem_files
  obtain ⟨filled, walk⟩ := ofRuleSet_eq files
  have nested : t.IsNested := by
    rw [show t = _ from filled]
    exact walk.charts.holds.nested
  exact nested.visibleBindings_listsMeanings inside file index kind

/-- A variable that is assigned twice, and once more in parentheses. -/
def namesakes : SourceText := ⟨"", "output o $x = 1; $y = 2; $x = 3; ($x = 4; $x)".toList⟩

/-- Of the three variables of one name the list in the parentheses has the innermost. -/
theorem namesakes_are_listed_once :
    let t := SymbolTable.ofRuleSet (RuleSet.ofTexts namesakes [])
    t.ListsMeanings 5 0 37 .variableName (t.visibleBindings 5 0 37 .variableName) ∧
      (t.visibleBindings 5 0 37 .variableName).map (fun b => (b.name, b.visibleFrom)) =
        [("$x", 37), ("$y", 19), ("$rule-value", 0)] :=
  ⟨listing_and_resolving_agree namesakes [] 5 0 37 .variableName (by decide +kernel),
    by decide +kernel⟩

end XuleLang
