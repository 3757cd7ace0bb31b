import XuleLang.Analysis.Completion
import XuleLang.Proofs.Scope.Distinct
import XuleLang.Proofs.Scope.Lookup

/-!
Suggested variables.

At a caret those variables are suggested that the last token before the caret can see, from the
scopes that this token lies in (`sees_of_suggested`). Scopes that end with the token are left behind
by the caret, but their variables are suggested all the same: inserted at the caret, such a variable
is unknown.
-/

namespace XuleLang

/-! ## Items -/

section Items

/-- Which of the first items are taken does not depend on the others. -/
theorem mem_firstPerLabel_of_take {item : CompletionItem} {items : List CompletionItem} {n : Nat}
    (member : item ∈ firstPerLabel (items.take n)) : item ∈ firstPerLabel items := by
  unfold firstPerLabel at member ⊢
  rw [← List.take_append_drop n items, List.foldl_append]
  exact List.mem_reverse.mpr ((suffix_foldl_distinct _ _).subset (List.mem_reverse.mp member))

theorem mem_of_mem_firstPerLabel {item : CompletionItem} {items : List CompletionItem}
    (member : item ∈ firstPerLabel items) : item ∈ items :=
  (sublist_foldl_distinct items []).subset member

theorem SymbolTable.mem_of_mem_firstPerName {b : Binding} {bs : List Binding}
    (member : b ∈ firstPerName bs) : b ∈ bs :=
  (sublist_foldl_distinct bs []).subset member

theorem mem_of_mem_rankOffers {typed : List Char} {offers : List Offer} {o : Offer}
    (member : o ∈ rankOffers typed offers) : o ∈ offers := by
  unfold rankOffers at member
  split at member
  · exact member
  · obtain ⟨scored, ranked, rfl⟩ := List.mem_map.mp member
    obtain ⟨o, fitting, rfl⟩ := List.mem_map.mp (List.mem_mergeSort.mp ranked)
    exact (List.mem_filter.mp fitting).1

theorem exists_offer_of_mem_itemsOf {typed : List Char} {groups : List OfferGroup}
    {item : CompletionItem} (member : item ∈ itemsOf typed groups) :
    ∃ g ∈ groups, g.kind = item.kind ∧ ∃ o ∈ g.offers, o.label = item.label := by
  obtain ⟨g, group, ranked⟩ := List.mem_flatMap.mp (mem_of_mem_firstPerLabel member)
  obtain ⟨o, offered, rfl⟩ := List.mem_map.mp ranked
  exact ⟨g, group, rfl, o, mem_of_mem_rankOffers offered, rfl⟩

/-- Where nothing has been typed, an item that is taken of the first offers is suggested. -/
theorem mem_completions_of_first {a : Analysis} {place : EditorPosition} {item : CompletionItem}
    (n : Nat)
    (first : let position := positionOfEditor a.rules.edited.text place
      ∃ r ∈ a.requestAt? position.line position.column, r.typed = [] ∧
        item ∈ firstPerLabel ((r.groups.flatMap fun g =>
          g.offers.map fun o => ⟨o.label, g.kind, o.detail⟩).take n)) :
    item ∈ a.completions place := by
  obtain ⟨r, request, untyped, early⟩ := first
  have offered := mem_firstPerLabel_of_take early
  unfold Analysis.completions
  dsimp only
  rw [Option.mem_def.mp request]
  simpa only [itemsOf, rankOffers, untyped, List.isEmpty_nil, if_true] using offered

end Items

namespace CompletionRequest

variable {r : CompletionRequest} {g : OfferGroup}

/-- If the group is one of variables, it has those that are visible. -/
def Binds (r : CompletionRequest) (g : OfferGroup) : Prop :=
  g.kind = .variableName → g.offers = r.bound .variableName

theorem binds_qualified (r : CompletionRequest) : r.Binds r.qualified := by
  unfold qualified
  split <;> exact nofun

theorem binds_of_mem_operands (member : g ∈ r.operands) : r.Binds g := by
  simp only [operands, List.cons_append, List.nil_append, List.mem_cons, List.mem_append,
    List.mem_ite_nil_left, List.not_mem_nil, or_false] at member
  rcases member with rfl | rfl | rfl | rfl | ⟨-, rfl⟩ | rfl
  case inr.inl => exact fun _ => rfl
  all_goals exact nofun

/-- Only bindings are suggested as variables. -/
theorem binds_of_mem_groups (member : g ∈ r.groups) : r.Binds g := by
  unfold groups at member
  dsimp only at member
  split at member
  case isTrue =>
    cases List.mem_singleton.mp member
    exact nofun
  case isFalse =>
    simp only [List.mem_append, List.mem_ite_nil_right, List.mem_singleton] at member
    rcases member with ((((((⟨-, rfl⟩ | ⟨-, rfl⟩) | ⟨-, rfl⟩) | ⟨-, rfl⟩) | ⟨-, rfl⟩) | ⟨-, rfl⟩) |
      ⟨-, operand⟩) | ⟨-, rfl⟩
    case inl.inl.inl.inr => exact fun _ => rfl
    case inl.inl.inr => exact r.binds_qualified
    case inl.inr => exact binds_of_mem_operands operand
    all_goals exact nofun

/-- What is suggested of the bindings of a kind is found under its name. -/
theorem lookupFrom_isSome_of_mem_bound {o : Offer} {k : BindingKind} (offered : o ∈ r.bound k) :
    (r.analysis.symbols.lookupFrom r.env 0 r.tokenIndex o.label k).isSome := by
  obtain ⟨b, visible, rfl⟩ := List.mem_map.mp offered
  exact List.find?_isSome.mpr ⟨b, SymbolTable.mem_of_mem_firstPerName visible, beq_self_eq_true _⟩

end CompletionRequest

/-! ## Scopes -/

namespace RuleSet

/-- In one of the scopes around the place a variable is declared that the token of a number can
see. -/
def Sees (s : RuleSet) (p : Place) (index : Nat) (name : String) : Prop :=
  ∃ d ∈ s.declarations, d.declares name .variableName ∧ d.binding.visibleFrom ≤ index ∧
    ∃ scope ∈ p.scopes, d.scope = some scope

end RuleSet

section Lookup

open SymbolTable Declaration

variable {edited : SourceText} {imports : List SourceText} {p : Place} {index : Nat} {name : String}

/-- From a place those variables are found that can be seen there. -/
theorem lookupFrom_isSome_iff (member : p ∈ (RuleSet.ofTexts edited imports).places) :
    let s := RuleSet.ofTexts edited imports
    let t := SymbolTable.ofRuleSet s
    (t.lookupFrom (t.governingEnv p.file p.cursor) p.file index name .variableName).isSome ↔
      s.Sees p index name := by
  intro s t
  have files : ∀ f ∈ s.files, f.tree.root.IsFile := fun f => RuleSet.isFile_of_mem_files
  have belongs := RuleSet.belongs files
  obtain ⟨filled, walk⟩ := ofRuleSet_eq files
  have found : t.lookupFrom (t.governingEnv p.file p.cursor) p.file index name .variableName =
      p.scopes.findSome? fun r => latest? s.declarations fun d =>
        d.scope == some r && d.declares name .variableName && d.binding.visibleFrom ≤ index := by
    rw [show t = _ from filled, walk.charts.holds.lookupFrom_eq, walk.charts.chains p member,
      List.findSome?_append, List.findSome?_map, List.findSome?_singleton,
      show s.places.flatMap (·.declarations) = s.declarations from rfl,
      meaningIn?_global belongs, Option.or_none]
    exact findSome?_congr fun r inside =>
      meaningIn?_scope belongs (Place.file_of_mem_scopesAmong inside)
  rw [found, List.findSome?_isSome_iff]
  simp only [latest?_isSome, Bool.and_eq_true, beq_iff_eq, decide_eq_true_eq]
  constructor
  · rintro ⟨r, around, d, declared, ⟨belongs, same⟩, visible⟩
    exact ⟨d, declared, same, visible, r, around, belongs⟩
  · rintro ⟨d, declared, same, visible, r, around, belongs⟩
    exact ⟨r, around, d, declared, ⟨belongs, same⟩, visible⟩

end Lookup

/-! ## Places -/

theorem scopeAnchor_mem (t : SyntaxTree) (line column : Nat) :
    t.scopeAnchor line column ∈ t.root.cursors := by
  unfold SyntaxTree.scopeAnchor
  dsimp only
  cases found : (t.root.leaves.reverse.find? fun l =>
      l.token.kind != .endOfInput && l.token.span.start.isBefore line column).bind
      fun l => t.cursor? l.id with
  | none =>
    unfold Tree.cursors
    cases t.root <;> exact .head _
  | some c =>
    obtain ⟨l, -, found⟩ := Option.bind_eq_some_iff.mp found
    exact List.mem_of_find?_eq_some found

/-- The place whose variables are suggested at a place of the text: the last token before it. -/
def Analysis.placeBefore (a : Analysis) (place : EditorPosition) : Place :=
  let position := positionOfEditor a.rules.edited.text place
  ⟨0, a.rules.edited.tree.scopeAnchor position.line position.column⟩

theorem placeBefore_mem (a : Analysis) (place : EditorPosition) :
    a.placeBefore place ∈ a.rules.places :=
  List.mem_flatMap.mpr ⟨(a.rules.edited, 0), .head _, List.mem_map_of_mem (scopeAnchor_mem ..)⟩

/-- Suggested variables are seen by the token before the caret. If a variable is suggested, the
last token that starts before the caret lies in a scope where it is declared, so that a token at
the caret can see it. -/
theorem sees_of_suggested (i : AnalysisInput) (place : EditorPosition) :
    let a := Analysis.ofInput i
    let position := positionOfEditor a.rules.edited.text place
    ∀ item ∈ a.completions place, item.kind = .variableName →
      ∃ caret, a.rules.edited.tree.caretAt? position.line position.column = some caret ∧
        a.rules.Sees (a.placeBefore place) caret.tokenIndex item.label := by
  intro a position item suggested isVariable
  unfold Analysis.completions at suggested
  dsimp only at suggested
  split at suggested
  case h_2 => cases suggested
  case h_1 r request =>
    obtain ⟨g, group, kind, o, offered, label⟩ := exists_offer_of_mem_itemsOf suggested
    rw [CompletionRequest.binds_of_mem_groups group (kind.trans isVariable)] at offered
    obtain ⟨caret, resolved, made⟩ := Option.bind_eq_some_iff.mp request
    cases made
    have found := CompletionRequest.lookupFrom_isSome_of_mem_bound offered
    rw [label] at found
    exact ⟨caret, resolved, (lookupFrom_isSome_iff (placeBefore_mem a place)).mp found⟩

/-- A fact set is where a value is asked for. -/
def askedFactset : SourceText := ⟨"", "output o if \x7b@concept\x7d ".toList⟩

/-- The same with the variable of the fact set inserted behind it, between two blanks. -/
def insertedFact : SourceText :=
  ⟨"", askedFactset.text.take 23 ++ ' ' :: "$fact".toList ++ ' ' :: askedFactset.text.drop 23⟩

/-- Behind a fact set, where the caret touches nothing but the end, its variable is suggested, for
the brace that ends the fact set lies in its scope. Inserted there it is read outside of it, and
unknown. -/
theorem suggested_variable_is_unknown_behind_its_scope :
    let asked := Analysis.ofInput ⟨askedFactset, [], .empty⟩
    let inserted := Analysis.ofInput ⟨insertedFact, [], .empty⟩
    (∀ l ∈ asked.rules.edited.tree.root.leaves,
      l.token.kind ≠ .endOfInput → l.token.span.stop.offset < 23) ∧
    (⟨"$fact", .variableName, none⟩ : CompletionItem) ∈ asked.completions ⟨0, 23⟩ ∧
    (∃ c ∈ inserted.rules.edited.tree.root.cursors, c.tree.rule? = some .variableRead ∧
      c.tree.leadingName? = some "$fact" ∧ c.tree.span?.map (·.start.offset) = some 24) ∧
    ⟨⟨⟨0, 24⟩, ⟨0, 29⟩⟩, .unknownVariable "$fact"⟩ ∈ inserted.diagnostics .all := by
  intro asked inserted
  have suggested : (⟨"$fact", .variableName, none⟩ : CompletionItem) ∈ asked.completions ⟨0, 23⟩ :=
    mem_completions_of_first 3 (by decide +kernel)
  exact ⟨by decide +kernel, suggested, by decide +kernel, by decide +kernel⟩

end XuleLang
