import XuleLang.Proofs.Analysis.Suggestion
import XuleLang.Proofs.Analysis.TypedName
import XuleLang.Proofs.Parser.PropertyPrediction
import XuleLang.Proofs.Scope.Listing
import XuleLang.Proofs.Text.LowerCase

/-!
Lists of completions.

A list has no label twice, and everything in it fits what has been typed: the characters typed occur
in the label in their order, in whatever case. Every item is a name of the vocabulary, a binding
that is visible at the caret, the short name or a local name of a namespace, a truth value or a
reserved word that may stand at the caret. Where a property name may stand, a point stands right
before it, and the list has the property names that fit and nothing else.
-/

namespace XuleLang

variable {typed : List Char} {item : CompletionItem}

/-! ## Lists of items -/

section Items

/-- No label is taken twice. -/
theorem nodup_labels_firstPerLabel (items : List CompletionItem) :
    ((firstPerLabel items).map (·.label)).Nodup := by
  rw [firstPerLabel, List.map_reverse, List.nodup_reverse]
  exact nodup_foldl_distinct .nil

/-- Every label is taken once. -/
theorem exists_mem_firstPerLabel {items : List CompletionItem} (member : item ∈ items) :
    ∃ first ∈ firstPerLabel items, first.label = item.label := by
  have first : ((firstPerLabel items).find? (·.label == item.label)).isSome := by
    rw [firstPerLabel, find?_foldl_distinct]
    exact List.find?_isSome.mpr ⟨item, member, beq_self_eq_true _⟩
  simpa using List.find?_isSome.mp first

/-- The offers that fit what has been typed are kept. -/
theorem mem_rankOffers (plain : ∀ c ∈ typed, c.toNat < 128) {offers : List Offer} {o : Offer} :
    o ∈ rankOffers typed offers ↔
      o ∈ offers ∧ (lowerCaseAll typed).Sublist (lowerCaseAll o.label.toList) := by
  unfold rankOffers
  split
  case isTrue nothing =>
    obtain rfl := List.isEmpty_iff.mp nothing
    simp [lowerCaseAll]
  case isFalse =>
    simp only [List.mem_map, List.mem_mergeSort, List.mem_filter, isSubsequenceOfText_iff,
      lowerCaseAll_lowerCaseAll plain]
    constructor
    · rintro ⟨_, ⟨p, fitting, rfl⟩, rfl⟩
      exact fitting
    · exact fun fitting => ⟨_, ⟨o, fitting, rfl⟩, rfl⟩

/-- An item is an offer of one of the groups that fits what has been typed. -/
theorem exists_fitting_offer (plain : ∀ c ∈ typed, c.toNat < 128) {groups : List OfferGroup}
    (member : item ∈ itemsOf typed groups) :
    ∃ g ∈ groups, ∃ o ∈ g.offers, item = ⟨o.label, g.kind, o.detail⟩ ∧
      (lowerCaseAll typed).Sublist (lowerCaseAll o.label.toList) := by
  obtain ⟨g, group, ranked⟩ := List.mem_flatMap.mp (mem_of_mem_firstPerLabel member)
  obtain ⟨o, offered, rfl⟩ := List.mem_map.mp ranked
  obtain ⟨offer, fits⟩ := (mem_rankOffers plain).mp offered
  exact ⟨g, group, o, offer, rfl, fits⟩

/-- Of names without remarks all that fit are items. -/
theorem mem_itemsOf_plain (plain : ∀ c ∈ typed, c.toNat < 128) {k : ItemKind}
    {names : List String} :
    item ∈ itemsOf typed [⟨k, names.map .plain⟩] ↔
      ∃ name ∈ names, item = ⟨name, k, none⟩ ∧
        (lowerCaseAll typed).Sublist (lowerCaseAll name.toList) := by
  constructor
  · intro member
    obtain ⟨g, group, o, offered, rfl, fits⟩ := exists_fitting_offer plain member
    cases List.mem_singleton.mp group
    obtain ⟨name, known, rfl⟩ := List.mem_map.mp offered
    exact ⟨name, known, rfl, fits⟩
  · rintro ⟨name, known, rfl, fits⟩
    have ranked : Offer.plain name ∈ rankOffers typed (names.map .plain) :=
      (mem_rankOffers plain).mpr ⟨List.mem_map_of_mem known, fits⟩
    have made : (⟨name, k, none⟩ : CompletionItem) ∈ [(⟨k, names.map .plain⟩ : OfferGroup)].flatMap
        fun g => (rankOffers typed g.offers).map fun o => ⟨o.label, g.kind, o.detail⟩ :=
      List.mem_flatMap.mpr ⟨_, .head _, List.mem_map.mpr ⟨_, ranked, rfl⟩⟩
    obtain ⟨first, taken, same⟩ := exists_mem_firstPerLabel made
    obtain ⟨g, group, o, offered, rfl, -⟩ := exists_fitting_offer plain taken
    cases List.mem_singleton.mp group
    obtain ⟨name', -, rfl⟩ := List.mem_map.mp offered
    cases same
    exact taken

end Items

/-! ## Where items come from -/

/-- How an editor shows known names of a kind. -/
def NameKind.itemKind : NameKind → ItemKind
  | function => .function
  | property => .property
  | outputAttribute => .property
  | navigationDirection => .enumerationMember
  | returnOption => .enumerationMember
  | keywordLiteral => .keyword

/-- How an editor shows bindings of a kind. -/
def BindingKind.itemKind : BindingKind → ItemKind
  | constant => .constant
  | function => .function
  | variableName => .variableName
  | outputAttribute => .property

/-- What an item stands for at a caret in an environment: a name of the vocabulary, a binding, the
short name of a namespace, a local name behind the short name that was typed, a truth value or a
reserved word. -/
inductive Analysis.Explains (a : Analysis) (v : Vocabulary) (c : Caret) (env : Nat) :
    CompletionItem → Prop where
  | known (k : NameKind) {name : String} (member : name ∈ v.names k) :
    a.Explains v c env ⟨name, k.itemKind, if k = .function then v.signature? name else none⟩
  | bound (k : BindingKind) {b : Binding}
    (visible : b ∈ a.symbols.visibleBindings env 0 c.tokenIndex k) :
    a.Explains v c env ⟨b.name, k.itemKind,
      if b.declaredAt.file = 0 then none else a.rules.origin? b.declaredAt⟩
  | shortName {name : String} (member : name ∈ a.namespaces.shortNames) :
    a.Explains v c env ⟨name, .enumeration, none⟩
  | localName {shortName name : String}
    (typed : (a.rules.edited.tree.caretCursor c).typedShortName? = some shortName)
    (member : name ∈ a.namespaces.namesFor shortName) :
    a.Explains v c env ⟨name, .enumerationMember, some shortName⟩
  | truth {name : String} (member : name ∈ ["true", "false"]) :
    a.Explains v c env ⟨name, .keyword, none⟩
  | reserved {k : TokenKind} {word : String}
    (candidate : k ∈ (candidatesAt a.rules.edited.tree.tokens c.tokenIndex).kinds)
    (spelled : k.keywordText? = some word) : a.Explains v c env ⟨word, .keyword, none⟩

namespace Analysis

variable {a : Analysis} {v : Vocabulary} {c : Caret} {line column : Nat}

/-- The request of a caret. -/
def requestOf (a : Analysis) (v : Vocabulary) (line column : Nat) (c : Caret) : CompletionRequest :=
  { analysis := a
    vocabulary := v
    candidates := candidatesAt a.rules.edited.tree.tokens c.tokenIndex
    typed := c.typed
    shortName := (a.rules.edited.tree.caretCursor c).typedShortName?
    env := a.symbols.governingEnv 0 (a.rules.edited.tree.scopeAnchor line column)
    tokenIndex := c.tokenIndex }

theorem requestAt?_eq (a : Analysis) (line column : Nat) :
    a.requestAt? line column =
      (a.rules.edited.tree.caretAt? line column).map (a.requestOf .standard line column) := by
  unfold requestAt?
  dsimp only
  cases a.rules.edited.tree.caretAt? line column <;> rfl

/-- What could be inserted at a line and column, with a vocabulary. -/
def itemsAt (a : Analysis) (v : Vocabulary) (line column : Nat) : List CompletionItem :=
  match a.requestAt? line column with
  | some r => itemsOf r.typed { r with vocabulary := v }.groups
  | none => []

/-- An editor is given the items with the names that are always known. -/
theorem completions_eq (a : Analysis) (p : EditorPosition) :
    let position := positionOfEditor a.rules.edited.text p
    a.completions p = a.itemsAt .standard position.line position.column := by
  have same (line column : Nat) : (match a.requestAt? line column with
      | some r => itemsOf r.typed r.groups
      | none => []) = a.itemsAt .standard line column := by
    rw [itemsAt, requestAt?_eq]
    cases a.rules.edited.tree.caretAt? line column <;> rfl
  exact same _ _

theorem itemsAt_of_caret (resolved : a.rules.edited.tree.caretAt? line column = some c) :
    a.itemsAt v line column = itemsOf c.typed (a.requestOf v line column c).groups := by
  rw [itemsAt, requestAt?_eq, resolved]
  rfl

theorem itemsAt_eq_nil (unresolved : a.rules.edited.tree.caretAt? line column = none) :
    a.itemsAt v line column = [] := by
  rw [itemsAt, requestAt?_eq, unresolved]
  rfl

/-! ### Groups -/

/-- What is offered in a group stands for something. -/
def ExplainsGroup (a : Analysis) (v : Vocabulary) (c : Caret) (env : Nat) (g : OfferGroup) : Prop :=
  ∀ o ∈ g.offers, a.Explains v c env ⟨o.label, g.kind, o.detail⟩

section Groups

theorem explains_known {k : NameKind} (other : k ≠ .function) :
    let r := a.requestOf v line column c
    a.ExplainsGroup v c r.env ⟨k.itemKind, r.known k⟩ := by
  intro r o offered
  obtain ⟨name, member, rfl⟩ := List.mem_map.mp offered
  have item : a.Explains v c r.env
      ⟨name, k.itemKind, if k = .function then v.signature? name else none⟩ := .known k member
  rwa [if_neg other] at item

theorem explains_bound (k : BindingKind) :
    let r := a.requestOf v line column c
    a.ExplainsGroup v c r.env ⟨k.itemKind, r.bound k⟩ := by
  intro r o offered
  obtain ⟨b, visible, rfl⟩ := List.mem_map.mp offered
  exact .bound k visible

theorem explains_shortNames :
    let r := a.requestOf v line column c
    a.ExplainsGroup v c r.env r.shortNames := by
  intro r o offered
  obtain ⟨name, member, rfl⟩ := List.mem_map.mp offered
  exact .shortName member

theorem explains_qualified :
    let r := a.requestOf v line column c
    a.ExplainsGroup v c r.env r.qualified := by
  intro r
  unfold CompletionRequest.qualified
  split
  case h_1 p typed =>
    intro o offered
    obtain ⟨name, member, rfl⟩ := List.mem_map.mp offered
    exact .localName typed member
  case h_2 => exact explains_shortNames

theorem explains_functions :
    let r := a.requestOf v line column c
    a.ExplainsGroup v c r.env ⟨.function, r.knownFunctions⟩ := by
  intro r o offered
  obtain ⟨name, member, rfl⟩ := List.mem_map.mp offered
  exact .known .function member

theorem explains_keywords :
    let r := a.requestOf v line column c
    a.ExplainsGroup v c r.env r.keywords := by
  intro r o offered
  obtain ⟨word, spelled, rfl⟩ := List.mem_map.mp offered
  obtain ⟨k, candidate, spelling⟩ := List.mem_filterMap.mp spelled
  exact .reserved candidate spelling

theorem explains_truths (env : Nat) :
    a.ExplainsGroup v c env ⟨.keyword, [.plain "true", .plain "false"]⟩ := by
  intro o offered
  obtain rfl | rfl : o = .plain "true" ∨ o = .plain "false" := by simpa using offered
  · exact .truth (.head _)
  · exact .truth (.tail _ (.head _))

theorem explains_operands {g : OfferGroup} :
    let r := a.requestOf v line column c
    g ∈ r.operands → a.ExplainsGroup v c r.env g := by
  intro r member
  simp only [CompletionRequest.operands, List.cons_append, List.nil_append, List.mem_cons,
    List.mem_append, List.mem_ite_nil_left, List.not_mem_nil, or_false] at member
  rcases member with rfl | rfl | rfl | rfl | ⟨-, rfl⟩ | rfl
  · exact explains_bound .constant
  · exact explains_bound .variableName
  · exact explains_functions
  · exact explains_bound .function
  · exact explains_shortNames
  · exact explains_known (by decide)

/-- Every group holds what its items stand for. -/
theorem explains_groups {g : OfferGroup} :
    let r := a.requestOf v line column c
    g ∈ r.groups → a.ExplainsGroup v c r.env g := by
  intro r member
  unfold CompletionRequest.groups at member
  dsimp only at member
  split at member
  case isTrue =>
    cases List.mem_singleton.mp member
    exact explains_known (by decide)
  case isFalse =>
    simp only [List.mem_append, List.mem_ite_nil_right, List.mem_singleton] at member
    rcases member with ((((((⟨-, rfl⟩ | ⟨-, rfl⟩) | ⟨-, rfl⟩) | ⟨-, rfl⟩) | ⟨-, rfl⟩) | ⟨-, rfl⟩) |
      ⟨-, operand⟩) | ⟨-, rfl⟩
    · exact explains_truths _
    · exact explains_known (by decide)
    · exact explains_known (by decide)
    · have known : a.ExplainsGroup v c r.env ⟨.property, r.known .outputAttribute⟩ :=
        explains_known (by decide)
      exact fun o offered => (List.mem_append.mp offered).elim (known o)
        (explains_bound .outputAttribute o)
    · exact explains_bound .variableName
    · exact explains_qualified
    · exact explains_operands operand
    · exact explains_keywords

end Groups

end Analysis

/-- **Lists of completions are free of doubles and fit what has been typed.** In every analysed
text, with every vocabulary and all configured namespaces, and at every line and column, no label
stands in the list twice, the characters typed of the name under the caret occur in every label in
their order, in whatever case, and every item is explained. If a property name may stand at the
caret, the token before the one asked for is a point, and the list has just the property names that
fit what has been typed. -/
theorem completions_are_distinct_and_fit (i : AnalysisInput) (v : Vocabulary) (line column : Nat) :
    let a := Analysis.ofInput i
    let tree := a.rules.edited.tree
    let typed := typedAt tree.tokens line column
    let env := a.symbols.governingEnv 0 (tree.scopeAnchor line column)
    let items := a.itemsAt v line column
    (items.map (·.label)).Nodup ∧
    (∀ item ∈ items, (lowerCaseAll typed).Sublist (lowerCaseAll item.label.toList) ∧
      ∃ c, tree.caretAt? line column = some c ∧ a.Explains v c env item) ∧
    ∀ c, tree.caretAt? line column = some c →
      .propertyRef ∈ (candidatesAt tree.tokens c.tokenIndex).rules →
      PointBefore (visibleTokens tree.tokens) (caretOf tree.tokens c.tokenIndex) ∧
      ∀ item, item ∈ items ↔ ∃ name ∈ v.names .property, item = ⟨name, .property, none⟩ ∧
        (lowerCaseAll typed).Sublist (lowerCaseAll name.toList) := by
  intro a tree typed env items
  have plain : ∀ c ∈ typed, c.toNat < 128 := typedAt_plain i.edited
  cases resolved : tree.caretAt? line column with
  | none =>
    have nothing : items = [] := Analysis.itemsAt_eq_nil resolved
    simp [nothing]
  | some c =>
    have same : c.typed = typed := typed_eq_typedAt i.edited resolved
    have items_eq : items = itemsOf typed (a.requestOf v line column c).groups :=
      same ▸ Analysis.itemsAt_of_caret resolved
    rw [items_eq]
    refine ⟨nodup_labels_firstPerLabel _, fun item member => ?_, ?_⟩
    · obtain ⟨g, group, o, offered, rfl, fits⟩ := exists_fitting_offer plain member
      exact ⟨fits, c, rfl, Analysis.explains_groups group o offered⟩
    · rintro _ ⟨⟩ candidate
      have only : (a.requestOf v line column c).groups =
          [⟨.property, (v.names .property).map .plain⟩] :=
        if_pos (List.contains_iff_mem.mpr candidate)
      rw [only]
      exact ⟨point_before_propertyRef (edited_endsOnce i.edited) candidate,
        fun item => mem_itemsOf_plain plain⟩

/-- A property of which two letters have been typed. -/
def halfProperty : SourceText := ⟨"", "output o 1.NA".toList⟩

/-- Of two known properties the one that fits is offered, and nothing besides. -/
theorem property_that_fits_is_offered :
    let a := Analysis.ofInput ⟨halfProperty, [], .empty⟩
    let v := Vocabulary.empty.addAll .property ["period", "name"]
    ∀ item, item ∈ a.itemsAt v 1 14 ↔ item = ⟨"name", .property, none⟩ := by
  intro a v item
  have asked : (a.rules.edited.tree.caretAt? 1 14).any (fun c =>
      (candidatesAt a.rules.edited.tree.tokens c.tokenIndex).rules.contains .propertyRef) =
        true := by decide +kernel
  have typed : typedAt a.rules.edited.tree.tokens 1 14 = ['N', 'A'] := by decide +kernel
  obtain ⟨-, -, property⟩ := completions_are_distinct_and_fit ⟨halfProperty, [], .empty⟩ v 1 14
  cases resolved : a.rules.edited.tree.caretAt? 1 14 with
  | none => simp [resolved] at asked
  | some c =>
    rw [resolved] at asked
    rw [(property c resolved (List.contains_iff_mem.mp asked)).2 item, typed]
    have names : v.names .property = ["period", "name"] := by decide +kernel
    have fits : isSubsequenceOfText ['N', 'A'] "name".toList = true := by decide +kernel
    have misfits : isSubsequenceOfText ['N', 'A'] "period".toList ≠ true := by decide +kernel
    rw [names]
    constructor
    · rintro ⟨name, known, rfl, fit⟩
      obtain rfl | rfl : name = "period" ∨ name = "name" := by simpa using known
      · exact absurd (isSubsequenceOfText_iff.mpr fit) misfits
      · rfl
    · rintro rfl
      exact ⟨"name", by simp, rfl, isSubsequenceOfText_iff.mp fits⟩

end XuleLang
