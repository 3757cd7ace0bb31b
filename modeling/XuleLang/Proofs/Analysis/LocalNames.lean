import XuleLang.Proofs.Analysis.Completion
import XuleLang.Proofs.Analysis.Definition
import XuleLang.Proofs.Parser.NamePrediction
import XuleLang.Proofs.Scope.Renumbering

/-!
Where local names are offered.

Behind the colon of a qualified name the local names of its namespace are offered, and neither short
names nor reserved words. Whether a caret is there is told by two things that need not speak of the
same name: the leaf that the caret belongs to, which in a gap is the one before it, and the rules
that could begin at the token behind the caret. Behind a complete name, where another value may
follow it, the one belongs to the name, and the other is about the value.
-/

namespace XuleLang

namespace CompletionRequest

variable {r : CompletionRequest} {p : String} {g : OfferGroup}

/-- Local names are offered of the namespace with the short name, as behind the colon of a name. -/
structure OffersLocalNames (r : CompletionRequest) (p : String) : Prop where
  noProperty : r.allows .propertyRef = false
  qualified : r.allows .qualifiedName = true
  shortName : r.shortName = some p

instance : Decidable (r.OffersLocalNames p) :=
  decidable_of_iff
    (r.allows .propertyRef = false ∧ r.allows .qualifiedName = true ∧ r.shortName = some p)
    ⟨fun ⟨noProperty, qualified, shortName⟩ => ⟨noProperty, qualified, shortName⟩,
      fun offers => ⟨offers.noProperty, offers.qualified, offers.shortName⟩⟩

/-- Where local names are offered, short names are not, and of the reserved words only those that
are values. -/
theorem OffersLocalNames.kind_of_mem_groups (offers : r.OffersLocalNames p)
    (member : g ∈ r.groups) : g.kind ≠ .enumeration ∧ (g.kind = .keyword →
      g.offers = [.plain "true", .plain "false"] ∨ g.offers = r.known .keywordLiteral) := by
  obtain ⟨noProperty, qualified, shortName⟩ := offers
  have special : r.isSpecial = true := by simp [isSpecial, qualified, shortName]
  have named : r.qualified =
      ⟨.enumerationMember, (r.analysis.namespaces.namesFor p).map fun n => ⟨n, some p⟩⟩ := by
    simp only [CompletionRequest.qualified, shortName]
  unfold groups at member
  simp only [noProperty, special, qualified, named, operands, Bool.false_eq_true, if_false, if_true,
    Bool.not_true, List.append_nil, List.mem_append, List.mem_ite_nil_right, List.mem_cons,
    List.not_mem_nil, or_false] at member
  rcases member with ((((((⟨-, rfl⟩ | ⟨-, rfl⟩) | ⟨-, rfl⟩) | ⟨-, rfl⟩) | ⟨-, rfl⟩) | rfl) |
    ⟨-, (rfl | rfl | rfl | rfl) | rfl⟩)
  case inl.inl.inl.inl.inl.inl => exact ⟨by simp, fun _ => .inl rfl⟩
  case inr.inr => exact ⟨by simp, fun _ => .inr rfl⟩
  all_goals exact ⟨by simp, by simp⟩

theorem OffersLocalNames.localNames_mem (offers : r.OffersLocalNames p) :
    ⟨.enumerationMember, (r.analysis.namespaces.namesFor p).map fun n => ⟨n, some p⟩⟩ ∈
      r.groups := by
  obtain ⟨noProperty, qualified, shortName⟩ := offers
  simp [groups, noProperty, qualified, CompletionRequest.qualified, shortName]

end CompletionRequest

/-! ## Qualified names under carets -/

/-- A qualified name with a colon. The short name is what stands first in it. -/
structure Tree.IsQualified (q : Tree) (colon : Leaf) (p : String) : Prop where
  rule : q.rule? = some .qualifiedName
  colon : q.childOfKind? (.punctuator .colon) = some colon
  shortName : q.firstLeaf?.map (·.token.text) = some p

/-- The short name is that of a qualified name whose colon is no later than the leaf. -/
theorem Cursor.qualified_of_typedShortName? {c : Cursor} {p : String}
    (typed : c.typedShortName? = some p) :
    ∃ q colon, c.parent? = some q ∧ q.IsQualified colon p ∧ colon.id ≤ c.tree.id := by
  obtain ⟨q, parent, typed⟩ := Option.bind_eq_some_iff.mp typed
  obtain ⟨⟨⟩, isName, typed⟩ := Option.bind_eq_some_iff.mp typed
  obtain ⟨colon, child, typed⟩ := Option.bind_eq_some_iff.mp typed
  obtain ⟨⟨⟩, behind, typed⟩ := Option.bind_eq_some_iff.mp typed
  obtain ⟨first, begins, same⟩ := Option.bind_eq_some_iff.mp typed
  have rule : q.rule? = some .qualifiedName := by
    by_contra other
    simp [guard, other] at isName
  have order : colon.id ≤ c.tree.id := by
    by_contra before
    simp [guard, before] at behind
  refine ⟨q, colon, parent, ⟨rule, child, ?_⟩, order⟩
  rw [begins, Option.map_some]
  exact same

namespace RuleFile.IsRead

variable {f : RuleFile} {c : Caret} {p : String} {line column : Nat}

/-- The leaf that a caret belongs to is a child of the qualified name. -/
theorem qualified_of_caret (read : f.IsRead)
    (resolved : f.tree.caretAt? line column = some c)
    (typed : (f.tree.caretCursor c).typedShortName? = some p) :
    ∃ l q colon, c.leaf = some l ∧ q ∈ f.tree.root.subtrees ∧ q.IsQualified colon p ∧
      .leaf l ∈ q.children ∧ colon.id ≤ l.id := by
  obtain ⟨q, colon, parent, isName, order⟩ := Cursor.qualified_of_typedShortName? typed
  unfold SyntaxTree.caretCursor at parent order
  cases leaf : c.leaf with
  | none =>
    rw [leaf] at parent
    cases parent
  | some l =>
    have member := SyntaxTree.mem_leaves_of_caretAt? resolved leaf
    obtain ⟨d, there, same, found⟩ := read.cursor?_leaf member
    rw [leaf, Option.bind_some, found, Option.getD_some] at parent order
    rcases Tree.exists_parent_of_mem_cursorsUnder _ d there with rfl | ⟨e, above, u, child, rfl⟩
    · cases parent
    · obtain rfl : e.tree = q := Option.some.inj parent
      rw [same] at order
      exact ⟨l, e.tree, colon, rfl, Tree.mem_subtrees_of_mem_cursors above, isName,
        (show u = .leaf l from same) ▸ child, order⟩

end RuleFile.IsRead

section Places

variable {text : List Char} {o : Nat} {s : TokenStream} {c : Caret} {l colon : Leaf} {q : Tree}

/-- The caret stands behind the token and before all those that follow it, and touches none. -/
def Token.GapBehind (t : Token) (ts : List Token) (o : Nat) : Prop :=
  t.span.stop.offset < o ∧ ∀ u ∈ ts, t.index < u.index → o < u.span.start.offset

instance (t : Token) (ts : List Token) (o : Nat) : Decidable (t.GapBehind ts o) :=
  inferInstanceAs (Decidable (_ ∧ _))

/-- A caret touches its leaf, or lies in the gap behind it. -/
theorem touched_or_gapBehind (read : tokenizeWithSeams text = .ok s) (inside : o ≤ text.length)
    (resolved : (parse s.tokens).tree.caretAt? (positionAt text o).line (positionAt text o).column =
      some c) (leaf : c.leaf = some l) :
    l.token.touchedAt o = true ∨ l.token.GapBehind (visibleTokens s.tokens) o ∧
      c.tokenIndex = min (l.token.index + 1) (s.tokens.length - 1) := by
  have listed := listed_of_read read
  obtain ⟨-, -, ends⟩ := visible_of_tokenizeWithSeams read
  rw [caret_of_caretAt? resolved, hit?_parse read inside, hitAmongLeaves?] at leaf ⊢
  rw [← leaves_parse ends] at listed ⊢
  cases touched : (parse s.tokens).tree.root.leaves.find? (·.token.touchedAt o) with
  | some k =>
    rw [touched] at leaf
    obtain rfl : k = l := Option.some.inj leaf
    have reached := List.find?_some touched
    exact .inl reached
  | none =>
    rw [touched] at leaf
    cases behind : (parse s.tokens).tree.root.leaves.reverse.find?
        (·.token.span.stop.offset < o) with
    | none =>
      rw [behind] at leaf
      cases leaf
    | some k =>
      rw [behind] at leaf
      obtain rfl : k = l := Option.some.inj leaf
      have passed := List.find?_some behind
      refine .inr ⟨⟨by simpa using passed, fun u member later => ?_⟩, rfl⟩
      have last : ((parse s.tokens).tree.root.leaves.map (·.token)).reverse.find?
          (·.span.stop.offset < o) = some k.token := by
        rw [← List.map_reverse, List.find?_map]
        simp [behind]
      obtain ⟨m, place, rfl⟩ := List.mem_map.mp member
      have apart := List.find?_eq_none.mp touched m place
      have notBehind : ¬m.token.span.stop.offset < o := fun stops => by
        have := listed.le_index_of_find?_reverse last member (decide_eq_true stops)
        omega
      simp only [Token.touchedAt, Bool.not_eq_true, Bool.and_eq_false_iff,
        decide_eq_false_iff_not] at apart
      omega

/-- In a gap candidates are asked for at the token that follows. -/
theorem caretOf_behind {tokens : List Token} {t u : Token} {m last : Nat}
    (listed : Listed text (visibleTokens tokens))
    (bounded : ∀ u ∈ visibleTokens tokens, u.index ≤ last)
    (here : (visibleTokens tokens)[m]? = some t) (member : u ∈ visibleTokens tokens)
    (later : t.index < u.index) : caretOf tokens (min (t.index + 1) last) = m + 1 := by
  have number : min (t.index + 1) last = t.index + 1 := by
    have := bounded u member
    omega
  obtain ⟨inside, rfl⟩ := List.getElem?_eq_some_iff.mp here
  obtain ⟨n, within, rfl⟩ := List.getElem_of_mem member
  have behind := (lt_iff_place_lt listed.numbers inside within).mp later
  have found : (visibleTokens tokens).findIdx?
      (fun v => decide ((visibleTokens tokens)[m].index + 1 ≤ v.index)) = some (m + 1) := by
    refine List.findIdx?_eq_some_iff_getElem.mpr ⟨by omega, ?_, fun j before => ?_⟩
    · exact decide_eq_true ((lt_iff_place_lt listed.numbers inside _).mpr (Nat.lt_succ_self m))
    · simp only [decide_eq_true_eq]
      intro after
      have := (lt_iff_place_lt listed.numbers inside _).mp after
      omega
  rw [caretOf, number]
  simp only [found, Option.getD_some]

/-- A token with another one behind it is not the end, and has one place. -/
theorem isNumbered_of_later {ts : List Token} {t u : Token} {m : Nat} (listed : Listed text ts)
    (ends : EndsOnce ts) (here : ts[m]? = some t) (member : u ∈ ts) (later : t.index < u.index) :
    Parser.IsNumbered ts m t := by
  obtain ⟨inside, rfl⟩ := List.getElem?_eq_some_iff.mp here
  constructor
  · intro n there
    obtain ⟨within, same⟩ := List.getElem?_eq_some_iff.mp there
    have distinct : ts.Nodup := listed.numbers.imp fun less equal =>
      absurd (congrArg Token.index equal) (Nat.ne_of_lt less)
    exact distinct.getElem_inj_iff.mp same
  · intro isEnd
    obtain ⟨front, last, rfl, -, others⟩ := ends
    have ended : (front ++ [last])[m] = last := by
      rcases List.mem_append.mp (List.getElem_mem inside) with early | final
      · exact absurd isEnd (others _ early)
      · exact List.mem_singleton.mp final
    rw [ended] at later
    rcases List.mem_append.mp member with early | final
    · have := (List.pairwise_append.mp listed.numbers).2.2 u early last (.head _)
      omega
    · rw [List.mem_singleton.mp final] at later
      exact absurd later (Nat.lt_irrefl _)

/-- Leaves have their numbers in the order of their tokens. -/
theorem index_le_of_id_le (read : tokenizeWithSeams text = .ok s)
    (first : colon ∈ (parse s.tokens).tree.root.leaves)
    (second : l ∈ (parse s.tokens).tree.root.leaves) (order : colon.id ≤ l.id) :
    colon.token.index ≤ l.token.index := by
  obtain ⟨-, -, ends⟩ := visible_of_tokenizeWithSeams read
  have numbers := (listed_of_read read).numbers
  rw [← leaves_parse ends, List.pairwise_map] at numbers
  have ordered := (parse_followsText arranges_withSeams
    (ofSteps_of_tokenizeWithSeams read)).leaves.imp And.left
  obtain ⟨m, inside, rfl⟩ := List.getElem_of_mem first
  obtain ⟨n, within, rfl⟩ := List.getElem_of_mem second
  refine Nat.le_of_not_lt fun before => Nat.not_lt.mpr order ?_
  have earlier := (lt_iff_place_lt numbers within inside).mp before
  exact (lt_iff_place_lt ordered within inside).mpr earlier

/-- A leaf of a node with a greater number than its colon stands behind that. -/
theorem behindColon_of_id_lt (ordered : q.leaves.Pairwise fun k l => k.id < l.id)
    (rule : q.rule? = some .qualifiedName)
    (found : q.childOfKind? (.punctuator .colon) = some colon) (child : .leaf l ∈ q.children)
    (behind : colon.id < l.id) : BehindColon l.token q.children.reverse := by
  obtain ⟨before, after, children⟩ := List.append_of_mem child
  obtain ⟨member, kind⟩ := Tree.mem_of_childOfKind? found
  refine ⟨l, before.reverse, ⟨after.reverse, by simp [children]⟩, rfl, .leaf colon, ?_,
    congrArg some kind⟩
  rw [Tree.leaves_of_rule? rule, children, Tree.leavesOfAll_append, Tree.leavesOfAll] at ordered
  obtain ⟨-, later, -⟩ := List.pairwise_append.mp ordered
  rw [children] at member
  rcases List.mem_append.mp member with early | late
  · exact List.mem_reverse.mpr early
  · rcases List.mem_cons.mp late with same | late
    · cases same
      exact absurd behind (Nat.lt_irrefl _)
    · have := (List.pairwise_append.mp later).2.2 l (.head _) colon
        (Tree.mem_leavesOfAll late (.head _))
      omega

/-- Where a caret belongs to a leaf behind the colon of a qualified name, and a qualified name is a
candidate. -/
theorem place_of_qualified_candidate (read : tokenizeWithSeams text = .ok s)
    (inside : o ≤ text.length)
    (resolved : (parse s.tokens).tree.caretAt? (positionAt text o).line (positionAt text o).column =
      some c) (leaf : c.leaf = some l) (below : q ∈ (parse s.tokens).tree.root.subtrees)
    (rule : q.rule? = some .qualifiedName)
    (found : q.childOfKind? (.punctuator .colon) = some colon) (child : .leaf l ∈ q.children)
    (order : colon.id ≤ l.id)
    (candidate : .qualifiedName ∈ (candidatesAt s.tokens c.tokenIndex).rules) :
    l.token.touchedAt o = true ∨ colon.token.GapBehind (visibleTokens s.tokens) o ∨
      colon.token.index < l.token.index ∧ l.token.GapBehind (visibleTokens s.tokens) o ∧
        ∃ r ∈ (candidatesAt s.tokens c.tokenIndex).rules, r.juxtaposes = true := by
  have listed := listed_of_read read
  obtain ⟨indices, -, ends⟩ := visible_of_tokenizeWithSeams read
  have ordered := (parse_followsText arranges_withSeams
    (ofSteps_of_tokenizeWithSeams read)).leaves.imp And.left
  have ofName : q.leaves.Sublist (parse s.tokens).tree.root.leaves := Tree.leaves_sublist below
  have token := ofName.subset (Tree.mem_leaves_of_mem_children child)
  have colonToken := ofName.subset (Tree.mem_leaves_of_childOfKind? found)
  have visible (k : Leaf) (member : k ∈ (parse s.tokens).tree.root.leaves) :
      k.token ∈ visibleTokens s.tokens := leaves_parse ends ▸ List.mem_map_of_mem member
  rcases touched_or_gapBehind read inside resolved leaf with touched | ⟨gap, number⟩
  · exact .inl touched
  have upTo := index_le_of_id_le read colonToken token order
  rcases Nat.lt_or_eq_of_le upTo with behind | same
  case inr =>
    rw [listed.eq_of_index (visible _ colonToken) (visible _ token) same]
    exact .inr (.inl gap)
  refine .inr (.inr ⟨behind, gap, ?_⟩)
  have apart : colon.id < l.id := by
    refine Nat.lt_of_le_of_ne order fun same => ?_
    have back := index_le_of_id_le read token colonToken (Nat.le_of_eq same.symm)
    omega
  obtain ⟨m, within, here⟩ := List.getElem_of_mem (visible _ token)
  have there : (visibleTokens s.tokens)[m]? = some l.token := by
    rw [List.getElem?_eq_getElem within, here]
  have started := listed.start_le_stop (visible _ token)
  obtain ⟨last, member, later⟩ := listed.exists_index_lt (visible _ token)
    (Nat.lt_of_le_of_lt started (Nat.lt_of_lt_of_le gap.1 inside))
  have bounded : ∀ u ∈ visibleTokens s.tokens, u.index ≤ s.tokens.length - 1 := fun u member => by
    have := indices.index_lt (List.mem_filter.mp member).1
    omega
  have caret := caretOf_behind listed bounded there member later
  rw [← number] at caret
  exact exists_juxtaposing_candidate ends (isNumbered_of_later listed ends there member later) caret
    below rule (behindColon_of_id_lt (ordered.sublist ofName) rule found child apart) candidate

end Places

/-- **Local names are offered in their qualified name, or behind it among juxtaposed values.** At
every place of every analysed text, if local names are offered of a namespace, there is a qualified
name with its short name. The caret touches the colon or a later token of the name, or it lies in
the gap behind the colon. Or else it lies in the gap behind a token after the colon; then a
conditional, a loop or a fact set is a candidate, too. -/
theorem local_names_are_offered_in_or_behind_their_name (i : AnalysisInput) (place : EditorPosition)
    (r : CompletionRequest) (p : String) :
    let a := Analysis.ofInput i
    let tree := a.rules.edited.tree
    let position := positionOfEditor a.rules.edited.text place
    let o := offsetAt a.rules.edited.text place
    a.requestAt? position.line position.column = some r → r.OffersLocalNames p →
    ∃ q ∈ tree.root.subtrees, ∃ colon, q.IsQualified colon p ∧
      ((∃ l ∈ q.leaves, colon.token.index ≤ l.token.index ∧ l.token.touchedAt o = true) ∨
        colon.token.GapBehind (visibleTokens tree.tokens) o ∨
        ∃ l ∈ q.leaves, colon.token.index < l.token.index ∧
          l.token.GapBehind (visibleTokens tree.tokens) o ∧
          ∃ g : Rule, g.juxtaposes = true ∧ r.allows g = true) := by
  intro a tree position o request offers
  have read : a.rules.edited.IsRead := RuleFile.edited_isRead i.edited
  rw [Analysis.requestAt?_eq] at request
  obtain ⟨c, resolved, rfl⟩ := Option.map_eq_some_iff.mp request
  obtain ⟨l, q, colon, leaf, below, isName, child, order⟩ :=
    read.qualified_of_caret resolved offers.shortName
  have below : q ∈ tree.root.subtrees := below
  have ofName : q.leaves.Sublist tree.root.leaves := Tree.leaves_sublist below
  have token : l ∈ q.leaves := Tree.mem_leaves_of_mem_children child
  have colonToken : colon ∈ q.leaves := Tree.mem_leaves_of_childOfKind? isName.colon
  have isColon : colon.token.kind = .punctuator .colon := (Tree.mem_of_childOfKind? isName.colon).2
  refine ⟨q, below, colon, isName, ?_⟩
  rcases edited_tree_cases i.edited with ⟨stream, reads, made⟩ | empty
  case inr =>
    -- In the tree of an empty file there is no colon.
    rw [token_of_mem_leaves_empty (empty ▸ ofName.subset colonToken)] at isColon
    cases isColon
  case inl =>
    have text : a.rules.edited.text = i.edited.text := RuleFile.edited_text i.edited
    have inside : o ≤ i.edited.text.length := text ▸ offsetAt_le _ _
    have candidate : .qualifiedName ∈ (candidatesAt tree.tokens c.tokenIndex).rules :=
      List.contains_iff_mem.mp offers.qualified
    have resolved : tree.caretAt? (positionAt i.edited.text o).line
        (positionAt i.edited.text o).column = some c := by
      have same : position = positionAt a.rules.edited.text o := positionOfEditor_eq _ _
      exact text ▸ same ▸ resolved
    have file : tree = (parse stream.tokens).tree := made
    rw [file] at resolved below candidate ofName ⊢
    rcases place_of_qualified_candidate reads inside resolved leaf below isName.rule isName.colon
      child order candidate with touched | gap | ⟨behind, gap, g, allowed, juxtaposes⟩
    · have upTo := index_le_of_id_le reads (ofName.subset colonToken) (ofName.subset token) order
      exact .inl ⟨l, token, upTo, touched⟩
    · exact .inr (.inl gap)
    · have allowed : g ∈ (candidatesAt tree.tokens c.tokenIndex).rules := file ▸ allowed
      exact .inr (.inr ⟨l, token, behind, gap, g, juxtaposes, List.contains_iff_mem.mpr allowed⟩)

/-- A short name with a local name known under it. -/
def namespaceA : NamespaceSet := ⟨[⟨"a", "u", ["x"]⟩]⟩

/-- Behind a local name that is being typed the caret touches it. -/
theorem typed_local_name_is_touched :
    let a := Analysis.ofInput ⟨⟨"", "output o a:b".toList⟩, [], namespaceA⟩
    ∃ r, a.requestAt? 1 13 = some r ∧ r.OffersLocalNames "a" ∧
      ∃ q ∈ a.rules.edited.tree.root.subtrees, ∃ colon, q.IsQualified colon "a" ∧
        ∃ l ∈ q.leaves, colon.token.index ≤ l.token.index ∧ l.token.touchedAt 12 = true := by
  intro a
  have position : positionOfEditor a.rules.edited.text ⟨0, 12⟩ = ⟨1, 13, 12⟩ := by decide +kernel
  have offset : offsetAt a.rules.edited.text ⟨0, 12⟩ = 12 := by decide +kernel
  obtain ⟨r, request, offers⟩ : ∃ r ∈ a.requestAt? 1 13, r.OffersLocalNames "a" := by decide +kernel
  have noGap : ∀ l ∈ a.rules.edited.tree.root.leaves,
      ¬l.token.GapBehind (visibleTokens a.rules.edited.tree.tokens) 12 := by decide +kernel
  obtain ⟨q, below, colon, isName, places⟩ := local_names_are_offered_in_or_behind_their_name
    ⟨⟨"", "output o a:b".toList⟩, [], namespaceA⟩ ⟨0, 12⟩ r "a"
    (by rw [position]; exact request) offers
  rw [offset] at places
  have ofName : q.leaves ⊆ a.rules.edited.tree.root.leaves := (Tree.leaves_sublist below).subset
  refine ⟨r, request, offers, q, below, colon, isName, ?_⟩
  rcases places with touched | gap | ⟨l, token, -, gap, -⟩
  · exact touched
  · exact absurd gap (noGap colon (ofName (Tree.mem_leaves_of_childOfKind? isName.colon)))
  · exact absurd gap (noGap l (ofName token))

/-- A condition that is a whole qualified name, and behind two blanks the value. -/
def conditionAndValue : SourceText := ⟨"", "output o if a:b  1 else 2".toList⟩

/-- Between the condition and the value, where the caret touches nothing and the name is complete,
local names are offered as if it went on. -/
theorem local_names_are_offered_behind_a_complete_name :
    let a := Analysis.ofInput ⟨conditionAndValue, [], namespaceA⟩
    let tree := a.rules.edited.tree
    (∃ r, a.requestAt? 1 17 = some r ∧ r.OffersLocalNames "a") ∧
    (⟨"x", .enumerationMember, some "a"⟩ : CompletionItem) ∈ a.completions ⟨0, 16⟩ ∧
    (∀ l ∈ tree.root.leaves, l.token.touchedAt 16 = false) ∧
    ¬∃ q ∈ tree.root.subtrees, ∃ colon, q.IsQualified colon "a" ∧
      ((∃ l ∈ q.leaves, colon.token.index ≤ l.token.index ∧ l.token.touchedAt 16 = true) ∨
        colon.token.GapBehind (visibleTokens tree.tokens) 16) := by
  intro a tree
  have request : ∃ r ∈ a.requestAt? 1 17, r.OffersLocalNames "a" := by decide +kernel
  have offered : (⟨"x", .enumerationMember, some "a"⟩ : CompletionItem) ∈ a.completions ⟨0, 16⟩ :=
    mem_completions_of_first 4 (by decide +kernel)
  have untouched : ∀ l ∈ tree.root.leaves, l.token.touchedAt 16 = false := by decide +kernel
  have passed : ∀ l ∈ tree.root.leaves, l.token.kind = .punctuator .colon →
      ¬l.token.GapBehind (visibleTokens tree.tokens) 16 := by decide +kernel
  refine ⟨request, offered, untouched, ?_⟩
  rintro ⟨q, below, colon, isName, ⟨l, token, -, touched⟩ | gap⟩
  · have ofName := (Tree.leaves_sublist below).subset token
    simp [untouched l ofName] at touched
  · obtain ⟨child, kind⟩ := Tree.mem_of_childOfKind? isName.colon
    have ofName := (Tree.leaves_sublist below).subset (Tree.mem_leaves_of_mem_children child)
    exact passed colon ofName kind gap

end XuleLang
