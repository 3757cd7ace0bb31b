import XuleLang.Proofs.Parser.Construction
import XuleLang.Proofs.Parser.Lossless

/-!
The arena of a text is well formed.

Leaves and nodes are told by their numbers. Those are given in the order in which leaves and nodes
are made, so that the numbers of leaves ascend in the order of the text, while a node around an
operand has a greater number than the operand. All numbers below that of leaves and nodes are
given, each once. A node covers the text from its first leaf to its last, and what its children
cover is in order and apart. The root covers the whole text.

What of this is about the text is shown of the tree that the parser builds
(`SyntaxTree.FollowsText`). What is about links is so of every arena that holds a tree, and the
arena that the parser's actions make holds the tree of the text. So the links that it stores are
those of a tree, and every walk along them ends (`Arena.IsWellFormed`).
-/

namespace XuleLang

variable {text : List Char} {tokens ts : List Token} {s : TokenStream}

/-! ## Leaves -/

/-- Leaves come behind those that are there, with greater numbers. -/
theorem Grows.leafIds {a b : Growth} (grows : Grows g a b) : ∃ made : List Leaf,
    Tree.leavesOfAll b.trees.reverse = Tree.leavesOfAll a.trees.reverse ++ made ∧
    (made.map (·.id)).Pairwise (· < ·) ∧ ∀ l ∈ made, a.nextId ≤ l.id ∧ l.id < b.nextId := by
  induction grows with
  | still a => exact ⟨[], by simp⟩
  | next first second ihFirst ihSecond =>
    obtain ⟨early, leaves, ordered, bounds⟩ := ihFirst
    obtain ⟨late, leaves', ordered', bounds'⟩ := ihSecond
    have up := first.ids.1
    have up' := second.ids.1
    refine ⟨early ++ late, by rw [leaves', leaves, List.append_assoc], ?_, fun l member => ?_⟩
    · rw [List.map_append, List.pairwise_append]
      refine ⟨ordered, ordered', ?_⟩
      simp only [List.mem_map]
      rintro _ ⟨l, here, rfl⟩ _ ⟨k, there, rfl⟩
      exact Nat.lt_of_lt_of_le (bounds l here).2 (bounds' k there).1
    · rcases List.mem_append.mp member with here | there
      · exact ⟨(bounds l here).1, Nat.lt_of_lt_of_le (bounds l here).2 up'⟩
      · exact ⟨Nat.le_trans up (bounds' l there).1, (bounds' l there).2⟩
  | leaf inside rest n ts =>
    rename_i t
    exact ⟨[⟨n, t⟩], by simp [Tree.leavesOfAll_append, Tree.leaves]⟩
  | node admitted ts body ih =>
    obtain ⟨made, leaves, ordered, bounds⟩ := ih
    refine ⟨made, ?_, ordered, fun l member => ?_⟩
    · simpa [Tree.leavesOfAll_append, Tree.leaves, Tree.ofChildren, Tree.leavesOfAll] using leaves
    · exact ⟨Nat.le_of_succ_le (bounds l member).1, (bounds l member).2⟩
  | around wraps deep ts body ih =>
    obtain ⟨made, leaves, ordered, bounds⟩ := ih
    refine ⟨made, ?_, ordered, fun l member => ?_⟩
    · simpa [Tree.leavesOfAll_append, Tree.leaves, Tree.ofChildren, Tree.leavesOfAll] using leaves
    · exact ⟨Nat.le_of_succ_le (bounds l member).1, (bounds l member).2⟩

/-- What is below a tree that knows its spans knows them. -/
theorem Tree.IsSpanned.subtrees {t : Tree} (spanned : t.IsSpanned) :
    ∀ u ∈ t.subtrees, u.IsSpanned := by
  refine of_mem_subtrees (fun u known c child => ?_) t spanned
  cases known with
  | leaf => cases child
  | node parts => exact parts c child

/-! ## Spans -/

/-- From the start of the first of some tokens to the end of the last. -/
def Span.ofTokens? (ts : List Token) : Option Span :=
  ts.head?.bind fun first => ts.getLast?.map fun last => ⟨first.span.start, last.span.stop⟩

/-- Tokens of a text, one behind the other. -/
structure InOrder (text : List Char) (ts : List Token) : Prop where
  place : ∀ t ∈ ts, t.span.IsIn text
  apart : ts.Pairwise fun a b => a.span.stop.offset ≤ b.span.start.offset

theorem InOrder.of_sublist {us : List Token} (inOrder : InOrder text ts) (fewer : us.Sublist ts) :
    InOrder text us :=
  { place := fun t member => inOrder.place t (fewer.subset member)
    apart := inOrder.apart.sublist fewer }

theorem Follow.inOrder_text (follow : Follow text ts) : InOrder text ts :=
  { place := fun t member => (follow.piece t member).span.toIsIn, apart := follow.inOrder }

/-- No token starts before the first one, and none stops behind the last. -/
theorem InOrder.bounds {first last : Token} (inOrder : InOrder text ts)
    (head : ts.head? = some first) (tail : ts.getLast? = some last) {t : Token} (member : t ∈ ts) :
    first.span.start.offset ≤ t.span.start.offset ∧
      t.span.stop.offset ≤ last.span.stop.offset := by
  constructor
  · obtain ⟨rest, rfl⟩ := List.head?_eq_some_iff.mp head
    rcases List.mem_cons.mp member with rfl | later
    · exact Nat.le_refl _
    · exact Nat.le_trans (inOrder.place first (.head _)).ordered
        (List.rel_of_pairwise_cons inOrder.apart later)
  · obtain ⟨front, rfl⟩ := List.getLast?_eq_some_iff.mp tail
    rcases List.mem_append.mp member with early | here
    · have apart := (List.pairwise_append.mp inOrder.apart).2.2 t early last (.head _)
      exact Nat.le_trans apart (inOrder.place last (by simp)).ordered
    · rw [List.mem_singleton.mp here]

/-- The hull of tokens that follow each other runs from the first to the last. -/
theorem Span.IsHull.eq_ofTokens? {s : Span} (hull : s.IsHull text ts) (inOrder : InOrder text ts) :
    some s = Span.ofTokens? ts := by
  obtain ⟨t, there, atStart⟩ := hull.first
  obtain ⟨u, there', atStop⟩ := hull.last
  obtain ⟨first, head⟩ : ∃ first, ts.head? = some first :=
    Option.isSome_iff_exists.mp (List.isSome_head?.mpr (List.ne_nil_of_mem there))
  obtain ⟨last, tail⟩ : ∃ last, ts.getLast? = some last :=
    ⟨_, List.getLast?_eq_some_getLast (List.ne_nil_of_mem there)⟩
  have firstMember := List.mem_of_head? head
  have lastMember := List.mem_of_getLast? tail
  have start : s.start = first.span.start := by
    have least := (inOrder.bounds head tail there).1
    have held := (hull.holds first firstMember).1
    rw [hull.place.start, (inOrder.place first firstMember).start]
    exact congrArg (positionAt text) (by omega)
  have stop : s.stop = last.span.stop := by
    have greatest := (inOrder.bounds head tail there').2
    have held := (hull.holds last lastMember).2
    rw [hull.place.stop, (inOrder.place last lastMember).stop]
    exact congrArg (positionAt text) (by omega)
  rw [ofTokens?, head, tail, Option.bind_some, Option.map_some, ← start, ← stop]

namespace Tree

/-- A tree whose leaves follow each other covers the text from the first to the last of them. -/
theorem HasHull.span?_eq {t : Tree} (hull : t.HasHull text) (inOrder : InOrder text t.tokens) :
    t.span? = Span.ofTokens? t.tokens := by
  unfold HasHull at hull
  cases span : t.span? with
  | none =>
    rw [span] at hull
    rw [hull]
    rfl
  | some s =>
    rw [span] at hull
    exact hull.eq_ofTokens? inOrder

theorem tokensOfAll_eq_flatMap (cs : List Tree) : tokensOfAll cs = cs.flatMap Tree.tokens := by
  induction cs with
  | nil => rfl
  | cons c cs ih => rw [tokensOfAll_cons, ih, List.flatMap_cons]

/-- What neighbouring trees cover is in order and apart. -/
theorem spans_inOrder {cs : List Tree} (hulls : ∀ c ∈ cs, c.HasHull text)
    (inOrder : InOrder text (tokensOfAll cs)) :
    (cs.filterMap span?).Pairwise fun a b => a.stop.offset ≤ b.start.offset := by
  have apart : cs.Pairwise fun c d => ∀ a ∈ c.tokens, ∀ b ∈ d.tokens,
      a.span.stop.offset ≤ b.span.start.offset := by
    exact (List.pairwise_flatMap.mp (tokensOfAll_eq_flatMap cs ▸ inOrder.apart)).2
  rw [List.pairwise_filterMap]
  refine apart.imp_of_mem fun first second between s here q there => ?_
  have hull := hulls _ first
  have hull' := hulls _ second
  unfold HasHull at hull hull'
  rw [here] at hull
  rw [there] at hull'
  obtain ⟨t, member, stop⟩ := hull.last
  obtain ⟨u, member', start⟩ := hull'.first
  rw [← stop, ← start]
  exact between t member u member'

end Tree

/-! ## The tree of a text -/

/-- The leaves of a tree are in the order of the text, and what its nodes cover of it runs from
their first leaves to their last, in order and apart. -/
structure SyntaxTree.FollowsText (t : SyntaxTree) (text : List Char) : Prop where
  /-- The numbers of leaves ascend in the order of the text. -/
  leaves : t.root.leaves.Pairwise fun a b =>
    a.id < b.id ∧ a.token.span.stop.offset ≤ b.token.span.start.offset
  span : ∀ u ∈ t.root.subtrees, u.id ≠ 0 → u.span? = Span.ofTokens? u.tokens
  siblings : ∀ u ∈ t.root.subtrees,
    (u.children.filterMap Tree.span?).Pairwise fun a b => a.stop.offset ≤ b.start.offset
  whole : t.root.id = 0 ∧ t.root.span? = some (spanBetween text 0 text.length)

/-- The root stands around parts that know their spans, whose leaves have ascending numbers. -/
theorem parse_parts (ends : EndsOnce (visibleTokens tokens)) : ∃ cs,
    (parse tokens).tree.root = .node 0 .file (some (wholeSpan tokens)) cs ∧
    (∀ c ∈ cs, c.IsSpanned) ∧ ((Tree.leavesOfAll cs).map (·.id)).Pairwise (· < ·) := by
  obtain ⟨last, n, trees, -, grows, root⟩ := parse_root ends
  obtain ⟨made, leaves, ordered, bounds⟩ := grows.leafIds
  refine ⟨_, root, fun c member => ?_, ?_⟩
  · rcases List.mem_append.mp member with part | ending
    · exact grows.isSpanned (by simp) c (List.mem_reverse.mp part)
    · cases List.mem_singleton.mp ending
      exact .leaf _
  · have all : Tree.leavesOfAll (trees.reverse ++ [.leaf ⟨n, last⟩]) = made ++ [⟨n, last⟩] := by
      rw [Tree.leavesOfAll_append]
      simpa [Tree.leaves, Tree.leavesOfAll] using leaves
    rw [all, List.map_append, List.pairwise_append]
    refine ⟨ordered, List.pairwise_singleton .., ?_⟩
    simp only [List.mem_map, List.mem_singleton]
    rintro _ ⟨l, member, rfl⟩ _ ⟨k, rfl, rfl⟩
    exact (bounds l member).2

namespace Tree

variable {cs : List Tree} {u : Tree}

/-- Parts that know their spans cover the text from their first leaves to their last. -/
theorem IsSpanned.span?_eq (spanned : u.IsSpanned) (inOrder : InOrder text u.tokens) :
    u.span? = Span.ofTokens? u.tokens :=
  (spanned.hasHull inOrder.place).span?_eq inOrder

/-- What parts that know their spans cover is in order and apart. -/
theorem spans_inOrder_of_spanned (spanned : ∀ c ∈ cs, c.IsSpanned)
    (inOrder : InOrder text (tokensOfAll cs)) :
    (cs.filterMap span?).Pairwise fun a b => a.stop.offset ≤ b.start.offset :=
  spans_inOrder (fun c member => (spanned c member).hasHull
    (inOrder.of_sublist (tokens_sublist_tokensOfAll member)).place) inOrder

theorem IsSpanned.siblings_inOrder (spanned : u.IsSpanned) (inOrder : InOrder text u.tokens) :
    (u.children.filterMap span?).Pairwise fun a b => a.stop.offset ≤ b.start.offset := by
  cases spanned with
  | leaf => exact .nil
  | node parts => exact spans_inOrder_of_spanned parts inOrder

end Tree

theorem parse_followsText {arrange : List Token → List Token} (arranges : Arranges arrange)
    (read : TokenStream.ofSteps arrange (Lexer.steps text) = .ok s) :
    (parse s.tokens).tree.FollowsText text := by
  obtain ⟨-, follow, ends⟩ := TokenStream.visible_of_ofSteps arranges read
  obtain ⟨cs, root, spanned, ordered⟩ := parse_parts ends
  have leaves : Tree.tokensOfAll cs = visibleTokens s.tokens := by
    rw [← leaves_parse ends, root]
    rfl
  have inOrder : InOrder text (Tree.tokensOfAll cs) := by
    rw [leaves]
    exact follow.inOrder_text
  -- A part of the root knows its span, and its leaves are in order as well.
  have part : ∀ u ∈ Tree.subtreesOfAll cs, u.IsSpanned ∧ InOrder text u.tokens := by
    intro u below
    obtain ⟨c, child, inside⟩ := Tree.mem_subtreesOfAll.mp below
    have leaves := (Tree.leaves_sublist inside).trans (Tree.leaves_sublist_leavesOfAll child)
    exact ⟨(spanned c child).subtrees u inside, inOrder.of_sublist (leaves.map _)⟩
  refine
    { leaves := ?_, span := ?_, siblings := ?_
      whole := by rw [root, ← TokenStream.wholeSpan_eq arranges read]; exact ⟨rfl, rfl⟩ }
  · rw [root]
    exact (List.pairwise_map.mp ordered).and (List.pairwise_map.mp inOrder.apart)
  · rw [root]
    intro u member other
    rcases List.mem_cons.mp member with rfl | below
    · exact absurd rfl other
    · exact (part u below).1.span?_eq (part u below).2
  · rw [root]
    intro u member
    rcases List.mem_cons.mp member with rfl | below
    · exact Tree.spans_inOrder_of_spanned spanned inOrder
    · exact (part u below).1.siblings_inOrder (part u below).2

/-! ## The arena of a text -/

/-- The links that an arena stores are those of a tree with the number zero for its root, and its
entries cover a text as the nodes of a tree do. -/
structure Arena.IsWellFormed (a : Arena) (text : List Char) : Prop where
  /-- The children of an entry are those that store it as their parent. -/
  family : ∀ p c, c ∈ a.children p ↔ a.parent? c = some p
  /-- All but the root are children, each of one entry and once. -/
  once : ((List.range a.size).flatMap a.children).Perm (List.range' 1 (a.size - 1))
  /-- Going from parent to parent ends at the root, which has none. -/
  climbs : ∀ n < a.size, (a.ancestors n).head? = some n ∧
    (a.ancestors n).IsChain (fun m p => a.parent? m = some p) ∧ (a.ancestors n).getLast? = some 0
  top : a.parent? 0 = none
  /-- The entries whose parents lead to the root are those that there are. -/
  known : ∀ n, a.leadsToRoot n = true ↔ n < a.size
  /-- The tokens are the visible ones of the stream in their order, with ascending numbers. -/
  terminals : (a.terminals 0).Pairwise (· < ·) ∧
    (a.terminals 0).map a.token? = (visibleTokens a.tokens).map some
  /-- Going down from an entry, each that is met was not met before. -/
  distinct : ∀ n < a.size, (a.descendants n).Nodup
  /-- An entry covers the text from the first token at or below it to the last. -/
  span : ∀ n < a.size, n ≠ 0 →
    a.span? n = Span.ofTokens? ((a.terminals n).filterMap a.token?)
  siblings : ∀ n, ((a.children n).filterMap a.span?).Pairwise fun s t =>
    s.stop.offset ≤ t.start.offset
  whole : a.rule? 0 = some .file ∧ a.span? 0 = some (spanBetween text 0 text.length)

namespace Arena

variable {a : Arena} {t : SyntaxTree}

/-- An arena is well formed that holds a tree of a text with the leaves of a numbered stream. -/
theorem Holds.isWellFormed (holds : a.Holds t) (follows : t.FollowsText text)
    (numbers : IsNumbered t.tokens) (file : t.root.rule? = some .file)
    (leaves : t.root.tokens = visibleTokens t.tokens) : a.IsWellFormed text := by
  have zero := follows.whole.1
  have top := holds.parent?_root
  have perm := holds.children_perm
  rw [zero] at top perm
  obtain ⟨k, size⟩ : ∃ k, a.size = k + 1 := by
    rw [holds.size_eq]
    cases t.root <;> exact ⟨_, rfl⟩
  have range : List.range a.size = 0 :: List.range' 1 (a.size - 1) := by
    rw [size, List.range_eq_range', List.range'_succ, Nat.add_sub_cancel]
  have climbs : ∀ n < a.size, (a.ancestors n).head? = some n ∧
      (a.ancestors n).IsChain (fun m p => a.parent? m = some p) ∧
      (a.ancestors n).getLast? = some 0 := by
    intro n below
    obtain ⟨c, member, rfl⟩ := holds.exists_cursor below
    obtain ⟨chain, last⟩ := holds.ancestors_climb member
    rw [holds.ancestors_eq member]
    exact ⟨rfl, chain, by rw [List.getLast?_map, last, Option.map_some, zero]⟩
  have token : ∀ l ∈ t.root.leaves, t.tokens[l.token.index]? = some l.token := fun l member => by
    have visible : l.token ∈ visibleTokens t.tokens := leaves ▸ List.mem_map_of_mem member
    exact numbers.getElem?_index (List.mem_filter.mp visible).1
  have root := Tree.mem_cursorsUnder_self [] t.root
  exact {
    family := fun p c => holds.mem_children_iff
    once := (perm.trans (.of_eq range)).cons_inv
    climbs := climbs
    top := top
    known := fun n => by
      rw [leadsToRoot, Bool.and_eq_true, decide_eq_true_iff, beq_iff_eq]
      exact ⟨And.left, fun below => ⟨below, (climbs n below).2.2⟩⟩
    terminals := by
      have all := holds.terminals_eq root
      have tokens := holds.map_token?_terminals root token
      rw [show (⟨t.root, []⟩ : Cursor).tree = t.root from rfl, zero] at all tokens
      rw [tokens, holds.tokens, leaves, all]
      exact ⟨List.pairwise_map.mpr (follows.leaves.imp And.left), rfl⟩
    distinct := fun n below => by
      obtain ⟨c, member, rfl⟩ := holds.exists_cursor below
      rw [holds.descendants_eq member]
      have within := Tree.subtrees_sublist (Tree.mem_subtrees_of_mem_cursors member)
      exact holds.nodup.sublist (within.map _)
    span := fun n below other => by
      obtain ⟨c, member, rfl⟩ := holds.exists_cursor below
      have tokens := congrArg (List.filterMap id) (holds.map_token?_terminals member token)
      rw [List.filterMap_map, List.filterMap_map, Function.id_comp, Function.id_comp,
        List.filterMap_some] at tokens
      rw [holds.span?_eq member, tokens]
      exact follows.span _ (Tree.mem_subtrees_of_mem_cursors member) other
    siblings := fun n => by
      by_cases below : n < a.size
      · obtain ⟨c, member, rfl⟩ := holds.exists_cursor below
        rw [holds.filterMap_span?_children member]
        exact follows.siblings _ (Tree.mem_subtrees_of_mem_cursors member)
      · rw [children, show a.nodes[n]? = none from Array.getElem?_eq_none (Nat.le_of_not_lt below)]
        exact .nil
    whole := by
      have rule := holds.rule?_eq root
      have span := holds.span?_eq root
      rw [show (⟨t.root, []⟩ : Cursor).tree = t.root from rfl, zero] at rule span
      exact ⟨rule.trans file, span.trans follows.whole.2⟩ }

end Arena

/-- **The arena of a text is well formed.** If a text can be read into tokens, with markers or
without them, the arena that the parser's actions make holds the tree of the text, whatever is wrong
with the text, and the links that it stores are those of a tree. All entries but the root are
children, of one entry and once; that entry is the parent, and going from parent to parent ends at
the root, although a parent may have the greater number. Tokens have ascending numbers, and entries
cover the text from their first token to their last, in order and apart. In a rule set just the
numbers from which the parents lead to the root have an origin, which is that of the file. -/
theorem arena_of_a_text_is_well_formed
    (read : tokenize text = .ok s ∨ tokenizeWithSeams text = .ok s) :
    (parseArena s.tokens).Holds (parse s.tokens).tree ∧
    (parseArena s.tokens).IsWellFormed text ∧
    ∀ (rules : RuleSet) (k : Nat) (f : RuleFile), rules.files[k]? = some f →
      f.tree = (parse s.tokens).tree →
      ∀ n, rules.origin? ⟨k, n⟩ =
        if (parseArena s.tokens).leadsToRoot n then some f.origin else none := by
  obtain ⟨arrange, arranges, steps⟩ : ∃ arrange, Arranges arrange ∧
      TokenStream.ofSteps arrange (Lexer.steps text) = .ok s :=
    read.elim (fun plain => ⟨id, arranges_id, ofSteps_of_tokenize plain⟩)
      fun seamed => ⟨withSeams, arranges_withSeams, ofSteps_of_tokenizeWithSeams seamed⟩
  obtain ⟨numbers, -, ends⟩ := TokenStream.visible_of_ofSteps arranges steps
  obtain ⟨cs, root, -, -⟩ := parse_parts ends
  have holds := parseArena_holds ends
  have wellFormed := holds.isWellFormed (parse_followsText arranges steps) numbers
    (by rw [root]; rfl) (leaves_parse ends)
  refine ⟨holds, wellFormed, fun rules k f file same n => ?_⟩
  have found : ((parse s.tokens).tree.cursor? n).isSome ↔
      (parseArena s.tokens).leadsToRoot n = true := by
    rw [wellFormed.known, SyntaxTree.cursor?, Tree.cursor?_isSome_iff, ← holds.mem_ids]
  rw [RuleSet.origin?, file, Option.bind_some, same]
  split
  case isTrue leads =>
    obtain ⟨c, place⟩ := Option.isSome_iff_exists.mp (found.mpr leads)
    rw [place, Option.map_some]
  case isFalse astray =>
    rw [Option.not_isSome_iff_eq_none.mp (mt found.mp astray), Option.map_none]

/-- An operation without its second operand, around an access to a property. -/
def adoptedOperand : List Char := "output a $b.c + ".toList

/-- A variable is adopted by the access to its property, and that by the operation: each of them
has a greater number than the child it adopts. -/
theorem operand_is_adopted_by_later_nodes : ∃ s, tokenize adoptedOperand = .ok s ∧
    (parse s.tokens).errors.length = 1 ∧
    (parseArena s.tokens).ancestors 6 = [6, 8, 12, 5, 1, 0] ∧
    (parseArena s.tokens).IsWellFormed adoptedOperand := by
  have built : (tokenize adoptedOperand).toOption.map (fun s => ((parse s.tokens).errors.length,
      (parseArena s.tokens).ancestors 6)) = some (1, [6, 8, 12, 5, 1, 0]) := by
    decide +kernel
  cases read : tokenize adoptedOperand with
  | error failure => simp [read, Except.toOption] at built
  | ok s =>
    simp only [read, Except.toOption, Option.map_some, Option.some.injEq, Prod.mk.injEq] at built
    obtain ⟨errors, climbed⟩ := built
    exact ⟨s, rfl, errors, climbed, (arena_of_a_text_is_well_formed (.inl read)).2.1⟩

end XuleLang
