import XuleLang.Proofs.Analysis.TokenOffset
import XuleLang.Proofs.Parser.Lossless
import XuleLang.Proofs.Syntax.Hull

/-!
Carets in trees.

A caret is looked for from the root downwards, in the first child that it touches; where no leaf of
a node is touched, the last one before the caret counts, and the search comes back with that. What
it finds is what a search of all leaves in their order finds. For a node that the caret touches
without touching one of its leaves lies around a gap, and nothing outside of the node is nearer.
-/

namespace XuleLang

variable {text : List Char} {o : Nat}

/-- The first leaf that a caret behind `o` characters touches, or else the last one that stops
before it. -/
def hitAmongLeaves? (text : List Char) (o : Nat) (ls : List Leaf) : Option Hit :=
  match ls.find? (·.token.touchedAt o) with
  | some l => some ⟨l, l.token.charsBefore text o, true⟩
  | none =>
    (ls.reverse.find? fun l => l.token.span.stop.offset < o).map fun l =>
      ⟨l, l.token.charCount, false⟩

theorem mem_of_hitAmongLeaves? {ls : List Leaf} {h : Hit}
    (found : hitAmongLeaves? text o ls = some h) : h.leaf ∈ ls := by
  unfold hitAmongLeaves? at found
  split at found
  case h_1 l touched =>
    cases found
    exact List.mem_of_find?_eq_some touched
  case h_2 =>
    obtain ⟨l, last, rfl⟩ := Option.map_eq_some_iff.mp found
    exact List.mem_reverse.mp (List.mem_of_find?_eq_some last)

/-- No leaf is touched. -/
def Untouched (o : Nat) (ls : List Leaf) : Prop := ∀ l ∈ ls, l.token.touchedAt o = false

section Leaves

variable {ls before behind : List Leaf} {h : Hit}

theorem find?_touchedAt_eq_none : ls.find? (·.token.touchedAt o) = none ↔ Untouched o ls := by
  simp [Untouched]

/-- What is found among some leaves is found among more, if those before are not touched. -/
theorem hitAmongLeaves?_append_right (untouched : Untouched o before)
    (found : hitAmongLeaves? text o behind = some h) :
    hitAmongLeaves? text o (before ++ behind) = some h := by
  have nothing := find?_touchedAt_eq_none.mpr untouched
  unfold hitAmongLeaves? at found ⊢
  rw [List.find?_append, nothing, Option.none_or]
  cases touched : behind.find? (·.token.touchedAt o) with
  | some l => simpa [touched] using found
  | none =>
    simp only [touched, Option.map_eq_some_iff] at found ⊢
    obtain ⟨l, last, rfl⟩ := found
    exact ⟨l, by rw [List.reverse_append, List.find?_append, last, Option.some_or], rfl⟩

/-- What is found among some leaves is found among more, if those behind start behind the caret
unless one of the first is touched. -/
theorem hitAmongLeaves?_append_left (found : hitAmongLeaves? text o before = some h)
    (later : Untouched o before → ∀ l ∈ behind, o < l.token.span.start.offset)
    (ordered : ∀ l ∈ behind, l.token.span.start.offset ≤ l.token.span.stop.offset) :
    hitAmongLeaves? text o (before ++ behind) = some h := by
  unfold hitAmongLeaves? at found ⊢
  rw [List.find?_append]
  cases touched : before.find? (·.token.touchedAt o) with
  | some l => simpa [touched] using found
  | none =>
    have later := later (find?_touchedAt_eq_none.mp touched)
    have nothing : behind.find? (·.token.touchedAt o) = none := by
      refine find?_touchedAt_eq_none.mpr fun l member => ?_
      have := later l member
      simp only [Token.touchedAt, Bool.and_eq_false_iff, decide_eq_false_iff_not]
      omega
    have none : behind.reverse.find? (fun l => decide (l.token.span.stop.offset < o)) = none := by
      simp only [List.find?_eq_none, List.mem_reverse, decide_eq_true_eq]
      intro l member
      have := later l member
      have := ordered l member
      omega
    simp only [touched, Option.map_eq_some_iff, nothing, Option.none_or] at found ⊢
    rwa [List.reverse_append, List.find?_append, none, Option.none_or]

end Leaves

/-! ## From the root downwards -/

/-- What a search found fits what a search of some leaves finds. It comes back with nothing only
where no leaf is touched. -/
def Fits (text : List Char) (o : Nat) (ls : List Leaf) : Option Hit → Prop
  | some h => hitAmongLeaves? text o ls = some h
  | none => Untouched o ls

theorem fits_hitAmongLeaves? (ls : List Leaf) : Fits text o ls (hitAmongLeaves? text o ls) := by
  cases found : hitAmongLeaves? text o ls with
  | some h => exact found
  | none =>
    refine find?_touchedAt_eq_none.mp ?_
    unfold hitAmongLeaves? at found
    split at found
    case h_1 => cases found
    case h_2 nothing => exact nothing

section Descent

variable {t : Tree} {ts : List Tree} {h : Hit}

theorem mem_leaves_place (follow : Follow text t.tokens) {l : Leaf} (member : l ∈ t.leaves) :
    l.token.span.IsIn text :=
  (follow.piece l.token (List.mem_map_of_mem member)).span.toIsIn

/-- The last leaf before a caret is found among the leaves if none is touched. -/
theorem lastBefore?_eq (inside : o ≤ text.length) (follow : Follow text t.tokens)
    (untouched : Untouched o t.leaves) :
    t.lastBefore? (positionAt text o).line (positionAt text o).column =
      hitAmongLeaves? text o t.leaves := by
  have same : ∀ l ∈ t.leaves.reverse, l.token.span.stop.isAtOrBefore (positionAt text o).line
      (positionAt text o).column = decide (l.token.span.stop.offset < o) := by
    intro l member
    have there := List.mem_reverse.mp member
    have place := mem_leaves_place follow there
    have apart := untouched l there
    have ordered := place.ordered
    rw [place.stop, isAtOrBefore_positionAt place.inside inside, decide_eq_decide]
    simp only [Token.touchedAt, Bool.and_eq_false_iff, decide_eq_false_iff_not] at apart
    rw [offset_positionAt]
    omega
  unfold Tree.lastBefore? hitAmongLeaves?
  rw [find?_touchedAt_eq_none.mpr untouched, ← List.head?_filter, List.filter_congr same,
    List.head?_filter]

/-- A tree in which something is found reaches up to the caret or beyond it. -/
theorem reaches_of_hit? (inside : o ≤ text.length) (follow : Follow text t.tokens)
    (hull : t.HasHull text)
    (found : t.hit? (positionAt text o).line (positionAt text o).column = some h) :
    ∃ s : Span, s.IsHull text t.tokens ∧ o ≤ s.stop.offset := by
  cases t with
  | leaf l =>
    refine ⟨l.token.span, hull, ?_⟩
    have piece := follow.piece l.token (.head _)
    have apart := follow.apart l.token (.head _)
    rw [Tree.hit?, Token.offsetAt?_positionAt piece apart inside] at found
    split at found
    case isTrue touched =>
      simp only [Token.touchedAt, Bool.and_eq_true, decide_eq_true_eq] at touched
      exact touched.2
    case isFalse => cases found
  | node id rule span children =>
    cases span with
    | none => cases found
    | some s =>
      refine ⟨s, hull, ?_⟩
      rw [Tree.hit?] at found
      split at found
      case isTrue touches =>
        have place : s.IsIn text := Span.IsHull.place hull
        rw [place.touches_positionAt inside, Bool.and_eq_true, decide_eq_true_eq,
          decide_eq_true_eq] at touches
        exact touches.2
      case isFalse => cases found

/-- A search of trees fits their leaves if the search of each of them does. -/
theorem hitAmong?_fits (inside : o ≤ text.length) (follow : Follow text (Tree.tokensOfAll ts))
    (hulls : ∀ t ∈ ts, t.HasHull text)
    (each : ∀ t ∈ ts, Fits text o t.leaves
      (t.hit? (positionAt text o).line (positionAt text o).column)) :
    Fits text o (Tree.leavesOfAll ts)
      (Tree.hitAmong? (positionAt text o).line (positionAt text o).column ts) := by
  induction ts with
  | nil => exact nofun
  | cons t ts ih =>
    obtain ⟨hull, hulls⟩ := List.forall_mem_cons.mp hulls
    obtain ⟨here, each⟩ := List.forall_mem_cons.mp each
    rw [Tree.tokensOfAll_cons] at follow
    have first := follow.of_sublist (List.sublist_append_left _ _)
    have others := ih (follow.of_sublist (List.sublist_append_right _ _)) hulls each
    rw [Tree.hitAmong?, Tree.leavesOfAll]
    cases found : t.hit? (positionAt text o).line (positionAt text o).column with
    | none =>
      rw [found] at here
      cases later : Tree.hitAmong? (positionAt text o).line (positionAt text o).column ts with
      | none =>
        rw [later] at others
        exact fun l member => (List.mem_append.mp member).elim (here l) (others l)
      | some h =>
        rw [later] at others
        exact hitAmongLeaves?_append_right here others
    | some h =>
      rw [found] at here
      -- Something was found here, so this tree reaches the caret. If none of its leaves is touched,
      -- its last one starts behind the caret, and so do all leaves of the trees that follow.
      obtain ⟨s, isHull, reaches⟩ := reaches_of_hit? inside first hull found
      have behind : ∀ l ∈ Tree.leavesOfAll ts, l.token ∈ Tree.tokensOfAll ts := fun l member =>
        List.mem_map_of_mem member
      refine hitAmongLeaves?_append_left here (fun untouched l member => ?_) fun l member =>
        (follow.piece l.token (List.mem_append_right _ (behind l member))).span.ordered
      obtain ⟨u, there, atStop⟩ := isHull.last
      have apart := (List.pairwise_append.mp follow.inOrder).2.2 u there l.token (behind l member)
      have ordered := (first.piece u there).span.ordered
      obtain ⟨k, leaf, rfl⟩ := List.mem_map.mp there
      have untouched := untouched k leaf
      simp only [Token.touchedAt, Bool.and_eq_false_iff, decide_eq_false_iff_not] at untouched
      change k.token.span.start.offset ≤ k.token.span.stop.offset at ordered
      omega

/-- In a node that the caret touches, a search finds what a search of its leaves does. -/
theorem hit?_of_touches {s : Span} (inside : o ≤ text.length)
    (follow : Follow text (Tree.tokensOfAll ts))
    (touches : s.touches (positionAt text o).line (positionAt text o).column = true)
    (among : Fits text o (Tree.leavesOfAll ts)
      (Tree.hitAmong? (positionAt text o).line (positionAt text o).column ts))
    (n : Nat) (r : Rule) :
    (Tree.node n r (some s) ts).hit? (positionAt text o).line (positionAt text o).column =
      hitAmongLeaves? text o (Tree.leavesOfAll ts) := by
  rw [Tree.hit?]
  simp only [touches, if_true]
  cases found : Tree.hitAmong? (positionAt text o).line (positionAt text o).column ts with
  | some h =>
    rw [found] at among
    exact Eq.symm among
  | none =>
    rw [found] at among
    exact lastBefore?_eq (t := .node n r (some s) ts) inside follow among

/-- A search of a tree fits its leaves. -/
theorem hit?_fits (inside : o ≤ text.length) (spanned : t.IsSpanned)
    (follow : Follow text t.tokens) :
    Fits text o t.leaves (t.hit? (positionAt text o).line (positionAt text o).column) := by
  induction spanned with
  | leaf l =>
    have piece := follow.piece l.token (.head _)
    have apart := follow.apart l.token (.head _)
    rw [Tree.hit?, Token.offsetAt?_positionAt piece apart inside, Tree.leaves]
    cases touched : l.token.touchedAt o with
    | true => simp [Fits, hitAmongLeaves?, touched]
    | false => simpa [Fits, Untouched] using touched
  | @node ts n r parts ih =>
    have within : ∀ t ∈ ts, Follow text t.tokens := fun t member =>
      follow.of_sublist (Tree.tokens_sublist_tokensOfAll member)
    have hulls : ∀ t ∈ ts, t.HasHull text := fun t member =>
      (parts t member).hasHull fun u there => ((within t member).piece u there).span.toIsIn
    have among := hitAmong?_fits inside follow hulls fun t member => ih t member (within t member)
    have hull := Tree.hasHull_ofChildren hulls n r
    unfold Tree.ofChildren at hull ⊢
    cases span : Span.coverAll (ts.filterMap Tree.span?) with
    | none =>
      rw [span] at hull
      have none : Tree.leavesOfAll ts = [] := List.map_eq_nil_iff.mp hull
      rw [Tree.hit?, Tree.leaves, none]
      intro l member
      cases member
    | some s =>
      rw [span] at hull
      have hull : s.IsHull text (Tree.tokensOfAll ts) := hull
      by_cases touches : s.touches (positionAt text o).line (positionAt text o).column = true
      case pos =>
        rw [hit?_of_touches inside follow touches among]
        exact fits_hitAmongLeaves? _
      case neg =>
        rw [Tree.hit?]
        simp only [touches, Tree.leaves]
        intro l member
        -- The caret is outside the hull of the leaves, and cannot touch one of them.
        have held := hull.holds l.token (List.mem_map_of_mem member)
        rw [hull.place.touches_positionAt inside] at touches
        simp only [Bool.and_eq_true, decide_eq_true_eq] at touches
        simp only [Token.touchedAt, Bool.and_eq_false_iff, decide_eq_false_iff_not]
        omega

end Descent

/-! ## Carets in texts -/

/-- Candidates are asked for at a token of the stream. -/
theorem Hit.tokenIndex_le {h : Hit} {last : Nat} (inside : h.leaf.token.index ≤ last) :
    h.tokenIndex last ≤ last := by
  unfold Hit.tokenIndex
  dsimp only
  split
  · exact Nat.min_le_right _ _
  · split
    · exact inside
    · split
      · exact Nat.le_trans (Nat.sub_le _ _) inside
      · split
        · exact Nat.min_le_right _ _
        · exact inside

theorem caretAt?_of_touches {t : SyntaxTree} {span : Span} {line column : Nat}
    (covers : t.root.span? = some span) (touches : span.touches line column = true) :
    t.caretAt? line column = some (match t.root.hit? line column with
      | some h => ⟨some h.leaf, h.offset, h.tokenIndex (t.tokens.length - 1)⟩
      | none => ⟨none, 0, 0⟩) := by
  have passes : (guard (span.touches line column) : Option Unit) = some () := if_pos touches
  rw [SyntaxTree.caretAt?, covers, Option.bind_eq_bind, Option.bind_some, passes]
  cases t.root.hit? line column <;> rfl

variable {s : TokenStream}

/-- Every caret in a text touches what its tokens cover. -/
theorem wholeSpan_touches_of_ofSteps {arrange : List Token → List Token}
    (arranges : Arranges arrange) (read : TokenStream.ofSteps arrange (Lexer.steps text) = .ok s)
    (inside : o ≤ text.length) :
    (wholeSpan s.tokens).touches (positionAt text o).line (positionAt text o).column = true := by
  rw [TokenStream.wholeSpan_eq arranges read,
    (spanBetween_isIn (Nat.zero_le _) (Nat.le_refl _)).touches_positionAt inside]
  rw [Bool.and_eq_true]
  exact ⟨decide_eq_true (Nat.zero_le o), decide_eq_true inside⟩

/-- Every caret in a text touches the root. -/
theorem wholeSpan_touches (read : tokenizeWithSeams text = .ok s) (inside : o ≤ text.length) :
    (wholeSpan s.tokens).touches (positionAt text o).line (positionAt text o).column = true :=
  wholeSpan_touches_of_ofSteps arranges_withSeams (ofSteps_of_tokenizeWithSeams read) inside

/-- The search from the root finds what a search of all leaves finds. -/
theorem hit?_parse (read : tokenizeWithSeams text = .ok s) (inside : o ≤ text.length) :
    (parse s.tokens).tree.root.hit? (positionAt text o).line (positionAt text o).column =
      hitAmongLeaves? text o (parse s.tokens).tree.root.leaves := by
  obtain ⟨-, follow, ends⟩ := visible_of_tokenizeWithSeams read
  have leaves := leaves_parse ends
  obtain ⟨last, n, trees, -, grows, root⟩ := parse_root ends
  rw [← leaves, root] at follow
  rw [root]
  have follow : Follow text (Tree.tokensOfAll (trees.reverse ++ [.leaf ⟨n, last⟩])) := follow
  have spanned : ∀ t ∈ trees.reverse ++ [.leaf ⟨n, last⟩], t.IsSpanned := by
    intro t member
    rcases List.mem_append.mp member with part | ending
    · exact grows.isSpanned (by simp) t (List.mem_reverse.mp part)
    · exact List.mem_singleton.mp ending ▸ .leaf _
  have within : ∀ t ∈ trees.reverse ++ [.leaf ⟨n, last⟩], Follow text t.tokens := fun t member =>
    follow.of_sublist (Tree.tokens_sublist_tokensOfAll member)
  have among := hitAmong?_fits inside follow
    (fun t member => (spanned t member).hasHull fun u there =>
      ((within t member).piece u there).span.toIsIn)
    fun t member => hit?_fits inside (spanned t member) (within t member)
  exact hit?_of_touches inside follow (wholeSpan_touches read inside) among 0 .file

/-- What a caret belongs to, judged by the leaves of a tree in their order. -/
structure Caret.Belongs (c : Caret) (text : List Char) (o : Nat) (ls : List Leaf) : Prop where
  touching : ∀ l, ls.find? (·.token.touchedAt o) = some l →
    c.leaf = some l ∧ c.offset = l.token.charsBefore text o
  behind : Untouched o ls → ∀ l, ls.reverse.find? (·.token.span.stop.offset < o) = some l →
    c.leaf = some l ∧ c.offset = l.token.charCount
  before : Untouched o ls → (∀ l ∈ ls, o ≤ l.token.span.stop.offset) →
    c.leaf = none ∧ c.offset = 0

/-- What a search of the leaves finds is what a caret belongs to. -/
theorem belongs_hitAmongLeaves? (text : List Char) (o : Nat) (ls : List Leaf) (index : Nat) :
    let hit := hitAmongLeaves? text o ls
    Caret.Belongs ⟨hit.map (·.leaf), (hit.map (·.offset)).getD 0, index⟩ text o ls := by
  unfold hitAmongLeaves?
  cases touched : ls.find? (·.token.touchedAt o) with
  | some l =>
    have contrary : ¬Untouched o ls := by simp [← find?_touchedAt_eq_none, touched]
    refine { touching := fun k same => ?_, behind := fun untouched => absurd untouched contrary
             before := fun untouched => absurd untouched contrary }
    rw [touched] at same
    cases same
    exact ⟨rfl, rfl⟩
  | none =>
    refine { touching := fun k same => ?_, behind := fun _ k last => ?_
             before := fun _ ahead => ?_ }
    · rw [touched] at same
      cases same
    · simp [last]
    · have none : ls.reverse.find? (·.token.span.stop.offset < o) = none := by
        simpa [Nat.not_lt] using ahead
      simp [none]

/-- **Carets are resolved exactly.** Every caret in a text that can be read is resolved, and
candidates are asked for at a token of the stream. The caret belongs to the first leaf that it
touches, with the number of characters before it; a caret between the two characters of a line
break stands before both. Where no leaf is touched, it belongs to the last leaf that stops before
it, behind all its characters, and where there is none, to the root. -/
theorem carets_are_resolved_by_the_leaves (read : tokenizeWithSeams text = .ok s)
    (inside : o ≤ text.length) :
    let p := positionAt text o
    let tree := (parse s.tokens).tree
    ∃ c, tree.caretAt? p.line p.column = some c ∧ c.tokenIndex < tree.tokens.length ∧
      c.Belongs text o tree.root.leaves := by
  intro p tree
  have found : tree.root.hit? p.line p.column = hitAmongLeaves? text o tree.root.leaves :=
    hit?_parse read inside
  obtain ⟨numbers, -, ends⟩ := visible_of_tokenizeWithSeams read
  have index_lt : ∀ t ∈ visibleTokens s.tokens, t.index < tree.tokens.length := fun t member =>
    numbers.index_lt (List.mem_filter.mp member).1
  obtain ⟨last, n, trees, -, -, root⟩ := parse_root ends
  have covers : tree.root.span? = some (wholeSpan s.tokens) := congrArg Tree.span? root
  have belongs := belongs_hitAmongLeaves? text o tree.root.leaves
  rw [caretAt?_of_touches covers (wholeSpan_touches read inside), found]
  refine ⟨_, rfl, ?_⟩
  cases hit : hitAmongLeaves? text o tree.root.leaves with
  | none =>
    obtain ⟨front, last, visible_eq, -⟩ := ends
    have bound := index_lt last (by simp [visible_eq])
    exact ⟨Nat.zero_lt_of_lt bound, by simpa [hit] using belongs 0⟩
  | some h =>
    have leaf := List.mem_map_of_mem (f := (·.token)) (mem_of_hitAmongLeaves? hit)
    rw [leaves_parse ends] at leaf
    have bound := index_lt h.leaf.token leaf
    have index_le := h.tokenIndex_le (Nat.le_sub_one_of_lt bound)
    refine ⟨by dsimp only; omega, ?_⟩
    simpa [hit] using belongs (h.tokenIndex (tree.tokens.length - 1))

/-- A string literal with a line break of two characters in it. -/
def brokenLine : List Char := "output a \"x\r\ny\"".toList

/-- Between the two characters of a line break a caret stands at the end of its line. -/
theorem caret_inside_a_line_break_stands_before_it :
    ∃ s c, tokenizeWithSeams brokenLine = .ok s ∧
      (parse s.tokens).tree.caretAt? (positionAt brokenLine 12).line
        (positionAt brokenLine 12).column = some c ∧
      c.leaf.map (·.token.text) = some "x\r\ny" ∧ c.offset = 1 := by
  have touched : (tokenizeWithSeams brokenLine).toOption.map (fun s =>
      ((parse s.tokens).tree.root.leaves.find? (·.token.touchedAt 12)).map fun l =>
        (l.token.text, l.token.charsBefore brokenLine 12)) = some (some ("x\r\ny", 1)) := by
    decide +kernel
  cases read : tokenizeWithSeams brokenLine with
  | error failure => simp [read, Except.toOption] at touched
  | ok s =>
    obtain ⟨c, resolved, -, belongs⟩ := carets_are_resolved_by_the_leaves read
      (show 12 ≤ brokenLine.length by decide)
    simp only [read, Except.toOption, Option.map_some, Option.some.injEq,
      Option.map_eq_some_iff, Prod.mk.injEq] at touched
    obtain ⟨l, first, word, before⟩ := touched
    obtain ⟨leaf, offset⟩ := belongs.touching l first
    exact ⟨s, c, rfl, resolved, by rw [leaf, Option.map_some, word], offset.trans before⟩

end XuleLang
