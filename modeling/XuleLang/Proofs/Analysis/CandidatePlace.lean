import XuleLang.Proofs.Analysis.Caret

/-!
Where candidates are asked for.

A caret names a token of the stream, which need not be visible: candidates are asked for at the
first visible token that does not stand before it. This is a token that can be completed or that
the caret splits, if the caret touches one, and else the first visible token from the caret on.

The number of the token to the left stands for the gap between two visible tokens, in which there is
a marker or something hidden. Characters that begin no token leave nothing in the stream. Behind
them there is no gap to speak of, and the number is that of a visible token which the caret has
passed.
-/

namespace XuleLang

variable {text : List Char} {o i : Nat} {s : TokenStream} {ts : List Token} {t u v : Token}

/-- The caret stands inside the token. -/
def Token.splitAt (t : Token) (o : Nat) : Bool :=
  t.span.start.offset < o && o < t.span.stop.offset

/-- The token to complete at a caret, among the visible tokens of a text: the first one that it
touches if that reads as a name or is split, and else the first one from the caret on. -/
def tokenToComplete? (o : Nat) (ts : List Token) : Option Token :=
  match ts.find? (·.touchedAt o) with
  | some t =>
    if t.kind.isIdentifierLike || t.splitAt o then some t
    else ts.find? (o ≤ ·.span.start.offset)
  | none => ts.find? (o ≤ ·.span.start.offset)

/-- The two tokens are neighbours in the stream but not in the text, the caret stands at the second
one, and that does not read as a name. -/
structure StrayBetween (o : Nat) (v t : Token) : Prop where
  neighbours : v.index + 1 = t.index
  passed : v.span.stop.offset < o
  here : t.span.start.offset = o
  noName : t.kind.isIdentifierLike = false

instance : Decidable (StrayBetween o v t) :=
  decidable_of_iff (v.index + 1 = t.index ∧ v.span.stop.offset < o ∧ t.span.start.offset = o ∧
      t.kind.isIdentifierLike = false)
    ⟨fun ⟨neighbours, passed, here, noName⟩ => ⟨neighbours, passed, here, noName⟩,
      fun stray => ⟨stray.neighbours, stray.passed, stray.here, stray.noName⟩⟩

/-! ## Numbers and offsets -/

/-- The visible tokens of a text have their numbers in the stream, and the last of them is empty
and stands at the end. -/
structure Listed (text : List Char) (ts : List Token) : Prop where
  follow : Follow text ts
  numbers : ts.Pairwise fun a b => a.index < b.index
  ended : ∃ front last, ts = front ++ [last] ∧ last.span = .single (positionAt text text.length)

/-- Where the numbers rise along a list, they compare as the places do. -/
theorem lt_iff_place_lt {α : Type} {xs : List α} {number : α → Nat}
    (rising : xs.Pairwise fun x y => number x < number y) {m n : Nat} (inside : m < xs.length)
    (inside' : n < xs.length) : number xs[m] < number xs[n] ↔ m < n := by
  have numbers := List.pairwise_iff_getElem.mp rising
  refine ⟨fun less => Nat.lt_of_not_le fun upTo => ?_, numbers m n inside inside'⟩
  rcases Nat.lt_or_eq_of_le upTo with before | rfl
  · exact Nat.lt_asymm less (numbers n m inside' inside before)
  · exact Nat.lt_irrefl _ less

namespace Listed

theorem start_le_stop (listed : Listed text ts) (member : t ∈ ts) :
    t.span.start.offset ≤ t.span.stop.offset :=
  (listed.follow.piece t member).span.ordered

/-- The token of the smaller number stops before the other one starts. -/
theorem stop_le_start (listed : Listed text ts) (first : t ∈ ts) (second : u ∈ ts)
    (before : t.index < u.index) : t.span.stop.offset ≤ u.span.start.offset := by
  obtain ⟨m, inside, rfl⟩ := List.getElem_of_mem first
  obtain ⟨n, inside', rfl⟩ := List.getElem_of_mem second
  have earlier := (lt_iff_place_lt listed.numbers inside inside').mp before
  exact List.pairwise_iff_getElem.mp listed.follow.inOrder m n inside inside' earlier

/-- A token is the first one with a property if no token of a smaller number has it. -/
theorem find?_eq_some {p : Token → Bool} (listed : Listed text ts) (member : t ∈ ts)
    (holds : p t = true) (first : ∀ u ∈ ts, u.index < t.index → p u = false) :
    ts.find? p = some t := by
  obtain ⟨before, behind, rfl⟩ := List.append_of_mem member
  obtain ⟨-, -, apart⟩ := List.pairwise_append.mp listed.numbers
  have nothing : before.find? p = none := by
    refine List.find?_eq_none.mpr fun u there => ?_
    simp [first u (List.mem_append_left _ there) (apart u there t (.head _))]
  rw [List.find?_append, nothing, Option.none_or, List.find?_cons_of_pos holds]

/-- Only tokens of greater numbers than the first one with a property have it, too. -/
theorem index_le_of_find? {p : Token → Bool} (listed : Listed text ts)
    (found : ts.find? p = some t) (member : u ∈ ts) (holds : p u = true) :
    t.index ≤ u.index := by
  obtain ⟨before, behind, rfl, none⟩ := (List.find?_eq_some_iff_append.mp found).2
  obtain ⟨-, numbers, -⟩ := List.pairwise_append.mp listed.numbers
  rcases List.mem_append.mp member with earlier | later
  · exact absurd holds (by simpa using none u earlier)
  · rcases List.mem_cons.mp later with rfl | behind
    · exact Nat.le_refl _
    · exact Nat.le_of_lt (List.rel_of_pairwise_cons numbers behind)

/-- Only tokens of smaller numbers than the last one with a property have it, too. -/
theorem le_index_of_find?_reverse {p : Token → Bool} (listed : Listed text ts)
    (found : ts.reverse.find? p = some t) (member : u ∈ ts) (holds : p u = true) :
    u.index ≤ t.index := by
  obtain ⟨behind, before, reverse_eq, none⟩ := (List.find?_eq_some_iff_append.mp found).2
  obtain rfl : ts = before.reverse ++ t :: behind.reverse := by
    simpa using congrArg List.reverse reverse_eq
  obtain ⟨-, -, apart⟩ := List.pairwise_append.mp listed.numbers
  rcases List.mem_append.mp member with earlier | later
  · exact Nat.le_of_lt (apart u earlier t (.head _))
  · rcases List.mem_cons.mp later with rfl | behind
    · exact Nat.le_refl _
    · exact absurd holds (by simpa using none u (List.mem_reverse.mp behind))

/-- The token of a number is the first one from the number on. -/
theorem find?_index (listed : Listed text ts) (member : t ∈ ts) :
    ts.find? (t.index ≤ ·.index) = some t :=
  listed.find?_eq_some member (decide_eq_true (Nat.le_refl _)) fun _ _ earlier =>
    decide_eq_false (Nat.not_le.mpr earlier)

theorem eq_of_index (listed : Listed text ts) (first : t ∈ ts) (second : u ∈ ts)
    (same : t.index = u.index) : t = u := by
  have found := listed.find?_index first
  rw [same, listed.find?_index second] at found
  exact (Option.some.inj found).symm

/-- Tokens start and stop in the order of their numbers. -/
theorem offsets_le (listed : Listed text ts) (first : t ∈ ts) (second : u ∈ ts)
    (upTo : t.index ≤ u.index) : t.span.start.offset ≤ u.span.start.offset ∧
      t.span.stop.offset ≤ u.span.stop.offset := by
  rcases Nat.lt_or_eq_of_le upTo with before | same
  · have apart := listed.stop_le_start first second before
    exact ⟨Nat.le_trans (listed.start_le_stop first) apart,
      Nat.le_trans apart (listed.start_le_stop second)⟩
  · rw [listed.eq_of_index first second same]
    exact ⟨Nat.le_refl _, Nat.le_refl _⟩

/-- A token that starts before the end is not the last one. -/
theorem exists_index_lt (listed : Listed text ts) (member : t ∈ ts)
    (inside : t.span.start.offset < text.length) : ∃ last ∈ ts, t.index < last.index := by
  obtain ⟨front, last, rfl, span⟩ := listed.ended
  refine ⟨last, by simp, ?_⟩
  obtain ⟨-, -, apart⟩ := List.pairwise_append.mp listed.numbers
  rcases List.mem_append.mp member with earlier | same
  · exact apart t earlier last (.head _)
  · rw [List.mem_singleton.mp same, span] at inside
    exact absurd inside (Nat.lt_irrefl _)

end Listed

/-- A token of a text has as many characters as its stretch. -/
theorem Follow.charCount_eq (follow : Follow text ts) (member : t ∈ ts) :
    t.span.start.offset + t.charCount = t.span.stop.offset := by
  have counted := (follow.piece t member).length_chars
  rwa [Piece.chars, String.length_toList] at counted

/-- The visible tokens of a stream are listed. -/
theorem listed_of_read (read : tokenizeWithSeams text = .ok s) :
    Listed text (visibleTokens s.tokens) := by
  obtain ⟨numbers, follow, front, last, visible_eq, last_ends, -⟩ :=
    visible_of_tokenizeWithSeams read
  obtain ⟨others, ending, tokens_eq, -, span_eq, inside⟩ :=
    (TokenStream.isLossless_of_ofSteps arranges_withSeams
      (ofSteps_of_tokenizeWithSeams read)).ended
  have inOrder : s.tokens.Pairwise fun a b => a.index < b.index :=
    List.pairwise_map.mp (numbers ▸ List.pairwise_lt_range)
  refine ⟨follow, inOrder.sublist List.filter_sublist, front, last, visible_eq, ?_⟩
  have member : last ∈ s.tokens :=
    (List.mem_filter.mp (visible_eq ▸ List.mem_append_right front (.head _))).1
  rw [tokens_eq, List.mem_append, List.mem_singleton] at member
  rcases member with early | rfl
  · exact absurd last_ends (inside last early)
  · exact span_eq

/-! ## From a hit to a token -/

section Hits

variable {ls : List Leaf} {h : Hit} {last : Nat}

/-- With a stray token in the way, the caret touches the one behind it and none before. -/
theorem StrayBetween.find?_touchedAt (stray : StrayBetween o v t) (listed : Listed text ts)
    (first : v ∈ ts) (second : t ∈ ts) : ts.find? (·.touchedAt o) = some t := by
  have ordered := listed.start_le_stop second
  obtain ⟨neighbours, passed, here, -⟩ := stray
  have touched : t.touchedAt o = true := by
    simp only [Token.touchedAt, Bool.and_eq_true, decide_eq_true_eq]
    omega
  refine listed.find?_eq_some second touched fun u member earlier => ?_
  have upTo := (listed.offsets_le member first (by omega)).2
  simp only [Token.touchedAt, Bool.and_eq_false_iff, decide_eq_false_iff_not]
  omega

/-- The first token from a number on is the first one from the caret on, if the tokens from the
number on are those from the caret on. -/
theorem find?_index_eq (same : ∀ u ∈ ts, i ≤ u.index ↔ o ≤ u.span.start.offset) :
    ts.find? (i ≤ ·.index) = ts.find? (o ≤ ·.span.start.offset) := by
  rw [← List.head?_filter, ← List.head?_filter]
  exact congrArg _ (List.filter_congr fun u member => decide_eq_decide.mpr (same u member))

/-- The number behind a token that starts before the caret counts from the caret on, if all tokens
behind it do not start before the caret. -/
theorem find?_behind (listed : Listed text ts) (inside : o ≤ text.length)
    (bounded : ∀ u ∈ ts, u.index ≤ last) (member : t ∈ ts) (passed : t.span.start.offset < o)
    (others : ∀ u ∈ ts, t.index < u.index → o ≤ u.span.start.offset) :
    ts.find? (min (t.index + 1) last ≤ ·.index) = ts.find? (o ≤ ·.span.start.offset) := by
  obtain ⟨final, there, before⟩ := listed.exists_index_lt member (Nat.lt_of_lt_of_le passed inside)
  have room := bounded final there
  refine find?_index_eq fun u place => ⟨fun behind => others u place (by omega), fun ahead => ?_⟩
  refine Decidable.byContradiction fun early => ?_
  have upTo := (listed.offsets_le place member (by omega)).1
  omega

/-- The number that a caret at the start of a token without a name gives: of the token before it if
that is visible, and else the same as its own. -/
theorem find?_before (listed : Listed text ts) (touched : ts.find? (·.touchedAt o) = some t)
    (here : t.span.start.offset = o) (noName : t.kind.isIdentifierLike = false) :
    (∃ v ∈ ts, StrayBetween o v t ∧ ts.find? (t.index - 1 ≤ ·.index) = some v) ∨
      (∀ v ∈ ts, ¬StrayBetween o v t) ∧ ts.find? (t.index - 1 ≤ ·.index) = some t := by
  have member := List.mem_of_find?_eq_some touched
  by_cases visible : ∃ v ∈ ts, v.index + 1 = t.index
  case pos =>
    obtain ⟨v, there, neighbours⟩ := visible
    have number : t.index - 1 = v.index := by omega
    have before := listed.stop_le_start there member (by omega)
    have ordered := listed.start_le_stop there
    refine .inl ⟨v, there, ⟨neighbours, ?_, here, noName⟩, number ▸ listed.find?_index there⟩
    -- A token that stopped at the caret would be touched first.
    refine Nat.lt_of_le_of_ne (here ▸ before) fun meets => ?_
    have first := listed.index_le_of_find? touched there (by simp [Token.touchedAt]; omega)
    omega
  case neg =>
    refine .inr ⟨fun v there stray => visible ⟨v, there, stray.neighbours⟩, ?_⟩
    refine listed.find?_eq_some member (by simp) fun u there earlier => ?_
    have apart : u.index + 1 ≠ t.index := fun neighbours => visible ⟨u, there, neighbours⟩
    exact decide_eq_false (by omega)

/-- Candidates for a caret are asked for at the token to complete, or at a stray one before it. -/
def AsksAt (o : Nat) (ts : List Token) (i : Nat) : Prop :=
  (∃ v ∈ ts, ∃ t ∈ ts, StrayBetween o v t ∧ ts.find? (i ≤ ·.index) = some v) ∨
    (∀ v ∈ ts, ∀ t ∈ ts, ¬StrayBetween o v t) ∧ ts.find? (i ≤ ·.index) = tokenToComplete? o ts

namespace AsksAt

/-- Only the token that is touched first can stand behind a stray one. -/
theorem of_noStray (listed : Listed text ts)
    (noStray : ∀ t, ts.find? (·.touchedAt o) = some t → ∀ v ∈ ts, ¬StrayBetween o v t)
    (asked : ts.find? (i ≤ ·.index) = tokenToComplete? o ts) : AsksAt o ts i :=
  .inr ⟨fun v first t second stray =>
    noStray t (stray.find?_touchedAt listed first second) v first stray, asked⟩

/-- A token that reads as a name, or that the caret splits, is the one to complete. -/
theorem own (listed : Listed text ts) (touched : ts.find? (·.touchedAt o) = some t)
    (completes : t.kind.isIdentifierLike = true ∨ t.splitAt o = true) : AsksAt o ts t.index := by
  refine .of_noStray listed (fun u found v _ stray => ?_) ?_
  · obtain rfl : u = t := Option.some.inj (found.symm.trans touched)
    rcases completes with name | split
    · exact absurd name (by simp [stray.noName])
    · simp [Token.splitAt, stray.here] at split
  · rw [listed.find?_index (List.mem_of_find?_eq_some touched), tokenToComplete?, touched]
    simp [completes]

/-- At the start of any other token the number before it stands for it, but for a stray one. -/
theorem before (listed : Listed text ts) (touched : ts.find? (·.touchedAt o) = some t)
    (here : t.span.start.offset = o) (noName : t.kind.isIdentifierLike = false) :
    AsksAt o ts (t.index - 1) := by
  have member := List.mem_of_find?_eq_some touched
  rcases find?_before listed touched here noName with ⟨v, there, stray, found⟩ | ⟨noStray, found⟩
  · exact .inl ⟨v, there, t, member, stray, found⟩
  · refine .of_noStray listed (fun u same => ?_) ?_
    · obtain rfl : u = t := Option.some.inj (same.symm.trans touched)
      exact noStray
    · have first : ts.find? (o ≤ ·.span.start.offset) = some t := by
        refine listed.find?_eq_some member (by simp [here]) fun u there earlier => ?_
        have ahead := listed.stop_le_start there member earlier
        have ordered := listed.start_le_stop there
        refine decide_eq_false fun reached => ?_
        have upTo := listed.index_le_of_find? touched there (by simp [Token.touchedAt]; omega)
        omega
      have whole : t.splitAt o = false := by simp [Token.splitAt, here]
      rw [found]
      simp [tokenToComplete?, touched, noName, whole, first]

/-- Behind a token that starts before the caret candidates are asked for from the caret on. -/
theorem behind (listed : Listed text ts) (inside : o ≤ text.length)
    (bounded : ∀ u ∈ ts, u.index ≤ last) (member : t ∈ ts) (passed : t.span.start.offset < o)
    (others : ∀ u ∈ ts, t.index < u.index → o ≤ u.span.start.offset)
    (touched : ∀ u, ts.find? (·.touchedAt o) = some u →
      u = t ∧ t.kind.isIdentifierLike = false ∧ t.splitAt o = false) :
    AsksAt o ts (min (t.index + 1) last) := by
  refine .of_noStray listed (fun u found v _ stray => ?_) ?_
  · obtain ⟨rfl, -⟩ := touched u found
    have here := stray.here
    omega
  · rw [find?_behind listed inside bounded member passed others, tokenToComplete?]
    split
    case h_1 u found =>
      obtain ⟨rfl, noName, whole⟩ := touched u found
      simp [noName, whole]
    case h_2 => rfl

end AsksAt

/-- The number that a caret gives which touches a token. -/
theorem asksAt_of_touching {l : Leaf} (listed : Listed text ts) (inside : o ≤ text.length)
    (apart : insideBreak text o = false) (bounded : ∀ u ∈ ts, u.index ≤ last)
    (touched : ts.find? (·.touchedAt o) = some l.token) :
    AsksAt o ts (Hit.tokenIndex ⟨l, l.token.charsBefore text o, true⟩ last) := by
  have member := List.mem_of_find?_eq_some touched
  have reached := List.find?_some touched
  have count := listed.follow.charCount_eq member
  have charsBefore : l.token.charsBefore text o = o - l.token.span.start.offset := by
    simp [Token.charsBefore, apart]
  simp only [Token.touchedAt, Bool.and_eq_true, decide_eq_true_eq] at reached
  unfold Hit.tokenIndex
  simp only [charsBefore, Bool.not_true, Bool.false_eq_true, if_false]
  split
  case isTrue name => exact .own listed touched (.inl name)
  case isFalse name =>
    have noName : l.token.kind.isIdentifierLike = false := by simpa using name
    split
    case isTrue => exact .before listed touched (by omega) noName
    case isFalse =>
      split
      case isTrue =>
        refine .behind listed inside bounded member (by omega) (fun u there later => ?_) ?_
        · have := listed.stop_le_start member there later
          omega
        · intro u found
          obtain rfl : u = l.token := Option.some.inj (found.symm.trans touched)
          refine ⟨rfl, noName, ?_⟩
          simp only [Token.splitAt, Bool.and_eq_false_iff, decide_eq_false_iff_not]
          omega
      case isFalse =>
        refine .own listed touched (.inr ?_)
        simp only [Token.splitAt, Bool.and_eq_true, decide_eq_true_eq]
        omega

/-- The number that a caret gives which touches no token. -/
theorem asksAt_of_untouched {l : Leaf} (listed : Listed text ts) (inside : o ≤ text.length)
    (bounded : ∀ u ∈ ts, u.index ≤ last) (untouched : ts.find? (·.touchedAt o) = none)
    (behind : ts.reverse.find? (·.span.stop.offset < o) = some l.token) :
    AsksAt o ts (Hit.tokenIndex ⟨l, l.token.charCount, false⟩ last) := by
  have member := List.mem_reverse.mp (List.mem_of_find?_eq_some behind)
  have passed := List.find?_some behind
  have ordered := listed.start_le_stop member
  simp only [decide_eq_true_eq] at passed
  change AsksAt o ts (min (l.token.index + 1) last)
  refine .behind listed inside bounded member (by omega) (fun u there later => ?_)
    (by simp [untouched])
  have apart := List.find?_eq_none.mp untouched u there
  have notBehind : ¬u.span.stop.offset < o := fun stops => by
    have := listed.le_index_of_find?_reverse behind there (decide_eq_true stops)
    omega
  simp only [Token.touchedAt, Bool.not_eq_true, Bool.and_eq_false_iff, decide_eq_false_iff_not]
    at apart
  omega

/-- Before all tokens candidates are asked for at the first one. -/
theorem asksAt_zero (listed : Listed text ts) (untouched : ts.find? (·.touchedAt o) = none)
    (ahead : ∀ u ∈ ts, o ≤ u.span.stop.offset) : AsksAt o ts 0 := by
  refine .of_noStray listed (by simp [untouched]) ?_
  rw [tokenToComplete?, untouched]
  refine find?_index_eq fun u member => ⟨fun _ => ?_, fun _ => Nat.zero_le _⟩
  have apart := List.find?_eq_none.mp untouched u member
  have stops := ahead u member
  simp only [Token.touchedAt, Bool.not_eq_true, Bool.and_eq_false_iff, decide_eq_false_iff_not]
    at apart
  omega

end Hits

/-- A caret in a text asks for the token to complete, or for a stray one. -/
theorem caretAt?_asksAt (read : tokenizeWithSeams text = .ok s) (inside : o ≤ text.length)
    (apart : insideBreak text o = false) :
    ∃ c, (parse s.tokens).tree.caretAt? (positionAt text o).line (positionAt text o).column =
      some c ∧ AsksAt o (visibleTokens s.tokens) c.tokenIndex := by
  have listed := listed_of_read read
  obtain ⟨numbers, -, ends⟩ := visible_of_tokenizeWithSeams read
  have bounded : ∀ u ∈ visibleTokens s.tokens, u.index ≤ s.tokens.length - 1 := fun u member => by
    have := numbers.index_lt (List.mem_filter.mp member).1
    omega
  have leaves := leaves_parse ends
  obtain ⟨last, n, trees, -, -, root⟩ := parse_root ends
  have covers : (parse s.tokens).tree.root.span? = some (wholeSpan s.tokens) :=
    congrArg Tree.span? root
  rw [caretAt?_of_touches covers (wholeSpan_touches read inside), hit?_parse read inside]
  refine ⟨_, rfl, ?_⟩
  rw [← leaves] at listed bounded ⊢
  unfold hitAmongLeaves?
  cases touched : (parse s.tokens).tree.root.leaves.find? (·.token.touchedAt o) with
  | some l =>
    exact asksAt_of_touching listed inside apart bounded
      (List.find?_map.trans (congrArg (Option.map _) touched))
  | none =>
    have untouched : ((parse s.tokens).tree.root.leaves.map (·.token)).find? (·.touchedAt o) =
        none := List.find?_map.trans (congrArg (Option.map _) touched)
    cases behind : (parse s.tokens).tree.root.leaves.reverse.find?
        (·.token.span.stop.offset < o) with
    | some l =>
      exact asksAt_of_untouched listed inside bounded untouched
        (by rw [← List.map_reverse]; exact List.find?_map.trans (congrArg (Option.map _) behind))
    | none =>
      refine asksAt_zero listed untouched fun u member => ?_
      obtain ⟨l, there, rfl⟩ := List.mem_map.mp member
      simpa using List.find?_eq_none.mp behind l (List.mem_reverse.mpr there)

/-- A token to complete reaches up to the caret or lies behind it, and there is always one. -/
theorem exists_tokenToComplete? (listed : Listed text ts) (inside : o ≤ text.length) :
    ∃ t, tokenToComplete? o ts = some t ∧ o ≤ t.span.stop.offset := by
  have ahead : ∃ t, ts.find? (o ≤ ·.span.start.offset) = some t ∧ o ≤ t.span.stop.offset := by
    obtain ⟨front, last, rfl, span⟩ := listed.ended
    have some : ((front ++ [last]).find? (o ≤ ·.span.start.offset)).isSome := by
      simp only [List.find?_isSome, decide_eq_true_eq]
      exact ⟨last, by simp, by rw [span]; exact inside⟩
    obtain ⟨t, found⟩ := Option.isSome_iff_exists.mp some
    have starts := List.find?_some found
    simp only [decide_eq_true_eq] at starts
    exact ⟨t, found, Nat.le_trans starts (listed.start_le_stop (List.mem_of_find?_eq_some found))⟩
  unfold tokenToComplete?
  split
  case h_1 t touched =>
    split
    case isTrue =>
      have reached := List.find?_some touched
      simp only [Token.touchedAt, Bool.and_eq_true, decide_eq_true_eq] at reached
      exact ⟨t, rfl, reached.2⟩
    case isFalse => exact ahead
  case h_2 => exact ahead

/-- A probe looks for the first visible token from a number on. -/
theorem getElem?_caretOf {tokens : List Token}
    (found : (visibleTokens tokens).find? (i ≤ ·.index) = some t) :
    (visibleTokens tokens)[caretOf tokens i]? = some t := by
  rw [List.find?_eq_bind_findIdx?_getElem?] at found
  obtain ⟨n, place, there⟩ := Option.bind_eq_some_iff.mp found
  simp only [caretOf, place, Option.getD_some, there]

/-- **Candidates are asked for from the caret on.** A caret in a text that can be read, and not
inside a line break, asks for the token to complete: the first visible one that it touches if that
reads as a name or is split, and else the first visible one from the caret on. There is one
exception. Where the caret stands at the start of a token without a name, behind characters that
begin no token, and these stand right behind a visible token, it asks for the latter, which it has
passed. -/
theorem candidates_are_asked_for_from_the_caret_on (read : tokenizeWithSeams text = .ok s)
    (inside : o ≤ text.length) (apart : insideBreak text o = false) :
    let p := positionAt text o
    let ts := visibleTokens s.tokens
    ∃ c t, (parse s.tokens).tree.caretAt? p.line p.column = some c ∧
      ts.find? (c.tokenIndex ≤ ·.index) = some t ∧
      ts[caretOf s.tokens c.tokenIndex]? = some t ∧
      ((∀ v ∈ ts, ∀ u ∈ ts, ¬StrayBetween o v u) →
        tokenToComplete? o ts = some t ∧ o ≤ t.span.stop.offset) ∧
      ∀ v ∈ ts, ∀ u ∈ ts, StrayBetween o v u → t = v := by
  intro p ts
  have listed : Listed text ts := listed_of_read read
  obtain ⟨c, resolved, asked⟩ := caretAt?_asksAt read inside apart
  rcases asked with ⟨v, first, u, second, stray, found⟩ | ⟨noStray, found⟩
  · refine ⟨c, v, resolved, found, getElem?_caretOf found,
      fun noStray => absurd stray (noStray v first u second), fun v' first' u' second' stray' => ?_⟩
    have touched := stray.find?_touchedAt listed first second
    rw [stray'.find?_touchedAt listed first' second'] at touched
    obtain rfl := Option.some.inj touched
    refine listed.eq_of_index first first' ?_
    have := stray.neighbours
    have := stray'.neighbours
    omega
  · obtain ⟨t, completes, reaches⟩ := exists_tokenToComplete? listed inside
    rw [completes] at found
    exact ⟨c, t, resolved, found, getElem?_caretOf found, fun _ => ⟨completes, reaches⟩,
      fun v first u second stray => absurd stray (noStray v first u second)⟩

/-- A character that begins no token behind a number, and a parenthesis behind a blank. -/
def blankBehindStray : List Char := "1~ (".toList

/-- With a blank in between, a caret at the parenthesis asks for it. -/
theorem blank_behind_stray_is_a_gap :
    ∃ s c t, tokenizeWithSeams blankBehindStray = .ok s ∧
      (parse s.tokens).tree.caretAt? (positionAt blankBehindStray 3).line
        (positionAt blankBehindStray 3).column = some c ∧
      (visibleTokens s.tokens)[caretOf s.tokens c.tokenIndex]? = some t ∧ t.text = "(" := by
  have wanted : (tokenizeWithSeams blankBehindStray).toOption.map (fun s =>
      let ts := visibleTokens s.tokens
      (decide (∀ v ∈ ts, ∀ u ∈ ts, ¬StrayBetween 3 v u),
        (tokenToComplete? 3 ts).map (·.text))) = some (true, some "(") := by decide +kernel
  cases read : tokenizeWithSeams blankBehindStray with
  | error failure => simp [read, Except.toOption] at wanted
  | ok s =>
    simp only [read, Except.toOption, Option.map_some, Option.some.injEq, Prod.mk.injEq,
      decide_eq_true_eq] at wanted
    obtain ⟨c, t, resolved, -, asked, completes, -⟩ :=
      candidates_are_asked_for_from_the_caret_on read (show 3 ≤ blankBehindStray.length by decide)
        (by decide)
    have text_eq := wanted.2
    rw [(completes wanted.1).1] at text_eq
    exact ⟨s, c, t, rfl, resolved, asked, Option.some.inj text_eq⟩

/-- The same with nothing before the parenthesis. -/
def nothingBehindStray : List Char := "1~(".toList

/-- Without the blank, a caret at the parenthesis asks for the number, which it has passed. -/
theorem nothing_behind_stray_is_no_gap :
    ∃ s c t, tokenizeWithSeams nothingBehindStray = .ok s ∧
      insideBreak nothingBehindStray 2 = false ∧
      (parse s.tokens).tree.caretAt? (positionAt nothingBehindStray 2).line
        (positionAt nothingBehindStray 2).column = some c ∧
      (visibleTokens s.tokens).find? (c.tokenIndex ≤ ·.index) = some t ∧
      tokenToComplete? 2 (visibleTokens s.tokens) ≠ some t ∧ t.span.stop.offset < 2 := by
  have asked : (tokenizeWithSeams nothingBehindStray).toOption.bind (fun s =>
      ((parse s.tokens).tree.caretAt? (positionAt nothingBehindStray 2).line
        (positionAt nothingBehindStray 2).column).bind fun c =>
      ((visibleTokens s.tokens).find? (c.tokenIndex ≤ ·.index)).map fun t =>
        (decide (tokenToComplete? 2 (visibleTokens s.tokens) ≠ some t), t.span.stop.offset)) =
      some (true, 1) := by decide +kernel
  cases read : tokenizeWithSeams nothingBehindStray with
  | error failure => simp [read, Except.toOption] at asked
  | ok s =>
    simp only [read, Except.toOption, Option.bind_some, Option.bind_eq_some_iff,
      Option.map_eq_some_iff, Prod.mk.injEq, decide_eq_true_eq] at asked
    obtain ⟨c, resolved, t, found, other, stops⟩ := asked
    exact ⟨s, c, t, rfl, by decide, resolved, found, other, by omega⟩

end XuleLang
