import XuleLang.Proofs.Token.Visible
import Mathlib.Data.List.Induction

/-!
Streams with markers beside those without.

A text is read into the same tokens whether markers are put where they touch or not; only the
numbers of the tokens differ. In the stream without markers a token has as many tokens before it as
there are before it in the other stream that are no markers. Counting so keeps the order, also for
the places behind tokens, where markers may stand.
-/

namespace XuleLang

variable {tokens : List Token} {t : Token} {i v : Nat} {text : List Char}

/-- The number that takes the place of `i` once the markers are left out. -/
def placeWithoutMarkers (tokens : List Token) (i : Nat) : Nat :=
  (tokens.take i).countP (·.channel != .marker)

/-- The token with the number that `place` gives for its own. -/
def Token.renumbered (place : Nat → Nat) (t : Token) : Token := { t with index := place t.index }

/-! ## The order of places -/

theorem placeWithoutMarkers_mono (tokens : List Token) (before : i ≤ v) :
    placeWithoutMarkers tokens i ≤ placeWithoutMarkers tokens v :=
  (List.take_prefix_take_left before).sublist.countP_le

/-- Behind a token that is no marker the count is greater by one. -/
theorem placeWithoutMarkers_succ (here : tokens[i]? = some t) (read : t.channel ≠ .marker) :
    placeWithoutMarkers tokens (i + 1) = placeWithoutMarkers tokens i + 1 := by
  rw [placeWithoutMarkers, List.take_add_one, here, List.countP_append]
  simp [placeWithoutMarkers, read]

/-- What is up to a token that is no marker, stays so. -/
theorem placeWithoutMarkers_le_iff (here : tokens[i]? = some t) (read : t.channel ≠ .marker) :
    placeWithoutMarkers tokens v ≤ placeWithoutMarkers tokens i ↔ v ≤ i := by
  refine ⟨fun least => Nat.le_of_not_lt fun behind => ?_, placeWithoutMarkers_mono tokens⟩
  have later := placeWithoutMarkers_mono tokens (Nat.succ_le_of_lt behind)
  rw [placeWithoutMarkers_succ here read] at later
  omega

/-! ## Numbers -/

/-- Numbering anew without the markers gives each token the number that counting gives. -/
theorem IsNumbered.numbered_filter (numbers : IsNumbered tokens) :
    numbered (tokens.filter (·.channel != .marker)) =
      (tokens.filter (·.channel != .marker)).map (·.renumbered (placeWithoutMarkers tokens)) := by
  induction tokens using List.reverseRecOn with
  | nil => rfl
  | append_singleton ts u ih =>
    obtain ⟨earlier, last⟩ : IsNumbered ts ∧ u.index = ts.length := by
      simpa [IsNumbered, List.range_succ] using numbers
    -- What is put behind the others changes no count before it.
    have before : ∀ t ∈ ts.filter (·.channel != .marker),
        t.renumbered (placeWithoutMarkers (ts ++ [u])) =
          t.renumbered (placeWithoutMarkers ts) := by
      intro t member
      have inside := earlier.index_lt (List.mem_filter.mp member).1
      simp only [Token.renumbered, placeWithoutMarkers,
        List.take_append_of_le_length (Nat.le_of_lt inside)]
    have counted : placeWithoutMarkers (ts ++ [u]) u.index =
        (ts.filter (·.channel != .marker)).length := by
      rw [placeWithoutMarkers, last, List.take_left, List.countP_eq_length_filter]
    rw [List.filter_append, List.map_append, List.map_congr_left before, ← ih earlier]
    by_cases read : u.channel = .marker
    · simp [read]
    · simp [read, numbered, List.mapIdx_concat, Token.renumbered, counted]

/-! ## Both readings of a text -/

/-- Whether a text can be read does not depend on what is put among its tokens. -/
theorem TokenStream.ofSteps_eq_error {arrange other : List Token → List Token}
    {steps : List (LexOutcome × Lexer)} {failure : TooDeep}
    (stopped : ofSteps arrange steps = .error failure) : ofSteps other steps = .error failure := by
  cases found : (steps.map (·.1)).findSome? failure? with
  | some f => simpa only [ofSteps, found] using stopped
  | none => simp [ofSteps, found] at stopped

/-- A text that cannot be read with markers cannot be read without them. -/
theorem tokenize_eq_error {text : List Char} {failure : TooDeep}
    (stopped : tokenizeWithSeams text = .error failure) : tokenize text = .error failure :=
  (tokenize_eq text).trans (TokenStream.ofSteps_eq_error
    ((tokenizeWithSeams_eq text).symm.trans stopped))

/-- The tokens of a stream with markers and those of the stream without them. -/
structure SeamedBeside (seamed plain : List Token) : Prop where
  numbers : IsNumbered seamed
  tokens : plain = (seamed.filter (·.channel != .marker)).map
    (·.renumbered (placeWithoutMarkers seamed))
  ended : wholeSpan plain = wholeSpan seamed

/-- The parser sees the same tokens, but for their numbers. -/
theorem SeamedBeside.visible {seamed plain : List Token} (beside : SeamedBeside seamed plain) :
    visibleTokens plain =
      (visibleTokens seamed).map (·.renumbered (placeWithoutMarkers seamed)) := by
  have read (t : Token) : (t.channel != .marker && t.isVisible) = t.isVisible := by
    cases here : t.channel <;> simp [Token.isVisible, here]
  have kept : (Token.isVisible ∘ Token.renumbered (placeWithoutMarkers seamed)) =
      Token.isVisible := rfl
  rw [beside.tokens, visibleTokens, List.filter_map, kept, List.filter_filter]
  simp only [Bool.and_comm, read, visibleTokens]

/-- A text is read in both ways or in neither, and then to the same tokens. -/
theorem tokenize_beside_tokenizeWithSeams (text : List Char) :
    (∃ failure, tokenize text = .error failure ∧ tokenizeWithSeams text = .error failure) ∨
    ∃ plain seamed, tokenize text = .ok plain ∧ tokenizeWithSeams text = .ok seamed ∧
      plain.complaints = seamed.complaints ∧ SeamedBeside seamed.tokens plain.tokens := by
  cases read : tokenizeWithSeams text with
  | error failure => exact .inl ⟨failure, tokenize_eq_error read, rfl⟩
  | ok seamed =>
    obtain ⟨ts, es, all, tokens_eq, complaints, others⟩ :=
      TokenStream.ofSteps_eq_ok (ofSteps_of_tokenizeWithSeams read)
    have noMarkers : ∀ t ∈ ts, t.channel ≠ .marker := fun t member =>
      (all.read t member).channel_ne_marker
    have numbers : IsNumbered seamed.tokens := tokens_eq ▸ numbered_isNumbered _
    obtain ⟨marked, -, seamed_eq, -⟩ := arranges_withSeams.placed all
    obtain ⟨front, -, plain_eq, -⟩ := arranges_id.placed all
    refine .inr ⟨_, seamed, (tokenize_eq text).trans (others id), rfl, rfl, numbers, ?_, ?_⟩
    · rw [← numbers.numbered_filter, tokens_eq, numbered_filter_numbered,
        filter_withSeams noMarkers, id]
    · rw [tokens_eq, seamed_eq, plain_eq]
      simp [wholeSpan]

end XuleLang
