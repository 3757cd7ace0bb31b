import XuleLang.Syntax.Parse
import XuleLang.Proofs.Parser.Building
import XuleLang.Proofs.Token.Lossless

/-!
What the parser sees of a text.

The visible tokens of a stream follow each other in the text, and the last of them is the end.
Markers do not count, since they are not visible.
-/

namespace XuleLang

/-- Each token has the number of tokens before it. -/
def IsNumbered (tokens : List Token) : Prop := tokens.map (·.index) = List.range tokens.length
deriving Decidable

theorem numbered_isNumbered (ts : List Token) : IsNumbered (numbered ts) := by
  refine List.ext_getElem (by simp [numbered]) fun i inside _ => ?_
  simp [numbered]

theorem IsNumbered.index_lt {tokens : List Token} (numbers : IsNumbered tokens) {t : Token}
    (member : t ∈ tokens) : t.index < tokens.length := by
  rw [← List.mem_range, ← numbers]
  exact List.mem_map_of_mem member

/-- A token stands at the place that its number names. -/
theorem IsNumbered.getElem?_index {tokens : List Token} (numbers : IsNumbered tokens) {t : Token}
    (member : t ∈ tokens) : tokens[t.index]? = some t := by
  obtain ⟨i, inside, rfl⟩ := List.getElem_of_mem member
  have place : tokens[i].index = i := by
    have same := congrArg (·[i]?) numbers
    simpa [inside] using same
  rw [place, List.getElem?_eq_getElem inside]

/-- In a stream the numbers of the visible tokens are their places. -/
theorem IsNumbered.visible {tokens : List Token} (numbers : IsNumbered tokens) :
    (visibleTokens tokens).map (·.index) =
      (List.range tokens.length).filter fun i => (tokens[i]?).any Token.isVisible := by
  have visible : ∀ t ∈ tokens, t.isVisible = (tokens[t.index]?).any Token.isVisible := by
    intro t member
    rw [numbers.getElem?_index member, Option.any_some]
  rw [← numbers, List.filter_map, visibleTokens]
  exact congrArg _ (List.filter_congr visible)

variable {text : List Char} {ts us : List Token} {s : TokenStream}

/-- Tokens of a text, one behind the other. -/
structure Follow (text : List Char) (ts : List Token) : Prop where
  piece : ∀ t ∈ ts, (Piece.token t).IsCutFrom text
  inOrder : ts.Pairwise fun a b => a.span.stop.offset ≤ b.span.start.offset

/-- No token ends between the two characters of a line break. -/
theorem Follow.apart (follow : Follow text ts) :
    ∀ t ∈ ts, insideBreak text t.span.stop.offset = false :=
  fun t member => (follow.piece t member).span.stop_apart

theorem Follow.of_sublist (follow : Follow text ts) (fewer : us.Sublist ts) : Follow text us :=
  { piece := fun t member => follow.piece t (fewer.subset member)
    inOrder := follow.inOrder.sublist fewer }

/-- The tokens of an arrangement stand in the text one behind the other. -/
theorem Arrangement.tokens_inOrder {m n : Nat} {es : List SyntaxError} {ps : List Piece}
    (arranged : Arrangement text m n ts es ps) :
    ts.Pairwise fun a b => a.span.stop.offset ≤ b.span.start.offset := by
  rw [← arranged.tokens, List.pairwise_filterMap]
  refine arranged.tiles.pairwise.imp ?_
  intro p q apart a here b there
  cases p with
  | unrecognized => cases here
  | token t =>
    cases q with
    | unrecognized => cases there
    | token u =>
      cases here
      cases there
      exact apart

/-- What is read of a text is numbered, its visible tokens follow each other, and the end stands
behind them. -/
theorem TokenStream.visible_of_ofSteps {arrange : List Token → List Token}
    (arranges : Arranges arrange) (read : ofSteps arrange (Lexer.steps text) = .ok s) :
    IsNumbered s.tokens ∧ Follow text (visibleTokens s.tokens) ∧
      EndsOnce (visibleTokens s.tokens) := by
  obtain ⟨ts, es, all, tokens, -, -⟩ := ofSteps_eq_ok read
  obtain ⟨marked, ps, tokens_eq, placed, members⟩ := arranges.placed all
  rw [← tokens] at tokens_eq placed
  refine ⟨tokens ▸ numbered_isNumbered _, ⟨?_, ?_⟩, ?_⟩
  · exact fun t member => placed.isCutFrom (List.mem_filter.mp member).1
  · exact placed.tokens_inOrder.sublist List.filter_sublist
  · refine ⟨(numbered marked).filter Token.isVisible,
      { Token.endOfInput (positionAt text text.length) with index := marked.length }, ?_, rfl,
      fun t member => ?_⟩
    · rw [visibleTokens, tokens_eq, List.filter_append]
      rfl
    · exact (members t (List.mem_filter.mp member).1).1

theorem visible_of_tokenizeWithSeams (read : tokenizeWithSeams text = .ok s) :
    IsNumbered s.tokens ∧ Follow text (visibleTokens s.tokens) ∧
      EndsOnce (visibleTokens s.tokens) :=
  TokenStream.visible_of_ofSteps arranges_withSeams (ofSteps_of_tokenizeWithSeams read)

/-- The tokens of a stream run from the start of its text to the end. -/
theorem TokenStream.wholeSpan_eq {arrange : List Token → List Token}
    (arranges : Arranges arrange) (read : ofSteps arrange (Lexer.steps text) = .ok s) :
    wholeSpan s.tokens = spanBetween text 0 text.length := by
  obtain ⟨front, last, tokens, -, span, -⟩ := (isLossless_of_ofSteps arranges read).ended
  simp [wholeSpan, tokens, span, spanBetween, Span.single]

end XuleLang
