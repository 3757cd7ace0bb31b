import XuleLang.Proofs.Parser.Foresight.Operand

/-!
Expressions at a fork.

Behind most operators, and behind signs, no `not` may stand, although it is asked for there. This is
the case of a word that binds too tightly: it is predicted and then complained of (`Beside.astray`).
Behind `and`, `or` and `not` it is read.

Expressions are levels, each of which has the next lower one inside, down to one that complains of
whatever comes. So that all levels meet (`level_meets`) is an induction on their number.
-/

namespace XuleLang

open ParserState (Kept Told Agrees)
open XuleLang.Parser

namespace Fork

variable {k : Fork} {l : Level} {inside : Option Rule} {r : Rule} {I : List Token → Prop}

/-! ## Operators between operands -/

section Binary

variable {ks : List TokenKind} {rules : List Rule} {left : List Token} {s t u v : ParserState}
  {op : Token}

/-- Operators and signs that take no `not` behind them. -/
theorem Beside.astray {operand : Parser Unit} (beside : k.Beside (r :: rules) [op] u v)
    (binds : r = .binaryExpression ∨ r = .unaryExpression)
    (tight : op.kind ∉ [TokenKind.keyword .andKw, .keyword .orKw, .keyword .notKw])
    (negated : k.word.kind = .keyword .notKw) (operands : k.Operand operand) :
    k.Settled (operand.run u.bump).2.finish (operand.run v.bump).2.finish := by
  have read := beside.bump
  obtain ⟨f, outer, frames⟩ : ∃ f outer, u.frames = f :: outer := by
    apply List.exists_cons_of_ne_nil
    intro nothing
    have opened := beside.opened
    simp [ParserState.rules, nothing] at opened
  have rule : f.rule = r := by
    have opened := beside.opened
    simp only [ParserState.rules, frames, List.map_cons, List.cons.injEq] at opened
    exact opened.1
  have frames' : (operand.run u.bump).2.frames =
      { f with children := .leaf ⟨u.nextId, op⟩ :: f.children } :: outer := by
    have here : u.rest = [op, k.last] := beside.rest
    have bumped := (ParserState.bump_of_cons here).frames
    rw [ParserState.attach_of_cons frames] at bumped
    exact (operands.idles u.bump read.rest).frames.trans bumped
  have made := ParserState.made_finish frames'
  have strayed : k.Strayed (operand.run u.bump).2.finish := by
    refine ⟨negated, _, made, op, ?_, ?_, ⟨.leaf ⟨u.nextId, op⟩, ?_, rfl⟩, tight⟩
    · obtain ⟨before, front⟩ := beside.suffix
      simp [← front]
    · rcases binds with rfl | rfl
      · exact .inl (congrArg some rule)
      · exact .inr (congrArg some rule)
    · simp [Tree.ofChildren, Tree.children]
  obtain ⟨e, complained⟩ := operands.balks v.bump read.unprobed read.silent'
    (read.rest' ▸ negated)
  refine .inr (.inr ⟨.inl ⟨e, ?_⟩, .inr (.inr (.inr strayed))⟩)
  rwa [(ParserState.finish_reseen _).1.errors]

/-- What is behind an operator that takes no `not`. -/
theorem Beside.operand {operand : Parser Unit} {rest : List Token}
    (beside : k.Beside (r :: rules) (op :: rest) u v)
    (binds : r = .binaryExpression ∨ r = .unaryExpression)
    (tight : op.kind ∉ [TokenKind.keyword .andKw, .keyword .orKw, .keyword .notKw])
    (operands : k.Operand operand) :
    (∃ rest, k.Beside rules rest (operand.run u.bump).2.finish (operand.run v.bump).2.finish) ∨
      k.Settled (operand.run u.bump).2.finish (operand.run v.bump).2.finish := by
  by_cases astray : rest = [] ∧ k.word.kind = .keyword .notKw
  · obtain ⟨rfl, negated⟩ := astray
    exact .inr (beside.astray binds tight negated operands)
  · have positive : k.Unnegated rest := fun empty negated => astray ⟨empty, negated⟩
    rcases operands.meets.run nofun positive beside.bump with
      ⟨-, rest, near⟩ | settled | ⟨⟨⟩, -⟩
    · exact .inl ⟨rest, near.finish⟩
    · exact .inr settled.finish

/-- An operator that takes no `not`, and its right operand. -/
theorem meets_tightly {operand : Parser Unit} (operands : k.Operand operand)
    (tight : ∀ c ∈ .keyword .inKw :: ks,
      c ∉ [TokenKind.keyword .andKw, .keyword .orKw, .keyword .notKw]) :
    k.Meets inside (k.OperatorLeft ks) (wrapping .binaryExpression do bumpOperator; operand)
      (wrapping .binaryExpression do bumpOperator; operand) where
  steady := (alike_bumpOperator.steady.andThen fun _ =>
    operands.meets.steady).wrapping _
  steady' := (alike_bumpOperator.steady.andThen fun _ =>
    operands.meets.steady).wrapping _
  run {rules left s t} _ operator beside := by
    obtain ⟨op, rest, u, v, near, member, read, read'⟩ :=
      operator.bumpOperator (beside.wrap .binaryExpression)
    have run (s : ParserState) : ((wrapping .binaryExpression do bumpOperator; operand).run s).2 =
      (operand.run (bumpOperator.run (s.wrap .binaryExpression)).2).2.finish := rfl
    rw [run, run, read, read']
    rcases near.operand (.inl rfl) (tight _ member) operands with together | settled
    · exact .inl ⟨rfl, together⟩
    · exact .inr (.inl settled)

/-- A sign and its operand. -/
theorem meets_sign {operand : Parser Unit} (operands : k.Operand operand) :
    k.Meets inside (kindAhead · 0 ∈ signs) (unary operand) (unary operand) where
  steady := (Steady.bump.andThen fun _ => operands.meets.steady).within _
  steady' := (Steady.bump.andThen fun _ => operands.meets.steady).within _
  run {rules left s t} _ sign beside := by
    cases left with
    | nil => exact absurd sign (by decide)
    | cons op rest =>
      have run (s : ParserState) : ((unary operand).run s).2 =
        (operand.run (s.start .unaryExpression).bump).2.finish := rfl
      have tight : op.kind ∉ [TokenKind.keyword .andKw, .keyword .orKw, .keyword .notKw] := by
        have sign : op.kind ∈ signs := sign
        intro member
        simp [signs] at sign
        rcases sign with plus | plus <;> simp [plus] at member
      rw [run, run]
      rcases (beside.start .unaryExpression).operand (.inr rfl) tight operands with
        together | settled
      · exact .inl ⟨rfl, together⟩
      · exact .inr (.inl settled)

theorem takes_binary {operand : Parser Unit} (steady : Steady operand)
    (single : k.word.kind ≠ .keyword .notKw) :
    k.Takes (do wrapping .binaryExpression (do bumpOperator; operand); pure true) :=
  Takes.andThen (((takes_bumpOperator single).andThen fun _ => steady).wrapping _)
    fun _ => .answer true

theorem operatorLeft_of_head (unended : .endOfInput ∉ ks) (positive : .keyword .notKw ∉ ks)
    (spotted : kindAhead left 0 ∈ ks) : k.OperatorLeft ks left := by
  cases left with
  | nil => exact absurd spotted unended
  | cons x xs =>
    have spotted : x.kind ∈ ks := spotted
    have other : x.kind ≠ .keyword .notKw := fun negated => positive (negated ▸ spotted)
    refine ⟨List.cons_ne_nil x xs, fun joined => ?_, ?_⟩
    · have first := (Bool.and_eq_true_iff.mp joined.1).1
      exact other (beq_iff_eq.mp first)
    · exact Bool.or_eq_true_iff.mpr (.inl (List.contains_iff_mem.mpr spotted))

/-- Operands with operators between them that take no `not` are operands that take none. -/
theorem operand_operands {operand : Parser Unit} (operand_meets : k.Operand operand)
    (unended : .endOfInput ∉ ks) (positive : .keyword .notKw ∉ ks)
    (tight : ∀ c ∈ .keyword .inKw :: ks,
      c ∉ [TokenKind.keyword .andKw, .keyword .orKw, .keyword .notKw]) :
    k.Operand (operands (seesAny ks) operand) := by
  refine operand_meets.repeated (inquires_seesAny ks) (unseen_end unended) ?_
  refine .seeing (inquires_seesAny ks) unended (fun member => ?_) ?_ (.answer false)
  · exact takes_binary operand_meets.meets.steady fun negated => positive (negated ▸ member)
  · refine .andThen ((meets_tightly operand_meets tight).weaken fun left spotted => ?_)
      fun _ => .answer true
    exact operatorLeft_of_head unended positive spotted.2

theorem operand_additive (meets : l.Meets k) : k.Operand (additive l) :=
  operand_operands (operand_operands (operand_signedOperand meets) (by decide) (by decide)
    (by decide)) (by decide) (by decide) (by decide)

theorem appends_additive (meets : l.Meets k) : Appends (additive l) :=
  .of_yields (operand_additive meets).meets.steady fun _ => yields_additive meets.productive

/-- A comparison and its right operand, where the word may be one of the two of a `not in`. -/
theorem meets_compared {operand : Parser Unit} (operand_meets : k.Operand operand)
    (appends : Appends operand) :
    k.Meets none Anywhere (rightOperand seesComparison operand)
      (rightOperand seesComparison operand) := by
  let after (ahead : Bool) : Parser Bool :=
    if ahead then do wrapping .binaryExpression (do bumpOperator; operand); pure true
    else pure false
  have meets : k.Meets none Anywhere (seesOperator comparisonOperators >>= after)
      (seesOperator comparisonOperators >>= after) := by
    refine .operator (by decide) ?_ (fun member => ?_) ?_ (.answer false)
    · intro rules left s t _ joined beside s'
      have opens := joined.opens (r := .binaryExpression) (beside.wrap .binaryExpression)
        (List.cons_ne_nil _ _) appends s'
      refine .inl ?_
      rcases opens with settled | ⟨-, opened, accepted⟩
      · exact k.kept_settled_second s' _ .finish _ settled
      · exact opened.finish (k.kept_accepted_second s' _ .finish _ accepted)
    · refine takes_binary operand_meets.meets.steady fun negated => ?_
      rw [negated] at member
      exact absurd member (by decide)
    · exact .andThen (meets_tightly operand_meets (by decide)) fun _ => .answer true
  exact meets

theorem operand_comparison (meets : l.Meets k) : k.Operand (comparison l) := by
  have nothing : (comparisonOperators.contains (kindAhead [k.last] 0) || notInAhead [k.last]) =
      false := by
    rw [unseen_end (by decide)]
    simp [notInAhead, kindAhead, k.ended]
  exact (operand_additive meets).repeated (inquires_seesOperator comparisonOperators) nothing
    (meets_compared (operand_additive meets) (appends_additive meets))

/-- Operators behind which a `not` may stand. -/
theorem meets_loosely {operand : Parser Unit} {w : Keyword} (positive : w ≠ .notKw)
    (operand_meets : k.Meets none Anywhere operand operand) :
    k.Meets none I (operands (sees (.keyword w)) operand)
      (operands (sees (.keyword w)) operand) := by
  have unended : TokenKind.endOfInput ∉ [TokenKind.keyword w] := by simp
  have single : TokenKind.keyword .notKw ∉ [TokenKind.keyword w] := by
    simpa using positive.symm
  refine .andThen (operand_meets.weaken fun _ _ => trivial) fun _ => .repeated ?_
  refine .seeing (inquires_sees _) unended (fun member => ?_) ?_ (.answer false)
  · exact takes_binary operand_meets.steady fun negated => single (negated ▸ member)
  · refine .andThen (.wrapping (.andThen ?_ fun _ => operand_meets.inner)) fun _ => .answer true
    have operator : k.Meets none (k.OperatorLeft [.keyword w]) Parser.bumpOperator
        Parser.bumpOperator := meets_bumpOperator
    exact operator.weaken fun left spotted => operatorLeft_of_head unended single spotted.2

end Binary

/-! ## Levels -/

section Levels

/-- Whether a `not` is ahead that is no part of a `not in`. -/
def seesNegation : Parser Bool := do
  let notAhead ← sees (.keyword .notKw)
  let following ← kindAt 1
  return notAhead && following != .keyword .inKw

def negationAhead (ts : List Token) : Bool :=
  [TokenKind.keyword .notKw].contains (kindAhead ts 0) && kindAhead ts 1 != .keyword .inKw

theorem negatable_eq (l : Level) :
    negatable l = seesNegation >>= fun negated => if negated then l.negation else comparison l :=
  rfl

theorem inquires_seesNegation :
    k.Inquires seesNegation [.keyword .notKw] negationAhead :=
  (inquires_sees (.keyword .notKw)).andThen fun notAhead => (inquires_kindAt 1).andThen
    fun following => inquires_answer (notAhead && following != .keyword .inKw)

theorem negationAhead_end : negationAhead [k.last] = false := by
  simp [negationAhead, kindAhead, k.ended]

/-- The end and the word show the same, unless the word is a `not`, or an `in` behind one. -/
theorem negationAhead_same {left : List Token}
    (apart : ¬ ∃ x, left = [x] ∧ x.kind = .keyword .notKw ∧ k.word.kind = .keyword .inKw)
    (positive : left = [] → k.word.kind ≠ .keyword .notKw) :
    negationAhead (left ++ [k.last]) = negationAhead (left ++ k.word :: k.behind) := by
  match left with
  | [] =>
    have nothing : negationAhead (k.word :: k.behind) = false := by
      simp [negationAhead, kindAhead, positive rfl]
    exact negationAhead_end.trans nothing.symm
  | [x] =>
    by_cases negated : x.kind = .keyword .notKw
    · have other : k.word.kind ≠ .keyword .inKw := fun joined => apart ⟨x, rfl, negated, joined⟩
      have ended : kindAhead ([x] ++ [k.last]) 1 = .endOfInput := k.ended
      have worded : kindAhead ([x] ++ k.word :: k.behind) 1 = k.word.kind := rfl
      rw [negationAhead, negationAhead, ended, worded, bne_iff_ne.mpr other]
      rfl
    · simp [negationAhead, kindAhead, negated]
  | _ :: _ :: _ => rfl

theorem ends_negatable (meets : l.Meets k) :
    k.Ends (negatable l) (.keyword .notKw :: operandKeywords) :=
  Ends.asking (f := fun negated => if negated then l.negation else comparison l) (a := false)
    inquires_seesNegation negationAhead_end (operand_comparison meets).ends

theorem meets_negatable (meets : l.Meets k) :
    k.Meets none Anywhere (negatable l) (negatable l) := by
  rw [negatable_eq]
  have operand := operand_comparison meets
  refine .except
    (fun left => ∃ x, left = [x] ∧ x.kind = .keyword .notKw ∧ k.word.kind = .keyword .inKw) ?_ ?_
  · rintro rules left s t - - ⟨x, rfl, negated, joined⟩ beside
    -- One parser sees a prefix of nothing, the other an operator without a left operand.
    have head : kindAhead t.rest 0 = .keyword .notKw := by
      rw [beside.rest']
      exact negated
    have first : negationAhead ([x] ++ [k.last]) = true := by
      simp [negationAhead, kindAhead, k.ended, negated]
    have second : negationAhead ([x] ++ k.word :: k.behind) = false := by
      simp [negationAhead, kindAhead, joined]
    have run (s : ParserState) : ((seesNegation >>= fun negated =>
        if negated then l.negation else comparison l).run s).2 =
      ((if (seesNegation.run s).1 then l.negation else comparison l).run
        (seesNegation.run s).2).2 := rfl
    have complained := operand.balks t beside.unprobed beside.silent' head
    have near := inquires_seesNegation.near beside fun empty => by cases empty
    have accepted : k.Accepted (l.negation.run (seesNegation.run s).2).2
        ((comparison l).run t).2 := (meets.abandons joined near).imp_right .inl
    rw [run, run, (inquires_seesNegation (k := k)).answers beside.rest,
      (inquires_seesNegation (k := k)).answers beside.rest',
      (inquires_seesNegation (k := k)).still t beside.unprobed, first, second, if_pos rfl,
      if_neg Bool.false_ne_true]
    exact .inl (.inr (.inr ⟨.inl complained, accepted⟩))
  · refine .asking inquires_seesNegation ?_ ?_ fun negated => ?_
    · rintro left ⟨-, apart⟩ other
      exact negationAhead_same apart fun empty => by simpa using other empty
    · intro _ member
      have negated : k.word.kind = .keyword .notKw := by simpa using member
      intro t comes single
      obtain ⟨x, behind, x_ends⟩ := k.single_behind single
      have alone : negationAhead (k.word :: k.behind) = true := by
        simp [negationAhead, kindAhead, negated, behind, x_ends]
      rw [alone]
      exact meets.takes negated t comes single
    · cases negated with
      | false =>
        refine operand.meets.weaken fun left known empty negated => ?_
        exact known.2.2.2 empty (by simpa using negated)
      | true =>
        refine meets.negation.weaken fun left known => ?_
        have spotted := (Bool.and_eq_true_iff.mp known.2.1).1
        cases left with
        | nil => simp [kindAhead, k.ended] at spotted
        | cons x xs => simpa [kindAhead] using spotted

theorem steady_skip (k : Fork) :
    Steady (kind >>= fun kk => if kk != .endOfInput then leafOf .skipped else pure ()) :=
  (inquires_kind (k := k)).steady.andThen fun _ => .either (.leafOf _) (.answer ())

/-- What nests too deep is complained of. -/
theorem meets_tooDeep : k.Meets none I tooDeep tooDeep :=
  .complainThen (steady_skip k) (steady_skip k) _ _

/-- A `not` that nests too deep is complained of, but read. -/
theorem takes_tooDeep (negated : k.word.kind = .keyword .notKw) : k.Takes tooDeep := by
  intro t comes _
  have here : (t.complain .tooDeepExpression).rest = k.word :: k.behind :=
    (t.complain_agrees _).rest.trans comes.rest
  have span : t.span = k.word.span := by simp [ParserState.span, comes.rest]
  have errors : (t.complain .tooDeepExpression).errors =
      [⟨.tooDeepExpression, some k.word.span⟩] := by
    rw [ParserState.complain_of_unprobed comes.unprobed, comes.silent, span]
    rfl
  have run : (tooDeep.run t).2 =
      ((t.complain .tooDeepExpression).start .skipped).bump.finish := by
    change ((if kindAhead (t.complain .tooDeepExpression).rest 0 != .endOfInput then leafOf .skipped
      else pure () : Parser Unit).run (t.complain .tooDeepExpression)).2 = _
    rw [here, if_pos (by simpa [kindAhead] using k.word_inside)]
    rfl
  have started : ((t.complain .tooDeepExpression).start .skipped).errors =
      [⟨.tooDeepExpression, some k.word.span⟩] := by
    obtain ⟨u, started, same, -⟩ := (t.complain .tooDeepExpression).start_eq_note .skipped
    rw [started, ParserState.note_errors, same.errors, errors]
  obtain ⟨read, unchanged⟩ := bump_word
    ((ParserState.start_agrees (t.complain .tooDeepExpression) .skipped).rest.trans here)
  rw [run]
  refine ⟨(ParserState.finish_rest _).trans read, ?_⟩
  rw [(ParserState.finish_reseen _).1.errors, unchanged, started]
  rintro e (⟨⟩ | ⟨-, ⟨⟩⟩)
  exact .inr ⟨negated, rfl, rfl⟩

theorem lowestLevel_meets (k : Fork) : lowestLevel.Meets k where
  expression := meets_tooDeep
  negation := meets_tooDeep
  signed := meets_tooDeep
  takes := takes_tooDeep
  abandons _ _ x s _ beside := by
    have span : s.span = x.span := by simp [ParserState.span, beside.rest]
    have early : k.Early (s.complain .tooDeepExpression) :=
      ⟨_, complaint_of_silent beside.silent _, x, beside.suffix.mem (.head _), by rw [span]⟩
    exact .inl (steady_skip k _ k.kept_early _ early)
  productive := lowestLevel_productive
  sound := lowestLevel_sound

theorem levelAbove_meets (meets : l.Meets k) : (levelAbove l).Meets k where
  expression := meets_loosely (by decide) (meets_loosely (by decide) (meets_negatable meets))
  negation := .within (.bumpThen (meets_negatable meets).inner fun left negated =>
    have seen : kindAhead left 0 ∈ [.keyword .notKw] := by simpa using negated
    ⟨ne_nil_of_mem (by decide) seen, trivial⟩)
  signed := meets_sign (operand_signedOperand meets)
  takes _ := (takes_bump.andThen fun _ => (meets_negatable meets).steady).within _
  abandons joined _ _ _ _ beside := by
    have ends := (ends_negatable meets).run (beside.start .unaryExpression).bump
    refine .inr (k.kept_missed _ .finish _ (ends.2 ?_))
    rw [joined]
    decide
  productive := levelAbove_productive meets.productive
  sound := levelAbove_sound meets.sound

theorem level_meets (k : Fork) (depth : Nat) : (level depth).Meets k := by
  induction depth with
  | zero => exact lowestLevel_meets k
  | succ depth ih => exact levelAbove_meets ih

end Levels

end Fork

end XuleLang
