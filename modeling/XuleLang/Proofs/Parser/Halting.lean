import XuleLang.Proofs.Parser.Grammar
import XuleLang.Proofs.Parser.Barrier

/-!
The parsers of the grammar halt before a word that begins a declaration.

They are judged in the order of their definitions: each heeds the word wherever it is run before
it, or, if it reads without looking, where something else is ahead. Declarations themselves are
only judged before the word.
-/

namespace XuleLang

/-- The parsers of a level heed the word. -/
structure Level.Heeds (b : Barrier) (l : Level) : Prop where
  expression : Parser.Heeds b l.expression
  negation : Parser.HeedsBefore b l.negation
  signed : Parser.HeedsBefore b l.signed

namespace Parser

variable {b : Barrier} {l : Level} {ts : List Token}

/-! ## Blocks and names -/

section Blocks

theorem heeds_assignment {value : Parser Unit} (heeds : Heeds b value)
    (second : kindAhead ts 1 = .punctuator .assign) (before : b.Before ts) :
    Halts b ts (assignment value) fun _ _ => True := by
  refine .within ((halts_leafOf before).andThen fun _ us tail => .knowing fun ahead => ?_)
  have assign : kindAhead us 0 = .punctuator .assign := by rw [tail, kindAhead_tail, second]
  refine (heeds_bump.andThen fun _ => heeds.andThen fun _ => heeds_expecting (by decide)) us ?_
  exact ahead.before (by rw [assign]; decide)

theorem heeds_blockUpTo (heeds : l.Heeds b) (fuel : Nat) : Heeds b (blockUpTo l fuel) := by
  induction fuel with
  | zero => exact .overrun
  | succ fuel ih =>
    refine .within (.andThen (.repeated fun ts => ?_) fun _ => heeds.expression)
    refine .after stays_seesAssignment fun spotted found => .knowing fun ahead => ?_
    cases spotted with
    | false => exact .answer trivial
    | true =>
      obtain ⟨first, second⟩ := found rfl
      have before : b.Before ts := ahead.before (by rw [first]; decide)
      exact (heeds_assignment ih second before).andThen fun _ _ _ => .answer trivial

theorem heeds_block (heeds : l.Heeds b) : Heeds b (block l) :=
  .after stays_get fun _ => heeds_blockUpTo heeds _

theorem heeds_qualifiedName : HeedsBefore b qualifiedName := by
  refine .within (.andThen (heeds_requireName _) fun _ ts => ?_)
  refine (halts_eat_joiner (by decide) (by decide)).andThen fun colon us behind => ?_
  cases colon with
  | true => exact heeds_requireName _ us behind
  | false => exact .answer trivial

theorem heeds_propertyRef : HeedsBefore b propertyRef := .within (heeds_requireName _)

theorem heeds_stringPart (heeds : l.Heeds b) : Heeds b (stringPart l) := by
  refine fun ts => .after stays_kind fun k here => .knowing fun ahead => ?_
  have before (other : k ∉ declarationStarts) : b.Before ts := ahead.before (here ▸ other)
  split
  case h_1 => exact (heeds_bump.andThen fun _ => .answer true) ts (before (by decide))
  case h_2 =>
    refine HeedsBefore.andThen heeds_bump (fun _ => ?_) ts (before (by decide))
    exact (heeds_block heeds).andThen fun _ => (heeds_expect (by decide)).andThen fun _ =>
      .answer true
  case h_3 => exact (heeds_bump.andThen fun _ => .answer false) ts (before (by decide))
  case h_4 => exact .after (stays_complain _) fun _ _ => .answer trivial

theorem heeds_stringLiteral (heeds : l.Heeds b) : HeedsBefore b (stringLiteral l) :=
  .within (heeds_bump.andThen fun _ => .repeated (heeds_stringPart heeds))

theorem heeds_argumentList (heeds : l.Heeds b) : Heeds b (argumentList l) :=
  .within <| (heeds_expect (by decide)).andThen fun _ => .either
    (.after (stays_sees _) fun _ => .eitherThen
      (heeds_commaSeparated (heeds_block heeds)) (heeds_expecting (by decide)))
    (.answer ())

theorem heeds_whereClause (heeds : l.Heeds b) : HeedsBefore b (whereClause l) :=
  .within (heeds_bump.andThen fun _ => heeds_block heeds)

/-- The second token of a two-word operator is not the word either. -/
theorem heeds_bumpOperator : HeedsBefore b bumpOperator := by
  refine fun ts before => .after stays_seesNotIn fun notIn found => ?_
  cases notIn with
  | false => exact heeds_bump ts before
  | true =>
    simp only [Bool.true_eq, Bool.and_eq_true, beq_iff_eq] at found
    exact heeds_bump.behind (by rw [found.2]; decide) before

end Blocks

/-! ## Queries -/

section Queries

theorem heeds_aspectCondition (heeds : l.Heeds b) : HeedsBefore b (aspectCondition l) :=
  heeds_bumpOperator.andThen fun _ => .within <|
    .ifPassed (finds_sees (by decide)) heeds_bump heeds.expression

theorem heeds_binding : HeedsBefore b binding :=
  .within (heeds_bump.andThen fun _ => heeds_require _ (by decide))

theorem heeds_aspectFilter (heeds : l.Heeds b) (atSign : kindAhead ts 0 = .punctuator .atSign)
    (before : b.Before ts) : Halts b ts (aspectFilter l) fun _ _ => True := by
  have property : Heeds b (do
      if (← kind) == .punctuator .dot then
        bump
        propertyRef
        pure true
      else pure false) := by
    refine fun ts => .after stays_kind fun k here => ?_
    split
    case isTrue dot =>
      have first : kindAhead ts 0 = .punctuator .dot := here ▸ beq_iff_eq.mp dot
      exact (heeds_propertyRef.andThen fun _ => .answer true).joinedBy first (by decide) (by decide)
    case isFalse => exact .answer trivial
  have named : Heeds b (do if ← sees (.keyword .asKw) then binding) :=
    .ifPassed (finds_sees (by decide)) heeds_binding (.answer ())
  have conditions : Heeds b (do
      let notIn ← seesNotIn
      let operator ← seesAny [.punctuator .assign, .punctuator .notEqual, .keyword .inKw]
      if operator || notIn then aspectCondition l
      if ← sees (.keyword .asKw) then binding) := by
    refine fun ts => .asking (finds_seesNotIn (by decide)) fun notIn beforeNotIn =>
      .asking (finds_seesAny (by decide)) fun operator before => ?_
    split
    case isTrue yes =>
      have before := (Bool.or_eq_true_iff.mp yes).elim before beforeNotIn
      exact ((heeds_aspectCondition heeds).andThen fun _ => named) ts before
    case isFalse => exact named ts
  refine .within ((Halts.bump before).andThen fun _ us tail => ?_)
  have behind : b.Before us := tail ▸ before.tail_before (by rw [atSign]; decide)
  -- A second at sign calls for a name as the first one does.
  refine (halts_eat_joiner (by decide) (by decide)).andThen fun second vs read => ?_
  have named : b.Before vs := by
    cases second with
    | true => exact read
    | false => exact read ▸ behind
  exact (heeds_qualifiedName.andThen fun _ => property.repeated.andThen fun _ => conditions)
    vs named

theorem heeds_factset (heeds : l.Heeds b) : HeedsBefore b (factset l) := by
  refine .within fun ts before => .after stays_kind fun k _ => ?_
  have closing : ∀ c : Bool, (if c then TokenKind.punctuator .rbracket else .punctuator .rbrace) ∉
      declarationStarts := by decide
  have filters : Heeds b (do
      let ahead ← sees (.punctuator .atSign)
      if ahead then aspectFilter l
      return ahead) := by
    refine fun ts => .after (stays_sees _) fun spotted here => .knowing fun ahead => ?_
    cases spotted with
    | false => exact .answer trivial
    | true =>
      have atSign : kindAhead ts 0 = .punctuator .atSign := by simpa using here.symm
      have before : b.Before ts := ahead.before (by rw [atSign]; decide)
      exact (heeds_aspectFilter heeds atSign before).andThen fun _ _ _ => .answer trivial
  refine (heeds_bump.andThen fun _ => ?_) ts before
  refine (Heeds.step (finds_seesAny (by decide)) heeds_leafOf).repeated.andThen fun _ =>
    filters.repeated.andThen fun _ => .ifPassed (finds_sees (by decide))
      ((heeds_whereClause heeds).andThen fun _ => heeds_expecting (closing _)) ?_
  exact .after (stays_sees _) fun _ => .after stays_kind fun _ =>
    .eitherThen (heeds_block heeds) (heeds_expecting (closing _))

theorem heeds_arcrole (heeds : l.Heeds b) : HeedsBefore b (arcrole l) := by
  refine .within fun ts before => .after stays_kind fun k _ => ?_
  split
  case isTrue => exact heeds_stringLiteral heeds ts before
  case isFalse => exact heeds_bump ts before

theorem heeds_direction : Heeds b direction :=
  .within (.after (stays_predict _) fun _ => heeds_require _ (by decide))

theorem heeds_includeClause : HeedsBefore b includeClause :=
  .within (heeds_bump.andThen fun _ => heeds_expecting (by decide))

theorem heeds_wordClause (heeds : l.Heeds b) : HeedsBefore b (wordClause l) :=
  .within (heeds_bump.andThen fun _ => heeds.expression)

theorem heeds_stopClause (heeds : l.Heeds b) : HeedsBefore b (stopClause l) :=
  .within <| heeds_bump.andThen fun _ => (heeds_expect (by decide)).andThen fun _ =>
    .either heeds.expression (.answer ())

theorem heeds_clause (heeds : l.Heeds b) : Heeds b (clause l) :=
  .ifPassed (finds_seesAny (by decide))
    ((heeds_wordClause heeds).andThen fun _ => .answer true) <|
  .ifPassed (finds_sees (by decide)) ((heeds_stopClause heeds).andThen fun _ => .answer true) <|
  .ifPassed (finds_seesAnyWord (by decide) _)
    ((heeds_wordClause heeds).andThen fun _ => .answer true) <|
  .ifPassed (finds_sees (by decide)) ((heeds_whereClause heeds).andThen fun _ => .answer true) <|
  .answer false

theorem heeds_returnOption : Heeds b returnOption :=
  .within (.after (stays_predict _) fun _ => heeds_require _ (by decide))

theorem heeds_formModifier : Heeds b formModifier := by
  refine fun ts => .after (stays_isWordAt 0 _) fun byAhead isBy =>
    .after (stays_isWordAt 1 _) fun networkAhead isNetwork => .after stays_get fun s here =>
    .after (stays_kindAt 1) fun following _ => .knowing fun ahead => ?_
  split
  case isTrue both =>
    obtain ⟨first, second⟩ := Bool.and_eq_true_iff.mp both
    refine (heeds_bump.andThen fun _ => .answer true).behind ?_ (ahead.before ?_)
    · rw [isNetwork second]; decide
    · rw [isBy first]; decide
  case isFalse =>
    split
    case isTrue yes =>
      obtain ⟨word, -, spelled⟩ := List.any_eq_true.mp (Bool.and_eq_true_iff.mp yes).1
      have identifier : kindAhead s.rest 0 = .identifier := (stays_isWordAt 0 word s).2 spelled
      refine (heeds_bump.andThen fun _ => .answer true) ts (ahead.before ?_)
      rw [← here, identifier]; decide
    case isFalse => exact .answer trivial

theorem heeds_returnsClause : HeedsBefore b returnsClause := by
  have shape : Heeds b (do if ← eat (.keyword .asKw) then require .identifier .resultShape) :=
    (heeds_eat (by decide)).andThen fun _ => .either (heeds_require _ (by decide)) (.answer ())
  exact .within <| heeds_bump.andThen fun _ => (Heeds.repeated heeds_formModifier).andThen fun _ =>
    (heeds_eat (by decide)).andThen fun _ => .either
      ((heeds_commaSeparated heeds_returnOption).andThen fun _ =>
        (heeds_expect (by decide)).andThen fun _ => shape)
      (heeds_returnOption.andThen fun _ => shape)

theorem heeds_navigation (heeds : l.Heeds b) : HeedsBefore b (navigation l) :=
  .within <| heeds_bump.andThen fun _ => (heeds_eat (by decide)).andThen fun _ =>
    .after (stays_predict _) fun _ =>
    .ifPassedThen (finds_seesArcrole (by decide) (by decide) (by decide)) (heeds_arcrole heeds) <|
    heeds_direction.andThen fun _ => (heeds_eat (by decide)).andThen fun _ =>
    .ifPassedThen (finds_sees (by decide)) heeds_includeClause <|
    (heeds_clause heeds).repeated.andThen fun _ =>
    .ifPassed (finds_sees (by decide)) heeds_returnsClause (.answer ())

theorem heeds_filterReturns (heeds : l.Heeds b) : HeedsBefore b (filterReturns l) :=
  .within (heeds_bump.andThen fun _ => heeds.expression)

theorem heeds_filter (heeds : l.Heeds b) : HeedsBefore b (filter l) :=
  .within <| heeds_bump.andThen fun _ => heeds.expression.andThen fun _ =>
    .ifPassedThen (finds_sees (by decide)) (heeds_whereClause heeds) <|
    .ifPassed (finds_sees (by decide)) (heeds_filterReturns heeds) (.answer ())

end Queries

/-! ## Expressions -/

section Expressions

theorem heeds_call (heeds : l.Heeds b) : HeedsBefore b (call l) :=
  .within (heeds_leafOf.andThen fun _ => heeds_argumentList heeds)

theorem heeds_nameOrCall (heeds : l.Heeds b) : HeedsBefore b (nameOrCall l) :=
  heeds_qualifiedName.andThen fun _ => .after stays_kind fun _ => .either
    (.wrapping (heeds_argumentList heeds)) (.answer ())

theorem heeds_parenthesized (heeds : l.Heeds b) : HeedsBefore b (parenthesized l) :=
  .within <| heeds_bump.andThen fun _ => (heeds_block heeds).andThen fun _ =>
    heeds_expecting (by decide)

theorem heeds_conditional (heeds : l.Heeds b) : HeedsBefore b (conditional l) :=
  .within <| heeds_bump.andThen fun _ => heeds.expression.andThen fun _ =>
    (heeds_block heeds).andThen fun _ => (heeds_expect (by decide)).andThen fun _ =>
    .either (heeds_block heeds) (.answer ())

theorem heeds_loop (heeds : l.Heeds b) : HeedsBefore b (loop l) := by
  have body : Heeds b (block l) := heeds_block heeds
  exact .within <| heeds_bump.andThen fun _ => (heeds_eat (by decide)).andThen fun _ =>
    (Heeds.within (heeds_require _ (by decide))).andThen fun _ =>
    (heeds_expect (by decide)).andThen fun _ => .eitherThen heeds.expression <|
    .either ((heeds_expect (by decide)).andThen fun _ => body) body

theorem heeds_primary (heeds : l.Heeds b) : Heeds b (primary l) := by
  refine .after (stays_predict _) fun _ => .after (stays_seesAny _) fun _ =>
    .after (stays_seesAny _) fun _ => .after (stays_kindAt 1) fun _ ts =>
    .after stays_kind fun k here => .knowing fun ahead => ?_
  have before (other : k ∉ declarationStarts) : b.Before ts := ahead.before (here ▸ other)
  split
  case h_1 | h_3 | h_4 | h_5 | h_6 => exact heeds_leafOf ts (before (by decide))
  case h_2 => exact heeds_stringLiteral heeds ts (before (by decide))
  case h_7 =>
    split
    · exact heeds_call heeds ts (before (by decide))
    · exact heeds_leafOf ts (before (by decide))
  case h_8 =>
    split
    · exact heeds_call heeds ts (before (by decide))
    · exact heeds_nameOrCall heeds ts (before (by decide))
  case h_9 => exact heeds_parenthesized heeds ts (before (by decide))
  case h_10 => exact heeds_conditional heeds ts (before (by decide))
  case h_11 => exact heeds_loop heeds ts (before (by decide))
  case h_12 | h_13 => exact heeds_factset heeds ts (before (by decide))
  case h_14 => exact heeds_navigation heeds ts (before (by decide))
  case h_15 => exact heeds_filter heeds ts (before (by decide))
  case h_16 => exact Heeds.of_stays (stays_complain _) ts

theorem heeds_propertyAccess (heeds : l.Heeds b) : Heeds b (propertyAccess l) := by
  have property : HeedsBefore b (do
      propertyRef
      if ← sees (.punctuator .lparen) then argumentList l) :=
    heeds_propertyRef.andThen fun _ =>
      .after (stays_sees _) fun _ => .either (heeds_argumentList heeds) (.answer ())
  refine fun ts => .after (stays_sees _) fun spotted here => ?_
  cases spotted with
  | false => exact .answer trivial
  | true =>
    have dot : kindAhead ts 0 = .punctuator .dot := by simpa using here.symm
    have access := property.joinedBy dot (by decide) (by decide)
    exact (Halts.wrapping access).andThen fun _ _ _ => .answer trivial

theorem heeds_access (heeds : l.Heeds b) : Heeds b (access l) :=
  (heeds_primary heeds).andThen fun _ => (heeds_propertyAccess heeds).repeated

theorem heeds_signedOperand (heeds : l.Heeds b) : Heeds b (signedOperand l) :=
  .ifPassed (finds_seesAny (by decide)) heeds.signed (heeds_access heeds)

/-- Operators that begin no declaration group what heeds the word. -/
theorem heeds_operands {sees : Parser Bool} {operand : Parser Unit} (passes : Passes sees)
    (heeds : Heeds b operand) : Heeds b (operands sees operand) := by
  have right : HeedsBefore b (wrapping .binaryExpression do bumpOperator; operand) :=
    .wrapping (heeds_bumpOperator.andThen fun _ => heeds)
  exact heeds.andThen fun _ =>
    Heeds.repeated (.ifPassed passes (right.andThen fun _ => .answer true) (.answer false))

theorem heeds_comparison (heeds : l.Heeds b) : Heeds b (comparison l) :=
  heeds_operands (finds_seesComparison (by decide) (by decide)) <|
    heeds_operands (finds_seesAny (by decide)) <|
    heeds_operands (finds_seesAny (by decide)) <| heeds_signedOperand heeds

theorem heeds_negatable (heeds : l.Heeds b) : Heeds b (negatable l) := by
  refine fun ts => .asking (finds_sees (by decide)) fun notAhead before =>
    .after (stays_kindAt 1) fun _ _ => ?_
  split
  case isTrue yes => exact heeds.negation ts (before (Bool.and_eq_true_iff.mp yes).1)
  case isFalse => exact heeds_comparison heeds ts

theorem heeds_disjunction (heeds : l.Heeds b) : Heeds b (disjunction l) :=
  heeds_operands (finds_sees (by decide)) <| heeds_operands (finds_sees (by decide)) <|
    heeds_negatable heeds

theorem levelAbove_heeds (heeds : l.Heeds b) : (levelAbove l).Heeds b :=
  ⟨heeds_disjunction heeds, .within (heeds_bump.andThen fun _ => heeds_negatable heeds),
    .within (heeds_bump.andThen fun _ => heeds_signedOperand heeds)⟩

end Expressions

/-! ## The limit of nesting -/

section Nesting

/-- Leaves off with the record that it has gone too far where more than so many tokens are ahead. -/
def unlessAhead (n : Nat) (p : Parser Unit) : Parser Unit := do
  if n < (← get).rest.length then overrun else p

/-- The level from which expressions may nest `depth` deep, but as deep as that only once no more
than `n` tokens are ahead. -/
def watchedLevel (n : Nat) : Nat → Level
  | 0 => lowestLevel
  | 1 =>
    let last := levelAbove lowestLevel
    ⟨unlessAhead n last.expression, unlessAhead n last.negation, unlessAhead n last.signed⟩
  | depth + 2 => levelAbove (watchedLevel n (depth + 1))

/-- At the word itself the parser reads nothing. -/
def Rests (b : Barrier) (p : Parser α) : Prop := Halts b b.behind p fun _ us => us = b.behind

theorem Rests.ifPassed {ask : Parser Bool} {p q : Parser α} (passes : Passes ask)
    (no : Rests b q) : Rests b (ask >>= fun ahead => if ahead then p else q) := by
  refine .after passes fun spotted other => ?_
  cases spotted with
  | false => exact no
  | true => exact absurd b.kindAhead_behind (other rfl)

theorem Rests.andThen {p : Parser α} {f : α → Parser β} (first : Rests b p)
    (next : ∀ a, Rests b (f a)) : Rests b (p >>= f) := by
  refine Halts.andThen first fun a us there => ?_
  subst there
  exact next a

theorem Rests.repeated {step : Parser Bool} (rests : Rests b step) :
    Rests b (repeatWhile step) := by
  refine Halts.repeated (I := (· = b.behind)) (fun us there => ?_) rfl
  subst there
  exact rests

/-- The word begins no operand, whatever may be nested in one. -/
theorem rests_primary : Rests b (primary l) := by
  refine .after (stays_predict _) fun _ _ => .after (stays_seesAny _) fun _ _ =>
    .after (stays_seesAny _) fun _ _ => .after (stays_kindAt 1) fun _ _ =>
    .after stays_kind fun k here => ?_
  have declares : k ∈ declarationStarts := here ▸ b.kindAhead_behind
  split
  case h_16 =>
    rintro ahead s rest
    have same := (s.complain_agrees (.expected .expression k)).rest.trans rest
    exact ⟨same ▸ ahead, same⟩
  all_goals exact absurd declares (by decide)

theorem rests_operands {sees : Parser Bool} {operand : Parser Unit} (passes : Passes sees)
    (rests : Rests b operand) : Rests b (operands sees operand) :=
  rests.andThen fun _ => Rests.repeated (.ifPassed passes (.answer rfl))

theorem rests_disjunction : Rests b (disjunction l) := by
  have access : Rests b (access l) := rests_primary.andThen fun _ =>
    Rests.repeated (.ifPassed (finds_sees (by decide)) (.answer rfl))
  have signed : Rests b (signedOperand l) := .ifPassed (finds_seesAny (by decide)) access
  have comparison : Rests b (comparison l) :=
    rests_operands (finds_seesComparison (by decide) (by decide)) <|
      rests_operands (finds_seesAny (by decide)) <|
        rests_operands (finds_seesAny (by decide)) signed
  have negatable : Rests b (negatable l) := by
    refine .after (finds_sees (A := (· ∉ declarationStarts)) (by decide)) fun notAhead other =>
      .after (stays_kindAt 1) fun _ _ => ?_
    split
    case isTrue yes =>
      exact absurd b.kindAhead_behind (other (Bool.and_eq_true_iff.mp yes).1)
    case isFalse => exact comparison
  exact rests_operands (finds_sees (by decide)) <|
    rests_operands (finds_sees (by decide)) negatable

theorem unlessAhead_before {p : Parser Unit} : HeedsBefore b (unlessAhead b.behind.length p) := by
  refine fun ts before => .after stays_get fun s here => ?_
  rw [if_pos (here ▸ before.length_lt)]
  exact .overrun trivial

theorem heeds_unlessAhead {p : Parser Unit} (rests : Rests b p) :
    Heeds b (unlessAhead b.behind.length p) := by
  refine fun ts => .knowing fun ahead => ?_
  rcases ahead.eq_or_before with rfl | before
  · refine .after stays_get fun s here => ?_
    rw [if_neg (by simp [here])]
    exact rests.weaken fun _ _ _ => trivial
  · exact unlessAhead_before ts before

/-- The lowest level is never come to before the word. -/
theorem watchedLevel_heeds (b : Barrier) {depth : Nat} (nested : depth ≠ 0) :
    (watchedLevel b.behind.length depth).Heeds b := by
  fun_induction watchedLevel b.behind.length depth with
  | case1 => exact absurd rfl nested
  | case2 => exact ⟨heeds_unlessAhead rests_disjunction, unlessAhead_before, unlessAhead_before⟩
  | case3 depth ih => exact levelAbove_heeds (ih depth.succ_ne_zero)

end Nesting

/-! ## Declarations -/

section Declarations

theorem heeds_ruleNamePart : Heeds b ruleNamePart := by
  refine fun ts => .after (stays_kindAt 1) fun following _ => .after stays_kind fun k here => ?_
  split
  case isTrue yes =>
    have dot : kindAhead ts 0 = .punctuator .dot := by
      simp only [Bool.and_eq_true, beq_iff_eq] at yes
      exact here ▸ yes.1
    exact (heeds_bump.andThen fun _ => .answer true).joinedBy dot (by decide) (by decide)
  case isFalse => exact .answer trivial

theorem heeds_ruleName : HeedsBefore b ruleName := by
  have name : HeedsBefore b (do bump; repeatWhile ruleNamePart) :=
    heeds_bump.andThen fun _ => heeds_ruleNamePart.repeated
  refine .within fun ts before => .after spots_seesName fun named _ => ?_
  cases named with
  | true => exact name ts before
  | false =>
    exact Heeds.ifPassed (finds_sees (by decide)) name (heeds_complainWanted _) ts

theorem heeds_outputAttribute (heeds : l.Heeds b) : Heeds b (outputAttribute l) := by
  have given : HeedsBefore b (within .outputAttribute do
      leafOf .outputAttributeName
      l.expression) :=
    .within (heeds_leafOf.andThen fun _ => heeds.expression)
  exact .after (stays_predict _) fun _ =>
    .ifPassed (finds_sees (by decide)) (given.andThen fun _ => .answer true) (.answer false)

theorem heeds_ruleBody (heeds : l.Heeds b) : Heeds b (ruleBody l) :=
  (heeds_block heeds).andThen fun _ => (heeds_outputAttribute heeds).repeated

theorem heeds_assertion (heeds : l.Heeds b) (asserts : kindAhead ts 0 = .keyword .assertKw)
    (before : b.Before ts) : Halts b ts (assertion l) fun _ _ => True := by
  refine .within (HeedsBefore.joined (heeds_ruleName.andThen fun _ => ?_)
    (by rw [asserts]; decide) before)
  exact .ifPassedThen (finds_seesAny (by decide)) heeds_bump (heeds_ruleBody heeds)

theorem heeds_output (heeds : l.Heeds b) (outputs : kindAhead ts 0 = .keyword .outputKw)
    (before : b.Before ts) : Halts b ts (output l) fun _ _ => True :=
  .within <| HeedsBefore.joined (heeds_ruleName.andThen fun _ => heeds_ruleBody heeds)
    (by rw [outputs]; decide) before

theorem heeds_function (heeds : l.Heeds b) : HeedsBefore b (function l) := by
  have arguments : Heeds b functionArguments :=
    .within <| (heeds_expect (by decide)).andThen fun _ => .either
      (.after (stays_sees _) fun _ => .eitherThen
        (heeds_commaSeparated (.within (heeds_require _ (by decide))))
        (heeds_expecting (by decide)))
      (.answer ())
  exact .within <| heeds_bump.andThen fun _ => (heeds_require _ (by decide)).andThen fun _ =>
    arguments.andThen fun _ => heeds_block heeds

theorem heeds_constant (heeds : l.Heeds b) : HeedsBefore b (constant l) :=
  .within <| heeds_bump.andThen fun _ => (heeds_require _ (by decide)).andThen fun _ =>
    (heeds_expect (by decide)).andThen fun _ => .either (heeds_block heeds) (.answer ())

theorem heeds_namespaceDeclaration (heeds : l.Heeds b) :
    HeedsBefore b (namespaceDeclaration l) := by
  have uri : Heeds b (do
      if ← sees .url then bump
      else if ← sees .stringOpen then stringLiteral l
      else complainWanted .namespaceUri) :=
    .ifPassed (finds_sees (by decide)) heeds_bump <|
    .ifPassed (finds_sees (by decide)) (heeds_stringLiteral heeds) (heeds_complainWanted _)
  refine .within <| heeds_bump.andThen fun _ ts =>
    .asking (finds_sees (by decide)) fun named before =>
    .after (stays_kindAt 1) fun following here => ?_
  split
  case isTrue yes =>
    obtain ⟨name, assign⟩ := Bool.and_eq_true_iff.mp yes
    refine (heeds_bump.andThen fun _ => uri).behind ?_ (before name)
    rw [← here, beq_iff_eq.mp assign]; decide
  case isFalse => exact uri ts

theorem heeds_nameDeclaration (r : Rule) : HeedsBefore b (nameDeclaration r) :=
  .within (heeds_bump.andThen fun _ => heeds_require _ (by decide))

theorem heeds_separatorDeclaration (heeds : l.Heeds b) : HeedsBefore b (separatorDeclaration l) :=
  .within <| heeds_bump.andThen fun _ =>
    .ifPassed (finds_sees (by decide)) (heeds_stringLiteral heeds) (heeds_complainWanted _)

theorem heeds_declaration (heeds : l.Heeds b) : HeedsBefore b (declaration l) := by
  refine fun ts before => .after stays_kind fun k here => ?_
  split
  case h_1 => exact heeds_assertion heeds here.symm before
  case h_2 => exact heeds_output heeds here.symm before
  case h_3 => exact heeds_function heeds ts before
  case h_4 => exact heeds_constant heeds ts before
  case h_5 => exact heeds_namespaceDeclaration heeds ts before
  case h_6 | h_7 => exact heeds_nameDeclaration _ ts before
  case h_8 => exact heeds_separatorDeclaration heeds ts before
  case h_9 => exact .after (stays_complain _) fun _ _ => heeds_skipTo ts

/-- Before the word a file goes on. -/
theorem halts_nextDeclaration (heeds : l.Heeds b) (before : b.Before ts) :
    Halts b ts (nextDeclaration l) fun yes _ => yes = true := by
  refine .after (stays_seesAny _) fun _ _ => .after (stays_sees _) fun ended here => ?_
  have goes_on : ended = false := here.trans (beq_false_of_ne before.kindAhead_ne)
  rw [goes_on]
  exact (heeds_declaration heeds ts before).andThen fun _ _ _ => .answer rfl

end Declarations

end Parser

end XuleLang
