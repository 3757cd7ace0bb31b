import XuleLang.Parser.Declaration
import XuleLang.Proofs.Parser.Conduct

/-!
The parsers of the grammar.

Every parser works, or reads what begins it. Expressions are judged inside a scope, one level after
the other; only what may stand in a declaration outside every scope is judged there too.
-/

namespace XuleLang

/-- The parsers of a level behave inside a scope. -/
structure Level.Sound (l : Level) : Prop where
  expression : Parser.Works .scope l.expression
  negation : Parser.Reads .scope l.negation
  signed : Parser.Reads .scope l.signed

namespace Parser

variable {l : Level} {g : Region} {ts : List Token}

/-! ## Blocks and names -/

theorem lowestLevel_sound : lowestLevel.Sound := by
  have works : Works .scope tooDeep :=
    (stays_complain _).works.andThen fun _ ts => .after stays_kind fun k here => by
      split
      case isTrue inside =>
        refine (reads_leafOf rfl).working ?_
        simpa [here] using inside
      case isFalse => exact .answer trivial
  have reads : Reads .scope tooDeep := fun ts ahead =>
    .after (stays_complain _) fun _ _ => .after stays_kind fun k here => by
      rw [here, if_pos (by simpa using ahead)]
      exact reads_leafOf rfl ts ahead
  exact ⟨works, reads, reads⟩

theorem stays_seesAssignment :
    Stays seesAssignment fun yes ts => yes = true →
      kindAhead ts 0 = .variableName ∧ kindAhead ts 1 = .punctuator .assign := by
  refine (stays_predict _).andThen fun _ => (stays_sees _).andThen fun variableAhead =>
    (stays_kindAt 1).andThen fun second => .answer ?_
  rintro ts rfl rfl - yes
  simpa using yes

/-- An assignment reads two tokens before its value. -/
theorem reads_assignment {value : Parser Unit} (ends : EndsOnce ts)
    (ahead : kindAhead ts 1 ≠ .endOfInput)
    (works : ∀ us : List Token, us.length + 2 = ts.length → Does .scope us value fun _ _ => True) :
    Does .scope ts (assignment value) fun _ us => us.length < ts.length := by
  refine .within rfl ((does_leafOf rfl (ends.kindAhead_zero ahead)).andThen fun _ us _ tail => ?_)
  subst tail
  have second : kindAhead ts.tail 0 ≠ .endOfInput := by rwa [kindAhead_tail]
  refine (does_bump second).andThen fun _ us _ tail => ?_
  have fewer : us.length + 2 = ts.length := by
    obtain ⟨t, rest, rfl, -⟩ := exists_cons_of_kindAhead (ends.kindAhead_zero ahead)
    obtain ⟨u, rest', rfl, -⟩ := exists_cons_of_kindAhead second
    simp [tail]
  refine (works us fewer).andThen fun _ vs suffix _ => ?_
  refine Works.andThen (works_expect (by simp)) (fun _ => .answer ()) vs
    |>.weaken fun _ ws rest _ => ?_
  have := (rest.trans suffix).length_le
  omega

theorem admits_expressionBlock (deep : g ≠ .file) : g.admits .expressionBlock := by
  cases g with
  | file => exact absurd rfl deep
  | declaration => rfl
  | scope => rfl

theorem does_blockUpTo (sound : l.Sound) (deep : g ≠ .file) {fuel : Nat}
    (enough : ts.length < fuel) : Does g ts (blockUpTo l fuel) fun _ _ => True := by
  induction fuel generalizing g ts with
  | zero => exact absurd enough (Nat.not_lt_zero _)
  | succ fuel ih =>
    refine .within (admits_expressionBlock deep) ?_
    rw [Region.below_eq_scope rfl]
    refine (Does.repeatAdvancing fun us suffix => .knowing fun ends =>
      .step stays_seesAssignment fun found => ?_).andThen fun _ us _ _ => sound.expression us
    refine reads_assignment ends (by simp [(found rfl).2]) fun vs fewer => ih nofun ?_
    have := suffix.length_le
    omega

theorem works_block (sound : l.Sound) (deep : g ≠ .file) : Works g (block l) := by
  rintro ts s rfl
  exact does_blockUpTo sound deep (Nat.lt_succ_self _) s rfl

theorem works_qualifiedName : Works .scope qualifiedName :=
  .within rfl <| (works_requireName _).andThen fun _ => .andThen (works_eat nofun) fun _ =>
    .either (works_requireName _) (.answer ())

theorem works_propertyRef : Works .scope propertyRef := .within rfl (works_requireName _)

theorem advances_stringPart (sound : l.Sound) (deep : g ≠ .file) :
    Advances g (stringPart l) := by
  refine fun ts => .after stays_kind fun k here => ?_
  split
  case h_1 => exact (reads_bump.andThen fun _ => .answer true).advancing (by simp [← here])
  case h_2 =>
    refine Reads.advancing (reads_bump.andThen fun _ => ?_) (by simp [← here])
    exact (works_block sound deep).andThen fun _ =>
      .andThen (works_expect nofun) fun _ => .answer true
  case h_3 => exact (reads_bump.andThen fun _ => .answer false).advancing (by simp [← here])
  case h_4 => exact .after (stays_complain _) fun _ _ => .answer nofun

theorem reads_stringLiteral (sound : l.Sound) (deep : g ≠ .file) :
    Reads g (stringLiteral l) := by
  have admitted : g.admits .stringLiteral ∧ g.below .stringLiteral = g := by
    cases g with
    | file => exact absurd rfl deep
    | declaration => exact ⟨rfl, rfl⟩
    | scope => exact ⟨rfl, rfl⟩
  refine .within admitted.1 ?_
  rw [admitted.2]
  exact reads_bump.andThen fun _ => (advances_stringPart sound deep).repeated

theorem works_argumentList (sound : l.Sound) : Works .scope (argumentList l) := by
  have close : Works .scope (do let _ ← expect (.punctuator .rparen)) :=
    .andThen (works_expect nofun) fun _ => .answer ()
  have arguments : Works .scope (commaSeparated (block l)) :=
    works_commaSeparated (works_block sound nofun)
  exact .within rfl <| .andThen (works_expect nofun) fun _ => .either
    (.andThen (stays_sees _).works fun _ => .either (arguments.andThen fun _ => close) close)
    (.answer ())

theorem reads_whereClause (sound : l.Sound) : Reads .scope (whereClause l) :=
  .within rfl <| reads_bump.andThen fun _ => works_block sound nofun

/-- The second token of a two-word operator is not the end either. -/
theorem reads_bumpOperator : Reads g bumpOperator := by
  refine fun ts ahead => .after stays_seesNotIn fun notIn found => ?_
  cases notIn with
  | false => exact reads_bump ts ahead
  | true =>
    simp only [Bool.true_eq, Bool.and_eq_true, beq_iff_eq] at found
    exact reads_bump.behind ahead (by simp [found.2])

/-! ## Queries -/

theorem reads_aspectCondition (sound : l.Sound) : Reads .scope (aspectCondition l) :=
  reads_bumpOperator.andThen fun _ => .within rfl <|
    .ifSpotted (spots_sees nofun) reads_bump sound.expression

theorem reads_binding : Reads .scope binding :=
  .within rfl <| reads_bump.andThen fun _ => works_require _ nofun

theorem reads_aspectFilter (sound : l.Sound) : Reads .scope (aspectFilter l) := by
  have property : Advances .scope (do
      if (← kind) == .punctuator .dot then
        bump
        propertyRef
        pure true
      else pure false) := by
    refine fun ts => .after stays_kind fun k here => ?_
    split
    case isTrue dot =>
      have reads : Reads .scope (do bump; propertyRef; pure true) :=
        reads_bump.andThen fun _ => works_propertyRef.andThen fun _ => .answer true
      exact reads.advancing (by simp [← here, beq_iff_eq.mp dot])
    case isFalse => exact .answer nofun
  have named : Works .scope (do if ← sees (.keyword .asKw) then binding) :=
    .ifSpotted (spots_sees nofun) reads_binding (.answer ())
  refine .within rfl <| reads_bump.andThen fun _ => .andThen (works_eat nofun) fun _ =>
    works_qualifiedName.andThen fun _ => property.repeated.andThen fun _ ts => ?_
  refine .after spots_seesNotIn fun notIn spottedNotIn =>
    .after (spots_seesAny (by decide)) fun operator spotted => ?_
  split
  case isTrue yes =>
    have ahead := (Bool.or_eq_true_iff.mp yes).elim spotted spottedNotIn
    exact (reads_aspectCondition sound).andThen (fun _ => named) |>.working ahead
  case isFalse => exact named ts

theorem reads_factset (sound : l.Sound) : Reads .scope (factset l) := by
  refine .within rfl fun ts ahead => .after stays_kind fun k _ => ?_
  have closing : ∀ c : Bool, (if c then TokenKind.punctuator .rbracket else .punctuator .rbrace) ≠
      .endOfInput := by decide
  have last : ∀ c : Bool, Works .scope (do
      let _ ← expect (if c then .punctuator .rbracket else .punctuator .rbrace)) :=
    fun c => .andThen (works_expect (closing c)) fun _ => .answer ()
  refine (reads_bump.andThen fun _ => ?_) ts ahead
  refine (Advances.step (spots_seesAny (by decide)) (reads_leafOf rfl)).repeated.andThen fun _ =>
    (Advances.step (spots_sees (by simp)) (reads_aspectFilter sound)).repeated.andThen fun _ => ?_
  refine .ifSpotted (spots_sees nofun) ((reads_whereClause sound).andThen fun _ => last _) ?_
  exact (stays_sees _).works.andThen fun _ => stays_kind.works.andThen fun _ =>
    .eitherThen (works_block sound nofun) (last _)

theorem finds_seesArcrole {A : TokenKind → Prop} (identifier : A .identifier) (url : A .url)
    (string : A .stringOpen) : Finds A seesArcrole := by
  refine stays_kind.andThen fun k => ?_
  split
  case h_1 => exact (stays_kindAt 1).andThen fun _ => .answer fun _ _ here _ => here ▸ identifier
  case h_2 => exact .answer fun _ here _ => here ▸ url
  case h_3 => exact .answer fun _ here _ => here ▸ string
  case h_4 => exact .answer fun _ _ => nofun

theorem spots_seesArcrole : Spots seesArcrole :=
  finds_seesArcrole (A := (· ≠ .endOfInput)) nofun nofun nofun

theorem reads_arcrole (sound : l.Sound) : Reads .scope (arcrole l) := by
  refine .within rfl fun ts ahead => .after stays_kind fun k here => ?_
  split
  case isTrue => exact reads_stringLiteral sound (by decide) ts ahead
  case isFalse => exact reads_bump ts ahead

theorem works_direction : Works .scope direction :=
  .within rfl <| (stays_predict _).works.andThen fun _ => works_require _ nofun

theorem reads_includeClause : Reads .scope includeClause :=
  .within rfl <| reads_bump.andThen fun _ => .andThen (works_expect nofun) fun _ => .answer ()

theorem reads_wordClause (sound : l.Sound) : Reads .scope (wordClause l) :=
  .within rfl <| reads_bump.andThen fun _ => sound.expression

theorem reads_stopClause (sound : l.Sound) : Reads .scope (stopClause l) :=
  .within rfl <| reads_bump.andThen fun _ => .andThen (works_expect nofun) fun _ =>
    .either sound.expression (.answer ())

theorem advances_clause (sound : l.Sound) : Advances .scope (clause l) :=
  .ifSpotted (spots_seesAny (by decide)) ((reads_wordClause sound).andThen fun _ => .answer true) <|
  .ifSpotted (spots_sees nofun) ((reads_stopClause sound).andThen fun _ => .answer true) <|
  .ifSpotted (spots_seesAnyWord _) ((reads_wordClause sound).andThen fun _ => .answer true) <|
  .ifSpotted (spots_sees nofun) ((reads_whereClause sound).andThen fun _ => .answer true) .stop

theorem works_returnOption : Works .scope returnOption :=
  .within rfl <| (stays_predict _).works.andThen fun _ => works_require _ nofun

/-- A word on the form of the results is known by what follows it, which the end cannot do. -/
theorem advances_formModifier : Advances .scope formModifier := by
  refine fun ts => .knowing fun ends => .after (stays_isWordAt 0 _) fun first isFirst =>
    .after (stays_isWordAt 1 _) fun second isSecond => .after stays_get fun _ _ =>
    .after (stays_kindAt 1) fun following here => ?_
  split
  case isTrue both =>
    obtain ⟨byAhead, networkAhead⟩ := Bool.and_eq_true_iff.mp both
    refine Does.weaken ?_ fun _ _ _ fewer _ => fewer
    exact (reads_bump.andThen fun _ => .answer true).behind (by simp [isFirst byAhead])
      (by simp [isSecond networkAhead])
  case isFalse =>
    split
    case isTrue yes =>
      have follows : kindAhead ts 1 ≠ .endOfInput := by
        rintro reached
        simp [here, reached] at yes
      exact (reads_bump.andThen fun _ => .answer true).advancing (ends.kindAhead_zero follows)
    case isFalse => exact .answer nofun

theorem reads_returnsClause : Reads .scope returnsClause := by
  have shape : Works .scope (do
      if ← eat (.keyword .asKw) then require .identifier .resultShape) :=
    .andThen (works_eat nofun) fun _ => .either (works_require _ nofun) (.answer ())
  exact .within rfl <| reads_bump.andThen fun _ => advances_formModifier.repeated.andThen fun _ =>
    .andThen (works_eat nofun) fun _ => .either
      ((works_commaSeparated works_returnOption).andThen fun _ =>
        .andThen (works_expect nofun) fun _ => shape)
      (works_returnOption.andThen fun _ => shape)

theorem reads_navigation (sound : l.Sound) : Reads .scope (navigation l) :=
  .within rfl <| reads_bump.andThen fun _ => .andThen (works_eat nofun) fun _ =>
    (stays_predict _).works.andThen fun _ =>
    .ifSpottedThen spots_seesArcrole (reads_arcrole sound) <|
    works_direction.andThen fun _ => .andThen (works_eat nofun) fun _ =>
    .ifSpottedThen (spots_sees nofun) reads_includeClause <|
    (advances_clause sound).repeated.andThen fun _ =>
    .ifSpotted (spots_sees nofun) reads_returnsClause (.answer ())

theorem reads_filterReturns (sound : l.Sound) : Reads .scope (filterReturns l) :=
  .within rfl <| reads_bump.andThen fun _ => sound.expression

theorem reads_filter (sound : l.Sound) : Reads .scope (filter l) :=
  .within rfl <| reads_bump.andThen fun _ => sound.expression.andThen fun _ =>
    .ifSpottedThen (spots_sees nofun) (reads_whereClause sound) <|
    .ifSpotted (spots_sees nofun) (reads_filterReturns sound) (.answer ())

/-! ## Expressions -/

theorem reads_call (sound : l.Sound) : Reads .scope (call l) :=
  .within rfl <| (reads_leafOf rfl).andThen fun _ => works_argumentList sound

theorem works_nameOrCall (sound : l.Sound) : Works .scope (nameOrCall l) :=
  works_qualifiedName.andThen fun _ => stays_kind.works.andThen fun _ =>
    .either (.wrapping rfl nofun (works_argumentList sound)) (.answer ())

theorem reads_parenthesized (sound : l.Sound) : Reads .scope (parenthesized l) :=
  .within rfl <| reads_bump.andThen fun _ => .andThen (works_block sound nofun) fun _ =>
    .andThen (works_expect nofun) fun _ => .answer ()

theorem reads_conditional (sound : l.Sound) : Reads .scope (conditional l) :=
  .within rfl <| reads_bump.andThen fun _ => sound.expression.andThen fun _ =>
    .andThen (works_block sound nofun) fun _ => .andThen (works_expect nofun) fun _ =>
    .either (works_block sound nofun) (.answer ())

theorem works_loopVariable : Works .scope loopVariable := .within rfl (works_require _ nofun)

theorem reads_loop (sound : l.Sound) : Reads .scope (loop l) := by
  have body : Works .scope (block l) := works_block sound nofun
  exact .within rfl <| reads_bump.andThen fun _ => .andThen (works_eat nofun) fun _ =>
    works_loopVariable.andThen fun _ => .andThen (works_expect nofun) fun _ =>
    .eitherThen sound.expression (.either (.andThen (works_expect nofun) fun _ => body) body)

theorem works_primary (sound : l.Sound) : Works .scope (primary l) := by
  refine (stays_predict _).works.andThen fun _ => (stays_seesAny _).works.andThen fun _ =>
    (stays_seesAny _).works.andThen fun _ => (stays_kindAt 1).works.andThen fun _ ts =>
    .after stays_kind fun k here => ?_
  have begins : k ≠ .endOfInput → kindAhead ts 0 ≠ .endOfInput := here ▸ id
  split
  case h_1 | h_3 | h_4 | h_5 | h_6 => exact (reads_leafOf rfl).working (begins nofun)
  case h_2 => exact (reads_stringLiteral sound (by decide)).working (begins nofun)
  case h_7 =>
    split
    · exact (reads_call sound).working (begins nofun)
    · exact (reads_leafOf rfl).working (begins nofun)
  case h_8 =>
    split
    · exact (reads_call sound).working (begins nofun)
    · exact works_nameOrCall sound ts
  case h_9 => exact (reads_parenthesized sound).working (begins nofun)
  case h_10 => exact (reads_conditional sound).working (begins nofun)
  case h_11 => exact (reads_loop sound).working (begins nofun)
  case h_12 | h_13 => exact (reads_factset sound).working (begins nofun)
  case h_14 => exact (reads_navigation sound).working (begins nofun)
  case h_15 => exact (reads_filter sound).working (begins nofun)
  case h_16 => exact (stays_complain _).works ts

theorem advances_propertyAccess (sound : l.Sound) : Advances .scope (propertyAccess l) := by
  refine .ifSpotted (spots_sees nofun)
    (.andThen (.wrapping rfl nofun ?_) fun _ => .answer true) .stop
  exact reads_bump.andThen fun _ => works_propertyRef.andThen fun _ =>
    (stays_sees _).works.andThen fun _ => .either (works_argumentList sound) (.answer ())

theorem works_access (sound : l.Sound) : Works .scope (access l) :=
  (works_primary sound).andThen fun _ => (advances_propertyAccess sound).repeated

theorem works_signedOperand (sound : l.Sound) : Works .scope (signedOperand l) :=
  .ifSpotted (spots_seesAny (by decide)) sound.signed (works_access sound)

/-- Operators that are spotted group what works. -/
theorem works_operands {sees : Parser Bool} {operand : Parser Unit} (spots : Spots sees)
    (works : Works .scope operand) : Works .scope (operands sees operand) := by
  have reads : Reads .scope (wrapping .binaryExpression do bumpOperator; operand) :=
    .wrapping rfl nofun (reads_bumpOperator.andThen fun _ => works)
  exact works.andThen fun _ =>
    Advances.repeated (.ifSpotted spots (reads.andThen fun _ => .answer true) .stop)

theorem finds_seesComparison {A : TokenKind → Prop} (notKw : A (.keyword .notKw))
    (others : ∀ k ∈ comparisonOperators, A k) : Finds A seesComparison := by
  refine (finds_seesNotIn notKw).andThen fun notIn =>
    .andThen (finds_seesAny others) fun operator => .answer ?_
  intro ts found foundNotIn yes
  exact (Bool.or_eq_true_iff.mp yes).elim found foundNotIn

theorem spots_seesComparison : Spots seesComparison :=
  finds_seesComparison (A := (· ≠ .endOfInput)) nofun (by decide)

theorem works_comparison (sound : l.Sound) : Works .scope (comparison l) :=
  works_operands spots_seesComparison <| works_operands (spots_seesAny (by decide)) <|
    works_operands (spots_seesAny (by decide)) <| works_signedOperand sound

theorem works_negatable (sound : l.Sound) : Works .scope (negatable l) := by
  refine fun ts => .after (spots_sees nofun) fun notAhead spotted =>
    .after (stays_kindAt 1) fun _ _ => ?_
  split
  case isTrue yes =>
    exact sound.negation.working (spotted (Bool.and_eq_true_iff.mp yes).1)
  case isFalse => exact works_comparison sound ts

theorem works_disjunction (sound : l.Sound) : Works .scope (disjunction l) :=
  works_operands (spots_sees nofun) <| works_operands (spots_sees nofun) <| works_negatable sound

theorem reads_unary {operand : Parser Unit} (works : Works .scope operand) :
    Reads .scope (unary operand) :=
  .within rfl <| reads_bump.andThen fun _ => works

theorem levelAbove_sound (sound : l.Sound) : (levelAbove l).Sound :=
  ⟨works_disjunction sound, reads_unary (works_negatable sound),
    reads_unary (works_signedOperand sound)⟩

/-- However deep expressions may nest, they behave. -/
theorem level_sound (depth : Nat) : (level depth).Sound := by
  induction depth with
  | zero => exact lowestLevel_sound
  | succ depth ih => exact levelAbove_sound ih

end Parser

end XuleLang
