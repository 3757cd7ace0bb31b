import XuleLang.Syntax.Parse
import XuleLang.Proofs.Parser.Watch

/-!
The parsers of the grammar find the footing that they need.

They are judged in the order of their definitions. A value needs firm ground to begin on and leaves
unsure ground behind; what ends with a bracket or a word leaves firm ground. Conditionals, loops and
fact sets are judged inside of themselves, where one value may follow another.
-/

namespace XuleLang

namespace Parser

variable {w : Watch} {l : Level} {r : Rule}

/-! ## Blocks and names -/

section Blocks

theorem goes_assignment {value : Parser Unit} (goes : Goes w .firm value .unsure) :
    Goes w .unsure (assignment value) .firm :=
  .within rfl rfl <| (goes_leafOf rfl rfl).settled.andThen fun _ => goes_bump.andThen fun _ =>
    goes.andThen fun _ => goes_expecting _

theorem goes_blockUpTo (watched : l.Watched w) (fuel : Nat) :
    Goes w .firm (blockUpTo l fuel) .unsure := by
  induction fuel with
  | zero => exact fun s here => ⟨w.unsure (w.overrun here), rfl⟩
  | succ fuel ih =>
    have assignments : Goes w .firm (do
        let ahead ← seesAssignment
        if ahead then assignment (blockUpTo l fuel)
        return ahead) .firm :=
      (stands_seesAssignment _).andThen fun _ =>
        .eitherThen (goes_assignment ih).firmly (.answer fun _ => id)
    exact .within rfl rfl <| assignments.repeated.andThen fun _ => watched.expression

theorem goes_block (watched : l.Watched w) : Goes w .firm (block l) .unsure :=
  fun s here => goes_blockUpTo watched _ s here

theorem goes_stringPart (watched : l.Watched w) : Goes w .unsure (stringPart l) .firm := by
  refine (stands_kind _).andThen fun k => ?_
  split
  case h_1 | h_3 => exact goes_bump.andThen fun _ => .answer fun _ => id
  case h_2 =>
    exact goes_bump.andThen fun _ => (goes_block watched).andThen fun _ =>
      (goes_expect _).andThen fun _ => .answer fun _ => id
  case h_4 => exact (goes_complain _).andThen fun _ => .answer fun _ => id

theorem goes_stringLiteral (watched : l.Watched w) : Goes w .unsure (stringLiteral l) .firm :=
  .within rfl rfl <| goes_bump.andThen fun _ => (goes_stringPart watched).firmly.repeated

theorem goes_argumentList (watched : l.Watched w) : Goes w .unsure (argumentList l) .firm := by
  refine .within rfl rfl <| (goes_expect _).andThen fun _ => .either ?_ (.answer fun _ => id)
  exact (stands_sees _ _).andThen fun _ =>
    .optionally (goes_commaSeparated (goes_block watched)) (goes_expecting _)

theorem goes_whereClause (watched : l.Watched w) : Goes w .unsure (whereClause l) .unsure :=
  .within rfl rfl <| goes_bump.andThen fun _ => goes_block watched

end Blocks

/-! ## Queries -/

section Queries

theorem goes_aspectCondition (watched : l.Watched w) :
    Goes w .unsure (aspectCondition l) .unsure :=
  goes_bumpOperator.andThen fun _ => .within rfl rfl <| (stands_sees _ _).andThen fun _ =>
    .either goes_bump.settled.firmly watched.expression

theorem goes_binding : Goes w .unsure binding .unsure :=
  .within rfl rfl <| goes_bump.settled.andThen fun _ => (goes_require _ _).settled

/-- A property of an aspect is read behind its point. -/
theorem goes_aspectProperty : Goes w .unsure (do
    if (← kind) == .punctuator .dot then
      bump
      propertyRef
      pure true
    else pure false) .unsure := by
  have reads : Runs w.PointAhead (do bump; propertyRef; pure true) fun _ => w.At .unsure :=
    runs_point.andThen fun _ => w.propertyRef.andThen fun _ => .answer fun _ => w.unsure
  refine runs_kind.andThen fun k => ?_
  split
  case isTrue point =>
    exact reads.weaken (fun _ here => ⟨here.1, here.2.trans (beq_iff_eq.mp point)⟩) fun _ _ => id
  case isFalse => exact .answer fun _ here => here.1

theorem goes_aspectFilter (watched : l.Watched w) : Goes w .unsure (aspectFilter l) .unsure :=
  .within rfl rfl <| goes_bump.andThen fun _ => (goes_eat _).andThen fun _ =>
    w.qualifiedName.andThen fun _ => goes_aspectProperty.repeated.andThen fun _ =>
    (stands_seesNotIn _).andThen fun _ => (stands_seesAny _ _).andThen fun _ =>
    .eitherThen (goes_aspectCondition watched) <|
    (stands_sees _ _).andThen fun _ => .either goes_binding (.answer fun _ => id)

theorem goes_factset (watched : l.Watched w) : Goes w .unsure (factset l) .unsure := by
  have options : Goes w .firm (do
      let ahead ← seesAny factsetOptions
      if ahead then leafOf .factsetOption
      return ahead) .firm :=
    (stands_seesAny _ _).andThen fun _ =>
      .eitherThen (goes_leafOf rfl rfl).firmly (.answer fun _ => id)
  have filters : Goes w .unsure (do
      let ahead ← sees (.punctuator .atSign)
      if ahead then aspectFilter l
      return ahead) .unsure :=
    (stands_sees _ _).andThen fun _ => .eitherThen (goes_aspectFilter watched) (.answer fun _ => id)
  have block : Runs w.Inside (block l) fun _ => w.Inside := (goes_block watched).inside
  have expecting (k : TokenKind) : Runs w.Inside (do let _ ← expect k) fun _ => w.Inside :=
    (goes_expecting k).firmly.inside
  refine .within_juxtaposed rfl rfl <| (stands_kind .firm).inside.andThen fun _ =>
    goes_bump.firmly.inside.andThen fun _ => options.repeated.inside.andThen fun _ =>
    filters.repeated.firmly.inside.andThen fun _ => (stands_sees _ .firm).inside.andThen fun _ =>
    .either ((goes_whereClause watched).firmly.inside.andThen fun _ => expecting _) ?_
  exact (stands_sees _ .firm).inside.andThen fun _ => (stands_kind .firm).inside.andThen fun _ =>
    .eitherThen block (expecting _)

theorem stands_seesArcrole : Stands w seesArcrole := by
  refine .andThen stands_kind fun k => ?_
  split
  case h_1 => exact .andThen (stands_kindAt 1) fun _ => .answer _
  case h_2 | h_3 | h_4 => exact .answer _

theorem goes_arcrole (watched : l.Watched w) : Goes w .unsure (arcrole l) .firm :=
  .within rfl rfl <| (stands_kind _).andThen fun _ => .either (goes_stringLiteral watched) goes_bump

theorem goes_direction : Goes w .unsure direction .firm :=
  .within rfl rfl <| (stands_predict (by decide) _).andThen fun _ => goes_require _ _

theorem goes_includeClause : Goes w .unsure includeClause .firm :=
  .within rfl rfl <| goes_bump.settled.andThen fun _ => goes_expecting _

theorem goes_wordClause (watched : l.Watched w) : Goes w .unsure (wordClause l) .unsure :=
  .within rfl rfl <| goes_bump.andThen fun _ => watched.expression

theorem goes_stopClause (watched : l.Watched w) : Goes w .unsure (stopClause l) .unsure :=
  .within rfl rfl <| goes_bump.settled.andThen fun _ => (goes_expect _).andThen fun _ =>
    .either watched.expression (.answer fun _ => w.unsure)

theorem goes_clause (watched : l.Watched w) : Goes w .unsure (clause l) .unsure := by
  have word : Goes w .unsure (do wordClause l; pure true) .unsure :=
    (goes_wordClause watched).andThen fun _ => .answer fun _ => id
  exact (stands_seesAny _ _).andThen fun _ => .either word <|
    (stands_sees _ _).andThen fun _ => .either
      ((goes_stopClause watched).andThen fun _ => .answer fun _ => id) <|
    (stands_seesAnyWord _ _).andThen fun _ => .either word <|
    (stands_sees _ _).andThen fun _ => .either
      ((goes_whereClause watched).andThen fun _ => .answer fun _ => id) (.answer fun _ => id)

theorem goes_returnOption : Goes w .unsure returnOption .unsure :=
  .within rfl rfl <| (stands_predict (by decide) _).andThen fun _ => (goes_require _ _).settled

theorem goes_formModifier : Goes w .unsure formModifier .unsure :=
  (stands_isWordAt 0 _ _).andThen fun _ => (stands_isWordAt 1 _ _).andThen fun _ =>
    .andThen (fun _ here => ⟨here, rfl⟩) fun _ => (stands_kindAt 1 _).andThen fun _ => .either
      (goes_bump.settled.andThen fun _ => goes_bump.settled.andThen fun _ => .answer fun _ => id)
      (.either (goes_bump.settled.andThen fun _ => .answer fun _ => id) (.answer fun _ => id))

theorem goes_returnsClause : Goes w .unsure returnsClause .unsure := by
  have shape : Goes w .unsure (do
      if ← eat (.keyword .asKw) then require .identifier .resultShape) .unsure :=
    (goes_eat _).andThen fun _ => .either (goes_require _ _).settled (.answer fun _ => id)
  exact .within rfl rfl <| goes_bump.settled.andThen fun _ =>
    goes_formModifier.repeated.andThen fun _ => (runs_eat _).andThen fun parenthesis => by
      cases parenthesis with
      | true =>
        exact (goes_commaSeparated goes_returnOption.firmly).andThen fun _ =>
          (goes_expect _).settled.andThen fun _ => shape
      | false => exact goes_returnOption.andThen fun _ => shape

theorem goes_navigation (watched : l.Watched w) : Goes w .unsure (navigation l) .unsure :=
  .within rfl rfl <| goes_bump.settled.andThen fun _ => (goes_eat _).andThen fun _ =>
    (stands_predict (by decide) _).andThen fun _ => (stands_seesArcrole _).andThen fun _ =>
    .eitherThen (goes_arcrole watched).settled <|
    goes_direction.settled.andThen fun _ => (goes_eat _).andThen fun _ =>
    (stands_sees _ _).andThen fun _ => .eitherThen goes_includeClause.settled <|
    (goes_clause watched).repeated.andThen fun _ =>
    (stands_sees _ _).andThen fun _ => .either goes_returnsClause (.answer fun _ => id)

theorem goes_filterReturns (watched : l.Watched w) : Goes w .unsure (filterReturns l) .unsure :=
  .within rfl rfl <| goes_bump.andThen fun _ => watched.expression

theorem goes_filter (watched : l.Watched w) : Goes w .unsure (filter l) .unsure :=
  .within rfl rfl <| goes_bump.andThen fun _ => watched.expression.andThen fun _ =>
    (stands_sees _ _).andThen fun _ => .eitherThen (goes_whereClause watched) <|
    (stands_sees _ _).andThen fun _ => .either (goes_filterReturns watched) (.answer fun _ => id)

end Queries

/-! ## Expressions -/

section Expressions

theorem goes_call (watched : l.Watched w) : Goes w .unsure (call l) .unsure :=
  .within rfl rfl <| (goes_leafOf rfl rfl).settled.andThen fun _ =>
    (goes_argumentList watched).settled

theorem goes_nameOrCall (watched : l.Watched w) : Goes w .firm (nameOrCall l) .unsure :=
  w.qualifiedName.andThen fun _ => (stands_kind _).andThen fun _ => .either
    (.wrapping rfl rfl (goes_argumentList watched).settled) (.answer fun _ => id)

theorem goes_parenthesized (watched : l.Watched w) : Goes w .unsure (parenthesized l) .unsure :=
  .within rfl rfl <| goes_bump.andThen fun _ => (goes_block watched).andThen fun _ =>
    (goes_expecting _).settled

/-- The first block follows the condition with nothing between them. -/
theorem goes_conditional (watched : l.Watched w) : Goes w .unsure (conditional l) .unsure := by
  have block : Runs w.Inside (block l) fun _ => w.Inside := (goes_block watched).inside
  exact .within_juxtaposed rfl rfl <| goes_bump.firmly.inside.andThen fun _ =>
    watched.expression.inside.andThen fun _ => block.andThen fun _ =>
    (goes_expect _).firmly.inside.andThen fun _ => .either block (.answer fun _ => id)

theorem goes_loopVariable : Goes w .unsure loopVariable .firm :=
  .within rfl rfl (goes_require _ _)

/-- Without parentheses, the block follows the collection with nothing between them. -/
theorem goes_loop (watched : l.Watched w) : Goes w .unsure (loop l) .unsure := by
  have block : Runs w.Inside (block l) fun _ => w.Inside := (goes_block watched).inside
  exact .within_juxtaposed rfl rfl <| goes_bump.firmly.inside.andThen fun _ =>
    (goes_eat (f := .firm) _).inside.andThen fun _ =>
    goes_loopVariable.firmly.inside.andThen fun _ => (goes_expect _).firmly.inside.andThen fun _ =>
    .eitherThen watched.expression.inside <|
    .either ((goes_expect _).firmly.inside.andThen fun _ => block) block

theorem goes_primary (watched : l.Watched w) : Goes w .firm (primary l) .unsure := by
  have announced : Goes w .firm (predict operandRules) .firm :=
    fun s here => ⟨w.operand here, s.note_rules _ _⟩
  refine announced.andThen fun _ => (stands_seesAny _ _).andThen fun _ =>
    (stands_seesAny _ _).andThen fun _ => (stands_kindAt 1 _).andThen fun _ =>
    (stands_kind _).andThen fun k => ?_
  have leaf {r : Rule} (other : r.refers = false) (apart : r.juxtaposes = false) :
      Goes w .firm (leafOf r) .unsure := (goes_leafOf other apart).firmly.settled
  split
  case h_1 | h_3 | h_4 | h_5 | h_6 => exact leaf rfl rfl
  case h_2 => exact (goes_stringLiteral watched).firmly.settled
  case h_7 => exact .either (goes_call watched).firmly (leaf rfl rfl)
  case h_8 => exact .either (goes_call watched).firmly (goes_nameOrCall watched)
  case h_9 => exact (goes_parenthesized watched).firmly
  case h_10 => exact (goes_conditional watched).firmly
  case h_11 => exact (goes_loop watched).firmly
  case h_12 | h_13 => exact (goes_factset watched).firmly
  case h_14 => exact (goes_navigation watched).firmly
  case h_15 => exact (goes_filter watched).firmly
  case h_16 => exact (goes_complain _).firmly.settled

/-- The name of a property is read behind its point. -/
theorem goes_propertyAccess (watched : l.Watched w) :
    Goes w .unsure (propertyAccess l) .unsure := by
  have property : Runs w.PointAhead (do
      bump
      propertyRef
      if ← sees (.punctuator .lparen) then argumentList l) fun _ => w.At .unsure :=
    runs_point.andThen fun _ => w.propertyRef.settled.andThen fun _ =>
      (stands_sees _ _).andThen fun _ => .either (goes_argumentList watched).settled
        (.answer fun _ => id)
  refine runs_sees_point.andThen fun point => ?_
  cases point with
  | false => exact .answer fun _ => id
  | true =>
    exact Runs.andThen (.wrappingOf (fun s here => w.wrap_pointAhead rfl here) property
      fun _ _ => w.close) fun _ => .answer fun _ => id

theorem goes_access (watched : l.Watched w) : Goes w .firm (access l) .unsure :=
  (goes_primary watched).andThen fun _ => (goes_propertyAccess watched).repeated

theorem goes_signedOperand (watched : l.Watched w) : Goes w .firm (signedOperand l) .unsure :=
  (stands_seesAny _ _).andThen fun _ => .either watched.signed.firmly (goes_access watched)

/-- Operators stand between operands. -/
theorem goes_operands {sees : Parser Bool} {operand : Parser Unit} (keeps : Stands w sees)
    (goes : Goes w .firm operand .unsure) : Goes w .firm (operands sees operand) .unsure := by
  have right : Goes w .unsure (wrapping .binaryExpression do bumpOperator; operand) .unsure :=
    .wrapping rfl rfl (goes_bumpOperator.andThen fun _ => goes)
  refine goes.andThen fun _ => .repeated <| (keeps _).andThen fun _ => ?_
  exact .either (right.andThen fun _ => .answer fun _ => id) (.answer fun _ => id)

theorem goes_negatable (watched : l.Watched w) : Goes w .firm (negatable l) .unsure := by
  have comparison : Goes w .firm (comparison l) .unsure :=
    goes_operands stands_seesComparison <| goes_operands (stands_seesAny _) <|
      goes_operands (stands_seesAny _) <| goes_signedOperand watched
  exact (stands_sees _ _).andThen fun _ => (stands_kindAt 1 _).andThen fun _ =>
    .either watched.negation.firmly comparison

theorem goes_disjunction (watched : l.Watched w) : Goes w .firm (disjunction l) .unsure :=
  goes_operands (stands_sees _) <| goes_operands (stands_sees _) <| goes_negatable watched

theorem goes_unary {operand : Parser Unit} (goes : Goes w .firm operand .unsure) :
    Goes w .unsure (unary operand) .unsure :=
  .within rfl rfl <| goes_bump.andThen fun _ => goes

theorem goes_tooDeep : Goes w .unsure tooDeep .unsure :=
  (goes_complain _).settled.andThen fun _ => (stands_kind _).andThen fun _ =>
    .either (goes_leafOf rfl rfl).settled (.answer fun _ => id)

theorem level_watched (depth : Nat) : (level depth).Watched w := by
  induction depth with
  | zero => exact ⟨goes_tooDeep.firmly, goes_tooDeep, goes_tooDeep⟩
  | succ depth ih =>
    exact ⟨goes_disjunction ih, goes_unary (goes_negatable ih), goes_unary (goes_signedOperand ih)⟩

end Expressions

/-! ## Declarations -/

section Declarations

theorem goes_ruleNamePart : Goes w .firm ruleNamePart .firm :=
  (stands_kindAt 1 _).andThen fun _ => (stands_kind _).andThen fun _ => .either
    (goes_bump.firmly.andThen fun _ => goes_bump.firmly.andThen fun _ => .answer fun _ => id)
    (.answer fun _ => id)

theorem goes_ruleName : Goes w .unsure ruleName .firm := by
  have name : Goes w .unsure (do bump; repeatWhile ruleNamePart) .firm :=
    goes_bump.andThen fun _ => goes_ruleNamePart.repeated
  refine .within rfl rfl <| (stands_seesName _).andThen fun named => ?_
  cases named with
  | true => exact name
  | false => exact (stands_sees _ _).andThen fun _ => .either name (goes_complainWanted _)

theorem goes_outputAttribute (watched : l.Watched w) :
    Goes w .unsure (outputAttribute l) .unsure := by
  have given : Goes w .unsure (within .outputAttribute do
      leafOf .outputAttributeName
      l.expression) .unsure :=
    .within rfl rfl <| (goes_leafOf rfl rfl).andThen fun _ => watched.expression
  exact (stands_predict (by decide) _).andThen fun _ => (stands_sees _ _).andThen fun _ =>
    .either (given.andThen fun _ => .answer fun _ => id) (.answer fun _ => id)

theorem goes_ruleBody (watched : l.Watched w) : Goes w .firm (ruleBody l) .unsure :=
  (goes_block watched).andThen fun _ => (goes_outputAttribute watched).repeated

theorem goes_assertion (watched : l.Watched w) : Goes w .unsure (assertion l) .unsure :=
  .within rfl rfl <| goes_bump.settled.andThen fun _ => goes_ruleName.andThen fun _ =>
    (stands_seesAny _ _).andThen fun _ => .eitherThen goes_bump.firmly (goes_ruleBody watched)

theorem goes_output (watched : l.Watched w) : Goes w .unsure (output l) .unsure :=
  .within rfl rfl <| goes_bump.settled.andThen fun _ => goes_ruleName.andThen fun _ =>
    goes_ruleBody watched

theorem goes_functionArguments : Goes w .unsure functionArguments .firm := by
  have argument : Goes w .unsure functionArgument .firm := .within rfl rfl (goes_require _ _)
  refine .within rfl rfl <| (goes_expect _).andThen fun _ => .either ?_ (.answer fun _ => id)
  exact (stands_sees _ _).andThen fun _ =>
    .optionally (goes_commaSeparated argument.firmly.settled) (goes_expecting _)

theorem goes_function (watched : l.Watched w) : Goes w .unsure (function l) .unsure :=
  .within rfl rfl <| goes_bump.settled.andThen fun _ => (goes_require _ _).settled.andThen fun _ =>
    goes_functionArguments.andThen fun _ => goes_block watched

theorem goes_constant (watched : l.Watched w) : Goes w .unsure (constant l) .unsure :=
  .within rfl rfl <| goes_bump.settled.andThen fun _ => (goes_require _ _).settled.andThen fun _ =>
    (goes_expect _).andThen fun _ => .either (goes_block watched) (.answer fun _ => w.unsure)

theorem goes_namespaceDeclaration (watched : l.Watched w) :
    Goes w .unsure (namespaceDeclaration l) .unsure := by
  have uri : Goes w .unsure (do
      if ← sees .url then bump
      else if ← sees .stringOpen then stringLiteral l
      else complainWanted .namespaceUri) .unsure :=
    (stands_sees _ _).andThen fun _ => .either goes_bump.settled <|
      (stands_sees _ _).andThen fun _ =>
        .either (goes_stringLiteral watched).settled (goes_complainWanted _).settled
  exact .within rfl rfl <| goes_bump.settled.andThen fun _ => (stands_sees _ _).andThen fun _ =>
    (stands_kindAt 1 _).andThen fun _ =>
    .either (goes_bump.settled.andThen fun _ => goes_bump.settled.andThen fun _ => uri) uri

theorem goes_nameDeclaration (other : r.refers = false) (apart : r.juxtaposes = false) :
    Goes w .unsure (nameDeclaration r) .unsure :=
  .within other apart <| goes_bump.settled.andThen fun _ => (goes_require _ _).settled

theorem goes_separatorDeclaration (watched : l.Watched w) :
    Goes w .unsure (separatorDeclaration l) .unsure :=
  .within rfl rfl <| goes_bump.settled.andThen fun _ => (stands_sees _ _).andThen fun _ =>
    .either (goes_stringLiteral watched).settled (goes_complainWanted _).settled

theorem goes_declaration (watched : l.Watched w) : Goes w .unsure (declaration l) .unsure := by
  refine (stands_kind _).andThen fun k => ?_
  split
  case h_1 => exact goes_assertion watched
  case h_2 => exact goes_output watched
  case h_3 => exact goes_function watched
  case h_4 => exact goes_constant watched
  case h_5 => exact goes_namespaceDeclaration watched
  case h_6 | h_7 => exact goes_nameDeclaration rfl rfl
  case h_8 => exact goes_separatorDeclaration watched
  case h_9 => exact (goes_complain _).settled.andThen fun _ => goes_skipTo _

theorem goes_nextDeclaration (watched : l.Watched w) :
    Goes w .unsure (nextDeclaration l) .unsure :=
  (stands_seesAny _ _).andThen fun _ => (stands_sees _ _).andThen fun _ =>
    .either (.answer fun _ => id) ((goes_declaration watched).andThen fun _ => .answer fun _ => id)

/-- A whole file finds the footing that it needs. -/
theorem goes_file (watched : l.Watched w) : Goes w .unsure (file l) .unsure :=
  .within rfl rfl <| (goes_nextDeclaration watched).repeated.andThen fun _ => goes_bump.settled

end Declarations

end Parser

/-- What is watched from the beginning of a file on is so at its end. -/
theorem Watch.runFile (w : Watch) {tokens : List Token} {probe : Option Probe}
    (begin : w.At .unsure (.ofTokens (visibleTokens tokens) probe)) :
    w.At .unsure (XuleLang.runFile tokens probe) :=
  (Parser.goes_file (Parser.level_watched Parser.maxDepth) _ begin).1

end XuleLang
