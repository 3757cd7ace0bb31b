import XuleLang.Proofs.Parser.Rendering

/-!
Every program closes what it opens.

The programs of the grammar are taken one after the other, each beside its parser. Those that may be
entered again come last before the declarations: so many calls on the way down do the work of a
level that ends with the calls or with the bound on the nesting, whichever comes first.
-/

namespace XuleLang.Program

variable {d : Nat} {D : Pending → Prop} {a : Pending} {c : Calls} {l : Level}

/-- The programs that may be entered again do what the parsers of the level do. -/
structure Calls.Follow (c : Calls) (l : Level) (d : Nat) : Prop where
  expression : ∀ {D a}, Follows d D a c.expression l.expression
  negation : ∀ {D a}, Follows d D a c.negation l.negation
  signed : ∀ {D a}, Follows d D a c.signed l.signed

/-! ## Blocks and names -/

theorem follows_seesAssignment : Follows d D a seesAssignment Parser.seesAssignment :=
  (follows_predict _).andThen fun _ => (follows_sees _).andThen fun _ =>
    (follows_kindAt 1).andThen fun _ => .answer rfl

theorem follows_assignment {value : Program Unit} {value' : Parser Unit}
    (given : ∀ {a}, Follows d D a value value') :
    Follows d D a (assignment value) (Parser.assignment value') :=
  .opens (.inl rfl) <| (follows_leafOf (.inl rfl)).andThen fun _ => follows_bump.andThen fun _ =>
    given.andThen fun _ => (follows_expect _).andThen fun _ => .closes

theorem follows_blockUpTo (calls : c.Follow l d) (fuel : Nat) :
    Follows d D a (blockUpTo c fuel) (Parser.blockUpTo l fuel) := by
  induction fuel generalizing a with
  | zero => exact follows_overrun
  | succ fuel ih =>
    refine .opens (.inl rfl) <| (follows_repeatWhile ?_).andThen fun _ =>
      calls.expression.last fun _ => .closes
    exact follows_seesAssignment.andThen fun _ => .eitherThen (follows_assignment ih) (.answer rfl)

theorem follows_block (calls : c.Follow l d) : Follows d D a (block c) (Parser.block l) :=
  .asking (·.rest.length) fun _ => follows_blockUpTo calls _

theorem follows_qualifiedName : Follows d D a qualifiedName Parser.qualifiedName :=
  .opens (.inl rfl) <| (follows_requireName _).andThen fun _ => (follows_eat _).andThen fun _ =>
    .eitherLast (follows_requireName _) .closes

theorem follows_propertyRef : Follows d D a propertyRef Parser.propertyRef :=
  .opens (.inl rfl) <| (follows_requireName _).last fun _ => .closes

theorem follows_stringPart (calls : c.Follow l d) :
    Follows d D a (stringPart c) (Parser.stringPart l) := by
  refine follows_kind.andThen fun k => ?_
  have fails : Follows d D a (do complain .unterminatedString; pure false)
      (do Parser.complain .unterminatedString; pure false) :=
    (follows_complain _).andThen fun _ => .answer rfl
  cases k with
  | stringContent | stringClose => exact follows_bump.andThen fun _ => .answer rfl
  | punctuator p =>
    cases p with
    | lbrace =>
      exact follows_bump.andThen fun _ => (follows_block calls).andThen fun _ =>
        (follows_expect _).andThen fun _ => .answer rfl
    | _ => exact fails
  | _ => exact fails

theorem follows_stringLiteral (calls : c.Follow l d) :
    Follows d D a (stringLiteral c) (Parser.stringLiteral l) :=
  .opens (.inl rfl) <| follows_bump.andThen fun _ =>
    (follows_repeatWhile (follows_stringPart calls)).last fun _ => .closes

theorem follows_argumentList (calls : c.Follow l d) :
    Follows d D a (argumentList c) (Parser.argumentList l) :=
  .opens (.inl rfl) <| (follows_expect _).andThen fun _ => .either
    ((follows_sees _).andThen fun _ => .eitherThen (follows_commaSeparated (follows_block calls)) <|
      (follows_expect _).andThen fun _ => .closes)
    .closes

theorem follows_whereClause (calls : c.Follow l d) :
    Follows d D a (whereClause c) (Parser.whereClause l) :=
  .opens (.inl rfl) <| follows_bump.andThen fun _ => (follows_block calls).last fun _ => .closes

theorem follows_seesNotIn : Follows d D a seesNotIn Parser.seesNotIn :=
  follows_kind.andThen fun _ => (follows_kindAt 1).andThen fun _ => .answer rfl

theorem follows_bumpOperator : Follows d D a bumpOperator Parser.bumpOperator :=
  follows_seesNotIn.andThen fun _ => .eitherThen follows_bump follows_bump

/-! ## Queries -/

theorem follows_aspectCondition (calls : c.Follow l d) :
    Follows d D a (aspectCondition c) (Parser.aspectCondition l) :=
  follows_bumpOperator.andThen fun _ => .opens (.inl rfl) <| (follows_sees _).andThen fun _ =>
    .either (follows_bump.last fun _ => .closes) (calls.expression.last fun _ => .closes)

theorem follows_binding : Follows d D a binding Parser.binding :=
  .opens (.inl rfl) <| follows_bump.andThen fun _ => (follows_require _ _).last fun _ => .closes

theorem follows_aspectFilter (calls : c.Follow l d) :
    Follows d D a (aspectFilter c) (Parser.aspectFilter l) := by
  refine .opens (.inl rfl) <| follows_bump.andThen fun _ => (follows_eat _).andThen fun _ =>
    follows_qualifiedName.andThen fun _ => (follows_repeatWhile ?_).andThen fun _ =>
    follows_seesNotIn.andThen fun _ => (follows_seesAny _).andThen fun _ => ?_
  · exact follows_kind.andThen fun _ => .either (follows_bump.andThen fun _ =>
      follows_propertyRef.andThen fun _ => .answer rfl) (.answer rfl)
  · exact .eitherThen (follows_aspectCondition calls) <| (follows_sees _).andThen fun _ =>
      .eitherLast follows_binding .closes

theorem follows_factset (calls : c.Follow l d) :
    Follows d D a (factset c) (Parser.factset l) := by
  refine .opens (.inl rfl) <| follows_kind.andThen fun _ => follows_bump.andThen fun _ =>
    (follows_repeatWhile ?_).andThen fun _ => (follows_repeatWhile ?_).andThen fun _ =>
    (follows_sees _).andThen fun _ => ?_
  · exact (follows_seesAny _).andThen fun _ => .eitherThen (follows_leafOf (.inl rfl)) (.answer rfl)
  · exact (follows_sees _).andThen fun _ => .eitherThen (follows_aspectFilter calls) (.answer rfl)
  · refine .either ((follows_whereClause calls).andThen fun _ => ?_) <|
      (follows_sees _).andThen fun _ => follows_kind.andThen fun _ =>
        .eitherThen (follows_block calls) ?_
    all_goals exact (follows_expect _).andThen fun _ => .closes

theorem follows_seesArcrole : Follows d D a seesArcrole Parser.seesArcrole := by
  refine follows_kind.andThen fun k => ?_
  cases k with
  | identifier => exact (follows_kindAt 1).andThen fun _ => .answer rfl
  | _ => exact .answer rfl

theorem follows_arcrole (calls : c.Follow l d) :
    Follows d D a (arcrole c) (Parser.arcrole l) :=
  .opens (.inl rfl) <| follows_kind.andThen fun _ =>
    .either ((follows_stringLiteral calls).last fun _ => .closes)
      (follows_bump.last fun _ => .closes)

theorem follows_direction : Follows d D a direction Parser.direction :=
  .opens (.inl rfl) <| (follows_predict _).andThen fun _ =>
    (follows_require _ _).last fun _ => .closes

theorem follows_includeClause : Follows d D a includeClause Parser.includeClause :=
  .opens (.inl rfl) <| follows_bump.andThen fun _ => (follows_expect _).andThen fun _ => .closes

theorem follows_wordClause (calls : c.Follow l d) :
    Follows d D a (wordClause c) (Parser.wordClause l) :=
  .opens (.inl rfl) <| follows_bump.andThen fun _ => calls.expression.last fun _ => .closes

theorem follows_stopClause (calls : c.Follow l d) :
    Follows d D a (stopClause c) (Parser.stopClause l) :=
  .opens (.inl rfl) <| follows_bump.andThen fun _ => (follows_expect _).andThen fun _ =>
    .eitherLast calls.expression .closes

theorem follows_clause (calls : c.Follow l d) : Follows d D a (clause c) (Parser.clause l) :=
  (follows_seesAny _).andThen fun _ =>
    .either ((follows_wordClause calls).andThen fun _ => .answer rfl) <|
  (follows_sees _).andThen fun _ =>
    .either ((follows_stopClause calls).andThen fun _ => .answer rfl) <|
  (follows_seesAnyWord _).andThen fun _ =>
    .either ((follows_wordClause calls).andThen fun _ => .answer rfl) <|
  (follows_sees _).andThen fun _ =>
    .either ((follows_whereClause calls).andThen fun _ => .answer rfl) (.answer rfl)

theorem follows_returnOption : Follows d D a returnOption Parser.returnOption :=
  .opens (.inl rfl) <| (follows_predict _).andThen fun _ =>
    (follows_require _ _).last fun _ => .closes

theorem follows_formModifier : Follows d D a formModifier Parser.formModifier :=
  (follows_isWordAt 0 _).andThen fun _ => (follows_isWordAt 1 _).andThen fun _ =>
    .asking (fun s => Parser.formWords.any (s.isWordAt 0)) fun _ =>
    (follows_kindAt 1).andThen fun _ =>
    .either (follows_bump.andThen fun _ => follows_bump.andThen fun _ => .answer rfl) <|
      .either (follows_bump.andThen fun _ => .answer rfl) (.answer rfl)

theorem follows_returnsClause : Follows d D a returnsClause Parser.returnsClause := by
  refine .opens (.inl rfl) <| follows_bump.andThen fun _ =>
    (follows_repeatWhile follows_formModifier).andThen fun _ => (follows_eat _).andThen fun _ =>
    .either ((follows_commaSeparated follows_returnOption).andThen fun _ =>
      (follows_expect _).andThen fun _ => ?_) (follows_returnOption.andThen fun _ => ?_)
  all_goals exact (follows_eat _).andThen fun _ => .eitherLast (follows_require _ _) .closes

theorem follows_navigation (calls : c.Follow l d) :
    Follows d D a (navigation c) (Parser.navigation l) :=
  .opens (.inl rfl) <| follows_bump.andThen fun _ => (follows_eat _).andThen fun _ =>
    (follows_predict _).andThen fun _ => follows_seesArcrole.andThen fun _ =>
    .eitherThen (follows_arcrole calls) <| follows_direction.andThen fun _ =>
    (follows_eat _).andThen fun _ => (follows_sees _).andThen fun _ =>
    .eitherThen follows_includeClause <|
    (follows_repeatWhile (follows_clause calls)).andThen fun _ => (follows_sees _).andThen fun _ =>
    .eitherLast follows_returnsClause .closes

theorem follows_filterReturns (calls : c.Follow l d) :
    Follows d D a (filterReturns c) (Parser.filterReturns l) :=
  .opens (.inl rfl) <| follows_bump.andThen fun _ => calls.expression.last fun _ => .closes

theorem follows_filter (calls : c.Follow l d) : Follows d D a (filter c) (Parser.filter l) :=
  .opens (.inl rfl) <| follows_bump.andThen fun _ => calls.expression.andThen fun _ =>
    (follows_sees _).andThen fun _ => .eitherThen (follows_whereClause calls) <|
    (follows_sees _).andThen fun _ => .eitherLast (follows_filterReturns calls) .closes

/-! ## Expressions -/

theorem follows_call (calls : c.Follow l d) : Follows d D a (call c) (Parser.call l) :=
  .opens (.inl rfl) <| (follows_leafOf (.inl rfl)).andThen fun _ =>
    (follows_argumentList calls).last fun _ => .closes

theorem follows_nameOrCall (calls : c.Follow l d) :
    Follows d D a (nameOrCall c) (Parser.nameOrCall l) :=
  follows_qualifiedName.andThen fun _ => follows_kind.andThen fun _ =>
    .either (.opensAround <| (follows_argumentList calls).last fun _ => .closes) (.answer rfl)

theorem follows_parenthesized (calls : c.Follow l d) :
    Follows d D a (parenthesized c) (Parser.parenthesized l) :=
  .opens (.inl rfl) <| follows_bump.andThen fun _ => (follows_block calls).andThen fun _ =>
    (follows_expect _).andThen fun _ => .closes

theorem follows_conditional (calls : c.Follow l d) :
    Follows d D a (conditional c) (Parser.conditional l) :=
  .opens (.inl rfl) <| follows_bump.andThen fun _ => calls.expression.andThen fun _ =>
    (follows_block calls).andThen fun _ => (follows_expect _).andThen fun _ =>
    .eitherLast (follows_block calls) .closes

theorem follows_loopVariable : Follows d D a loopVariable Parser.loopVariable :=
  .opens (.inl rfl) <| (follows_require _ _).last fun _ => .closes

theorem follows_loop (calls : c.Follow l d) : Follows d D a (loop c) (Parser.loop l) := by
  refine .opens (.inl rfl) <| follows_bump.andThen fun _ => (follows_eat _).andThen fun _ =>
    follows_loopVariable.andThen fun _ => (follows_expect _).andThen fun _ =>
    .eitherThen calls.expression <| .either ((follows_expect _).andThen fun _ => ?_) ?_
  all_goals exact (follows_block calls).last fun _ => .closes

theorem follows_primary (calls : c.Follow l d) : Follows d D a (primary c) (Parser.primary l) := by
  refine (follows_predict _).andThen fun _ => (follows_seesAny _).andThen fun _ =>
    (follows_seesAny _).andThen fun _ => (follows_kindAt 1).andThen fun _ =>
    follows_kind.andThen fun k => ?_
  cases k with
  | number => exact follows_leafOf (.inl rfl)
  | stringOpen => exact follows_stringLiteral calls
  | variableName => exact .either (follows_call calls) (follows_leafOf (.inl rfl))
  | identifier => exact .either (follows_call calls) (follows_nameOrCall calls)
  | punctuator p =>
    cases p with
    | lparen => exact follows_parenthesized calls
    | lbrace | lbracket => exact follows_factset calls
    | _ => exact follows_complain _
  | keyword w =>
    cases w with
    | trueKw | falseKw | noneKw | skipKw => exact follows_leafOf (.inl rfl)
    | ifKw => exact follows_conditional calls
    | forKw => exact follows_loop calls
    | navigateKw => exact follows_navigation calls
    | filterKw => exact follows_filter calls
    | _ => exact follows_complain _
  | _ => exact follows_complain _

theorem follows_propertyAccess (calls : c.Follow l d) :
    Follows d D a (propertyAccess c) (Parser.propertyAccess l) :=
  (follows_sees _).andThen fun _ => .either
    (.regroup <| .opensAround <| follows_bump.andThen fun _ =>
      follows_propertyRef.andThen fun _ => (follows_sees _).andThen fun _ =>
      .eitherLast (follows_argumentList calls) <| .closesThen <| .answer rfl)
    (.answer rfl)

theorem follows_access (calls : c.Follow l d) : Follows d D a (access c) (Parser.access l) :=
  (follows_primary calls).andThen fun _ => follows_repeatWhile (follows_propertyAccess calls)

theorem follows_signedOperand (calls : c.Follow l d) :
    Follows d D a (signedOperand c) (Parser.signedOperand l) :=
  (follows_seesAny _).andThen fun _ => .either calls.signed (follows_access calls)

theorem follows_rightOperand {sees : Program Bool} {sees' : Parser Bool} {operand : Program Unit}
    {operand' : Parser Unit} (operator : ∀ {a}, Follows d D a sees sees')
    (right : ∀ {a}, Follows d D a operand operand') :
    Follows d D a (rightOperand sees operand) (Parser.rightOperand sees' operand') :=
  operator.andThen fun _ => .either
    (.regroup <| .opensAround <| follows_bumpOperator.andThen fun _ =>
      right.last fun _ => .closesThen <| .answer rfl)
    (.answer rfl)

theorem follows_operands {sees : Program Bool} {sees' : Parser Bool} {operand : Program Unit}
    {operand' : Parser Unit} (operator : ∀ {a}, Follows d D a sees sees')
    (each : ∀ {a}, Follows d D a operand operand') :
    Follows d D a (operands sees operand) (Parser.operands sees' operand') :=
  each.andThen fun _ => follows_repeatWhile (follows_rightOperand operator each)

theorem follows_multiplicative (calls : c.Follow l d) :
    Follows d D a (multiplicative c) (Parser.multiplicative l) :=
  follows_operands (follows_seesAny _) (follows_signedOperand calls)

theorem follows_additive (calls : c.Follow l d) : Follows d D a (additive c) (Parser.additive l) :=
  follows_operands (follows_seesAny _) (follows_multiplicative calls)

theorem follows_seesComparison : Follows d D a seesComparison Parser.seesComparison :=
  follows_seesNotIn.andThen fun _ => (follows_seesAny _).andThen fun _ => .answer rfl

theorem follows_comparison (calls : c.Follow l d) :
    Follows d D a (comparison c) (Parser.comparison l) :=
  follows_operands follows_seesComparison (follows_additive calls)

theorem follows_negatable (calls : c.Follow l d) :
    Follows d D a (negatable c) (Parser.negatable l) :=
  (follows_sees _).andThen fun _ => (follows_kindAt 1).andThen fun _ =>
    .either calls.negation (follows_comparison calls)

theorem follows_conjunction (calls : c.Follow l d) :
    Follows d D a (conjunction c) (Parser.conjunction l) :=
  follows_operands (follows_sees _) (follows_negatable calls)

theorem follows_disjunction (calls : c.Follow l d) :
    Follows d D a (disjunction c) (Parser.disjunction l) :=
  follows_operands (follows_sees _) (follows_conjunction calls)

theorem follows_expression (calls : c.Follow l (d + 1)) :
    Follows d D a (expression c)
      (if Parser.maxDepth ≤ d then Parser.tooDeep else Parser.disjunction l) :=
  .entering <| (follows_disjunction calls).last fun _ => renders_leave

theorem follows_prefixed {operand : Program Unit} {operand' : Parser Unit}
    (given : ∀ {a}, Follows (d + 1) D a operand operand') :
    Follows d D a (prefixed operand)
      (if Parser.maxDepth ≤ d then Parser.tooDeep else Parser.unary operand') :=
  .entering <| .opens (.inl rfl) <| follows_bump.andThen fun _ =>
    given.last fun _ => .closesThen renders_leave

/-- The level that so many calls on the way down do the work of, so many expressions deep. -/
def levelAt : Nat → Nat → Level
  | 0, _ => ⟨Parser.overrun, Parser.overrun, Parser.overrun⟩
  | n + 1, d =>
    if Parser.maxDepth ≤ d then Parser.lowestLevel else Parser.levelAbove (levelAt n (d + 1))

theorem calls_follow (n d : Nat) : (calls n).Follow (levelAt n d) d := by
  induction n generalizing d with
  | zero => exact ⟨follows_overrun, follows_overrun, follows_overrun⟩
  | succ n ih =>
    rw [levelAt]
    refine ⟨fun {_ _} => ?_, fun {_ _} => ?_, fun {_ _} => ?_⟩
    · rw [apply_ite Level.expression]
      exact follows_expression (ih (d + 1))
    · rw [apply_ite Level.negation]
      exact follows_prefixed (follows_negatable (ih (d + 1)))
    · rw [apply_ite Level.signed]
      exact follows_prefixed (follows_signedOperand (ih (d + 1)))

/-- With enough calls the bound on the nesting is reached first. -/
theorem levelAt_eq_level {n d : Nat} (enough : Parser.maxDepth - d < n) :
    levelAt n d = Parser.level (Parser.maxDepth - d) := by
  induction n generalizing d with
  | zero => exact absurd enough (Nat.not_lt_zero _)
  | succ n ih =>
    rw [levelAt]
    split
    case isTrue bound =>
      rw [Nat.sub_eq_zero_of_le bound]
      rfl
    case isFalse below =>
      rw [ih (by omega), show Parser.maxDepth - d = Parser.maxDepth - (d + 1) + 1 by omega]
      rfl

/-! ## Declarations -/

theorem follows_ruleNamePart : Follows d D a ruleNamePart Parser.ruleNamePart :=
  (follows_kindAt 1).andThen fun _ => follows_kind.andThen fun _ =>
    .either (follows_bump.andThen fun _ => follows_bump.andThen fun _ => .answer rfl) (.answer rfl)

theorem follows_ruleName : Follows d D a ruleName Parser.ruleName := by
  have always : Follows d D (a.openNode .assertionName) (pure true) (pure true) := .answer rfl
  refine .opens (.inl rfl) <| follows_seesName.andThen fun _ =>
    .either (always.andThen fun _ => ?_) ((follows_sees _).andThen fun _ => ?_)
  all_goals
    dsimp only
    refine .either (follows_bump.andThen fun _ => ?_)
      ((follows_complainWanted _).last fun _ => .closes)
    exact (follows_repeatWhile follows_ruleNamePart).last fun _ => .closes

theorem follows_outputAttribute (calls : c.Follow l d) :
    Follows d D a (outputAttribute c) (Parser.outputAttribute l) :=
  (follows_predict _).andThen fun _ => (follows_sees _).andThen fun _ => .either
    (.regroup <| .opens (.inl rfl) <| (follows_leafOf (.inl rfl)).andThen fun _ =>
      calls.expression.last fun _ => .closesThen <| .answer rfl)
    (.answer rfl)

theorem follows_outputAttributes (calls : c.Follow l d) :
    Follows d D a (outputAttributes c) (Parser.repeatWhile (Parser.outputAttribute l)) :=
  follows_repeatWhile (follows_outputAttribute calls)

theorem follows_assertion (calls : c.Follow l d) (here : D a) :
    Follows d D a (assertion c) (Parser.assertion l) :=
  .opens (.inr here) <| follows_bump.andThen fun _ => follows_ruleName.andThen fun _ =>
    (follows_seesAny _).andThen fun _ => .eitherThen follows_bump <| .regroup <|
    (follows_block calls).last fun _ => (follows_outputAttributes calls).last fun _ => .closes

theorem follows_output (calls : c.Follow l d) (here : D a) :
    Follows d D a (output c) (Parser.output l) :=
  .opens (.inr here) <| follows_bump.andThen fun _ => follows_ruleName.andThen fun _ =>
    .regroup <| (follows_block calls).last fun _ =>
    (follows_outputAttributes calls).last fun _ => .closes

theorem follows_functionArgument : Follows d D a functionArgument Parser.functionArgument :=
  .opens (.inl rfl) <| (follows_require _ _).last fun _ => .closes

theorem follows_functionArguments : Follows d D a functionArguments Parser.functionArguments :=
  .opens (.inl rfl) <| (follows_expect _).andThen fun _ => .either
    ((follows_sees _).andThen fun _ =>
      .eitherThen (follows_commaSeparated follows_functionArgument) <|
      (follows_expect _).andThen fun _ => .closes)
    .closes

theorem follows_function (calls : c.Follow l d) (here : D a) :
    Follows d D a (function c) (Parser.function l) :=
  .opens (.inr here) <| follows_bump.andThen fun _ => (follows_require _ _).andThen fun _ =>
    follows_functionArguments.andThen fun _ => (follows_block calls).last fun _ => .closes

theorem follows_constant (calls : c.Follow l d) (here : D a) :
    Follows d D a (constant c) (Parser.constant l) :=
  .opens (.inr here) <| follows_bump.andThen fun _ => (follows_require _ _).andThen fun _ =>
    (follows_expect _).andThen fun _ => .eitherLast (follows_block calls) .closes

theorem follows_namespaceDeclaration (calls : c.Follow l d) (here : D a) :
    Follows d D a (namespaceDeclaration c) (Parser.namespaceDeclaration l) := by
  refine .opens (.inr here) <| follows_bump.andThen fun _ => (follows_sees _).andThen fun _ =>
    (follows_kindAt 1).andThen fun _ =>
    .either (follows_bump.andThen fun _ => follows_bump.andThen fun _ => ?_) ?_
  all_goals
    refine (follows_sees _).andThen fun _ => .either (follows_bump.last fun _ => .closes) <|
      (follows_sees _).andThen fun _ => .either ?_ ?_
    · exact (follows_stringLiteral calls).last fun _ => .closes
    · exact (follows_complainWanted _).last fun _ => .closes

theorem follows_nameDeclaration (r : Rule) (here : D a) :
    Follows d D a (nameDeclaration r) (Parser.nameDeclaration r) :=
  .opens (.inr here) <| follows_bump.andThen fun _ => (follows_require _ _).last fun _ => .closes

theorem follows_separatorDeclaration (calls : c.Follow l d) (here : D a) :
    Follows d D a (separatorDeclaration c) (Parser.separatorDeclaration l) :=
  .opens (.inr here) <| follows_bump.andThen fun _ => (follows_sees _).andThen fun _ =>
    .either ((follows_stringLiteral calls).last fun _ => .closes)
      ((follows_complainWanted _).last fun _ => .closes)

theorem follows_declaration (calls : c.Follow l d) (here : D a) :
    Follows d D a (declaration c) (Parser.declaration l) := by
  refine follows_kind.andThen fun k => ?_
  have skips (c : Complaint) (kinds : List TokenKind) :
      Follows d D a (do complain c; skipTo kinds) (do Parser.complain c; Parser.skipTo kinds) :=
    (follows_complain c).andThen fun _ => follows_skipTo kinds
  cases k with
  | keyword w =>
    cases w with
    | assertKw => exact follows_assertion calls here
    | outputKw => exact follows_output calls here
    | functionKw => exact follows_function calls here
    | constantKw => exact follows_constant calls here
    | namespaceKw => exact follows_namespaceDeclaration calls here
    | outputAttributeKw | ruleNamePrefixKw => exact follows_nameDeclaration _ here
    | ruleNameSeparatorKw => exact follows_separatorDeclaration calls here
    | _ => exact skips _ _
  | _ => exact skips _ _

theorem follows_nextDeclaration (calls : c.Follow l d) (here : D a) :
    Follows d D a (nextDeclaration c) (Parser.nextDeclaration l) :=
  (follows_seesAny _).andThen fun _ => (follows_sees _).andThen fun _ =>
    .either (.answer rfl) ((follows_declaration calls here).andThen fun _ => .answer rfl)

/-- Inside of a file nothing but the file is pending where a declaration starts. -/
theorem follows_file (calls : c.Follow l d) (here : D (a.openNode .file)) :
    Follows d D a (file c) (Parser.file l) :=
  .opens (.inl rfl) <| (follows_repeatWhile (follows_nextDeclaration calls here)).andThen fun _ =>
    follows_bump.last fun _ => .closes

end XuleLang.Program
