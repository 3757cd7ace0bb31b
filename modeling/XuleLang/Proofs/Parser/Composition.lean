import XuleLang.Parser.Declaration
import XuleLang.Proofs.Parser.Alike

/-!
The parsers of the grammar are put together alike at all levels.

Everything is made from the operations, and no parser looks further ahead than to the token behind
the next one. So the parsers of two levels are alike wherever those are that they nest.
-/

namespace XuleLang

/-- The parsers of the levels are put together alike. -/
structure Level.Alike (l m : Level) : Prop where
  expression : Parser.Alike true l.expression m.expression
  negation : Parser.Alike true l.negation m.negation
  signed : Parser.Alike true l.signed m.signed

namespace Parser

variable {l m : Level} {deep : Bool}

namespace Alike

theorem either {c : Bool} {p q p' q' : Parser α} (yes : Alike deep p p') (no : Alike deep q q') :
    Alike deep (if c then p else q) (if c then p' else q') := by
  cases c
  · exact no
  · exact yes

/-- A parser that may be left out before the others. -/
theorem eitherThen {c : Bool} {p p' : Parser Unit} {q q' : Unit → Parser β}
    (yes : Alike deep p p') (rest : Alike deep (q ()) (q' ())) :
    Alike deep (if c then p >>= q else q ()) (if c then p' >>= q' else q' ()) :=
  .either (.andThen yes fun _ => rest) rest

end Alike

/-! ## Questions and tokens -/

section Operations

theorem alike_kindAt {n : Nat} (near : n < 2) : Alike deep (kindAt n) (kindAt n) :=
  .ask fun _ _ same => ParserState.kindAt_eq_of_ahead same near ▸ .answer _

theorem alike_kind : Alike deep kind kind := alike_kindAt (n := 0) (by decide)

theorem alike_isWordAt {n : Nat} (near : n < 2) (word : String) :
    Alike deep (isWordAt n word) (isWordAt n word) :=
  .ask fun _ _ same => ParserState.isWordAt_eq_of_ahead same near word ▸ .answer _

theorem alike_predict (rules : List Rule) : Alike deep (predict rules) (predict rules) :=
  .note [] rules

theorem alike_sees (k : TokenKind) : Alike deep (sees k) (sees k) :=
  .andThen (.note _ _) fun _ => .andThen alike_kind fun _ => .answer _

theorem alike_seesAny (ks : List TokenKind) : Alike deep (seesAny ks) (seesAny ks) := by
  induction ks with
  | nil => exact .answer false
  | cons k ks ih => exact .andThen (alike_sees k) fun _ => .andThen ih fun _ => .answer _

theorem alike_seesName : Alike deep seesName seesName :=
  .andThen (alike_sees _) fun _ => .andThen alike_kind fun _ => .answer _

theorem alike_seesWord (word : String) : Alike deep (seesWord word) (seesWord word) :=
  .andThen (alike_sees _) fun _ => alike_isWordAt (by decide) word

theorem alike_seesAnyWord (words : List String) :
    Alike deep (seesAnyWord words) (seesAnyWord words) := by
  induction words with
  | nil => exact .answer false
  | cons word words ih => exact .andThen (alike_seesWord word) fun _ => .either (.answer true) ih

theorem alike_seesNotIn : Alike deep seesNotIn seesNotIn :=
  .andThen alike_kind fun _ => .andThen (alike_kindAt (by decide)) fun _ => .answer _

theorem alike_eat (k : TokenKind) : Alike deep (eat k) (eat k) :=
  .andThen (alike_sees k) fun _ => .either (.andThen .bump fun _ => .answer true) (.answer false)

theorem alike_complainWanted (w : Wanted) : Alike deep (complainWanted w) (complainWanted w) :=
  .andThen alike_kind fun _ => .complain _ rfl

theorem alike_expect (k : TokenKind) : Alike deep (expect k) (expect k) :=
  .andThen (alike_eat k) fun _ => .eitherThen (alike_complainWanted _) (.answer _)

theorem alike_expecting (k : TokenKind) :
    Alike deep (do let _ ← expect k) (do let _ ← expect k) :=
  .andThen (alike_expect k) fun _ => .answer ()

theorem alike_require (k : TokenKind) (w : Wanted) : Alike deep (require k w) (require k w) :=
  .andThen (alike_sees k) fun _ => .either .bump (alike_complainWanted w)

theorem alike_requireName (w : Wanted) : Alike deep (requireName w) (requireName w) :=
  .andThen alike_seesName fun _ => .either .bump (alike_complainWanted w)

theorem alike_leafOf (r : Rule) : Alike deep (leafOf r) (leafOf r) := .within r .bump

theorem alike_bumpOperator : Alike deep bumpOperator bumpOperator :=
  .andThen alike_seesNotIn fun _ => .eitherThen .bump .bump

end Operations

/-! ## Repetition -/

section Repetition

variable {step step' : Parser Bool}

/-- Repetitions are alike whatever their bounds. -/
theorem alike_repeatUpTo (alike : Alike deep step step') (a b : Nat) :
    Alike deep (repeatUpTo a step) (repeatUpTo b step') := by
  have equal (n : Nat) : Alike deep (repeatUpTo n step) (repeatUpTo n step') := by
    induction n with
    | zero => exact .overrun
    | succ n ih => exact .andThen alike fun _ => .either ih (.answer ())
  induction a generalizing b with
  | zero => exact .overrunFirst (equal b)
  | succ a ih =>
    cases b with
    | zero => exact .overrunSecond (equal (a + 1))
    | succ b => exact .andThen alike fun _ => .either (ih b) (.answer ())

theorem Alike.repeated (alike : Alike deep step step') :
    Alike deep (repeatWhile step) (repeatWhile step') :=
  .ask fun _ _ _ => alike_repeatUpTo alike _ _

theorem alike_commaSeparated {item item' : Parser Unit} (alike : Alike deep item item') :
    Alike deep (commaSeparated item) (commaSeparated item') :=
  Alike.repeated (.andThen alike fun _ => alike_eat _)

/-- A step that runs a parser if it is asked for. -/
theorem Alike.asking {ask : Parser Bool} {item item' : Parser Unit} (asks : Alike deep ask ask)
    (alike : Alike deep item item') : Alike deep (do
      let ahead ← ask
      if ahead then item
      return ahead) (do
      let ahead ← ask
      if ahead then item'
      return ahead) :=
  .andThen asks fun _ => .eitherThen alike (.answer _)

theorem alike_skipTo (kinds : List TokenKind) : Alike deep (skipTo kinds) (skipTo kinds) :=
  .within _ <| Alike.repeated <| .andThen alike_kind fun _ =>
    .either (.answer false) (.andThen .bump fun _ => .answer true)

end Repetition

/-! ## Blocks and names -/

theorem lowestLevel_alike : lowestLevel.Alike lowestLevel := by
  have alike : Alike true tooDeep tooDeep :=
    .andThen (.complain _ rfl) fun _ => .andThen alike_kind fun _ =>
      .either (alike_leafOf _) (.answer ())
  exact ⟨alike, alike, alike⟩

theorem alike_seesAssignment : Alike deep seesAssignment seesAssignment :=
  .andThen (alike_predict _) fun _ => .andThen (alike_sees _) fun _ =>
    .andThen (alike_kindAt (by decide)) fun _ => .answer _

theorem alike_assignment {value value' : Parser Unit} (alike : Alike true value value') :
    Alike deep (assignment value) (assignment value') :=
  .within _ <| .andThen (alike_leafOf _) fun _ => .andThen .bump fun _ =>
    .andThen alike fun _ => alike_expecting _

theorem alike_blockUpTo_succ (alike : l.Alike m) {a b : Nat}
    (inner : Alike true (blockUpTo l a) (blockUpTo m b)) :
    Alike deep (blockUpTo l (a + 1)) (blockUpTo m (b + 1)) :=
  .within _ <| .andThen (.repeated (.asking alike_seesAssignment (alike_assignment inner)))
    fun _ => alike.expression

/-- Blocks are alike however deep assignments may nest in them. -/
theorem alike_blockUpTo (alike : l.Alike m) (a b : Nat) :
    Alike deep (blockUpTo l a) (blockUpTo m b) := by
  have equal (n : Nat) {deep : Bool} : Alike deep (blockUpTo l n) (blockUpTo m n) := by
    induction n generalizing deep with
    | zero => exact .overrun
    | succ n ih => exact alike_blockUpTo_succ alike ih
  induction a generalizing b deep with
  | zero => exact .overrunFirst (equal b)
  | succ a ih =>
    cases b with
    | zero => exact .overrunSecond (equal (a + 1))
    | succ b => exact alike_blockUpTo_succ alike (ih b)

theorem alike_block (alike : l.Alike m) : Alike deep (block l) (block m) :=
  .ask fun _ _ _ => alike_blockUpTo alike _ _

theorem alike_qualifiedName : Alike deep qualifiedName qualifiedName :=
  .within _ <| .andThen (alike_requireName _) fun _ => .andThen (alike_eat _) fun _ =>
    .either (alike_requireName _) (.answer ())

theorem alike_propertyRef : Alike deep propertyRef propertyRef := .within _ (alike_requireName _)

theorem alike_stringPart (alike : l.Alike m) : Alike deep (stringPart l) (stringPart m) := by
  refine .andThen alike_kind fun k => ?_
  split
  case h_1 => exact .andThen .bump fun _ => .answer true
  case h_2 =>
    exact .andThen .bump fun _ => .andThen (alike_block alike) fun _ =>
      .andThen (alike_expect _) fun _ => .answer true
  case h_3 => exact .andThen .bump fun _ => .answer false
  case h_4 =>
    exact .andThen (.complain _ rfl) fun _ => .answer false

theorem alike_stringLiteral (alike : l.Alike m) :
    Alike deep (stringLiteral l) (stringLiteral m) :=
  .within _ <| .andThen .bump fun _ => .repeated (alike_stringPart alike)

theorem alike_argumentList (alike : l.Alike m) : Alike deep (argumentList l) (argumentList m) :=
  .within _ <| .andThen (alike_expect _) fun _ => .either
    (.andThen (alike_sees _) fun _ =>
      .eitherThen (alike_commaSeparated (alike_block alike)) (alike_expecting _))
    (.answer ())

theorem alike_whereClause (alike : l.Alike m) : Alike deep (whereClause l) (whereClause m) :=
  .within _ <| .andThen .bump fun _ => alike_block alike

/-! ## Queries -/

theorem alike_aspectCondition (alike : l.Alike m) :
    Alike deep (aspectCondition l) (aspectCondition m) :=
  .andThen alike_bumpOperator fun _ => .within _ <| .andThen (alike_sees _) fun _ =>
    .either .bump alike.expression

theorem alike_binding : Alike deep binding binding :=
  .within _ <| .andThen .bump fun _ => alike_require _ _

theorem alike_aspectFilter (alike : l.Alike m) : Alike deep (aspectFilter l) (aspectFilter m) := by
  have property : Alike true (do
      if (← kind) == .punctuator .dot then
        bump
        propertyRef
        pure true
      else pure false) (do
      if (← kind) == .punctuator .dot then
        bump
        propertyRef
        pure true
      else pure false) :=
    .andThen alike_kind fun _ => .either
      (.andThen .bump fun _ => .andThen alike_propertyRef fun _ => .answer true) (.answer false)
  exact .within _ <| .andThen .bump fun _ => .andThen (alike_eat _) fun _ =>
    .andThen alike_qualifiedName fun _ => .andThen property.repeated fun _ =>
    .andThen alike_seesNotIn fun _ => .andThen (alike_seesAny _) fun _ =>
    .eitherThen (alike_aspectCondition alike) <|
    .andThen (alike_sees _) fun _ => .either alike_binding (.answer ())

theorem alike_factset (alike : l.Alike m) : Alike deep (factset l) (factset m) := by
  refine .within _ <| .andThen alike_kind fun _ => .andThen .bump fun _ =>
    .andThen (.repeated (.asking (alike_seesAny _) (alike_leafOf _))) fun _ =>
    .andThen (.repeated (.asking (alike_sees _) (alike_aspectFilter alike))) fun _ =>
    .andThen (alike_sees _) fun _ => .either
      (.andThen (alike_whereClause alike) fun _ => alike_expecting _) ?_
  exact .andThen (alike_sees _) fun _ => .andThen alike_kind fun _ =>
    .eitherThen (alike_block alike) (alike_expecting _)

theorem alike_seesArcrole : Alike deep seesArcrole seesArcrole := by
  refine .andThen alike_kind fun k => ?_
  split
  case h_1 => exact .andThen (alike_kindAt (by decide)) fun _ => .answer _
  case h_2 | h_3 | h_4 => exact .answer _

theorem alike_arcrole (alike : l.Alike m) : Alike deep (arcrole l) (arcrole m) :=
  .within _ <| .andThen alike_kind fun _ => .either (alike_stringLiteral alike) .bump

theorem alike_direction : Alike deep direction direction :=
  .within _ <| .andThen (alike_predict _) fun _ => alike_require _ _

theorem alike_includeClause : Alike deep includeClause includeClause :=
  .within _ <| .andThen .bump fun _ => alike_expecting _

theorem alike_wordClause (alike : l.Alike m) : Alike deep (wordClause l) (wordClause m) :=
  .within _ <| .andThen .bump fun _ => alike.expression

theorem alike_stopClause (alike : l.Alike m) : Alike deep (stopClause l) (stopClause m) :=
  .within _ <| .andThen .bump fun _ => .andThen (alike_expect _) fun _ =>
    .either alike.expression (.answer ())

theorem alike_clause (alike : l.Alike m) : Alike deep (clause l) (clause m) :=
  .andThen (alike_seesAny _) fun _ => .either
    (.andThen (alike_wordClause alike) fun _ => .answer true) <|
  .andThen (alike_sees _) fun _ => .either
    (.andThen (alike_stopClause alike) fun _ => .answer true) <|
  .andThen (alike_seesAnyWord _) fun _ => .either
    (.andThen (alike_wordClause alike) fun _ => .answer true) <|
  .andThen (alike_sees _) fun _ => .either
    (.andThen (alike_whereClause alike) fun _ => .answer true) (.answer false)

theorem alike_returnOption : Alike deep returnOption returnOption :=
  .within _ <| .andThen (alike_predict _) fun _ => alike_require _ _

theorem alike_formModifier : Alike deep formModifier formModifier := by
  refine .andThen (alike_isWordAt (by decide) _) fun byAhead =>
    .andThen (alike_isWordAt (by decide) _) fun networkAhead => ?_
  refine .ask fun s t same => ?_
  have words : s.isWordAt 0 = t.isWordAt 0 :=
    funext fun w => ParserState.isWordAt_eq_of_ahead same (by decide) w
  dsimp only
  rw [words]
  exact .andThen (alike_kindAt (by decide)) fun _ => .either
    (.andThen .bump fun _ => .andThen .bump fun _ => .answer true)
    (.either (.andThen .bump fun _ => .answer true) (.answer false))

theorem alike_returnsClause : Alike deep returnsClause returnsClause := by
  have shape : Alike true (do if ← eat (.keyword .asKw) then require .identifier .resultShape)
      (do if ← eat (.keyword .asKw) then require .identifier .resultShape) :=
    .andThen (alike_eat _) fun _ => .either (alike_require _ _) (.answer ())
  exact .within _ <| .andThen .bump fun _ => .andThen (.repeated alike_formModifier) fun _ =>
    .andThen (alike_eat _) fun _ => .either
      (.andThen (alike_commaSeparated alike_returnOption) fun _ =>
        .andThen (alike_expect _) fun _ => shape)
      (.andThen alike_returnOption fun _ => shape)

theorem alike_navigation (alike : l.Alike m) : Alike deep (navigation l) (navigation m) :=
  .within _ <| .andThen .bump fun _ => .andThen (alike_eat _) fun _ =>
    .andThen (alike_predict _) fun _ => .andThen alike_seesArcrole fun _ =>
    .eitherThen (alike_arcrole alike) <|
    .andThen alike_direction fun _ => .andThen (alike_eat _) fun _ =>
    .andThen (alike_sees _) fun _ => .eitherThen alike_includeClause <|
    .andThen (.repeated (alike_clause alike)) fun _ =>
    .andThen (alike_sees _) fun _ => .either alike_returnsClause (.answer ())

theorem alike_filterReturns (alike : l.Alike m) : Alike deep (filterReturns l) (filterReturns m) :=
  .within _ <| .andThen .bump fun _ => alike.expression

theorem alike_filter (alike : l.Alike m) : Alike deep (filter l) (filter m) :=
  .within _ <| .andThen .bump fun _ => .andThen alike.expression fun _ =>
    .andThen (alike_sees _) fun _ => .eitherThen (alike_whereClause alike) <|
    .andThen (alike_sees _) fun _ => .either (alike_filterReturns alike) (.answer ())

/-! ## Expressions -/

theorem alike_call (alike : l.Alike m) : Alike deep (call l) (call m) :=
  .within _ <| .andThen (alike_leafOf _) fun _ => alike_argumentList alike

theorem alike_nameOrCall (alike : l.Alike m) : Alike true (nameOrCall l) (nameOrCall m) :=
  .andThen alike_qualifiedName fun _ => .andThen alike_kind fun _ =>
    .either (.wrapping _ (alike_argumentList alike)) (.answer ())

theorem alike_parenthesized (alike : l.Alike m) : Alike deep (parenthesized l) (parenthesized m) :=
  .within _ <| .andThen .bump fun _ => .andThen (alike_block alike) fun _ => alike_expecting _

theorem alike_conditional (alike : l.Alike m) : Alike deep (conditional l) (conditional m) :=
  .within _ <| .andThen .bump fun _ => .andThen alike.expression fun _ =>
    .andThen (alike_block alike) fun _ => .andThen (alike_expect _) fun _ =>
    .either (alike_block alike) (.answer ())

theorem alike_loopVariable : Alike deep loopVariable loopVariable :=
  .within _ (alike_require _ _)

theorem alike_loop (alike : l.Alike m) : Alike deep (loop l) (loop m) :=
  .within _ <| .andThen .bump fun _ => .andThen (alike_eat _) fun _ =>
    .andThen alike_loopVariable fun _ => .andThen (alike_expect _) fun _ =>
    .eitherThen alike.expression <| .either
      (.andThen (alike_expect _) fun _ => alike_block alike) (alike_block alike)

theorem alike_primary (alike : l.Alike m) : Alike true (primary l) (primary m) := by
  refine .andThen (alike_predict _) fun _ => .andThen (alike_seesAny _) fun _ =>
    .andThen (alike_seesAny _) fun _ => .andThen (alike_kindAt (by decide)) fun _ =>
    .andThen alike_kind fun k => ?_
  split
  case h_1 | h_3 | h_4 | h_5 | h_6 => exact alike_leafOf _
  case h_2 => exact alike_stringLiteral alike
  case h_7 => exact .either (alike_call alike) (alike_leafOf _)
  case h_8 => exact .either (alike_call alike) (alike_nameOrCall alike)
  case h_9 => exact alike_parenthesized alike
  case h_10 => exact alike_conditional alike
  case h_11 => exact alike_loop alike
  case h_12 | h_13 => exact alike_factset alike
  case h_14 => exact alike_navigation alike
  case h_15 => exact alike_filter alike
  case h_16 => exact .complain _ rfl

theorem alike_propertyAccess (alike : l.Alike m) :
    Alike true (propertyAccess l) (propertyAccess m) :=
  .andThen (alike_sees _) fun _ => .either
    (.andThen (.wrapping _ <| .andThen .bump fun _ => .andThen alike_propertyRef fun _ =>
      .andThen (alike_sees _) fun _ => .either (alike_argumentList alike) (.answer ()))
      fun _ => .answer true)
    (.answer false)

theorem alike_access (alike : l.Alike m) : Alike true (access l) (access m) :=
  .andThen (alike_primary alike) fun _ => .repeated (alike_propertyAccess alike)

theorem alike_signedOperand (alike : l.Alike m) : Alike true (signedOperand l) (signedOperand m) :=
  .andThen (alike_seesAny _) fun _ => .either alike.signed (alike_access alike)

theorem alike_operands {sees : Parser Bool} {operand operand' : Parser Unit}
    (asks : Alike true sees sees) (alike : Alike true operand operand') :
    Alike true (operands sees operand) (operands sees operand') :=
  .andThen alike fun _ => .repeated <| .andThen asks fun _ => .either
    (.andThen (.wrapping _ (.andThen alike_bumpOperator fun _ => alike)) fun _ => .answer true)
    (.answer false)

theorem alike_seesComparison : Alike deep seesComparison seesComparison :=
  .andThen alike_seesNotIn fun _ => .andThen (alike_seesAny _) fun _ => .answer _

theorem alike_comparison (alike : l.Alike m) : Alike true (comparison l) (comparison m) :=
  alike_operands alike_seesComparison <| alike_operands (alike_seesAny _) <|
    alike_operands (alike_seesAny _) <| alike_signedOperand alike

theorem alike_negatable (alike : l.Alike m) : Alike true (negatable l) (negatable m) :=
  .andThen (alike_sees _) fun _ => .andThen (alike_kindAt (by decide)) fun _ =>
    .either alike.negation (alike_comparison alike)

theorem alike_disjunction (alike : l.Alike m) : Alike true (disjunction l) (disjunction m) :=
  alike_operands (alike_sees _) <| alike_operands (alike_sees _) <| alike_negatable alike

theorem alike_unary {operand operand' : Parser Unit} (alike : Alike true operand operand') :
    Alike deep (unary operand) (unary operand') :=
  .within _ <| .andThen .bump fun _ => alike

theorem levelAbove_alike (alike : l.Alike m) : (levelAbove l).Alike (levelAbove m) :=
  ⟨alike_disjunction alike, alike_unary (alike_negatable alike),
    alike_unary (alike_signedOperand alike)⟩

theorem level_alike (depth : Nat) : (level depth).Alike (level depth) := by
  induction depth with
  | zero => exact lowestLevel_alike
  | succ depth ih => exact levelAbove_alike ih

/-! ## Declarations -/

theorem alike_ruleNamePart : Alike deep ruleNamePart ruleNamePart :=
  .andThen (alike_kindAt (by decide)) fun _ => .andThen alike_kind fun _ => .either
    (.andThen .bump fun _ => .andThen .bump fun _ => .answer true) (.answer false)

theorem alike_ruleName : Alike deep ruleName ruleName := by
  have parts : Alike true (bump >>= fun _ => repeatWhile ruleNamePart)
      (bump >>= fun _ => repeatWhile ruleNamePart) :=
    .andThen .bump fun _ => .repeated alike_ruleNamePart
  refine .within _ <| .andThen alike_seesName fun named => ?_
  cases named with
  | true => exact parts
  | false => exact .andThen (alike_sees _) fun _ => .either parts (alike_complainWanted _)

theorem alike_outputAttribute (alike : l.Alike m) :
    Alike deep (outputAttribute l) (outputAttribute m) :=
  .andThen (alike_predict _) fun _ => .andThen (alike_sees _) fun _ => .either
    (.andThen (.within _ <| .andThen (alike_leafOf _) fun _ => alike.expression)
      fun _ => .answer true)
    (.answer false)

theorem alike_ruleBody (alike : l.Alike m) : Alike deep (ruleBody l) (ruleBody m) :=
  .andThen (alike_block alike) fun _ => .repeated (alike_outputAttribute alike)

theorem alike_assertion (alike : l.Alike m) : Alike deep (assertion l) (assertion m) :=
  .within _ <| .andThen .bump fun _ => .andThen alike_ruleName fun _ =>
    .andThen (alike_seesAny _) fun _ => .eitherThen .bump (alike_ruleBody alike)

theorem alike_output (alike : l.Alike m) : Alike deep (output l) (output m) :=
  .within _ <| .andThen .bump fun _ => .andThen alike_ruleName fun _ => alike_ruleBody alike

theorem alike_functionArguments : Alike deep functionArguments functionArguments :=
  .within _ <| .andThen (alike_expect _) fun _ => .either
    (.andThen (alike_sees _) fun _ =>
      .eitherThen (alike_commaSeparated (.within _ (alike_require _ _))) (alike_expecting _))
    (.answer ())

theorem alike_function (alike : l.Alike m) : Alike deep (function l) (function m) :=
  .within _ <| .andThen .bump fun _ => .andThen (alike_require _ _) fun _ =>
    .andThen alike_functionArguments fun _ => alike_block alike

theorem alike_constant (alike : l.Alike m) : Alike deep (constant l) (constant m) :=
  .within _ <| .andThen .bump fun _ => .andThen (alike_require _ _) fun _ =>
    .andThen (alike_expect _) fun _ => .either (alike_block alike) (.answer ())

theorem alike_namespaceDeclaration (alike : l.Alike m) :
    Alike deep (namespaceDeclaration l) (namespaceDeclaration m) := by
  refine .within _ <| .andThen .bump fun _ => .andThen (alike_sees _) fun _ =>
    .andThen (alike_kindAt (by decide)) fun _ => ?_
  have uri : Alike true (do
      if ← sees .url then bump
      else if ← sees .stringOpen then stringLiteral l
      else complainWanted .namespaceUri) (do
      if ← sees .url then bump
      else if ← sees .stringOpen then stringLiteral m
      else complainWanted .namespaceUri) :=
    .andThen (alike_sees _) fun _ => .either .bump <|
      .andThen (alike_sees _) fun _ => .either (alike_stringLiteral alike) (alike_complainWanted _)
  exact .either (.andThen .bump fun _ => .andThen .bump fun _ => uri) uri

theorem alike_nameDeclaration (r : Rule) : Alike deep (nameDeclaration r) (nameDeclaration r) :=
  .within _ <| .andThen .bump fun _ => alike_require _ _

theorem alike_separatorDeclaration (alike : l.Alike m) :
    Alike deep (separatorDeclaration l) (separatorDeclaration m) :=
  .within _ <| .andThen .bump fun _ => .andThen (alike_sees _) fun _ =>
    .either (alike_stringLiteral alike) (alike_complainWanted _)

theorem alike_declaration (alike : l.Alike m) : Alike deep (declaration l) (declaration m) := by
  refine .andThen alike_kind fun k => ?_
  split
  case h_1 => exact alike_assertion alike
  case h_2 => exact alike_output alike
  case h_3 => exact alike_function alike
  case h_4 => exact alike_constant alike
  case h_5 => exact alike_namespaceDeclaration alike
  case h_6 | h_7 => exact alike_nameDeclaration _
  case h_8 => exact alike_separatorDeclaration alike
  case h_9 => exact .andThen (.complain _ rfl) fun _ => alike_skipTo _

theorem alike_nextDeclaration (alike : l.Alike m) :
    Alike deep (nextDeclaration l) (nextDeclaration m) :=
  .andThen (alike_seesAny _) fun _ => .andThen (alike_sees _) fun _ =>
    .either (.answer false) (.andThen (alike_declaration alike) fun _ => .answer true)

/-- Files are parsed alike at levels that are alike. -/
theorem alike_file (alike : l.Alike m) : Alike deep (file l) (file m) :=
  .within _ <| .andThen (.repeated (alike_nextDeclaration alike)) fun _ => .bump

/-- The parser of files is put together of its operations. -/
theorem wholeFile_alike : Alike false (file (level maxDepth)) (file (level maxDepth)) :=
  alike_file (level_alike maxDepth)

end Parser

end XuleLang
