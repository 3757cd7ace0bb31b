import XuleLang.Parser.Declaration
import XuleLang.Proofs.Parser.Operation

/-!
What parsers are put together of.

`Parser.Assembled own given` says of a parser that it is made from the operations on the state and
from the parsers `given`, and that the nodes which it opens itself are of the rules `own`. With
what a level gives, which are its expressions, its negations, its signed operands, and blocks, all
parsers of the grammar are of this kind. Those of blocks and assignments open nodes that nest
values, those of expressions open operations, and the others neither.

So what is to be shown of all of them has to be shown for the operations and for the level only, by
induction on how a parser is assembled.
-/

namespace XuleLang

/-- The rules whose nodes nest values: blocks and assignments. -/
def Rule.nestsValues (r : Rule) : Bool := r == .expressionBlock || r == .assignment

/-- The rules of nodes that nest no values. -/
def Rule.isFlat (r : Rule) : Bool := !r.nestsValues

/-- The rules of operations, whose nodes are put around their left operands. -/
def Rule.isOperation (r : Rule) : Bool := r == .binaryExpression || r == .propertyAccess

/-- The rules of nodes that neither nest values nor are operations. -/
def Rule.isOrdinary (r : Rule) : Bool := r.isFlat && !r.isOperation

theorem Rule.isFlat_of_isOrdinary (r : Rule) (ordinary : r.isOrdinary = true) : r.isFlat = true :=
  (Bool.and_eq_true_iff.mp ordinary).1

theorem Rule.isOperation_of_isOrdinary (r : Rule) (ordinary : r.isOrdinary = true) :
    r.isOperation = false := by
  simpa using (Bool.and_eq_true_iff.mp ordinary).2

/-- The parsers that a level gives. -/
inductive Level.Gives (l : Level) : Parser Unit → Prop where
  | expression : l.Gives l.expression
  | negation : l.Gives l.negation
  | signed : l.Gives l.signed
  | block : l.Gives (Parser.block l)

namespace Parser

/-- The parser is put together of operations and of given parsers. The nodes that it opens itself
are of the rules `own`. -/
inductive Assembled (own : Rule → Bool) (given : Parser Unit → Prop) :
    {α : Type} → Parser α → Prop where
  | answer {α : Type} (a : α) : Assembled own given (pure a)
  | andThen {α β : Type} {p : Parser α} {f : α → Parser β} (first : Assembled own given p)
    (next : ∀ a, Assembled own given (f a)) : Assembled own given (p >>= f)
  | ask : Assembled own given get
  | note (kinds : List TokenKind) (rules : List Rule) :
    Assembled own given (modify (·.note kinds rules))
  | bump : Assembled own given bump
  | complain (c : Complaint) : Assembled own given (complain c)
  | overrun : Assembled own given overrun
  | within {r : Rule} {body : Parser Unit} (owned : own r = true)
    (inside : Assembled own given body) : Assembled own given (within r body)
  | wrapping {r : Rule} {body : Parser Unit} (owned : own r = true)
    (inside : Assembled own given body) : Assembled own given (wrapping r body)
  | part {p : Parser Unit} (gives : given p) : Assembled own given p

variable {own : Rule → Bool} {given : Parser Unit → Prop} {l : Level} {α β : Type}

namespace Assembled

theorem either {c : Bool} {p q : Parser α} (yes : Assembled own given p)
    (no : Assembled own given q) : Assembled own given (if c then p else q) := by
  cases c
  · exact no
  · exact yes

/-- A parser that may be left out before the others. -/
theorem eitherThen {c : Bool} {p : Parser Unit} {q : Unit → Parser β}
    (yes : Assembled own given p) (rest : Assembled own given (q ())) :
    Assembled own given (if c then p >>= q else q ()) :=
  .either (.andThen yes fun _ => rest) rest

theorem expression : Assembled own l.Gives l.expression := .part .expression

theorem negation : Assembled own l.Gives l.negation := .part .negation

theorem signed : Assembled own l.Gives l.signed := .part .signed

theorem block : Assembled own l.Gives (block l) := .part .block

/-- A parser may be allowed more rules than it has need of. -/
theorem widen {own' : Rule → Bool} {p : Parser α} (assembled : Assembled own given p)
    (wider : ∀ r, own r = true → own' r = true) : Assembled own' given p := by
  induction assembled with
  | answer a => exact .answer a
  | andThen first next ihFirst ihNext => exact .andThen ihFirst ihNext
  | ask => exact .ask
  | note kinds rules => exact .note kinds rules
  | bump => exact .bump
  | complain c => exact .complain c
  | overrun => exact .overrun
  | within owned inside ih => exact .within (wider _ owned) ih
  | wrapping owned inside ih => exact .wrapping (wider _ owned) ih
  | part gives => exact .part gives

/-- What looks at the state and answers. -/
theorem asked (answer : ParserState → α) :
    Assembled own given (get >>= fun s => (pure (answer s) : Parser α)) :=
  .andThen .ask fun _ => .answer _

end Assembled

/-- The parser opens a node of the rule, which it fills with what is assembled. -/
def Makes (own : Rule → Bool) (given : Parser Unit → Prop) (r : Rule) (p : Parser Unit) : Prop :=
  ∃ body, p = within r body ∧ Assembled own given body

theorem Makes.assembled {r : Rule} {p : Parser Unit} (makes : Makes own given r p)
    (owned : own r = true) : Assembled own given p := by
  obtain ⟨body, rfl, inside⟩ := makes
  exact .within owned inside

/-! ## Tokens and repetition -/

section Operations

theorem assembled_kindAt (n : Nat) : Assembled own given (kindAt n) := .asked _

theorem assembled_kind : Assembled own given kind := .asked _

theorem assembled_isWordAt (n : Nat) (word : String) : Assembled own given (isWordAt n word) :=
  .asked _

theorem assembled_predict (rules : List Rule) : Assembled own given (predict rules) :=
  .note [] rules

theorem assembled_sees (k : TokenKind) : Assembled own given (sees k) :=
  .andThen (.note _ _) fun _ => .andThen assembled_kind fun _ => .answer _

theorem assembled_seesAny (ks : List TokenKind) : Assembled own given (seesAny ks) := by
  induction ks with
  | nil => exact .answer false
  | cons k ks ih => exact .andThen (assembled_sees k) fun _ => .andThen ih fun _ => .answer _

theorem assembled_seesName : Assembled own given seesName :=
  .andThen (assembled_sees _) fun _ => .andThen assembled_kind fun _ => .answer _

theorem assembled_seesAnyWord (words : List String) : Assembled own given (seesAnyWord words) := by
  induction words with
  | nil => exact .answer false
  | cons word words ih =>
    exact .andThen (.andThen (assembled_sees _) fun _ => assembled_isWordAt 0 word)
      fun _ => .either (.answer true) ih

theorem assembled_seesNotIn : Assembled own given seesNotIn :=
  .andThen assembled_kind fun _ => .andThen (assembled_kindAt 1) fun _ => .answer _

theorem assembled_eat (k : TokenKind) : Assembled own given (eat k) :=
  .andThen (assembled_sees k) fun _ => .either (.andThen .bump fun _ => .answer true)
    (.answer false)

theorem assembled_complainWanted (w : Wanted) : Assembled own given (complainWanted w) :=
  .andThen assembled_kind fun _ => .complain _

theorem assembled_expect (k : TokenKind) : Assembled own given (expect k) :=
  .andThen (assembled_eat k) fun _ => .eitherThen (assembled_complainWanted _) (.answer _)

theorem assembled_expecting (k : TokenKind) : Assembled own given (do let _ ← expect k) :=
  .andThen (assembled_expect k) fun _ => .answer ()

theorem assembled_require (k : TokenKind) (w : Wanted) : Assembled own given (require k w) :=
  .andThen (assembled_sees k) fun _ => .either .bump (assembled_complainWanted w)

theorem assembled_requireName (w : Wanted) : Assembled own given (requireName w) :=
  .andThen assembled_seesName fun _ => .either .bump (assembled_complainWanted w)

theorem makes_leafOf (r : Rule) : Makes own given r (leafOf r) := ⟨bump, rfl, .bump⟩

theorem assembled_leafOf {r : Rule} (owned : own r = true) : Assembled own given (leafOf r) :=
  (makes_leafOf r).assembled owned

theorem assembled_bumpOperator : Assembled own given bumpOperator :=
  .andThen assembled_seesNotIn fun _ => .eitherThen .bump .bump

theorem Assembled.repeated {step : Parser Bool} (assembled : Assembled own given step) :
    Assembled own given (repeatWhile step) := by
  refine .andThen .ask fun s => ?_
  induction s.rest.length + 1 with
  | zero => exact .overrun
  | succ n ih => exact .andThen assembled fun _ => .either ih (.answer ())

theorem assembled_commaSeparated {item : Parser Unit} (assembled : Assembled own given item) :
    Assembled own given (commaSeparated item) :=
  .repeated (.andThen assembled fun _ => assembled_eat _)

/-- A step that runs a parser if it is asked for. -/
theorem Assembled.asking {ask : Parser Bool} {item : Parser Unit} (asks : Assembled own given ask)
    (assembled : Assembled own given item) : Assembled own given (do
      let ahead ← ask
      if ahead then item
      return ahead) :=
  .andThen asks fun _ => .eitherThen assembled (.answer _)

theorem assembled_skipTo (owned : own .skipped = true) (kinds : List TokenKind) :
    Assembled own given (skipTo kinds) :=
  .within owned <| .repeated <| .andThen assembled_kind fun _ =>
    .either (.answer false) (.andThen .bump fun _ => .answer true)

end Operations

/-! ## Blocks -/

theorem assembled_seesAssignment : Assembled own given seesAssignment :=
  .andThen (assembled_predict _) fun _ => .andThen (assembled_sees _) fun _ =>
    .andThen (assembled_kindAt 1) fun _ => .answer _

theorem makes_assignment {value : Parser Unit} (names : own .assignedVariable = true)
    (assembled : Assembled own given value) : Makes own given .assignment (assignment value) :=
  ⟨_, rfl, .andThen (assembled_leafOf names) fun _ => .andThen .bump fun _ =>
    .andThen assembled fun _ => assembled_expecting _⟩

/-- Blocks are made of expressions, if they may be opened and assignments too. -/
theorem assembled_block (blocks : own .expressionBlock = true)
    (assignments : own .assignment = true) (names : own .assignedVariable = true)
    (value : given l.expression) : Assembled own given (block l) := by
  refine .andThen .ask fun s => ?_
  induction s.rest.length + 1 with
  | zero => exact .overrun
  | succ n ih =>
    exact .within blocks <| .andThen
      (.repeated (.asking assembled_seesAssignment ((makes_assignment names ih).assembled
        assignments))) fun _ => .part value

/-! ## Names and strings -/

theorem makes_qualifiedName : Makes own given .qualifiedName qualifiedName :=
  ⟨_, rfl, .andThen (assembled_requireName _) fun _ => .andThen (assembled_eat _) fun _ =>
    .either (assembled_requireName _) (.answer ())⟩

theorem makes_propertyRef : Makes own given .propertyRef propertyRef :=
  ⟨_, rfl, assembled_requireName _⟩

theorem assembled_stringPart : Assembled Rule.isOrdinary l.Gives (stringPart l) := by
  refine .andThen assembled_kind fun k => ?_
  split
  case h_1 => exact .andThen .bump fun _ => .answer true
  case h_2 =>
    exact .andThen .bump fun _ => .andThen .block fun _ =>
      .andThen (assembled_expect _) fun _ => .answer true
  case h_3 => exact .andThen .bump fun _ => .answer false
  case h_4 => exact .andThen (.complain _) fun _ => .answer false

theorem makes_stringLiteral : Makes Rule.isOrdinary l.Gives .stringLiteral (stringLiteral l) :=
  ⟨_, rfl, .andThen .bump fun _ => .repeated assembled_stringPart⟩

theorem makes_argumentList : Makes own l.Gives .argumentList (argumentList l) :=
  ⟨_, rfl, .andThen (assembled_expect _) fun _ => .either
    (.andThen (assembled_sees _) fun _ =>
      .eitherThen (assembled_commaSeparated .block) (assembled_expecting _))
    (.answer ())⟩

theorem assembled_whereClause : Assembled Rule.isOrdinary l.Gives (whereClause l) :=
  .within rfl <| .andThen .bump fun _ => .block

/-! ## Queries -/

theorem assembled_aspectCondition : Assembled Rule.isOrdinary l.Gives (aspectCondition l) :=
  .andThen assembled_bumpOperator fun _ => .within rfl <| .andThen (assembled_sees _) fun _ =>
    .either .bump .expression

theorem assembled_binding : Assembled Rule.isOrdinary l.Gives binding :=
  .within rfl <| .andThen .bump fun _ => assembled_require _ _

theorem assembled_aspectFilter : Assembled Rule.isOrdinary l.Gives (aspectFilter l) := by
  have property : Assembled Rule.isOrdinary l.Gives (do
      if (← kind) == .punctuator .dot then
        bump
        propertyRef
        pure true
      else pure false) :=
    .andThen assembled_kind fun _ => .either
      (.andThen .bump fun _ => .andThen (makes_propertyRef.assembled rfl) fun _ => .answer true)
      (.answer false)
  exact .within rfl <| .andThen .bump fun _ => .andThen (assembled_eat _) fun _ =>
    .andThen (makes_qualifiedName.assembled rfl) fun _ => .andThen property.repeated fun _ =>
    .andThen assembled_seesNotIn fun _ => .andThen (assembled_seesAny _) fun _ =>
    .eitherThen assembled_aspectCondition <|
    .andThen (assembled_sees _) fun _ => .either assembled_binding (.answer ())

theorem makes_factset : Makes Rule.isOrdinary l.Gives .factset (factset l) := by
  refine ⟨_, rfl, .andThen assembled_kind fun _ => .andThen .bump fun _ =>
    .andThen (.repeated (.asking (assembled_seesAny _) (assembled_leafOf rfl))) fun _ =>
    .andThen (.repeated (.asking (assembled_sees _) assembled_aspectFilter)) fun _ =>
    .andThen (assembled_sees _) fun _ => .either
      (.andThen assembled_whereClause fun _ => assembled_expecting _) ?_⟩
  exact .andThen (assembled_sees _) fun _ => .andThen assembled_kind fun _ =>
    .eitherThen .block (assembled_expecting _)

theorem assembled_seesArcrole : Assembled Rule.isOrdinary l.Gives seesArcrole := by
  refine .andThen assembled_kind fun k => ?_
  split
  case h_1 => exact .andThen (assembled_kindAt 1) fun _ => .answer _
  case h_2 | h_3 | h_4 => exact .answer _

theorem assembled_arcrole : Assembled Rule.isOrdinary l.Gives (arcrole l) :=
  .within rfl <| .andThen assembled_kind fun _ => .either (makes_stringLiteral.assembled rfl) .bump

theorem assembled_direction : Assembled Rule.isOrdinary l.Gives direction :=
  .within rfl <| .andThen (assembled_predict _) fun _ => assembled_require _ _

theorem assembled_includeClause : Assembled Rule.isOrdinary l.Gives includeClause :=
  .within rfl <| .andThen .bump fun _ => assembled_expecting _

theorem assembled_wordClause : Assembled Rule.isOrdinary l.Gives (wordClause l) :=
  .within rfl <| .andThen .bump fun _ => .expression

theorem assembled_stopClause : Assembled Rule.isOrdinary l.Gives (stopClause l) :=
  .within rfl <| .andThen .bump fun _ => .andThen (assembled_expect _) fun _ =>
    .either .expression (.answer ())

theorem assembled_clause : Assembled Rule.isOrdinary l.Gives (clause l) :=
  .andThen (assembled_seesAny _) fun _ => .either
    (.andThen assembled_wordClause fun _ => .answer true) <|
  .andThen (assembled_sees _) fun _ => .either
    (.andThen assembled_stopClause fun _ => .answer true) <|
  .andThen (assembled_seesAnyWord _) fun _ => .either
    (.andThen assembled_wordClause fun _ => .answer true) <|
  .andThen (assembled_sees _) fun _ => .either
    (.andThen assembled_whereClause fun _ => .answer true) (.answer false)

theorem assembled_returnOption : Assembled Rule.isOrdinary l.Gives returnOption :=
  .within rfl <| .andThen (assembled_predict _) fun _ => assembled_require _ _

theorem assembled_formModifier : Assembled Rule.isOrdinary l.Gives formModifier :=
  .andThen (assembled_isWordAt 0 _) fun _ => .andThen (assembled_isWordAt 1 _) fun _ =>
    .andThen .ask fun _ => .andThen (assembled_kindAt 1) fun _ => .either
      (.andThen .bump fun _ => .andThen .bump fun _ => .answer true)
      (.either (.andThen .bump fun _ => .answer true) (.answer false))

theorem assembled_returnsClause : Assembled Rule.isOrdinary l.Gives returnsClause := by
  have shape : Assembled Rule.isOrdinary l.Gives (do
      if ← eat (.keyword .asKw) then require .identifier .resultShape) :=
    .andThen (assembled_eat _) fun _ => .either (assembled_require _ _) (.answer ())
  exact .within rfl <| .andThen .bump fun _ => .andThen (.repeated assembled_formModifier) fun _ =>
    .andThen (assembled_eat _) fun _ => .either
      (.andThen (assembled_commaSeparated assembled_returnOption) fun _ =>
        .andThen (assembled_expect _) fun _ => shape)
      (.andThen assembled_returnOption fun _ => shape)

theorem makes_navigation : Makes Rule.isOrdinary l.Gives .navigation (navigation l) :=
  ⟨_, rfl, .andThen .bump fun _ => .andThen (assembled_eat _) fun _ =>
    .andThen (assembled_predict _) fun _ => .andThen assembled_seesArcrole fun _ =>
    .eitherThen assembled_arcrole <|
    .andThen assembled_direction fun _ => .andThen (assembled_eat _) fun _ =>
    .andThen (assembled_sees _) fun _ => .eitherThen assembled_includeClause <|
    .andThen (.repeated assembled_clause) fun _ =>
    .andThen (assembled_sees _) fun _ => .either assembled_returnsClause (.answer ())⟩

theorem assembled_filterReturns : Assembled Rule.isOrdinary l.Gives (filterReturns l) :=
  .within rfl <| .andThen .bump fun _ => .expression

theorem makes_filter : Makes Rule.isOrdinary l.Gives .filterExpression (filter l) :=
  ⟨_, rfl, .andThen .bump fun _ => .andThen .expression fun _ =>
    .andThen (assembled_sees _) fun _ => .eitherThen assembled_whereClause <|
    .andThen (assembled_sees _) fun _ => .either assembled_filterReturns (.answer ())⟩

/-! ## Expressions -/

theorem makes_call : Makes Rule.isOrdinary l.Gives .callExpression (call l) :=
  ⟨_, rfl, .andThen (assembled_leafOf rfl) fun _ => (makes_argumentList.assembled rfl)⟩

theorem assembled_nameOrCall : Assembled Rule.isOrdinary l.Gives (nameOrCall l) :=
  .andThen (makes_qualifiedName.assembled rfl) fun _ => .andThen assembled_kind fun _ =>
    .either (.wrapping rfl (makes_argumentList.assembled rfl)) (.answer ())

theorem makes_parenthesized :
    Makes Rule.isOrdinary l.Gives .parenthesizedExpression (parenthesized l) :=
  ⟨_, rfl, .andThen .bump fun _ => .andThen .block fun _ => assembled_expecting _⟩

theorem makes_conditional : Makes Rule.isOrdinary l.Gives .ifExpression (conditional l) :=
  ⟨_, rfl, .andThen .bump fun _ => .andThen .expression fun _ =>
    .andThen .block fun _ => .andThen (assembled_expect _) fun _ => .either .block (.answer ())⟩

theorem makes_loop : Makes Rule.isOrdinary l.Gives .forExpression (loop l) :=
  ⟨_, rfl, .andThen .bump fun _ => .andThen (assembled_eat _) fun _ =>
    .andThen (.within rfl (assembled_require _ _)) fun _ => .andThen (assembled_expect _) fun _ =>
    .eitherThen .expression <| .either
      (.andThen (assembled_expect _) fun _ => .block) .block⟩

theorem assembled_primary : Assembled Rule.isOrdinary l.Gives (primary l) := by
  refine .andThen (assembled_predict _) fun _ => .andThen (assembled_seesAny _) fun _ =>
    .andThen (assembled_seesAny _) fun _ => .andThen (assembled_kindAt 1) fun _ =>
    .andThen assembled_kind fun k => ?_
  split
  case h_1 | h_3 | h_4 | h_5 | h_6 => exact assembled_leafOf rfl
  case h_2 => exact makes_stringLiteral.assembled rfl
  case h_7 => exact .either (makes_call.assembled rfl) (assembled_leafOf rfl)
  case h_8 => exact .either (makes_call.assembled rfl) assembled_nameOrCall
  case h_9 => exact makes_parenthesized.assembled rfl
  case h_10 => exact makes_conditional.assembled rfl
  case h_11 => exact makes_loop.assembled rfl
  case h_12 | h_13 => exact makes_factset.assembled rfl
  case h_14 => exact makes_navigation.assembled rfl
  case h_15 => exact makes_filter.assembled rfl
  case h_16 => exact .complain _

/-! ## Operations -/

theorem assembled_propertyAccess : Assembled Rule.isFlat l.Gives (propertyAccess l) :=
  .andThen (assembled_sees _) fun _ => .either
    (.andThen (.wrapping rfl <| .andThen .bump fun _ =>
      .andThen (makes_propertyRef.assembled rfl) fun _ => .andThen (assembled_sees _) fun _ =>
      .either (makes_argumentList.assembled rfl) (.answer ())) fun _ => .answer true)
    (.answer false)

theorem assembled_signedOperand : Assembled Rule.isFlat l.Gives (signedOperand l) :=
  .andThen (assembled_seesAny _) fun _ => .either .signed <|
    .andThen (assembled_primary.widen Rule.isFlat_of_isOrdinary) fun _ =>
      .repeated assembled_propertyAccess

theorem assembled_operands {sees : Parser Bool} {operand : Parser Unit}
    (asks : Assembled Rule.isFlat l.Gives sees)
    (assembled : Assembled Rule.isFlat l.Gives operand) :
    Assembled Rule.isFlat l.Gives (operands sees operand) :=
  .andThen assembled fun _ => .repeated <| .andThen asks fun _ => .either
    (.andThen (.wrapping rfl (.andThen assembled_bumpOperator fun _ => assembled))
      fun _ => .answer true)
    (.answer false)

theorem assembled_seesComparison : Assembled own given seesComparison :=
  .andThen assembled_seesNotIn fun _ => .andThen (assembled_seesAny _) fun _ => .answer _

theorem assembled_negatable : Assembled Rule.isFlat l.Gives (negatable l) := by
  have comparison : Assembled Rule.isFlat l.Gives (comparison l) :=
    assembled_operands assembled_seesComparison <| assembled_operands (assembled_seesAny _) <|
      assembled_operands (assembled_seesAny _) assembled_signedOperand
  exact .andThen (assembled_sees _) fun _ => .andThen (assembled_kindAt 1) fun _ =>
    .either .negation comparison

theorem assembled_disjunction : Assembled Rule.isFlat l.Gives (disjunction l) :=
  assembled_operands (assembled_sees _) <| assembled_operands (assembled_sees _) assembled_negatable

theorem makes_unary {operand : Parser Unit} (assembled : Assembled own given operand) :
    Makes own given .unaryExpression (unary operand) :=
  ⟨_, rfl, .andThen .bump fun _ => assembled⟩

/-! ## Declarations -/

theorem assembled_ruleNamePart : Assembled Rule.isOrdinary l.Gives ruleNamePart :=
  .andThen (assembled_kindAt 1) fun _ => .andThen assembled_kind fun _ => .either
    (.andThen .bump fun _ => .andThen .bump fun _ => .answer true) (.answer false)

theorem assembled_ruleName : Assembled Rule.isOrdinary l.Gives ruleName := by
  have parts : Assembled Rule.isOrdinary l.Gives (bump >>= fun _ => repeatWhile ruleNamePart) :=
    .andThen .bump fun _ => .repeated assembled_ruleNamePart
  refine .within rfl <| .andThen assembled_seesName fun named => ?_
  cases named with
  | true => exact parts
  | false =>
    exact .andThen (assembled_sees _) fun _ => .either parts (assembled_complainWanted _)

theorem assembled_outputAttribute : Assembled Rule.isOrdinary l.Gives (outputAttribute l) :=
  .andThen (assembled_predict _) fun _ => .andThen (assembled_sees _) fun _ => .either
    (.andThen (.within rfl <| .andThen (assembled_leafOf rfl) fun _ => .expression)
      fun _ => .answer true)
    (.answer false)

theorem assembled_ruleBody : Assembled Rule.isOrdinary l.Gives (ruleBody l) :=
  .andThen .block fun _ => .repeated assembled_outputAttribute

theorem assembled_functionArguments : Assembled Rule.isOrdinary l.Gives functionArguments :=
  .within rfl <| .andThen (assembled_expect _) fun _ => .either
    (.andThen (assembled_sees _) fun _ => .eitherThen
      (assembled_commaSeparated (.within rfl (assembled_require _ _))) (assembled_expecting _))
    (.answer ())

theorem assembled_namespaceDeclaration :
    Assembled Rule.isOrdinary l.Gives (namespaceDeclaration l) := by
  have uri : Assembled Rule.isOrdinary l.Gives (do
      if ← sees .url then bump
      else if ← sees .stringOpen then stringLiteral l
      else complainWanted .namespaceUri) :=
    .andThen (assembled_sees _) fun _ => .either .bump <|
      .andThen (assembled_sees _) fun _ =>
        .either (makes_stringLiteral.assembled rfl) (assembled_complainWanted _)
  exact .within rfl <| .andThen .bump fun _ => .andThen (assembled_sees _) fun _ =>
    .andThen (assembled_kindAt 1) fun _ =>
    .either (.andThen .bump fun _ => .andThen .bump fun _ => uri) uri

theorem assembled_nameDeclaration {r : Rule} (owned : r.isOrdinary = true) :
    Assembled Rule.isOrdinary l.Gives (nameDeclaration r) :=
  .within owned <| .andThen .bump fun _ => assembled_require _ _

theorem assembled_declaration : Assembled Rule.isOrdinary l.Gives (declaration l) := by
  refine .andThen assembled_kind fun k => ?_
  split
  case h_1 =>
    exact .within rfl <| .andThen .bump fun _ => .andThen assembled_ruleName fun _ =>
      .andThen (assembled_seesAny _) fun _ => .eitherThen .bump assembled_ruleBody
  case h_2 =>
    exact .within rfl <| .andThen .bump fun _ => .andThen assembled_ruleName fun _ =>
      assembled_ruleBody
  case h_3 =>
    exact .within rfl <| .andThen .bump fun _ => .andThen (assembled_require _ _) fun _ =>
      .andThen assembled_functionArguments fun _ => .block
  case h_4 =>
    exact .within rfl <| .andThen .bump fun _ => .andThen (assembled_require _ _) fun _ =>
      .andThen (assembled_expect _) fun _ => .either .block (.answer ())
  case h_5 => exact assembled_namespaceDeclaration
  case h_6 | h_7 => exact assembled_nameDeclaration rfl
  case h_8 =>
    exact .within rfl <| .andThen .bump fun _ => .andThen (assembled_sees _) fun _ =>
      .either (makes_stringLiteral.assembled rfl) (assembled_complainWanted _)
  case h_9 => exact .andThen (.complain _) fun _ => assembled_skipTo rfl _

theorem assembled_declarations :
    Assembled Rule.isOrdinary l.Gives (repeatWhile (nextDeclaration l)) :=
  .repeated <| .andThen (assembled_seesAny _) fun _ => .andThen (assembled_sees _) fun _ =>
    .either (.answer false) (.andThen assembled_declaration fun _ => .answer true)

end Parser

end XuleLang
