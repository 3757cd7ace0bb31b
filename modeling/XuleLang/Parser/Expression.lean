import XuleLang.Parser.Query

/-!
Expressions.

From the loosest to the tightest, operators are `or`, `and`, the prefix `not`, the comparisons,
the additive ones, the multiplicative ones, the signs, and the property access. Operators between
two operands group to the left. `level` ties the knot: the parsers of a level nest those of the
level below.
-/

namespace XuleLang.Parser

def comparisonOperators : List TokenKind :=
  [.punctuator .equal, .punctuator .notEqual, .punctuator .less, .punctuator .greater,
   .punctuator .lessEq, .punctuator .greaterEq, .keyword .inKw]

def additiveOperators : List TokenKind :=
  [.punctuator .plus, .punctuator .minus, .punctuator .addBoth, .punctuator .addLeft,
   .punctuator .addRight, .punctuator .subBoth, .punctuator .subLeft, .punctuator .subRight]

def multiplicativeOperators : List TokenKind := [.punctuator .times, .punctuator .divide]

def signs : List TokenKind := [.punctuator .minus, .punctuator .plus]

/-- Kinds other than reserved words that can begin an operand. -/
def operandKinds : List TokenKind := [.variableName, .identifier, .number, .stringOpen]

/-- Reserved words that can begin an operand. -/
def operandKeywords : List TokenKind :=
  [.keyword .ifKw, .keyword .forKw, .keyword .navigateKw, .keyword .filterKw, .keyword .trueKw,
   .keyword .falseKw, .keyword .noneKw, .keyword .skipKw, .keyword .notKw]

/-- A name with arguments. -/
def call (l : Level) : Parser Unit :=
  within .callExpression do
    leafOf .functionRef
    argumentList l

/-- A qualified name, which becomes a call if arguments follow. -/
def nameOrCall (l : Level) : Parser Unit := do
  qualifiedName
  if (← kind) == .punctuator .lparen then wrapping .callExpression (argumentList l)

/-- A block in parentheses. -/
def parenthesized (l : Level) : Parser Unit :=
  within .parenthesizedExpression do
    bump
    block l
    let _ ← expect (.punctuator .rparen)

/-- A condition and two blocks with `else` between them. -/
def conditional (l : Level) : Parser Unit :=
  within .ifExpression do
    bump
    l.expression
    block l
    if ← expect (.keyword .elseKw) then block l

/-- The variable of a loop. -/
def loopVariable : Parser Unit := within .forVariable (require .variableName .loopVariable)

/-- A variable, a collection and a block, perhaps with parentheses around the first two. -/
def loop (l : Level) : Parser Unit :=
  within .forExpression do
    bump
    let parenthesis ← eat (.punctuator .lparen)
    loopVariable
    if ← expect (.keyword .inKw) then l.expression
    if parenthesis then
      let _ ← expect (.punctuator .rparen)
    block l

/-- An operand without operators around it. -/
def primary (l : Level) : Parser Unit := do
  predict [.variableRead, .qualifiedName, .booleanLiteral, .callExpression]
  let _ ← seesAny operandKinds
  let _ ← seesAny operandKeywords
  let called := (← kindAt 1) == .punctuator .lparen
  match ← kind with
  | .number => leafOf .numberLiteral
  | .stringOpen => stringLiteral l
  | .keyword .trueKw | .keyword .falseKw => leafOf .booleanLiteral
  | .keyword .noneKw | .keyword .skipKw => leafOf .keywordLiteral
  | .variableName => if called then call l else leafOf .variableRead
  | .identifier => if called then call l else nameOrCall l
  | .punctuator .lparen => parenthesized l
  | .keyword .ifKw => conditional l
  | .keyword .forKw => loop l
  | .punctuator .lbrace | .punctuator .lbracket => factset l
  | .keyword .navigateKw => navigation l
  | .keyword .filterKw => filter l
  | other => complain (.expected .expression other)

/-- A point and a property name behind an operand, perhaps with arguments. -/
def propertyAccess (l : Level) : Parser Bool := do
  if ← sees (.punctuator .dot) then
    wrapping .propertyAccess do
      bump
      propertyRef
      if ← sees (.punctuator .lparen) then argumentList l
    pure true
  else pure false

/-- An operand with its properties. -/
def access (l : Level) : Parser Unit := do
  primary l
  repeatWhile (propertyAccess l)

/-- An operand with signs before it. -/
def signedOperand (l : Level) : Parser Unit := do
  if ← seesAny signs then l.signed else access l

/-- One more operator and its right operand, if the operator is ahead. -/
def rightOperand (seesOperator : Parser Bool) (operand : Parser Unit) : Parser Bool := do
  if ← seesOperator then
    wrapping .binaryExpression do
      bumpOperator
      operand
    pure true
  else pure false

/-- Operands with operators of one kind between them. -/
def operands (seesOperator : Parser Bool) (operand : Parser Unit) : Parser Unit := do
  operand
  repeatWhile (rightOperand seesOperator operand)

def multiplicative (l : Level) : Parser Unit :=
  operands (seesAny multiplicativeOperators) (signedOperand l)

def additive (l : Level) : Parser Unit :=
  operands (seesAny additiveOperators) (multiplicative l)

/-- A comparison operator, of which `not in` is one. -/
def seesComparison : Parser Bool := do
  let notIn ← seesNotIn
  let operator ← seesAny comparisonOperators
  return operator || notIn

def comparison (l : Level) : Parser Unit :=
  operands seesComparison (additive l)

/-- A comparison with `not` before it. -/
def negatable (l : Level) : Parser Unit := do
  let notAhead ← sees (.keyword .notKw)
  if notAhead && (← kindAt 1) != .keyword .inKw then l.negation else comparison l

def conjunction (l : Level) : Parser Unit :=
  operands (sees (.keyword .andKw)) (negatable l)

def disjunction (l : Level) : Parser Unit :=
  operands (sees (.keyword .orKw)) (conjunction l)

/-- A prefix operator and what it applies to. -/
def unary (operand : Parser Unit) : Parser Unit :=
  within .unaryExpression do
    bump
    operand

/-- The level above another one. -/
def levelAbove (l : Level) : Level :=
  ⟨disjunction l, unary (negatable l), unary (signedOperand l)⟩

/-- The level from which expressions may nest `depth` deep. -/
def level : Nat → Level
  | 0 => lowestLevel
  | depth + 1 => levelAbove (level depth)

/-- How deep expressions may nest. -/
def maxDepth : Nat := 128

end XuleLang.Parser
