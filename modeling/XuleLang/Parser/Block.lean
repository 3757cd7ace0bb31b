import XuleLang.Parser.State

/-!
Blocks, names and other parts that occur inside expressions and around them.

## Nesting

Expressions nest, and the parser follows them only so far. A `Level` holds the three parsers that
go one step deeper: an expression, and what stands behind a prefix `not` or behind a sign. The
lowest level only complains, and skips one token. All other parsers take the level at which they
work as an argument, so that no parser calls itself.

A block is an expression with assignments before it, and the value of an assignment is a block
again. Assignments inside assignments stay at one level; each takes two tokens before the next
block begins, so that the number of tokens ahead bounds them.
-/

namespace XuleLang

/-- The parsers that go one step deeper into an expression. -/
structure Level where
  expression : Parser Unit
  /-- A `not` and its operand. -/
  negation : Parser Unit
  /-- A sign and its operand. -/
  signed : Parser Unit

namespace Parser

/-- Complains that the nesting is too deep, and skips a token. -/
def tooDeep : Parser Unit := do
  complain .tooDeepExpression
  if (← kind) != .endOfInput then leafOf .skipped

/-- The level at which nothing may nest any more. -/
def lowestLevel : Level := ⟨tooDeep, tooDeep, tooDeep⟩

/-- A variable with an equals sign behind it begins an assignment. -/
def seesAssignment : Parser Bool := do
  predict [.assignedVariable]
  let variableAhead ← sees .variableName
  return variableAhead && (← kindAt 1) == .punctuator .assign

/-- A variable, an equals sign, a value and a semicolon. -/
def assignment (value : Parser Unit) : Parser Unit :=
  within .assignment do
    leafOf .assignedVariable
    bump
    value
    let _ ← expect (.punctuator .semicolon)

/-- A block in which assignments nest less than `fuel` times. -/
def blockUpTo (l : Level) : Nat → Parser Unit
  | 0 => overrun
  | fuel + 1 =>
    within .expressionBlock do
      repeatWhile do
        let ahead ← seesAssignment
        if ahead then assignment (blockUpTo l fuel)
        return ahead
      l.expression

/-- Any number of assignments and an expression. -/
def block (l : Level) : Parser Unit := do
  blockUpTo l ((← get).rest.length + 1)

/-- A name, or two with a colon between them. -/
def qualifiedName : Parser Unit :=
  within .qualifiedName do
    requireName .qualifiedName
    if ← eat (.punctuator .colon) then requireName .localName

/-- The name of a property. -/
def propertyRef : Parser Unit := within .propertyRef (requireName .propertyName)

/-- One part of a string literal: text, a block in braces, or the closing quote. Says whether the
literal goes on. -/
def stringPart (l : Level) : Parser Bool := do
  match ← kind with
  | .stringContent =>
    bump
    pure true
  | .punctuator .lbrace =>
    bump
    block l
    let _ ← expect (.punctuator .rbrace)
    pure true
  | .stringClose =>
    bump
    pure false
  | _ =>
    complain .unterminatedString
    pure false

/-- Text between quotes, with blocks in braces. -/
def stringLiteral (l : Level) : Parser Unit :=
  within .stringLiteral do
    bump
    repeatWhile (stringPart l)

/-- Blocks in parentheses with commas between them. -/
def argumentList (l : Level) : Parser Unit :=
  within .argumentList do
    if ← expect (.punctuator .lparen) then
      if !(← sees (.punctuator .rparen)) then commaSeparated (block l)
      let _ ← expect (.punctuator .rparen)

/-- A `where` and its condition. -/
def whereClause (l : Level) : Parser Unit :=
  within .whereClause do
    bump
    block l

/-- A `not` with an `in` behind it is one operator. -/
def seesNotIn : Parser Bool := do
  return (← kind) == .keyword .notKw && (← kindAt 1) == .keyword .inKw

/-- Reads an operator, which may be `not in`. -/
def bumpOperator : Parser Unit := do
  if ← seesNotIn then bump
  bump

end Parser

end XuleLang
