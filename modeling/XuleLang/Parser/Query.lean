import XuleLang.Parser.Block

/-!
Queries: fact sets, navigations over relationships, and filters.

Some words have a meaning only inside a navigation. They are identifiers everywhere else, and are
told from other identifiers by their spelling.
-/

namespace XuleLang.Parser

/-- The options at the front of a fact set. -/
def factsetOptions : List TokenKind :=
  [.keyword .coveredKw, .keyword .coveredDimsKw, .keyword .nilsKw, .keyword .nonilsKw]

/-- Words that introduce a clause of a navigation. -/
def clauseWords : List String := ["role", "drs-role", "taxonomy", "cube"]

/-- Words that say in which form a navigation gives its results. -/
def formWords : List String := ["list", "set", "paths"]

/-- An operator of an aspect filter and what stands behind it: an expression or an asterisk. -/
def aspectCondition (l : Level) : Parser Unit := do
  bumpOperator
  within .aspectValue do
    if ← sees (.punctuator .times) then bump else l.expression

/-- An `as` and a variable. -/
def binding : Parser Unit :=
  within .bindAs do
    bump
    require .variableName .boundVariable

/-- An aspect behind one or two at signs, perhaps with properties, a condition and a variable. -/
def aspectFilter (l : Level) : Parser Unit :=
  within .aspectFilter do
    bump
    let _ ← eat (.punctuator .atSign)
    qualifiedName
    repeatWhile do
      if (← kind) == .punctuator .dot then
        bump
        propertyRef
        pure true
      else pure false
    let notIn ← seesNotIn
    let operator ← seesAny [.punctuator .assign, .punctuator .notEqual, .keyword .inKw]
    if operator || notIn then aspectCondition l
    if ← sees (.keyword .asKw) then binding

/-- Options, aspect filters, and a condition or a block, in braces or brackets. -/
def factset (l : Level) : Parser Unit :=
  within .factset do
    let closing : TokenKind :=
      if (← kind) == .punctuator .lbracket then .punctuator .rbracket else .punctuator .rbrace
    bump
    repeatWhile do
      let ahead ← seesAny factsetOptions
      if ahead then leafOf .factsetOption
      return ahead
    repeatWhile do
      let ahead ← sees (.punctuator .atSign)
      if ahead then aspectFilter l
      return ahead
    if ← sees (.keyword .whereKw) then whereClause l
    else
      let closed ← sees closing
      if !closed && (← kind) != .endOfInput then block l
    let _ ← expect closing

/-- Whether a name for the relationships to follow stands before the direction. -/
def seesArcrole : Parser Bool := do
  match ← kind with
  | .identifier => return (← kindAt 1) == .identifier
  | .url | .stringOpen => pure true
  | _ => pure false

/-- The relationships that a navigation follows. -/
def arcrole (l : Level) : Parser Unit :=
  within .navigationArcrole do
    if (← kind) == .stringOpen then stringLiteral l else bump

/-- The direction of a navigation. -/
def direction : Parser Unit :=
  within .navigationDirection do
    predict [.navigationDirection]
    require .identifier .navigationDirection

/-- An `include start`. -/
def includeClause : Parser Unit :=
  within .navigationClause do
    bump
    let _ ← expect (.keyword .startKw)

/-- A word and an expression. -/
def wordClause (l : Level) : Parser Unit :=
  within .navigationClause do
    bump
    l.expression

/-- A `stop when` and a condition. -/
def stopClause (l : Level) : Parser Unit :=
  within .navigationClause do
    bump
    if ← expect (.keyword .whenKw) then l.expression

/-- One more clause of a navigation, if there is one. -/
def clause (l : Level) : Parser Bool := do
  if ← seesAny [.keyword .fromKw, .keyword .toKw] then
    wordClause l
    pure true
  else if ← sees (.keyword .stopKw) then
    stopClause l
    pure true
  else if ← seesAnyWord clauseWords then
    wordClause l
    pure true
  else if ← sees (.keyword .whereKw) then
    whereClause l
    pure true
  else pure false

/-- A component of a result. -/
def returnOption : Parser Unit :=
  within .returnOption do
    predict [.returnOption]
    require .identifier .returnOption

/-- One more word on the form of the results, if there is one. The words `list`, `set` and `paths`
count only where an identifier or a parenthesis follows. -/
def formModifier : Parser Bool := do
  let byNetwork := (← isWordAt 0 "by") && (← isWordAt 1 "network")
  let formAhead := formWords.any ((← get).isWordAt 0)
  let following ← kindAt 1
  if byNetwork then
    bump
    bump
    pure true
  else if formAhead && (following == .identifier || following == .punctuator .lparen) then
    bump
    pure true
  else pure false

/-- What a navigation gives: the form, the components, and perhaps a shape. -/
def returnsClause : Parser Unit :=
  within .returnsClause do
    bump
    repeatWhile formModifier
    if ← eat (.punctuator .lparen) then
      commaSeparated returnOption
      let _ ← expect (.punctuator .rparen)
    else returnOption
    if ← eat (.keyword .asKw) then require .identifier .resultShape

/-- A walk along relationships. -/
def navigation (l : Level) : Parser Unit :=
  within .navigation do
    bump
    let _ ← eat (.keyword .dimensionsKw)
    predict [.navigationArcrole, .navigationDirection]
    if ← seesArcrole then arcrole l
    direction
    let _ ← eat .number
    if ← sees (.keyword .includeKw) then includeClause
    repeatWhile (clause l)
    if ← sees (.keyword .returnsKw) then returnsClause

/-- What a filter gives. -/
def filterReturns (l : Level) : Parser Unit :=
  within .filterReturns do
    bump
    l.expression

/-- A collection with a condition and a result. -/
def filter (l : Level) : Parser Unit :=
  within .filterExpression do
    bump
    l.expression
    if ← sees (.keyword .whereKw) then whereClause l
    if ← sees (.keyword .returnsKw) then filterReturns l

end XuleLang.Parser
