import XuleLang.Parser.Expression

/-!
Declarations, and files of them.

A file is a sequence of declarations. What is no declaration is skipped up to the next word that
begins one. The token for the end of the text closes the file.
-/

namespace XuleLang.Parser

/-- The words that begin a declaration. -/
def declarationStarts : List TokenKind :=
  [.keyword .assertKw, .keyword .outputKw, .keyword .functionKw, .keyword .constantKw,
   .keyword .namespaceKw, .keyword .outputAttributeKw, .keyword .ruleNamePrefixKw,
   .keyword .ruleNameSeparatorKw]

/-- One more part of a rule's name, behind a point. -/
def ruleNamePart : Parser Bool := do
  let following ← kindAt 1
  if (← kind) == .punctuator .dot && (following == .identifier || following == .number) then
    bump
    bump
    pure true
  else pure false

/-- The name of a rule: names and numbers with points between them. -/
def ruleName : Parser Unit :=
  within .assertionName do
    let named ← seesName
    let ahead ← if named then pure true else sees .number
    if ahead then
      bump
      repeatWhile ruleNamePart
    else complainWanted .ruleName

/-- A name and a value that an assertion or output gives besides its result. -/
def outputAttribute (l : Level) : Parser Bool := do
  predict [.outputAttributeName]
  if ← sees .identifier then
    within .outputAttribute do
      leafOf .outputAttributeName
      l.expression
    pure true
  else pure false

/-- What follows the name of an assertion or output. -/
def ruleBody (l : Level) : Parser Unit := do
  block l
  repeatWhile (outputAttribute l)

/-- An `assert`, a name, perhaps a word on when it holds, a block and attributes. -/
def assertion (l : Level) : Parser Unit :=
  within .assertDeclaration do
    bump
    ruleName
    if ← seesAny [.keyword .satisfiedKw, .keyword .unsatisfiedKw] then bump
    ruleBody l

/-- An `output`, a name, a block and attributes. -/
def output (l : Level) : Parser Unit :=
  within .outputDeclaration do
    bump
    ruleName
    ruleBody l

/-- A variable that stands for an argument. -/
def functionArgument : Parser Unit :=
  within .functionArgument (require .variableName .argumentVariable)

/-- Variables in parentheses. -/
def functionArguments : Parser Unit :=
  within .functionArguments do
    if ← expect (.punctuator .lparen) then
      if !(← sees (.punctuator .rparen)) then commaSeparated functionArgument
      let _ ← expect (.punctuator .rparen)

/-- A `function`, a name, arguments and a block. -/
def function (l : Level) : Parser Unit :=
  within .functionDeclaration do
    bump
    require .identifier .functionName
    functionArguments
    block l

/-- A `constant`, a variable and its value. -/
def constant (l : Level) : Parser Unit :=
  within .constantDeclaration do
    bump
    require .variableName .constantName
    if ← expect (.punctuator .assign) then block l

/-- A `namespace`, perhaps a name with an equals sign, and a URI. -/
def namespaceDeclaration (l : Level) : Parser Unit :=
  within .namespaceDeclaration do
    bump
    let named ← sees .identifier
    if named && (← kindAt 1) == .punctuator .assign then
      bump
      bump
    if ← sees .url then bump
    else if ← sees .stringOpen then stringLiteral l
    else complainWanted .namespaceUri

/-- A word and a name. -/
def nameDeclaration (r : Rule) : Parser Unit :=
  within r do
    bump
    require .identifier .declaredName

/-- A `rule-name-separator` and a string literal. -/
def separatorDeclaration (l : Level) : Parser Unit :=
  within .ruleNameSeparatorDeclaration do
    bump
    if ← sees .stringOpen then stringLiteral l else complainWanted .separatorString

/-- The declaration that a word begins; any other token is complained of, and skipped with those
behind it. -/
def declaration (l : Level) : Parser Unit := do
  match ← kind with
  | .keyword .assertKw => assertion l
  | .keyword .outputKw => output l
  | .keyword .functionKw => function l
  | .keyword .constantKw => constant l
  | .keyword .namespaceKw => namespaceDeclaration l
  | .keyword .outputAttributeKw => nameDeclaration .outputAttributeDeclaration
  | .keyword .ruleNamePrefixKw => nameDeclaration .ruleNamePrefixDeclaration
  | .keyword .ruleNameSeparatorKw => separatorDeclaration l
  | other =>
    complain (.expected .declaration other)
    skipTo declarationStarts

/-- One more declaration, unless the text ends. -/
def nextDeclaration (l : Level) : Parser Bool := do
  let _ ← seesAny declarationStarts
  if ← sees .endOfInput then pure false
  else
    declaration l
    pure true

/-- A whole file. -/
def file (l : Level) : Parser Unit :=
  within .file do
    repeatWhile (nextDeclaration l)
    bump

end XuleLang.Parser
