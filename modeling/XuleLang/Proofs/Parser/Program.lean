import XuleLang.Syntax.Parse

/-!
The parser as a program that keeps books.

Nodes are opened and closed here one action at a time, and two books are kept beside the tree: a
stack of the rules of the open nodes, which is what a probe is told of, and a count of the
expressions that have been entered and not left, which is what bounds their nesting. Nothing but the
text of a program ties an opening to its closing, or an entering to its leaving, also where a
program returns early because nothing may be entered any more.

A `Program` is the tree of its actions, so that besides where it leads (`run`) one can ask for every
action on the way and the books at that moment (`steps`). There is one program for each construct of
the grammar. Three of them may be entered again from inside, and each time they are the number of
`calls` that they may make on the way down goes down.
-/

namespace XuleLang

/-- A parser's state with the books beside the tree. -/
structure Ledger extends ParserState where
  /-- The rules of the nodes that were opened and not closed, the latest first. -/
  ruleStack : List Rule
  /-- How many expressions were entered and not left. -/
  depth : Nat

namespace Ledger

/-- The books for a state. -/
def of (s : ParserState) (depth : Nat) : Ledger := ⟨s, s.rules, depth⟩

/-- Whether a probe is to be told of what is asked for. -/
def isAtCaret (m : Ledger) : Bool := m.probe.any fun p => !p.done && p.caret == m.consumed

/-- Tells a probe at the caret of kinds, of the rules on the stack and of further rules. -/
def note (m : Ledger) (kinds : List TokenKind) (rules : List Rule) : Ledger :=
  if m.isAtCaret then { m with probe := m.probe.map (·.note kinds (m.ruleStack ++ rules)) } else m

end Ledger

/-- A node is opened, and no probe is told. -/
def ParserState.openNode (s : ParserState) (r : Rule) : ParserState :=
  { s with frames := ⟨s.nextId, r, []⟩ :: s.frames, nextId := s.nextId + 1 }

/-- A node is opened around the latest child, and no probe is told. -/
def ParserState.wrapNode (s : ParserState) (r : Rule) : ParserState :=
  match s.frames with
  | [] => s.openNode r
  | f :: outer =>
    match f.children with
    | [] => s.openNode r
    | c :: children =>
      { s with
        frames := ⟨s.nextId, r, [c]⟩ :: { f with children := children } :: outer
        nextId := s.nextId + 1 }

/-- What a program does at a time. -/
inductive Action where
  | note (kinds : List TokenKind) (rules : List Rule)
  | bump
  | complain (c : Complaint)
  | overrun
  | start (r : Rule)
  | wrap (r : Rule)
  | finish
  | enter
  | leave

/-- The ledger after an action. -/
def Action.perform : Action → Ledger → Ledger
  | note kinds rules, m => m.note kinds rules
  | bump, m => { m with toParserState := m.toParserState.bump }
  | complain c, m => { m with toParserState := m.toParserState.complain c }
  | overrun, m => { m with toParserState := m.toParserState.overrun }
  | start r, m =>
    { m with toParserState := m.toParserState.openNode r, ruleStack := r :: m.ruleStack }
  | wrap r, m =>
    { m with toParserState := m.toParserState.wrapNode r, ruleStack := r :: m.ruleStack }
  | finish, m => { m with toParserState := m.toParserState.finish, ruleStack := m.ruleStack.tail }
  | enter, m => { m with depth := m.depth + 1 }
  | leave, m => { m with depth := m.depth - 1 }

/-- A program that looks at the ledger and acts on it. -/
inductive Program (α : Type) where
  | done (a : α)
  | look (next : Ledger → Program α)
  | act (a : Action) (next : Program α)

namespace Program

variable {α β : Type}

def bind : Program α → (α → Program β) → Program β
  | done a, f => f a
  | look next, f => look fun m => (next m).bind f
  | act a next, f => act a (next.bind f)

instance : Monad Program where
  pure := done
  bind := bind

/-- What a program answers, and the ledger then. -/
def run : Program α → Ledger → α × Ledger
  | done a, m => (a, m)
  | look next, m => (next m).run m
  | act a next, m => next.run (a.perform m)

/-- The actions of a program, each with the ledger before it. -/
def steps : Program α → Ledger → List (Action × Ledger)
  | done _, _ => []
  | look next, m => (next m).steps m
  | act a next, m => (a, m) :: next.steps (a.perform m)

/-! ## Actions and questions -/

def perform (a : Action) : Program Unit := act a (done ())

def asks (f : Ledger → α) : Program α := look fun m => done (f m)

def bump : Program Unit := perform .bump

def complain (c : Complaint) : Program Unit := perform (.complain c)

def overrun : Program Unit := perform .overrun

def predict (rules : List Rule) : Program Unit := perform (.note [] rules)

/-- Opens a node, and tells of it. -/
def start (r : Rule) : Program Unit := do
  perform (.start r)
  perform (.note [] [])

/-- Opens a node around the latest child, and tells of it. -/
def wrap (r : Rule) : Program Unit := do
  perform (.wrap r)
  perform (.note [] [])

def finish : Program Unit := perform .finish

def leave : Program Unit := perform .leave

def kind : Program TokenKind := asks (·.kind)

def kindAt (n : Nat) : Program TokenKind := asks (·.kindAt n)

def isWordAt (n : Nat) (word : String) : Program Bool := asks (·.isWordAt n word)

def sees (k : TokenKind) : Program Bool := do
  perform (.note (if k.isPunctuation then [] else [k]) [])
  return (← kind) == k

def seesAny : List TokenKind → Program Bool
  | [] => pure false
  | k :: ks => do
    let first ← sees k
    let others ← seesAny ks
    return first || others

def seesName : Program Bool := do
  let identifier ← sees .identifier
  return identifier || (← kind).isKeyword

def seesWord (word : String) : Program Bool := do
  let _ ← sees .identifier
  isWordAt 0 word

def seesAnyWord : List String → Program Bool
  | [] => pure false
  | word :: words => do
    let first ← seesWord word
    if first then pure true else seesAnyWord words

def eat (k : TokenKind) : Program Bool := do
  if ← sees k then
    bump
    pure true
  else pure false

def complainWanted (w : Wanted) : Program Unit := do
  complain (.expected w (← kind))

def expect (k : TokenKind) : Program Bool := do
  let found ← eat k
  if !found then complainWanted (.token k)
  return found

def require (k : TokenKind) (w : Wanted) : Program Unit := do
  if ← sees k then bump else complainWanted w

def requireName (w : Wanted) : Program Unit := do
  if ← seesName then bump else complainWanted w

/-! ## Repetition -/

def repeatUpTo : Nat → Program Bool → Program Unit
  | 0, _ => overrun
  | n + 1, step => do
    if ← step then repeatUpTo n step

def repeatWhile (step : Program Bool) : Program Unit := do
  repeatUpTo ((← asks (·.rest.length)) + 1) step

def commaSeparated (item : Program Unit) : Program Unit :=
  repeatWhile do
    item
    eat (.punctuator .comma)

def skipTo (kinds : List TokenKind) : Program Unit := do
  start .skipped
  repeatWhile do
    let k ← kind
    if k == .endOfInput || kinds.contains k then pure false
    else
      bump
      pure true
  finish

/-! ## Nesting -/

def leafOf (r : Rule) : Program Unit := do
  start r
  bump
  finish

def tooDeep : Program Unit := do
  complain .tooDeepExpression
  if (← kind) != .endOfInput then leafOf .skipped

/-- Counts one more expression, unless the bound is reached: then a token is complained of and
skipped, and nothing is entered. -/
def enter : Program Bool := do
  if Parser.maxDepth ≤ (← asks (·.depth)) then
    tooDeep
    return false
  else
    perform .enter
    return true

/-- The programs that may be entered again from inside. -/
structure Calls where
  expression : Program Unit
  /-- A `not` and what stands behind it. -/
  negation : Program Unit
  /-- A sign and what stands behind it. -/
  signed : Program Unit

/-- A `not` or a sign, and what stands behind it. -/
def prefixed (operand : Program Unit) : Program Unit := do
  if ← enter then
    start .unaryExpression
    bump
    operand
    finish
    leave

/-! ## Blocks and names -/

def seesAssignment : Program Bool := do
  predict [.assignedVariable]
  let variableAhead ← sees .variableName
  return variableAhead && (← kindAt 1) == .punctuator .assign

def assignment (value : Program Unit) : Program Unit := do
  start .assignment
  leafOf .assignedVariable
  bump
  value
  let _ ← expect (.punctuator .semicolon)
  finish

def blockUpTo (c : Calls) : Nat → Program Unit
  | 0 => overrun
  | fuel + 1 => do
    start .expressionBlock
    repeatWhile do
      let ahead ← seesAssignment
      if ahead then assignment (blockUpTo c fuel)
      return ahead
    c.expression
    finish

def block (c : Calls) : Program Unit := do
  blockUpTo c ((← asks (·.rest.length)) + 1)

def qualifiedName : Program Unit := do
  start .qualifiedName
  requireName .qualifiedName
  if ← eat (.punctuator .colon) then requireName .localName
  finish

def propertyRef : Program Unit := do
  start .propertyRef
  requireName .propertyName
  finish

def stringPart (c : Calls) : Program Bool := do
  match ← kind with
  | .stringContent =>
    bump
    pure true
  | .punctuator .lbrace =>
    bump
    block c
    let _ ← expect (.punctuator .rbrace)
    pure true
  | .stringClose =>
    bump
    pure false
  | _ =>
    complain .unterminatedString
    pure false

def stringLiteral (c : Calls) : Program Unit := do
  start .stringLiteral
  bump
  repeatWhile (stringPart c)
  finish

def argumentList (c : Calls) : Program Unit := do
  start .argumentList
  if ← expect (.punctuator .lparen) then
    if !(← sees (.punctuator .rparen)) then commaSeparated (block c)
    let _ ← expect (.punctuator .rparen)
  finish

def whereClause (c : Calls) : Program Unit := do
  start .whereClause
  bump
  block c
  finish

def seesNotIn : Program Bool := do
  return (← kind) == .keyword .notKw && (← kindAt 1) == .keyword .inKw

def bumpOperator : Program Unit := do
  if ← seesNotIn then bump
  bump

/-! ## Queries -/

def aspectCondition (c : Calls) : Program Unit := do
  bumpOperator
  start .aspectValue
  if ← sees (.punctuator .times) then bump else c.expression
  finish

def binding : Program Unit := do
  start .bindAs
  bump
  require .variableName .boundVariable
  finish

def aspectProperty : Program Bool := do
  if (← kind) == .punctuator .dot then
    bump
    propertyRef
    pure true
  else pure false

def aspectFilter (c : Calls) : Program Unit := do
  start .aspectFilter
  bump
  let _ ← eat (.punctuator .atSign)
  qualifiedName
  repeatWhile aspectProperty
  let notIn ← seesNotIn
  let operator ← seesAny [.punctuator .assign, .punctuator .notEqual, .keyword .inKw]
  if operator || notIn then aspectCondition c
  if ← sees (.keyword .asKw) then binding
  finish

def factset (c : Calls) : Program Unit := do
  start .factset
  let closing : TokenKind :=
    if (← kind) == .punctuator .lbracket then .punctuator .rbracket else .punctuator .rbrace
  bump
  repeatWhile do
    let ahead ← seesAny Parser.factsetOptions
    if ahead then leafOf .factsetOption
    return ahead
  repeatWhile do
    let ahead ← sees (.punctuator .atSign)
    if ahead then aspectFilter c
    return ahead
  if ← sees (.keyword .whereKw) then whereClause c
  else
    let closed ← sees closing
    if !closed && (← kind) != .endOfInput then block c
  let _ ← expect closing
  finish

def seesArcrole : Program Bool := do
  match ← kind with
  | .identifier => return (← kindAt 1) == .identifier
  | .url | .stringOpen => pure true
  | _ => pure false

def arcrole (c : Calls) : Program Unit := do
  start .navigationArcrole
  if (← kind) == .stringOpen then stringLiteral c else bump
  finish

def direction : Program Unit := do
  start .navigationDirection
  predict [.navigationDirection]
  require .identifier .navigationDirection
  finish

def includeClause : Program Unit := do
  start .navigationClause
  bump
  let _ ← expect (.keyword .startKw)
  finish

def wordClause (c : Calls) : Program Unit := do
  start .navigationClause
  bump
  c.expression
  finish

def stopClause (c : Calls) : Program Unit := do
  start .navigationClause
  bump
  if ← expect (.keyword .whenKw) then c.expression
  finish

def clause (c : Calls) : Program Bool := do
  if ← seesAny [.keyword .fromKw, .keyword .toKw] then
    wordClause c
    pure true
  else if ← sees (.keyword .stopKw) then
    stopClause c
    pure true
  else if ← seesAnyWord Parser.clauseWords then
    wordClause c
    pure true
  else if ← sees (.keyword .whereKw) then
    whereClause c
    pure true
  else pure false

def returnOption : Program Unit := do
  start .returnOption
  predict [.returnOption]
  require .identifier .returnOption
  finish

def formModifier : Program Bool := do
  let byNetwork := (← isWordAt 0 "by") && (← isWordAt 1 "network")
  let formAhead ← asks fun m => Parser.formWords.any (m.isWordAt 0)
  let following ← kindAt 1
  if byNetwork then
    bump
    bump
    pure true
  else if formAhead && (following == .identifier || following == .punctuator .lparen) then
    bump
    pure true
  else pure false

def returnsClause : Program Unit := do
  start .returnsClause
  bump
  repeatWhile formModifier
  if ← eat (.punctuator .lparen) then
    commaSeparated returnOption
    let _ ← expect (.punctuator .rparen)
  else returnOption
  if ← eat (.keyword .asKw) then require .identifier .resultShape
  finish

def navigation (c : Calls) : Program Unit := do
  start .navigation
  bump
  let _ ← eat (.keyword .dimensionsKw)
  predict [.navigationArcrole, .navigationDirection]
  if ← seesArcrole then arcrole c
  direction
  let _ ← eat .number
  if ← sees (.keyword .includeKw) then includeClause
  repeatWhile (clause c)
  if ← sees (.keyword .returnsKw) then returnsClause
  finish

def filterReturns (c : Calls) : Program Unit := do
  start .filterReturns
  bump
  c.expression
  finish

def filter (c : Calls) : Program Unit := do
  start .filterExpression
  bump
  c.expression
  if ← sees (.keyword .whereKw) then whereClause c
  if ← sees (.keyword .returnsKw) then filterReturns c
  finish

/-! ## Expressions -/

def call (c : Calls) : Program Unit := do
  start .callExpression
  leafOf .functionRef
  argumentList c
  finish

def nameOrCall (c : Calls) : Program Unit := do
  qualifiedName
  if (← kind) == .punctuator .lparen then
    wrap .callExpression
    argumentList c
    finish

def parenthesized (c : Calls) : Program Unit := do
  start .parenthesizedExpression
  bump
  block c
  let _ ← expect (.punctuator .rparen)
  finish

def conditional (c : Calls) : Program Unit := do
  start .ifExpression
  bump
  c.expression
  block c
  if ← expect (.keyword .elseKw) then block c
  finish

def loopVariable : Program Unit := do
  start .forVariable
  require .variableName .loopVariable
  finish

def loop (c : Calls) : Program Unit := do
  start .forExpression
  bump
  let parenthesis ← eat (.punctuator .lparen)
  loopVariable
  if ← expect (.keyword .inKw) then c.expression
  if parenthesis then
    let _ ← expect (.punctuator .rparen)
  block c
  finish

def primary (c : Calls) : Program Unit := do
  predict [.variableRead, .qualifiedName, .booleanLiteral, .callExpression]
  let _ ← seesAny Parser.operandKinds
  let _ ← seesAny Parser.operandKeywords
  let called := (← kindAt 1) == .punctuator .lparen
  match ← kind with
  | .number => leafOf .numberLiteral
  | .stringOpen => stringLiteral c
  | .keyword .trueKw | .keyword .falseKw => leafOf .booleanLiteral
  | .keyword .noneKw | .keyword .skipKw => leafOf .keywordLiteral
  | .variableName => if called then call c else leafOf .variableRead
  | .identifier => if called then call c else nameOrCall c
  | .punctuator .lparen => parenthesized c
  | .keyword .ifKw => conditional c
  | .keyword .forKw => loop c
  | .punctuator .lbrace | .punctuator .lbracket => factset c
  | .keyword .navigateKw => navigation c
  | .keyword .filterKw => filter c
  | other => complain (.expected .expression other)

def propertyAccess (c : Calls) : Program Bool := do
  if ← sees (.punctuator .dot) then
    wrap .propertyAccess
    bump
    propertyRef
    if ← sees (.punctuator .lparen) then argumentList c
    finish
    pure true
  else pure false

def access (c : Calls) : Program Unit := do
  primary c
  repeatWhile (propertyAccess c)

def signedOperand (c : Calls) : Program Unit := do
  if ← seesAny Parser.signs then c.signed else access c

def rightOperand (seesOperator : Program Bool) (operand : Program Unit) : Program Bool := do
  if ← seesOperator then
    wrap .binaryExpression
    bumpOperator
    operand
    finish
    pure true
  else pure false

def operands (seesOperator : Program Bool) (operand : Program Unit) : Program Unit := do
  operand
  repeatWhile (rightOperand seesOperator operand)

def multiplicative (c : Calls) : Program Unit :=
  operands (seesAny Parser.multiplicativeOperators) (signedOperand c)

def additive (c : Calls) : Program Unit :=
  operands (seesAny Parser.additiveOperators) (multiplicative c)

def seesComparison : Program Bool := do
  let notIn ← seesNotIn
  let operator ← seesAny Parser.comparisonOperators
  return operator || notIn

def comparison (c : Calls) : Program Unit := operands seesComparison (additive c)

def negatable (c : Calls) : Program Unit := do
  let notAhead ← sees (.keyword .notKw)
  if notAhead && (← kindAt 1) != .keyword .inKw then c.negation else comparison c

def conjunction (c : Calls) : Program Unit := operands (sees (.keyword .andKw)) (negatable c)

def disjunction (c : Calls) : Program Unit := operands (sees (.keyword .orKw)) (conjunction c)

def expression (c : Calls) : Program Unit := do
  if ← enter then
    disjunction c
    leave

/-- The programs that may make so many calls on the way down. -/
def calls : Nat → Calls
  | 0 => ⟨overrun, overrun, overrun⟩
  | n + 1 =>
    ⟨expression (calls n), prefixed (negatable (calls n)), prefixed (signedOperand (calls n))⟩

/-! ## Declarations -/

def ruleNamePart : Program Bool := do
  let following ← kindAt 1
  if (← kind) == .punctuator .dot && (following == .identifier || following == .number) then
    bump
    bump
    pure true
  else pure false

def ruleName : Program Unit := do
  start .assertionName
  let named ← seesName
  let ahead ← if named then pure true else sees .number
  if ahead then
    bump
    repeatWhile ruleNamePart
  else complainWanted .ruleName
  finish

def outputAttribute (c : Calls) : Program Bool := do
  predict [.outputAttributeName]
  if ← sees .identifier then
    start .outputAttribute
    leafOf .outputAttributeName
    c.expression
    finish
    pure true
  else pure false

def outputAttributes (c : Calls) : Program Unit := repeatWhile (outputAttribute c)

def assertion (c : Calls) : Program Unit := do
  start .assertDeclaration
  bump
  ruleName
  if ← seesAny [.keyword .satisfiedKw, .keyword .unsatisfiedKw] then bump
  block c
  outputAttributes c
  finish

def output (c : Calls) : Program Unit := do
  start .outputDeclaration
  bump
  ruleName
  block c
  outputAttributes c
  finish

def functionArgument : Program Unit := do
  start .functionArgument
  require .variableName .argumentVariable
  finish

def functionArguments : Program Unit := do
  start .functionArguments
  if ← expect (.punctuator .lparen) then
    if !(← sees (.punctuator .rparen)) then commaSeparated functionArgument
    let _ ← expect (.punctuator .rparen)
  finish

def function (c : Calls) : Program Unit := do
  start .functionDeclaration
  bump
  require .identifier .functionName
  functionArguments
  block c
  finish

def constant (c : Calls) : Program Unit := do
  start .constantDeclaration
  bump
  require .variableName .constantName
  if ← expect (.punctuator .assign) then block c
  finish

def namespaceDeclaration (c : Calls) : Program Unit := do
  start .namespaceDeclaration
  bump
  let named ← sees .identifier
  if named && (← kindAt 1) == .punctuator .assign then
    bump
    bump
  if ← sees .url then bump
  else if ← sees .stringOpen then stringLiteral c
  else complainWanted .namespaceUri
  finish

def nameDeclaration (r : Rule) : Program Unit := do
  start r
  bump
  require .identifier .declaredName
  finish

def separatorDeclaration (c : Calls) : Program Unit := do
  start .ruleNameSeparatorDeclaration
  bump
  if ← sees .stringOpen then stringLiteral c else complainWanted .separatorString
  finish

def declaration (c : Calls) : Program Unit := do
  match ← kind with
  | .keyword .assertKw => assertion c
  | .keyword .outputKw => output c
  | .keyword .functionKw => function c
  | .keyword .constantKw => constant c
  | .keyword .namespaceKw => namespaceDeclaration c
  | .keyword .outputAttributeKw => nameDeclaration .outputAttributeDeclaration
  | .keyword .ruleNamePrefixKw => nameDeclaration .ruleNamePrefixDeclaration
  | .keyword .ruleNameSeparatorKw => separatorDeclaration c
  | other =>
    complain (.expected .declaration other)
    skipTo Parser.declarationStarts

def nextDeclaration (c : Calls) : Program Bool := do
  let _ ← seesAny Parser.declarationStarts
  if ← sees .endOfInput then pure false
  else
    declaration c
    pure true

def file (c : Calls) : Program Unit := do
  start .file
  repeatWhile (nextDeclaration c)
  bump
  finish

end Program

end XuleLang
