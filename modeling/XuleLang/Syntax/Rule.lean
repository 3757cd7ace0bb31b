/-!
Rules of the grammar: what a node of a syntax tree stands for.

The rules are listed in one order, `Rule.all`, in which candidates at a caret are offered.
-/

namespace XuleLang

/-- What a node of a syntax tree stands for. -/
inductive Rule where
  | file
  | assertDeclaration | outputDeclaration | assertionName
  | functionDeclaration | functionArguments | functionArgument
  | constantDeclaration | namespaceDeclaration | outputAttributeDeclaration
  | ruleNamePrefixDeclaration | ruleNameSeparatorDeclaration | outputAttribute
  | outputAttributeName
  | expressionBlock | assignment | assignedVariable
  | binaryExpression | unaryExpression | propertyAccess
  | propertyRef | callExpression | functionRef
  | argumentList | parenthesizedExpression | ifExpression
  | forExpression | forVariable | variableRead
  | qualifiedName | numberLiteral | stringLiteral
  | booleanLiteral | keywordLiteral
  | factset | factsetOption | aspectFilter
  | aspectValue | bindAs | whereClause
  | navigation | navigationArcrole | navigationDirection
  | navigationClause | returnsClause | returnOption
  | filterExpression | filterReturns
  /-- Tokens that were skipped to get back on track. -/
  | skipped
deriving DecidableEq, Repr, Inhabited

namespace Rule

/-- Every rule, in the order in which candidates are offered. -/
def all : List Rule :=
  [.file, .assertDeclaration, .outputDeclaration, .assertionName,
   .functionDeclaration, .functionArguments, .functionArgument, .constantDeclaration,
   .namespaceDeclaration, .outputAttributeDeclaration, .ruleNamePrefixDeclaration,
   .ruleNameSeparatorDeclaration,
   .outputAttribute, .outputAttributeName, .expressionBlock, .assignment,
   .assignedVariable, .binaryExpression, .unaryExpression, .propertyAccess,
   .propertyRef, .callExpression, .functionRef, .argumentList,
   .parenthesizedExpression, .ifExpression, .forExpression, .forVariable,
   .variableRead, .qualifiedName, .numberLiteral, .stringLiteral,
   .booleanLiteral, .keywordLiteral, .factset, .factsetOption,
   .aspectFilter, .aspectValue, .bindAs, .whereClause,
   .navigation, .navigationArcrole, .navigationDirection, .navigationClause,
   .returnsClause, .returnOption, .filterExpression, .filterReturns,
   .skipped]

/-- The name under which a tree listing shows it. -/
def label : Rule → String
  | .file => "xuleFile"
  | .assertDeclaration => "assertDeclaration"
  | .outputDeclaration => "outputDeclaration"
  | .assertionName => "assertionName"
  | .functionDeclaration => "functionDeclaration"
  | .functionArguments => "functionArguments"
  | .functionArgument => "functionArgument"
  | .constantDeclaration => "constantDeclaration"
  | .namespaceDeclaration => "namespaceDeclaration"
  | .outputAttributeDeclaration => "outputAttributeDeclaration"
  | .ruleNamePrefixDeclaration => "ruleNamePrefix"
  | .ruleNameSeparatorDeclaration => "ruleNameSeparator"
  | .outputAttribute => "outputAttribute"
  | .outputAttributeName => "outputAttributeName"
  | .expressionBlock => "expressionBlock"
  | .assignment => "assignment"
  | .assignedVariable => "assignedVariable"
  | .binaryExpression => "binaryExpression"
  | .unaryExpression => "unaryExpression"
  | .propertyAccess => "propertyAccess"
  | .propertyRef => "propertyRef"
  | .callExpression => "callExpression"
  | .functionRef => "functionRef"
  | .argumentList => "argumentList"
  | .parenthesizedExpression => "parenthesizedExpression"
  | .ifExpression => "ifExpression"
  | .forExpression => "forExpression"
  | .forVariable => "forVariable"
  | .variableRead => "variableRead"
  | .qualifiedName => "qualifiedName"
  | .numberLiteral => "numberLiteral"
  | .stringLiteral => "stringLiteral"
  | .booleanLiteral => "booleanLiteral"
  | .keywordLiteral => "keywordLiteral"
  | .factset => "factset"
  | .factsetOption => "factsetOption"
  | .aspectFilter => "aspectFilter"
  | .aspectValue => "aspectValue"
  | .bindAs => "bindAs"
  | .whereClause => "whereClause"
  | .navigation => "navigation"
  | .navigationArcrole => "navigationArcrole"
  | .navigationDirection => "navigationDirection"
  | .navigationClause => "navigationClause"
  | .returnsClause => "returnsClause"
  | .returnOption => "returnOption"
  | .filterExpression => "filterExpression"
  | .filterReturns => "filterReturns"
  | .skipped => "error"

/-- The rule that a tree listing shows under a name. -/
def ofLabel? (name : String) : Option Rule :=
  all.find? (·.label == name)

end Rule

end XuleLang
