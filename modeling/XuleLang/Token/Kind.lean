/-!
Kinds of tokens.

The language has 28 punctuators and operators and 37 reserved words, each with one spelling, and
ten further kinds whose text varies. The kinds are listed in one order, `TokenKind.all`, in which
candidates at a caret are offered.
-/

namespace XuleLang

/-- Punctuation and operators. -/
inductive Punctuator where
  | lparen | rparen | lbracket | rbracket | lbrace | rbrace | comma
  | semicolon | colon | dot | atSign | assign | equal | notEqual
  | less | greater | lessEq | greaterEq | plus | minus | times
  | divide | addBoth | addLeft | addRight | subBoth | subLeft | subRight
deriving DecidableEq, Repr, Inhabited

/-- Reserved words. A hyphen is part of the word. -/
inductive Keyword where
  | assertKw | outputKw | functionKw | constantKw | namespaceKw
  | outputAttributeKw | ruleNamePrefixKw | ruleNameSeparatorKw | satisfiedKw | unsatisfiedKw
  | ifKw | elseKw | forKw | inKw | notKw
  | andKw | orKw | trueKw | falseKw | noneKw
  | skipKw | navigateKw | includeKw | startKw | fromKw
  | toKw | stopKw | whenKw | returnsKw | whereKw
  | coveredKw | coveredDimsKw | nilsKw | nonilsKw | asKw
  | filterKw | dimensionsKw
deriving DecidableEq, Repr, Inhabited

/-- What a token is. -/
inductive TokenKind where
  | punctuator (p : Punctuator)
  | keyword (k : Keyword)
  | identifier
  /-- A name with a dollar sign before it. -/
  | variableName
  | number
  | url
  | stringOpen
  /-- Text between quotes and interpolations. -/
  | stringContent
  | stringClose
  | whitespace
  | comment
  | endOfInput
deriving DecidableEq, Repr, Inhabited

namespace Punctuator

/-- The punctuators in the order in which they are listed. -/
def all : List Punctuator :=
  [.lparen, .rparen, .lbracket, .rbracket, .lbrace, .rbrace, .comma,
   .semicolon, .colon, .dot, .atSign, .assign, .equal, .notEqual,
   .less, .greater, .lessEq, .greaterEq, .plus, .minus, .times,
   .divide, .addBoth, .addLeft, .addRight, .subBoth, .subLeft, .subRight]

/-- How it is written. -/
def spelling : Punctuator → String
  | .lparen => "("
  | .rparen => ")"
  | .lbracket => "["
  | .rbracket => "]"
  | .lbrace => "\x7b"
  | .rbrace => "\x7d"
  | .comma => ","
  | .semicolon => ";"
  | .colon => ":"
  | .dot => "."
  | .atSign => "@"
  | .assign => "="
  | .equal => "=="
  | .notEqual => "!="
  | .less => "<"
  | .greater => ">"
  | .lessEq => "<="
  | .greaterEq => ">="
  | .plus => "+"
  | .minus => "-"
  | .times => "*"
  | .divide => "/"
  | .addBoth => "<+>"
  | .addLeft => "<+"
  | .addRight => "+>"
  | .subBoth => "<->"
  | .subLeft => "<-"
  | .subRight => "->"

/-- The name under which a tree listing shows it. -/
def label : Punctuator → String
  | .lparen => "LParen"
  | .rparen => "RParen"
  | .lbracket => "LBracket"
  | .rbracket => "RBracket"
  | .lbrace => "LBrace"
  | .rbrace => "RBrace"
  | .comma => "Comma"
  | .semicolon => "Semicolon"
  | .colon => "Colon"
  | .dot => "Dot"
  | .atSign => "At"
  | .assign => "Assign"
  | .equal => "Eq"
  | .notEqual => "Ne"
  | .less => "Lt"
  | .greater => "Gt"
  | .lessEq => "Le"
  | .greaterEq => "Ge"
  | .plus => "Add"
  | .minus => "Sub"
  | .times => "Mul"
  | .divide => "Div"
  | .addBoth => "AddBoth"
  | .addLeft => "AddLeft"
  | .addRight => "AddRight"
  | .subBoth => "SubBoth"
  | .subLeft => "SubLeft"
  | .subRight => "SubRight"

end Punctuator

namespace Keyword

/-- The reserved words in the order in which they are listed. -/
def all : List Keyword :=
  [.assertKw, .outputKw, .functionKw, .constantKw, .namespaceKw,
   .outputAttributeKw, .ruleNamePrefixKw, .ruleNameSeparatorKw, .satisfiedKw, .unsatisfiedKw,
   .ifKw, .elseKw, .forKw, .inKw, .notKw,
   .andKw, .orKw, .trueKw, .falseKw, .noneKw,
   .skipKw, .navigateKw, .includeKw, .startKw, .fromKw,
   .toKw, .stopKw, .whenKw, .returnsKw, .whereKw,
   .coveredKw, .coveredDimsKw, .nilsKw, .nonilsKw, .asKw,
   .filterKw, .dimensionsKw]

/-- How it is written. -/
def spelling : Keyword → String
  | .assertKw => "assert"
  | .outputKw => "output"
  | .functionKw => "function"
  | .constantKw => "constant"
  | .namespaceKw => "namespace"
  | .outputAttributeKw => "output-attribute"
  | .ruleNamePrefixKw => "rule-name-prefix"
  | .ruleNameSeparatorKw => "rule-name-separator"
  | .satisfiedKw => "satisfied"
  | .unsatisfiedKw => "unsatisfied"
  | .ifKw => "if"
  | .elseKw => "else"
  | .forKw => "for"
  | .inKw => "in"
  | .notKw => "not"
  | .andKw => "and"
  | .orKw => "or"
  | .trueKw => "true"
  | .falseKw => "false"
  | .noneKw => "none"
  | .skipKw => "skip"
  | .navigateKw => "navigate"
  | .includeKw => "include"
  | .startKw => "start"
  | .fromKw => "from"
  | .toKw => "to"
  | .stopKw => "stop"
  | .whenKw => "when"
  | .returnsKw => "returns"
  | .whereKw => "where"
  | .coveredKw => "covered"
  | .coveredDimsKw => "covered-dims"
  | .nilsKw => "nils"
  | .nonilsKw => "nonils"
  | .asKw => "as"
  | .filterKw => "filter"
  | .dimensionsKw => "dimensions"

/-- The name under which a tree listing shows it. -/
def label : Keyword → String
  | .assertKw => "Assert"
  | .outputKw => "Output"
  | .functionKw => "Function"
  | .constantKw => "Constant"
  | .namespaceKw => "Namespace"
  | .outputAttributeKw => "OutputAttribute"
  | .ruleNamePrefixKw => "RuleNamePrefix"
  | .ruleNameSeparatorKw => "RuleNameSeparator"
  | .satisfiedKw => "Satisfied"
  | .unsatisfiedKw => "Unsatisfied"
  | .ifKw => "If"
  | .elseKw => "Else"
  | .forKw => "For"
  | .inKw => "In"
  | .notKw => "Not"
  | .andKw => "And"
  | .orKw => "Or"
  | .trueKw => "True"
  | .falseKw => "False"
  | .noneKw => "NoneValue"
  | .skipKw => "Skip"
  | .navigateKw => "Navigate"
  | .includeKw => "Include"
  | .startKw => "Start"
  | .fromKw => "From"
  | .toKw => "To"
  | .stopKw => "Stop"
  | .whenKw => "When"
  | .returnsKw => "Returns"
  | .whereKw => "Where"
  | .coveredKw => "Covered"
  | .coveredDimsKw => "CoveredDims"
  | .nilsKw => "Nils"
  | .nonilsKw => "Nonils"
  | .asKw => "As"
  | .filterKw => "Filter"
  | .dimensionsKw => "Dimensions"

/-- The reserved word that is spelled so, if there is one. -/
def ofSpelling? (word : String) : Option Keyword :=
  all.find? (·.spelling == word)

end Keyword

namespace TokenKind

/-- Every kind, in the order in which candidates are offered. -/
def all : List TokenKind :=
  Punctuator.all.map punctuator ++ Keyword.all.map keyword ++
    [identifier, variableName, number, url, stringOpen, stringContent, stringClose, whitespace,
     comment, endOfInput]

/-- The spelling of a reserved word. -/
def keywordText? : TokenKind → Option String
  | keyword k => some k.spelling
  | _ => none

/-- Reserved words. -/
def isKeyword : TokenKind → Bool
  | keyword _ => true
  | _ => false

/-- Kinds that never make sense as something to insert: punctuators, quotes and the end. -/
def isPunctuation : TokenKind → Bool
  | punctuator _ | stringOpen | stringClose | endOfInput => true
  | _ => false

/-- Kinds whose text reads as a name: identifiers, variables and reserved words. -/
def isIdentifierLike : TokenKind → Bool
  | identifier | variableName | keyword _ => true
  | _ => false

/-- Kinds that carry no meaning. -/
def isTrivia : TokenKind → Bool
  | whitespace | comment => true
  | _ => false

/-- How a complaint names the kind. What has one spelling is quoted. -/
def describe : TokenKind → String
  | punctuator p => "'" ++ p.spelling ++ "'"
  | keyword k => "'" ++ k.spelling ++ "'"
  | identifier => "identifier"
  | variableName => "variable"
  | number => "number"
  | url => "URL"
  | stringOpen | stringClose => "quote"
  | stringContent => "string"
  | whitespace => "whitespace"
  | comment => "comment"
  | endOfInput => "end of input"

/-- The name under which a tree listing shows the kind. -/
def label : TokenKind → String
  | punctuator p => p.label
  | keyword k => k.label
  | identifier => "Identifier"
  | variableName => "Variable"
  | number => "Number"
  | url => "Url"
  | stringOpen => "StringOpen"
  | stringContent => "StringContent"
  | stringClose => "StringClose"
  | whitespace => "Whitespace"
  | comment => "Comment"
  | endOfInput => "Eof"

/-- The kind that a tree listing shows under a name. -/
def ofLabel? (name : String) : Option TokenKind :=
  all.find? (·.label == name)

end TokenKind

end XuleLang
