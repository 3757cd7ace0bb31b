import XuleLang.Token.Basic

/-!
What can be wrong with the syntax of a rule file.

A complaint is a cause; `Complaint.message` is its wording. It is located by the stretch of text
that it is about. A text whose braces and quotes nest too deeply cannot be read at all, which is a
failure of its own kind, `TooDeep`.
-/

namespace XuleLang

/-- Nesting deeper than the reader allows, noticed at a place. -/
structure TooDeep where
  position : Position
  depth : Nat
deriving DecidableEq, Repr

/-- The failure in words. -/
def TooDeep.message (f : TooDeep) : String :=
  "nesting deeper than " ++ toString f.depth ++ " levels at " ++ f.position.display

/-- What the grammar wants at a place. -/
inductive Wanted where
  | token (kind : TokenKind)
  | declaration | ruleName | functionName | argumentVariable | constantName | namespaceUri
  | declaredName | separatorString | expression | propertyName | qualifiedName | localName
  | loopVariable | boundVariable | navigationDirection | resultShape | returnOption
deriving DecidableEq, Repr

/-- How a complaint names what is wanted. -/
def Wanted.describe : Wanted → String
  | token kind => kind.describe
  | declaration => "a declaration"
  | ruleName => "rule name"
  | functionName => "function name"
  | argumentVariable => "argument variable"
  | constantName => "constant name"
  | namespaceUri => "namespace URI"
  | declaredName => "name"
  | separatorString => "separator string"
  | expression => "expression"
  | propertyName => "property name"
  | qualifiedName => "name"
  | localName => "local name"
  | loopVariable => "loop variable"
  | boundVariable => "variable after 'as'"
  | navigationDirection => "navigation direction"
  | resultShape => "result shape"
  | returnOption => "return option"

/-- What is wrong. -/
inductive Complaint where
  /-- A block comment that runs into the end of the text. -/
  | unterminatedComment
  /-- A character that begins no token. -/
  | unrecognized (c : Char)
  /-- A closing brace where nothing is open. -/
  | extraneousBrace
  /-- A token that the grammar does not allow where it stands. -/
  | expected (wanted : Wanted) (found : TokenKind)
  /-- A string literal without its closing quote. -/
  | unterminatedString
  /-- An expression inside more expressions than the parser follows. -/
  | tooDeepExpression
  /-- A text that could not be read at all. -/
  | unreadable (failure : TooDeep)
deriving DecidableEq, Repr

/-- The complaint in words. -/
def Complaint.message : Complaint → String
  | unterminatedComment => "Unterminated block comment"
  | unrecognized c => "Unrecognized character '" ++ c.toString ++ "'"
  | extraneousBrace => "Extraneous '\x7d' without a matching '\x7b'"
  | expected wanted found => "Expected " ++ wanted.describe ++ ", found " ++ found.describe
  | unterminatedString => "Unterminated string literal"
  | tooDeepExpression => "Expression nested too deeply"
  | unreadable failure => failure.message

/-- A complaint and the stretch that it is about. -/
abbrev SyntaxError := Located Complaint

end XuleLang
