import XuleLang.Text.Blank
import XuleLang.Token.Kind

/-!
Lexemes: which token the characters ahead begin, and how many of them it takes.

`Lexeme.ofChars?` reads program text and `Lexeme.inString?` the inside of a string literal. Both
look only at the characters ahead; what braces and quotes open is the lexer's business. Every
length below is that of the longest lexeme of its kind:

* a name is made of letters, digits and underscores, with single hyphens between them;
* a number has digits, perhaps a fraction with digits, perhaps an exponent with digits;
* an operator is the longest one that the characters begin with;
* text in a string literal runs to the closing quote or to an interpolation, and a backslash takes
  the character after it along.
-/

namespace XuleLang

/-- A character that can begin a name. -/
def isNameStart (c : Char) : Bool := c.isAlpha || c == '_'

/-- A character that can stand in a name. -/
def isNameChar (c : Char) : Bool := c.isAlphanum || c == '_'

/-- The length of the name part at the front: name characters, and hyphens that a name character
follows. -/
def nameLength : List Char → Nat
  | [] => 0
  | c :: cs =>
    if isNameChar c || (c == '-' && cs.head?.any isNameChar) then nameLength cs + 1 else 0

/-- The number of digits at the front. -/
def digitsLength (cs : List Char) : Nat := (cs.takeWhile Char.isDigit).length

/-- The length of a point with digits behind it; without digits it is no fraction. -/
def fractionLength : List Char → Nat
  | '.' :: cs => if digitsLength cs = 0 then 0 else digitsLength cs + 1
  | _ => 0

/-- The length of a plus or minus sign at the front. -/
def signLength : List Char → Nat
  | '+' :: _ | '-' :: _ => 1
  | _ => 0

/-- The length of an `e` with digits behind it, perhaps after a sign; without digits it is no
exponent. -/
def exponentLength : List Char → Nat
  | 'e' :: cs | 'E' :: cs =>
    let digits := digitsLength (cs.drop (signLength cs))
    if digits = 0 then 0 else 1 + signLength cs + digits
  | _ => 0

/-- The length of the number at the front. -/
def numberLength (cs : List Char) : Nat :=
  let whole := digitsLength cs
  let fraction := fractionLength (cs.drop whole)
  whole + fraction + exponentLength (cs.drop (whole + fraction))

/-- The length of a block comment behind its opening, and whether it is closed before the text
ends. -/
def blockCommentLength : List Char → Nat × Bool
  | [] => (0, false)
  | '*' :: '/' :: _ => (2, true)
  | _ :: cs =>
    let (length, closed) := blockCommentLength cs
    (length + 1, closed)

/-- The length of the text of a string literal up to the quote or an opening brace. -/
def contentLength (quote : Char) : List Char → Nat
  | [] => 0
  | ['\\'] => 1
  | '\\' :: _ :: cs => contentLength quote cs + 2
  | c :: cs => if c == quote || c == '\x7b' then 0 else contentLength quote cs + 1

/-- The longest operator that the characters begin with. Braces are not among them: they open and
close. -/
def operator? : List Char → Option Punctuator
  | '<' :: '+' :: '>' :: _ => some .addBoth
  | '<' :: '-' :: '>' :: _ => some .subBoth
  | '<' :: '+' :: _ => some .addLeft
  | '<' :: '-' :: _ => some .subLeft
  | '<' :: '=' :: _ => some .lessEq
  | '<' :: _ => some .less
  | '>' :: '=' :: _ => some .greaterEq
  | '>' :: _ => some .greater
  | '=' :: '=' :: _ => some .equal
  | '=' :: _ => some .assign
  | '!' :: '=' :: _ => some .notEqual
  | '+' :: '>' :: _ => some .addRight
  | '+' :: _ => some .plus
  | '-' :: '>' :: _ => some .subRight
  | '-' :: _ => some .minus
  | '*' :: _ => some .times
  | '/' :: _ => some .divide
  | '(' :: _ => some .lparen
  | ')' :: _ => some .rparen
  | '[' :: _ => some .lbracket
  | ']' :: _ => some .rbracket
  | ',' :: _ => some .comma
  | ';' :: _ => some .semicolon
  | ':' :: _ => some .colon
  | '.' :: _ => some .dot
  | '@' :: _ => some .atSign
  | _ => none

/-- A token's kind and length, and whether it is complete; only a block comment can lack its
end. -/
structure Lexeme where
  kind : TokenKind
  length : Nat
  complete : Bool
deriving DecidableEq, Repr

namespace Lexeme

/-- A name is a reserved word if it is spelled like one. -/
def ofName (name : List Char) : TokenKind :=
  match Keyword.ofSpelling? (String.ofList name) with
  | some k => .keyword k
  | none => .identifier

/-- A name with `://` behind it is the scheme of a URL, which runs to the next blank. -/
def ofWord (cs : List Char) : Lexeme :=
  let length := nameLength cs
  match cs.drop length with
  | ':' :: '/' :: '/' :: rest =>
    ⟨.url, length + 3 + (rest.takeWhile (!isBlank ·)).length, true⟩
  | _ => ⟨ofName (cs.take length), length, true⟩

/-- The token that program text begins with, if its first character begins one. -/
def ofChars? (cs : List Char) : Option Lexeme :=
  match cs with
  | [] => none
  | '/' :: '/' :: _ =>
    some ⟨.comment, (cs.takeWhile fun c => c != '\n' && c != '\r').length, true⟩
  | '/' :: '*' :: rest =>
    let (length, closed) := blockCommentLength rest
    some ⟨.comment, length + 2, closed⟩
  | '"' :: _ | '\x27' :: _ => some ⟨.stringOpen, 1, true⟩
  | '\x7b' :: _ => some ⟨.punctuator .lbrace, 1, true⟩
  | '\x7d' :: _ => some ⟨.punctuator .rbrace, 1, true⟩
  | c :: rest =>
    if isBlank c then some ⟨.whitespace, (cs.takeWhile isBlank).length, true⟩
    else if c == '$' && rest.head?.any isNameStart then
      some ⟨.variableName, nameLength rest + 1, true⟩
    else if isNameStart c then some (ofWord cs)
    else if c.isDigit then some ⟨.number, numberLength cs, true⟩
    else (operator? cs).map fun p => ⟨.punctuator p, p.spelling.length, true⟩

/-- The token that the rest of a string literal begins with. -/
def inString? (quote : Char) (cs : List Char) : Option Lexeme :=
  match cs with
  | [] => none
  | c :: _ =>
    if c == quote then some ⟨.stringClose, 1, true⟩
    else if c == '\x7b' then some ⟨.punctuator .lbrace, 1, true⟩
    else some ⟨.stringContent, contentLength quote cs, true⟩

end Lexeme

end XuleLang
