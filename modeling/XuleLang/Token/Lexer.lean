import XuleLang.Syntax.Complaint
import XuleLang.Token.Lexeme

/-!
The lexer: program text with string literals and interpolations in it.

What the characters ahead mean depends on what is open. A quote opens a string literal, a brace
opens program text, also inside a string literal, and the innermost thing still open decides which
lexemes are read. At most `maxOpen` things may be open at a time.

## Steps

`Lexer.next` reads one token. It has three outcomes: a token; a closing brace where nothing is
open, which is a token too; and an opening quote or brace that would open one thing too many. The
lexer can be asked again after each of them, and at the end of the text every answer is the token
that ends it. `Lexer.steps` asks until the text ends or nests too deeply.
-/

namespace XuleLang

/-- Something opened and not yet closed. -/
inductive Mode where
  /-- Program text, opened by a brace. -/
  | code
  /-- A string literal, opened by a quote. -/
  | string (quote : Char)
deriving DecidableEq, Repr

/-- The number of things that may be open at a time. -/
def maxOpen : Nat := 256

/-- A place in a text with what is open there and what was complained of so far. -/
structure Lexer where
  /-- The characters not yet read. -/
  rest : List Char
  position : Position
  /-- What is open, the innermost first. -/
  opened : List Mode
  /-- The complaints so far, the latest first. -/
  complaints : List SyntaxError
deriving Repr

/-- What one step of the lexer finds. -/
inductive LexOutcome where
  | token (t : Token)
  /-- A closing brace where nothing is open. -/
  | unmatched (t : Token)
  /-- An opening quote or brace where `maxOpen` things are open. -/
  | tooDeep (failure : TooDeep)
deriving DecidableEq, Repr

namespace LexOutcome

/-- The token that was read, if one was. -/
def token? : LexOutcome → Option Token
  | token t | unmatched t => some t
  | tooDeep _ => none

/-- Whether the lexer has no more to say. -/
def isFinal : LexOutcome → Bool
  | token t => t.kind == .endOfInput
  | unmatched _ => false
  | tooDeep _ => true

/-- The two outcomes that are failures, in words. -/
def message : LexOutcome → Option String
  | token _ => none
  | unmatched t => some ("lexer mode stack underflow at " ++ t.span.start.display)
  | tooDeep f => some f.message

end LexOutcome

namespace Lexer

/-- Before the first character of a text. -/
def ofText (text : List Char) : Lexer := ⟨text, .start, [], []⟩

/-- The innermost thing open; where nothing is, program text is read. -/
def mode (l : Lexer) : Mode := l.opened.head?.getD .code

/-- Reads `n` characters. -/
def skip (l : Lexer) (n : Nat) : Lexer :=
  { l with rest := l.rest.drop n, position := l.position.advance l.rest n }

/-- Adds a complaint. -/
def complain (l : Lexer) (e : SyntaxError) : Lexer :=
  { l with complaints := e :: l.complaints }

/-- Skips the characters at the front that begin no token, with a complaint for each. -/
def skipUnrecognized (l : Lexer) : Lexer :=
  go l.rest l
where
  go : List Char → Lexer → Lexer
    | [], l => l
    | c :: cs, l =>
      if (Lexeme.ofChars? (c :: cs)).isSome then l
      else
        let after := l.skip 1
        go cs (after.complain ⟨.unrecognized c, some ⟨l.position, after.position⟩⟩)

/-- Opens `m`, unless too much is open. -/
def enter (l : Lexer) (m : Mode) (t : Token) : LexOutcome × Lexer :=
  if l.opened.length < maxOpen then (.token t, { l with opened := m :: l.opened })
  else (.tooDeep ⟨l.position, maxOpen⟩, l)

/-- Reads a lexeme: its token is made of the characters it takes, quotes and braces open and close,
and a lexeme without its end is complained of where it starts. -/
def emit (l : Lexer) (x : Lexeme) : LexOutcome × Lexer :=
  let after := l.skip x.length
  let channel : Channel := if x.kind.isTrivia then .hidden else .visible
  let t : Token :=
    ⟨x.kind, String.ofList (l.rest.take x.length), ⟨l.position, after.position⟩, channel, 0⟩
  match x.kind with
  | .stringOpen => after.enter (.string (l.rest.headD '"')) t
  | .punctuator .lbrace => after.enter .code t
  | .punctuator .rbrace =>
    match l.opened with
    | [] => (.unmatched t, after)
    | _ :: outer => (.token t, { after with opened := outer })
  | .stringClose => (.token t, { after with opened := l.opened.tail })
  | _ =>
    if x.complete then (.token t, after)
    else (.token t, after.complain (.atPosition .unterminatedComment l.position))

/-- Reads one token. -/
def next (l : Lexer) : LexOutcome × Lexer :=
  match l.mode with
  | .string quote =>
    match Lexeme.inString? quote l.rest with
    | some x => l.emit x
    | none => (.token (.endOfInput l.position), l)
  | .code =>
    let l := l.skipUnrecognized
    match Lexeme.ofChars? l.rest with
    | some x => l.emit x
    | none => (.token (.endOfInput l.position), l)

/-- At most `fuel` steps, up to the end of the text or to a failure to go on. -/
def run : Nat → Lexer → List (LexOutcome × Lexer)
  | 0, _ => []
  | fuel + 1, l =>
    let (outcome, after) := l.next
    if outcome.isFinal then [(outcome, after)] else (outcome, after) :: run fuel after

/-- Every step over a text, each with the lexer after it. Each but the last reads a character, so
that one more than there are characters suffice. -/
def steps (text : List Char) : List (LexOutcome × Lexer) :=
  run (text.length + 1) (ofText text)

end Lexer

end XuleLang
