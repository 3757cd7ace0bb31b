import XuleLang.Parser.Declaration
import XuleLang.Token.Stream

/-!
From tokens and texts to trees.

`parse` makes a tree of a stream of tokens, with the complaints of the parser. `parseStream` joins
them with what the lexer complained of. `candidatesAt` runs the parser with a probe, and says what
could stand at a place of the stream.
-/

namespace XuleLang

/-- A tree, and what is wrong with its text. -/
structure Parsed where
  tree : SyntaxTree
  errors : List SyntaxError
deriving Repr

/-- The tokens that the parser sees. -/
def visibleTokens (tokens : List Token) : List Token := tokens.filter Token.isVisible

/-- The stretch from the start of a text to the end of its last token. -/
def wholeSpan (tokens : List Token) : Span :=
  ⟨.start, ((tokens.getLast?).map (·.span.stop)).getD .start⟩

/-- The state of the parser after a whole file. -/
def runFile (tokens : List Token) (probe : Option Probe) : ParserState :=
  ((Parser.file (Parser.level Parser.maxDepth)).run (.ofTokens (visibleTokens tokens) probe)).2

/-- The tree of a stream that ends with the token for the end of its text. The root covers the
whole text. -/
def parse (tokens : List Token) : Parsed :=
  let s := runFile tokens none
  let root := (s.finished.head?).getD (.node 0 .file none [])
  ⟨⟨root.withSpan (some (wholeSpan tokens)), tokens⟩, s.errors.reverse⟩

/-- The tree of a stream, with the complaints about its tokens among those of the parser. -/
def parseStream (s : TokenStream) : Parsed :=
  let parsed := parse s.tokens
  ⟨parsed.tree, Located.merge s.complaints parsed.errors⟩

/-- What could stand at a place: kinds of tokens, and rules that could begin there or that the
place lies in. Both are in the order in which kinds and rules are listed. -/
structure Candidates where
  kinds : List TokenKind
  rules : List Rule
deriving DecidableEq, Repr

/-- The number of visible tokens before the token of a number; the last visible token counts as
ahead in any case. -/
def caretOf (tokens : List Token) (index : Nat) : Nat :=
  let visible := visibleTokens tokens
  (visible.findIdx? (index ≤ ·.index)).getD (visible.length - 1)

/-- What could stand where the token with a number stands, or the first visible one behind it. -/
def candidatesAt (tokens : List Token) (index : Nat) : Candidates :=
  match (runFile tokens (some ⟨caretOf tokens index, false, [], []⟩)).probe with
  | some p => ⟨TokenKind.all.filter p.kinds.contains, Rule.all.filter p.rules.contains⟩
  | none => ⟨[], []⟩

end XuleLang
