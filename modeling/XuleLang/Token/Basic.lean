import XuleLang.Text.Position
import XuleLang.Token.Kind

/-!
Tokens.

A token has a kind, its text, the stretch it covers, the channel it lies on and its number in the
stream that it was put into. Only tokens of the default channel are seen by the parser.
-/

namespace XuleLang

/-- Which readers a token is for. -/
inductive Channel where
  /-- Seen by the parser. -/
  | visible
  /-- Whitespace and comments. -/
  | hidden
  /-- Empty tokens that stand where two visible tokens touch. -/
  | marker
deriving DecidableEq, Repr, Inhabited

/-- A piece of a text with its meaning. -/
structure Token where
  kind : TokenKind
  text : String
  span : Span
  channel : Channel
  /-- The number of tokens before it in its stream. -/
  index : Nat
deriving DecidableEq, Repr, Inhabited

namespace Token

/-- Seen by the parser. -/
def isVisible (t : Token) : Bool := t.channel == .visible

/-- The length of the text in characters. -/
def charCount (t : Token) : Nat := t.text.length

/-- The token that ends a stream whose text ends at `p`. -/
def endOfInput (p : Position) : Token := ⟨.endOfInput, "", .single p, .visible, 0⟩

/-- The empty token where two visible tokens touch at `p`. -/
def seam (p : Position) : Token := ⟨.whitespace, "", .single p, .marker, 0⟩

end Token

end XuleLang
