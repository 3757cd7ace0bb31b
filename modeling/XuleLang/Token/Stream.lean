import XuleLang.Token.Lexer

/-!
Token streams.

A `TokenSource` hands out the tokens of a text one at a time. A closing brace where nothing is open
is handed out like any other token, and complained of. `tokenize` drains a source up to the token
for the end of the text.

## Seams

Two visible tokens may touch each other, with nothing between them. A source that marks seams hands
out an empty marker there, so that a caret between the two has a token of its own, and keeps the
second token for the next time it is asked. `tokenizeWithSeams` drains such a source; no marker
stands before the end of the text.
-/

namespace XuleLang

/-- The tokens of a text, numbered in order, and what is wrong with it as far as its tokens
show. -/
structure TokenStream where
  tokens : List Token
  complaints : List SyntaxError
deriving DecidableEq, Repr

/-- Both tokens are visible, the second is not the end of the text, and it starts where the first
stops. -/
def Token.Touches (a b : Token) : Prop :=
  a.isVisible ∧ b.isVisible ∧ b.kind ≠ .endOfInput ∧ a.span.stop.offset = b.span.start.offset
deriving Decidable

/-- A lexer whose tokens are handed out one at a time. -/
structure TokenSource where
  lexer : Lexer
  /-- Whether markers stand where tokens touch. -/
  marksSeams : Bool
  /-- A token that was read and stands behind the marker handed out last. -/
  pending : Option Token
  /-- What was handed out last, markers included. -/
  previous : Option Token
  /-- The complaints about closing braces so far, the latest first. -/
  complaints : List SyntaxError
deriving Repr

namespace TokenSource

/-- Before the first token of a text. -/
def ofText (marksSeams : Bool) (text : List Char) : TokenSource :=
  ⟨.ofText text, marksSeams, none, none, []⟩

/-- Complains of a closing brace where nothing is open. -/
def complain (s : TokenSource) (t : Token) : TokenSource :=
  if t.text = "\x7d" then
    { s with complaints := ⟨.extraneousBrace, some t.span⟩ :: s.complaints }
  else s

/-- Whether a marker belongs in front of a token that was read. -/
def wantsMarker (s : TokenSource) (t : Token) : Bool :=
  s.marksSeams && s.previous.any (·.Touches t)

/-- Hands out a token that was read, or the marker in front of it. -/
def handOut (s : TokenSource) (t : Token) : Token × TokenSource :=
  if s.wantsMarker t then
    let marker := Token.seam t.span.start
    (marker, { s with pending := some t, previous := some marker })
  else (t, { s with previous := some t })

/-- Hands out the token that waits behind a marker, or else reads one. -/
def next (s : TokenSource) : Except TooDeep (Token × TokenSource) :=
  match s.pending with
  | some t => .ok (t, { s with pending := none, previous := some t })
  | none =>
    let (outcome, lexer) := s.lexer.next
    let s := { s with lexer := lexer }
    match outcome with
    | .token t => .ok (s.handOut t)
    | .unmatched t => .ok ((s.complain t).handOut t)
    | .tooDeep failure => .error failure

/-- What is handed out up to the end of the text, in at most `fuel` steps and numbered from
`index` on, and the source then. -/
def drain : Nat → Nat → TokenSource → Except TooDeep (List Token × TokenSource)
  | 0, _, s => .ok ([], s)
  | fuel + 1, index, s => do
    let (t, s) ← s.next
    let t := { t with index := index }
    if t.kind = .endOfInput then return ([t], s)
    let (ts, s) ← drain fuel (index + 1) s
    return (t :: ts, s)

/-- The stream of a text. Each step but the last reads a character, or hands out the token behind a
marker, so that two for each character and two for the end suffice. -/
def stream (marksSeams : Bool) (text : List Char) : Except TooDeep TokenStream := do
  let (tokens, s) ← (ofText marksSeams text).drain (2 * (text.length + 1)) 0
  return ⟨tokens, Located.sort (s.lexer.complaints.reverse ++ s.complaints.reverse)⟩

end TokenSource

/-- Reads a text into tokens. -/
def tokenize (text : List Char) : Except TooDeep TokenStream := TokenSource.stream false text

/-- Reads a text into tokens, with markers where two visible tokens touch. -/
def tokenizeWithSeams (text : List Char) : Except TooDeep TokenStream :=
  TokenSource.stream true text

end XuleLang
