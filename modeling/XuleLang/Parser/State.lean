import XuleLang.Syntax.Tree

/-!
What a parser does, one step at a time.

A parser reads the visible tokens of a stream and builds a tree of them. It never gives up: what it
cannot use it complains of. Its state holds the tokens not yet read, the nodes under construction
and the complaints so far. Parsers are programs over this state; every one of them is put together
from the operations of this module, of which only `bump` reads a token, only `start`, `wrap` and
`finish` open and close nodes, and only `complain` complains.

## Nodes under construction

The open nodes form a chain, and what is read becomes a child of the innermost. `start` opens a
node inside it; `wrap` opens one around the child that was completed last, for operators that
stand behind their first operand. Numbers are given in the order of opening, so that a wrapping
node has a greater number than the child it adopts. `within` and `wrapping` close what they open.

## Repetition

Every repetition has a bound on how often it goes on, as has the nesting of assignments in each
other. The bound is always greater than the number of tokens ahead. None is ever reached: `overran`
would say so.

## Probing

To learn what could stand at a caret, the parser is run with a probe. Whenever it asks whether a
token of some kind stands at the caret, the kind is noted together with the rules of all open
nodes. The probe is done once a token at or behind the caret has been read or complained of.
Probing changes nothing else.
-/

namespace XuleLang

/-- A node under construction; the children are kept with the latest first. -/
structure Frame where
  id : Nat
  rule : Rule
  children : List Tree
deriving Repr

/-- What was asked for at a caret. -/
structure Probe where
  /-- The number of visible tokens before the caret. -/
  caret : Nat
  done : Bool
  kinds : List TokenKind
  rules : List Rule
deriving Repr

/-- Notes kinds and rules, each once. -/
def Probe.note (p : Probe) (kinds : List TokenKind) (rules : List Rule) : Probe :=
  { p with
    kinds := kinds.foldl (fun ks k => ks.insert k) p.kinds
    rules := rules.foldl (fun rs r => rs.insert r) p.rules }

/-- How far a parser has come. -/
structure ParserState where
  /-- The visible tokens not yet read. -/
  rest : List Token
  /-- The number of visible tokens read. -/
  consumed : Nat
  /-- The open nodes, the innermost first. -/
  frames : List Frame
  /-- Trees that were completed outside every open node, the latest first. -/
  finished : List Tree
  /-- The number of the next leaf or node. -/
  nextId : Nat
  /-- The complaints so far, the latest first. -/
  errors : List SyntaxError
  /-- Set by a repetition that reached its bound before its end. -/
  overran : Bool
  probe : Option Probe
deriving Repr

namespace ParserState

/-- Before the first of some visible tokens. -/
def ofTokens (visible : List Token) (probe : Option Probe) : ParserState :=
  ⟨visible, 0, [], [], 0, [], false, probe⟩

/-- The kind of the token `n` places ahead; behind the last token everything is the end. -/
def kindAt (s : ParserState) (n : Nat) : TokenKind :=
  ((s.rest[n]?).map (·.kind)).getD .endOfInput

/-- The kind of the token ahead. -/
def kind (s : ParserState) : TokenKind := s.kindAt 0

/-- Whether an identifier spelled `word` stands `n` places ahead. -/
def isWordAt (s : ParserState) (n : Nat) (word : String) : Bool :=
  (s.rest[n]?).any fun t => t.kind == .identifier && t.text == word

/-- The stretch of the token ahead. -/
def span (s : ParserState) : Span :=
  ((s.rest.head?).map (·.span)).getD (.single .start)

/-- The rules of the open nodes, the innermost first. -/
def rules (s : ParserState) : List Rule := s.frames.map (·.rule)

/-- Notes kinds and rules if the caret is here and the probe is not done. -/
def note (s : ParserState) (kinds : List TokenKind) (rules : List Rule) : ParserState :=
  match s.probe with
  | none => s
  | some p =>
    if p.done || p.caret != s.consumed then s
    else { s with probe := some (p.note kinds (s.rules ++ rules)) }

/-- Ends the probing if the caret has been reached. -/
def settle (s : ParserState) : ParserState :=
  match s.probe with
  | none => s
  | some p => if p.caret ≤ s.consumed then { s with probe := some { p with done := true } } else s

/-- Makes a tree the latest child of the innermost open node. -/
def attach (s : ParserState) (t : Tree) : ParserState :=
  match s.frames with
  | [] => { s with finished := t :: s.finished }
  | f :: outer => { s with frames := { f with children := t :: f.children } :: outer }

/-- Makes the token ahead a leaf and reads on. The end is made a leaf but never read over. -/
def bump (s : ParserState) : ParserState :=
  match s.rest with
  | [] => s
  | t :: rest =>
    let s := { s.attach (.leaf ⟨s.nextId, t⟩) with nextId := s.nextId + 1 }.settle
    if t.kind = .endOfInput then s else { s with rest := rest, consumed := s.consumed + 1 }

/-- Complains of the token ahead, unless the last complaint was about the same place. -/
def complain (s : ParserState) (c : Complaint) : ParserState :=
  let s := s.settle
  let repeated := s.errors.head?.any fun e =>
    e.span.any fun span => span.start.offset == s.span.start.offset
  if repeated then s else { s with errors := ⟨c, some s.span⟩ :: s.errors }

/-- Records that a repetition reached its bound. -/
def overrun (s : ParserState) : ParserState := { s with overran := true }

/-- Opens a node. -/
def start (s : ParserState) (r : Rule) : ParserState :=
  { s with frames := ⟨s.nextId, r, []⟩ :: s.frames, nextId := s.nextId + 1 }.note [] []

/-- Opens a node around the latest child of the innermost open node; without a child it opens an
empty one. -/
def wrap (s : ParserState) (r : Rule) : ParserState :=
  match s.frames with
  | [] => s.start r
  | f :: outer =>
    match f.children with
    | [] => s.start r
    | c :: children =>
      let frames := ⟨s.nextId, r, [c]⟩ :: { f with children := children } :: outer
      { s with frames := frames, nextId := s.nextId + 1 }.note [] []

/-- Closes the innermost open node. -/
def finish (s : ParserState) : ParserState :=
  match s.frames with
  | [] => s
  | f :: outer =>
    { s with frames := outer }.attach (Tree.ofChildren f.id f.rule f.children.reverse)

end ParserState

/-- A program that reads tokens and builds trees. -/
abbrev Parser (α : Type) := StateM ParserState α

namespace Parser

/-- Makes the token ahead a leaf and reads on. -/
def bump : Parser Unit := modify ParserState.bump

/-- Complains of the token ahead. -/
def complain (c : Complaint) : Parser Unit := modify (·.complain c)

/-- Announces rules that could begin here. -/
def predict (rules : List Rule) : Parser Unit := modify (·.note [] rules)

/-- The kind of the token ahead. -/
def kind : Parser TokenKind := return (← get).kind

/-- The kind of the token `n` places ahead. -/
def kindAt (n : Nat) : Parser TokenKind := return (← get).kindAt n

/-- Whether an identifier spelled `word` stands `n` places ahead. -/
def isWordAt (n : Nat) (word : String) : Parser Bool := return (← get).isWordAt n word

/-- Parses inside a new node. -/
def within (r : Rule) (body : Parser Unit) : Parser Unit := do
  modify (·.start r)
  body
  modify ParserState.finish

/-- Parses inside a new node around the child that was completed last. -/
def wrapping (r : Rule) (body : Parser Unit) : Parser Unit := do
  modify (·.wrap r)
  body
  modify ParserState.finish

/-- A node around the token ahead. -/
def leafOf (r : Rule) : Parser Unit := within r bump

/-- Whether a token of a kind is ahead, for which a probe at the caret is told of the kind. Signs
make no candidates. -/
def sees (k : TokenKind) : Parser Bool := do
  modify (·.note (if k.isPunctuation then [] else [k]) [])
  return (← kind) == k

/-- Whether a token of one of the kinds is ahead; a probe is told of all of them. -/
def seesAny : List TokenKind → Parser Bool
  | [] => pure false
  | k :: ks => do
    let first ← sees k
    let others ← seesAny ks
    return first || others

/-- Whether a name is ahead, for which reserved words may be used too. -/
def seesName : Parser Bool := do
  let identifier ← sees .identifier
  return identifier || (← kind).isKeyword

/-- Whether an identifier spelled `word` is ahead. -/
def seesWord (word : String) : Parser Bool := do
  let _ ← sees .identifier
  isWordAt 0 word

/-- Whether an identifier spelled like one of the words is ahead. -/
def seesAnyWord : List String → Parser Bool
  | [] => pure false
  | word :: words => do
    let first ← seesWord word
    if first then pure true else seesAnyWord words

/-- Reads a token of a kind if it is ahead. -/
def eat (k : TokenKind) : Parser Bool := do
  if ← sees k then
    bump
    pure true
  else pure false

/-- Complains that something else is wanted than what is ahead. -/
def complainWanted (w : Wanted) : Parser Unit := do
  complain (.expected w (← kind))

/-- Reads a token of a kind, or complains that it is wanted. -/
def expect (k : TokenKind) : Parser Bool := do
  let found ← eat k
  if !found then complainWanted (.token k)
  return found

/-- Reads a token of a kind, or complains that something is wanted. -/
def require (k : TokenKind) (w : Wanted) : Parser Unit := do
  if ← sees k then bump else complainWanted w

/-- Reads a name, or complains that one is wanted. -/
def requireName (w : Wanted) : Parser Unit := do
  if ← seesName then bump else complainWanted w

/-- Leaves a repetition at its bound. -/
def overrun : Parser Unit := modify ParserState.overrun

/-- Takes a step again and again for as long as it says so, but fewer than so many times. -/
def repeatUpTo : Nat → Parser Bool → Parser Unit
  | 0, _ => overrun
  | n + 1, step => do
    if ← step then repeatUpTo n step

/-- Takes a step for as long as it says so. A step that says so has read a token, so that the
number of tokens ahead bounds how often it is taken. -/
def repeatWhile (step : Parser Bool) : Parser Unit := do
  repeatUpTo ((← get).rest.length + 1) step

/-- Items with commas between them. -/
def commaSeparated (item : Parser Unit) : Parser Unit :=
  repeatWhile do
    item
    eat (.punctuator .comma)

/-- Reads tokens into an error node up to one of some kinds or the end. -/
def skipTo (kinds : List TokenKind) : Parser Unit :=
  within .skipped <| repeatWhile do
    let k ← kind
    if k == .endOfInput || kinds.contains k then pure false
    else
      bump
      pure true

end Parser

end XuleLang
