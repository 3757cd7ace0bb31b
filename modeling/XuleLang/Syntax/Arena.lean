import XuleLang.Syntax.Rule
import XuleLang.Token.Basic

/-!
Arenas.

An arena keeps leaves and nodes in one array and tells them by their places in it. Each entry stores
the numbers of its children in order and the number of its parent; nothing but the operations that
made it ties the two to each other.

## Building

A `TreeBuilder` makes an arena while a text is parsed. A new entry becomes the latest child of the
innermost open node. `wrapLast` opens a node around the latest child, which moves from one list of
children to another and is told of its new parent; the node has the greater number of the two, so
that numbers do not tell what is below what. A node learns its span when it is finished.

## Walking

A walk up follows the stored parents, a walk down the stored children. No walk meets more entries
than there are, or else it would never end, and their number bounds both.
-/

namespace XuleLang

/-- What an entry stands for. -/
inductive NodeKind where
  | rule (r : Rule)
  /-- The token with a number in the stream. -/
  | token (index : Nat)
deriving DecidableEq, Repr

/-- An entry of an arena. -/
structure NodeData where
  kind : NodeKind
  parent : Option Nat
  children : List Nat
  span : Option Span
deriving DecidableEq, Repr

/-- The entries of a tree, with the whole stream of its tokens. -/
structure Arena where
  nodes : Array NodeData
  tokens : List Token
deriving Repr

namespace Arena

def size (a : Arena) : Nat := a.nodes.size

/-- The rule that an entry stands for. -/
def rule? (a : Arena) (n : Nat) : Option Rule :=
  (a.nodes[n]?).bind fun d => match d.kind with
    | .rule r => some r
    | .token _ => none

/-- The token that an entry stands for. -/
def token? (a : Arena) (n : Nat) : Option Token :=
  (a.nodes[n]?).bind fun d => match d.kind with
    | .rule _ => none
    | .token index => a.tokens[index]?

def isTerminal (a : Arena) (n : Nat) : Bool :=
  (a.nodes[n]?).any fun d => match d.kind with
    | .rule _ => false
    | .token _ => true

/-- The parent that an entry stores. -/
def parent? (a : Arena) (n : Nat) : Option Nat := (a.nodes[n]?).bind (·.parent)

/-- The children that an entry stores. -/
def children (a : Arena) (n : Nat) : List Nat := ((a.nodes[n]?).map (·.children)).getD []

/-- The stretch of text that an entry stores. -/
def span? (a : Arena) (n : Nat) : Option Span := (a.nodes[n]?).bind (·.span)

/-- An entry and its parents up to one that has none, in at most `fuel` steps. -/
def climb (a : Arena) : Nat → Nat → List Nat
  | 0, _ => []
  | fuel + 1, n =>
    match a.parent? n with
    | none => [n]
    | some p => n :: a.climb fuel p

/-- An entry and its parents up to one that has none. -/
def ancestors (a : Arena) (n : Nat) : List Nat := a.climb a.size n

/-- The entries on a stack and all below them, each before what is below it, in at most `fuel`
steps. -/
def descend (a : Arena) : Nat → List Nat → List Nat
  | 0, _ | _, [] => []
  | fuel + 1, n :: stack => n :: a.descend fuel (a.children n ++ stack)

/-- An entry and all below it, from the outside in and from left to right. -/
def descendants (a : Arena) (n : Nat) : List Nat := a.descend a.size [n]

/-- The tokens at and below an entry, in the order of the text. -/
def terminals (a : Arena) (n : Nat) : List Nat := (a.descendants n).filter a.isTerminal

/-- Whether there is such an entry and its parents lead up to the root. -/
def leadsToRoot (a : Arena) (n : Nat) : Bool := n < a.size && (a.ancestors n).getLast? == some 0

end Arena

/-- The entries made so far, and the numbers of the open nodes, the innermost first. -/
structure TreeBuilder where
  nodes : Array NodeData
  opened : List Nat
deriving Repr

namespace TreeBuilder

def empty : TreeBuilder := ⟨#[], []⟩

/-- Adds an entry, which becomes the latest child of the innermost open node. -/
def push (b : TreeBuilder) (kind : NodeKind) (span : Option Span) : TreeBuilder :=
  let nodes := b.nodes.push ⟨kind, b.opened.head?, [], span⟩
  match b.opened with
  | [] => { b with nodes := nodes }
  | p :: _ =>
    { b with nodes := nodes.modify p fun d => { d with children := d.children ++ [b.nodes.size] } }

/-- Opens a node. -/
def start (b : TreeBuilder) (r : Rule) : TreeBuilder :=
  { b.push (.rule r) none with opened := b.nodes.size :: b.opened }

/-- Adds a leaf. -/
def token (b : TreeBuilder) (index : Nat) (span : Span) : TreeBuilder :=
  b.push (.token index) (some span)

/-- The latest child of the innermost open node. -/
def lastChild? (b : TreeBuilder) : Option (Nat × Nat) :=
  b.opened.head?.bind fun p => (b.nodes[p]?).bind fun d => d.children.getLast?.map fun c => (p, c)

/-- Opens a node around the latest child of the innermost open node; without a child it opens an
empty one. -/
def wrapLast (b : TreeBuilder) (r : Rule) : TreeBuilder :=
  match b.lastChild? with
  | none => b.start r
  | some (p, c) =>
    let id := b.nodes.size
    let popped :=
      { b with nodes := b.nodes.modify p fun d => { d with children := d.children.dropLast } }
    let nodes := (popped.push (.rule r) none).nodes
    let nodes := nodes.modify c fun d => { d with parent := some id }
    let nodes := nodes.modify id fun d => { d with children := d.children ++ [c] }
    ⟨nodes, id :: b.opened⟩

/-- Closes the innermost open node, whose span runs over those of its children. -/
def finish (b : TreeBuilder) : TreeBuilder :=
  match b.opened with
  | [] => b
  | id :: outer =>
    let children := ((b.nodes[id]?).map (·.children)).getD []
    let span := Span.coverAll (children.filterMap fun c => (b.nodes[c]?).bind (·.span))
    ⟨b.nodes.modify id fun d => { d with span := span }, outer⟩

/-- Closes all open nodes and gives the root the span of the whole text. -/
def build (b : TreeBuilder) (whole : Span) : Array NodeData :=
  let closed := b.opened.foldl (fun b _ => b.finish) b
  closed.nodes.modify 0 fun d => { d with span := some whole }

end TreeBuilder

end XuleLang
