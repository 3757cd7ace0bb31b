import XuleLang.Syntax.Complaint
import XuleLang.Syntax.Rule
import XuleLang.Text.Quoted

/-!
Syntax trees.

A tree is a leaf, which holds a token, or a node, which stands for a rule of the grammar and has
its parts as children in the order of the text. Leaves and nodes have numbers, given in the order
in which the parser made them. A node knows the stretch of text from its first leaf to its last;
without a leaf below it there is none.

## Cursors

What a tree does not show is what is around a place in it. A `Cursor` is a subtree together with
the nodes above it, the innermost first. `Tree.cursors` lists the cursors of a tree from the
outside in and from left to right, which is also the order of `Tree.subtrees` and of
`Tree.leaves`.
-/

namespace XuleLang

/-- A token in a tree. -/
structure Leaf where
  id : Nat
  token : Token
deriving DecidableEq, Repr, Inhabited

/-- A leaf, or a node with its children. -/
inductive Tree where
  | leaf (l : Leaf)
  | node (id : Nat) (rule : Rule) (span : Option Span) (children : List Tree)
deriving Repr, Inhabited

namespace Tree

def id : Tree → Nat
  | leaf l => l.id
  | node i _ _ _ => i

/-- The rule that a node stands for. -/
def rule? : Tree → Option Rule
  | leaf _ => none
  | node _ r _ _ => some r

/-- The token of a leaf. -/
def token? : Tree → Option Token
  | leaf l => some l.token
  | node .. => none

def kind? (t : Tree) : Option TokenKind := t.token?.map (·.kind)

def isLeaf : Tree → Bool
  | leaf _ => true
  | node .. => false

/-- The stretch of text that the tree covers. -/
def span? : Tree → Option Span
  | leaf l => some l.token.span
  | node _ _ s _ => s

def children : Tree → List Tree
  | leaf _ => []
  | node _ _ _ cs => cs

/-- The node of a rule around some children. Its span runs over theirs. -/
def ofChildren (id : Nat) (rule : Rule) (children : List Tree) : Tree :=
  node id rule (Span.coverAll (children.filterMap span?)) children

/-- The same node over another span. -/
def withSpan (span : Option Span) : Tree → Tree
  | leaf l => leaf l
  | node i r _ cs => node i r span cs

mutual

/-- The tree and all that is below it, from the outside in and from left to right. -/
def subtrees : Tree → List Tree
  | leaf l => [leaf l]
  | node i r s cs => node i r s cs :: subtreesOfAll cs

def subtreesOfAll : List Tree → List Tree
  | [] => []
  | t :: ts => subtrees t ++ subtreesOfAll ts

end

mutual

/-- The leaves in the order of the text. -/
def leaves : Tree → List Leaf
  | leaf l => [l]
  | node _ _ _ cs => leavesOfAll cs

def leavesOfAll : List Tree → List Leaf
  | [] => []
  | t :: ts => leaves t ++ leavesOfAll ts

end

/-- The first leaf. -/
def firstLeaf? (t : Tree) : Option Leaf := t.leaves.head?

/-- The texts of the leaves, one after the other. -/
def text (t : Tree) : String := String.join (t.leaves.map (·.token.text))

/-- The first child that stands for a rule. -/
def childOfRule? (t : Tree) (r : Rule) : Option Tree := t.children.find? (·.rule? == some r)

/-- The first child that is a leaf with a token of a kind. -/
def childOfKind? (t : Tree) (k : TokenKind) : Option Leaf :=
  t.children.findSome? fun c => match c with
    | leaf l => if l.token.kind = k then some l else none
    | node .. => none

mutual

/-- One line per subtree, indented by two blanks per node above it: the rule of a node, or the kind
and the quoted text of a token. -/
def outline (indent : String) : Tree → List String
  | leaf l => [indent ++ l.token.kind.label ++ " " ++ quoted l.token.text]
  | node _ r _ cs => (indent ++ r.label) :: outlineOfAll (indent ++ "  ") cs

def outlineOfAll (indent : String) : List Tree → List String
  | [] => []
  | t :: ts => outline indent t ++ outlineOfAll indent ts

end

end Tree

/-- A place in a tree: the subtree there and the nodes above it, the innermost first. -/
structure Cursor where
  tree : Tree
  above : List Tree
deriving Repr, Inhabited

namespace Cursor

/-- The subtree and the nodes above it. -/
def ancestors (c : Cursor) : List Tree := c.tree :: c.above

def parent? (c : Cursor) : Option Tree := c.above.head?

/-- The innermost subtree that holds the place and stands for a rule. -/
def enclosing? (c : Cursor) (r : Rule) : Option Tree :=
  c.ancestors.find? (·.rule? == some r)

end Cursor

namespace Tree

mutual

/-- The cursors of a tree that has the nodes `above` above it. -/
def cursorsUnder (above : List Tree) : Tree → List Cursor
  | leaf l => [⟨leaf l, above⟩]
  | node i r s cs => ⟨node i r s cs, above⟩ :: cursorsOfAll (node i r s cs :: above) cs

def cursorsOfAll (above : List Tree) : List Tree → List Cursor
  | [] => []
  | t :: ts => cursorsUnder above t ++ cursorsOfAll above ts

end

/-- Every place in a tree. -/
def cursors (t : Tree) : List Cursor := t.cursorsUnder []

/-- The place whose subtree has a number. -/
def cursor? (t : Tree) (id : Nat) : Option Cursor := t.cursors.find? (·.tree.id == id)

end Tree

/-- The tree of a text with the whole stream of its tokens, those included that the parser does
not see. -/
structure SyntaxTree where
  root : Tree
  tokens : List Token
deriving Repr, Inhabited

namespace SyntaxTree

/-- The number of leaves and nodes. -/
def size (t : SyntaxTree) : Nat := t.root.subtrees.length

/-- The place whose subtree has a number. -/
def cursor? (t : SyntaxTree) (id : Nat) : Option Cursor := t.root.cursor? id

/-- The tree as lines of text. -/
def outline (t : SyntaxTree) : List String := t.root.outline ""

end SyntaxTree

end XuleLang
