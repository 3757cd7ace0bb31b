import XuleLang.Syntax.Tree

/-!
Carets: which leaf of a tree is under a line and column, and where candidates are asked for.

The first leaf that a caret touches counts, at both of its ends. An empty leaf is touched only where
it stands. A caret that touches no leaf belongs to the last one that ends before it, and where
there is none, to the root.

Candidates are asked for at a token that the caret stands in. At the start of a token they are
asked for at the one before it, and at the end at the one behind it, unless the token reads as a
name, which a caret may complete.
-/

namespace XuleLang

/-- The length of a line and of the break behind it. -/
structure LineWidth where
  width : Nat
  breakWidth : Nat
deriving DecidableEq, Repr

/-- The lines of a text, the first of which has `width` characters before it. -/
def lineWidths (width : Nat) : List Char → List LineWidth
  | [] => [⟨width, 0⟩]
  | '\r' :: '\n' :: cs => ⟨width, 2⟩ :: lineWidths 0 cs
  | c :: cs =>
    if c == '\n' || c == '\r' then ⟨width, 1⟩ :: lineWidths 0 cs else lineWidths (width + 1) cs

/-- The number of characters before a line and column in a text of some lines, the first of which
is number `first` and begins at column `firstColumn`. A column behind the end of its line stands
for the end; nothing if the line is not among them. -/
def offsetInLines (first firstColumn : Nat) (line column : Nat) : List LineWidth → Option Nat
  | [] => none
  | l :: ls =>
    if first = line then some (min (column - firstColumn) l.width)
    else (offsetInLines (first + 1) 1 line column ls).map (l.width + l.breakWidth + ·)

/-- The number of characters of a token before a line and column that touches it. -/
def Token.offsetAt? (t : Token) (line column : Nat) : Option Nat :=
  let s := t.span
  if s.isEmpty then
    if s.start.line = line ∧ s.start.column = column then some 0 else none
  else if s.touches line column then
    offsetInLines s.start.line s.start.column line column (lineWidths 0 t.text.toList)
  else none

/-- A leaf under a caret. -/
structure Hit where
  leaf : Leaf
  /-- The number of characters of the token before the caret. -/
  offset : Nat
  /-- False if the leaf only ends before the caret. -/
  touching : Bool
deriving DecidableEq, Repr

namespace Tree

/-- The last leaf that ends at or before a line and column. -/
def lastBefore? (t : Tree) (line column : Nat) : Option Hit :=
  (t.leaves.reverse.find? (·.token.span.stop.isAtOrBefore line column)).map fun l =>
    ⟨l, l.token.charCount, false⟩

mutual

/-- The leaf of a tree that a line and column touches or lies behind. -/
def hit? (line column : Nat) : Tree → Option Hit
  | leaf l => (l.token.offsetAt? line column).map (⟨l, ·, true⟩)
  | node id rule span children =>
    match span with
    | none => none
    | some s =>
      if s.touches line column then
        match hitAmong? line column children with
        | some h => some h
        | none => (node id rule span children).lastBefore? line column
      else none

def hitAmong? (line column : Nat) : List Tree → Option Hit
  | [] => none
  | t :: ts =>
    match hit? line column t with
    | some h => some h
    | none => hitAmong? line column ts

end

end Tree

/-- A caret in a tree. -/
structure Caret where
  /-- The leaf it belongs to; none if it stands before all of them. -/
  leaf : Option Leaf
  /-- The number of characters of the leaf before it. -/
  offset : Nat
  /-- The number of the token at which candidates are asked for. -/
  tokenIndex : Nat
deriving DecidableEq, Repr

/-- The number of the token at which candidates are asked for, where the last token of the stream
has the number `last`. -/
def Hit.tokenIndex (h : Hit) (last : Nat) : Nat :=
  let t := h.leaf.token
  let next := min (t.index + 1) last
  if !h.touching then next
  else if t.kind.isIdentifierLike then t.index
  else if h.offset = 0 then t.index - 1
  else if t.charCount ≤ h.offset then next
  else t.index

/-- The caret at a line and column, which must lie in the text. -/
def SyntaxTree.caretAt? (t : SyntaxTree) (line column : Nat) : Option Caret := do
  let span ← t.root.span?
  guard (span.touches line column)
  match t.root.hit? line column with
  | some h => return ⟨some h.leaf, h.offset, h.tokenIndex (t.tokens.length - 1)⟩
  | none => return ⟨none, 0, 0⟩

/-- The place of a caret in its tree. -/
def SyntaxTree.caretCursor (t : SyntaxTree) (c : Caret) : Cursor :=
  (c.leaf.bind fun l => t.cursor? l.id).getD ⟨t.root, []⟩

end XuleLang
