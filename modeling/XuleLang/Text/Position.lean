/-!
Places and stretches in a text.

A position counts lines and columns from one and also keeps the number of characters before it.
A line ends at a line feed, at a carriage return followed by a line feed (on the line feed), and at
a carriage return that stands alone; no other character ends one. `Position.advance` walks a
position over characters, and `positionAt` is that walk from the start of a text.

A span runs from one position up to another, which it does not include. Its two ends are compared
by offset where spans are joined, and by line and column where a caret is looked for.
-/

namespace XuleLang

/-- A place in a text: its line and column, both counted from one, and the number of characters
before it. -/
structure Position where
  line : Nat
  column : Nat
  offset : Nat
deriving DecidableEq, Repr, Inhabited, Ord

/-- A character ends its line if it is a line feed, or a carriage return that no line feed
follows. -/
def breaksLine (c : Char) (next : Option Char) : Bool :=
  c == '\n' || (c == '\r' && next != some '\n')

namespace Position

/-- The place before the first character of a text. -/
def start : Position := ⟨1, 1, 0⟩

/-- The place after the character `c` that stands at `p`, where `next` is the character behind
it. -/
def step (p : Position) (c : Char) (next : Option Char) : Position :=
  if breaksLine c next then ⟨p.line + 1, 1, p.offset + 1⟩ else ⟨p.line, p.column + 1, p.offset + 1⟩

/-- The place after the first `n` of the characters `cs`, which begin at `p`; the end of `cs` if
there are fewer. -/
def advance (p : Position) : List Char → Nat → Position
  | _, 0 => p
  | [], _ + 1 => p
  | c :: cs, n + 1 => (p.step c cs.head?).advance cs n

/-- Compares by line and column only. -/
def isAtOrBefore (p : Position) (line column : Nat) : Bool :=
  p.line < line || (p.line == line && p.column ≤ column)

/-- Compares by line and column only, strictly. -/
def isBefore (p : Position) (line column : Nat) : Bool :=
  p.line < line || (p.line == line && p.column < column)

/-- Compares by line and column only, from the other side. -/
def isAtOrAfter (p : Position) (line column : Nat) : Bool :=
  line < p.line || (line == p.line && column ≤ p.column)

/-- Written as line and column with a colon between them. -/
def display (p : Position) : String :=
  toString p.line ++ ":" ++ toString p.column

end Position

/-- The place after `offset` characters of the text `cs`. An offset behind the end has the line
and column of the end, and keeps its own number. -/
def positionAt (cs : List Char) (offset : Nat) : Position :=
  let p := Position.start.advance cs offset
  ⟨p.line, p.column, offset⟩

/-- A stretch of text from `start` up to `stop`, which is not part of it. -/
structure Span where
  start : Position
  stop : Position
deriving DecidableEq, Repr, Inhabited

namespace Span

/-- The empty stretch at one place. -/
def single (p : Position) : Span := ⟨p, p⟩

/-- A span is empty if its ends have one offset. -/
def isEmpty (s : Span) : Bool := s.start.offset == s.stop.offset

/-- The number of characters from the one end to the other. -/
def length (s : Span) : Nat := s.stop.offset - s.start.offset

/-- The smallest span that holds both, judged by offsets; of equal ends the first span's is
taken. -/
def cover (s t : Span) : Span :=
  ⟨if t.start.offset < s.start.offset then t.start else s.start,
   if s.stop.offset < t.stop.offset then t.stop else s.stop⟩

/-- A line and column touches a span if it lies in it or at one of its two ends. -/
def touches (s : Span) (line column : Nat) : Bool :=
  s.start.isAtOrBefore line column && s.stop.isAtOrAfter line column

/-- A span on one line is written with the line once. -/
def display (s : Span) : String :=
  if s.start.line = s.stop.line then s.start.display ++ "-" ++ toString s.stop.column
  else s.start.display ++ "-" ++ s.stop.display

/-- The smallest span that holds every span of a list, and none for the empty list. -/
def coverAll : List Span → Option Span
  | [] => none
  | s :: rest => some (rest.foldl cover s)

end Span

/-- Something said about a text, with the stretch that it is about, if it is about one. -/
structure Located (α : Type) where
  what : α
  span : Option Span
deriving DecidableEq, Repr

namespace Located

variable {α : Type}

/-- About the empty stretch at a place. -/
def atPosition (what : α) (p : Position) : Located α := ⟨what, some (.single p)⟩

/-- The key by which remarks are ordered: where the stretch starts, and zero without one. -/
def startOffset (r : Located α) : Nat := (r.span.map (·.start.offset)).getD 0

/-- Puts remarks into the order of their stretches; those that start at one offset keep their
order. -/
def sort (rs : List (Located α)) : List (Located α) :=
  rs.mergeSort fun a b => a.startOffset ≤ b.startOffset

/-- Joins what two readers of one text remarked: a remark of the second on a stretch on which the
first remarked already is dropped, and the rest is ordered by stretch. -/
def merge (first second : List (Located α)) : List (Located α) :=
  let reported := first.filterMap (·.span)
  let kept := second.filter fun r => match r.span with
    | some s => !reported.contains s
    | none => true
  sort (first ++ kept)

/-- The remark as a text, followed by its stretch. -/
def display (text : α → String) (r : Located α) : String :=
  match r.span with
  | some s => text r.what ++ " at " ++ s.display
  | none => text r.what

end Located

end XuleLang
