import XuleLang.Text.Position

/-!
Places as an editor counts them.

An editor counts lines from zero, and places in a line in units of UTF-16, of which a character
takes one or two. Lines end where `breaksLine` says. `editorPositionAt` turns a number of
characters into such a place by walking there, and `offsetAt` goes the other way. A place need not
exist: a line behind the last stands for the end of the text, and what lies behind the end of a
line, or in the middle of a character, stands for the last place before it that does exist. The
position of a place in the text is counted by its lines (`positionOfEditor`).
-/

namespace XuleLang

/-- A place as an editor counts it, from zero and in UTF-16 units. -/
structure EditorPosition where
  line : Nat
  character : Nat
deriving DecidableEq, Repr, Inhabited

/-- A stretch between two places of an editor. -/
structure EditorRange where
  start : EditorPosition
  stop : EditorPosition
deriving DecidableEq, Repr, Inhabited

/-- The number of UTF-16 units of a character. -/
def utf16Width (c : Char) : Nat := if c.toNat < 0x10000 then 1 else 2

namespace EditorPosition

/-- The place after the character `c` that stands at `p`, where `next` is the character behind
it. -/
def step (p : EditorPosition) (c : Char) (next : Option Char) : EditorPosition :=
  if breaksLine c next then ⟨p.line + 1, 0⟩ else ⟨p.line, p.character + utf16Width c⟩

/-- The place after the first `n` of the characters `cs`, which begin at `p`. -/
def advance (p : EditorPosition) : List Char → Nat → EditorPosition
  | _, 0 => p
  | [], _ + 1 => p
  | c :: cs, n + 1 => (p.step c cs.head?).advance cs n

end EditorPosition

/-- The place after `offset` characters of a text, or at its end. -/
def editorPositionAt (cs : List Char) (offset : Nat) : EditorPosition :=
  (⟨0, 0⟩ : EditorPosition).advance cs offset

/-- The stretch of a span. -/
def editorRangeOf (cs : List Char) (s : Span) : EditorRange :=
  ⟨editorPositionAt cs s.start.offset, editorPositionAt cs s.stop.offset⟩

/-- What is left of a text after some line breaks, and the number of characters before it; nothing
if there are fewer breaks. The characters `cs` have `offset` others before them. -/
def dropLines (offset : Nat) : List Char → Nat → Option (Nat × List Char)
  | cs, 0 => some (offset, cs)
  | [], _ + 1 => none
  | c :: cs, n + 1 => dropLines (offset + 1) cs (if breaksLine c cs.head? then n else n + 1)

/-- The number of characters at the front that fit into some UTF-16 units and into the line. -/
def fittingLength : List Char → Nat → Nat
  | [], _ => 0
  | c :: cs, units =>
    if c == '\n' || c == '\r' || units < utf16Width c then 0
    else fittingLength cs (units - utf16Width c) + 1

/-- The number of characters before a place of an editor. -/
def offsetAt (cs : List Char) (p : EditorPosition) : Nat :=
  match dropLines 0 cs p.line with
  | some (offset, rest) => offset + fittingLength rest p.character
  | none => cs.length

/-- The number of line breaks among the first `n` of some characters, and `line` others before
them. -/
def lineFrom (line : Nat) : List Char → Nat → Nat
  | _, 0 => line
  | [], _ + 1 => line
  | c :: cs, n + 1 => lineFrom (if breaksLine c cs.head? then line + 1 else line) cs n

/-- The number of the line that an offset lies on, from zero. -/
def lineAt (cs : List Char) (offset : Nat) : Nat := lineFrom 0 cs offset

/-- The number of characters before a line; all of them if there is no such line. -/
def lineOffset (cs : List Char) (line : Nat) : Nat :=
  ((dropLines 0 cs line).map (·.1)).getD cs.length

/-- A place of an editor as a position in the text: the line that its offset lies on, and how far
behind the beginning of that line it is. -/
def positionOfEditor (cs : List Char) (p : EditorPosition) : Position :=
  let offset := offsetAt cs p
  let line := lineAt cs offset
  ⟨line + 1, offset - lineOffset cs line + 1, offset⟩

/-! ## Texts in pieces

An editor keeps a text in pieces, so that a change need not move all of it. A line that lies in one
piece is measured at once if its characters are plain, since each of them takes one unit; any other
line is walked along.
-/

/-- The line that a text begins with, and its line break. -/
def firstLine : List Char → List Char
  | [] => []
  | c :: cs => if breaksLine c cs.head? then [c] else c :: firstLine cs

/-- A line without its line break. -/
def trimBreak (line : List Char) : List Char :=
  (line.reverse.dropWhile fun c => c == '\n' || c == '\r').reverse

/-- Whether all characters are plain. -/
def isPlainLine (line : List Char) : Bool := line.all fun c => c.toNat < 128

/-- The number of characters of a plain line that fit into some UTF-16 units. -/
def plainFittingLength (line : List Char) (units : Nat) : Nat := min units (trimBreak line).length

/-- The number of characters before a place of an editor, where `inOnePiece` says of the number of
a line whether it lies in one piece. -/
def offsetInPieces (inOnePiece : Nat → Bool) (cs : List Char) (p : EditorPosition) : Nat :=
  match dropLines 0 cs p.line with
  | some (offset, rest) =>
    let line := firstLine rest
    offset + if inOnePiece p.line && isPlainLine line then plainFittingLength line p.character
      else fittingLength line p.character
  | none => cs.length

end XuleLang
