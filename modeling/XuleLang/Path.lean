import XuleLang.Text.Split

/-!
Paths to files, as texts.

The parts of a path are separated by slashes, and one that begins with a slash is absolute. Parts
may be empty, and the part of one point stands for where one is: both say nothing, except that a
path may begin with a point to say that it is not absolute. Two points lead to the folder around.

No path is looked up here, so nothing is known about links.

## Safe paths

A path is safe if it cannot lead out of the folder that it is relative to: it says something, is
not absolute and never goes to the folder around. Neither does it hold a character that would
break a line, or begin with the letter of a drive.
-/

namespace XuleLang

/-- A path as it is written. -/
structure Path where
  text : List Char
deriving DecidableEq, Repr

namespace Path

def ofString (s : String) : Path := ⟨s.toList⟩

def toString (p : Path) : String := String.ofList p.text

def isAbsolute (p : Path) : Bool := p.text.head? == some '/'

/-- The parts between slashes, whether they say anything or not. -/
def parts (p : Path) : List (List Char) := splitWhere (· == '/') p.text

/-- Whether a part says nothing. -/
def isSilent (part : List Char) : Bool := part == [] || part == ['.']

/-- The parts that say something. -/
def names (p : Path) : List (List Char) := p.parts.filter fun part => !isSilent part

/-- Whether a path begins with a part of one point. -/
def startsHere (p : Path) : Bool := p.parts.head? == some ['.']

/-- Whether two paths say the same. -/
def sameAs (p q : Path) : Bool :=
  p.isAbsolute == q.isAbsolute && p.startsHere == q.startsHere && p.names == q.names

/-- A path seen from a folder. An absolute one is the same from everywhere. -/
def join (folder p : Path) : Path :=
  if p.isAbsolute then p
  else if folder.text == [] || folder.text.getLast? == some '/' then ⟨folder.text ++ p.text⟩
  else ⟨folder.text ++ '/' :: p.text⟩

/-- Parts without those at the end that say nothing. -/
def dropSilent (parts : List (List Char)) : List (List Char) :=
  (parts.reverse.dropWhile isSilent).reverse

/-- The folder that an absolute path lies in, unless it is the outermost one. -/
def parent? (p : Path) : Option Path :=
  match dropSilent p.parts with
  | [] => none
  | part :: parts =>
    match dropSilent (part :: parts).dropLast with
    | [] => some ⟨['/']⟩
    | folder => some ⟨joinWith '/' folder⟩

/-- Whether a path stays inside the folder that it is relative to. -/
def isSafe (p : Path) : Bool :=
  p.text != [] && !p.isAbsolute && !p.parts.contains ['.', '.'] &&
    !p.text.any (fun c => c == '\x00' || c == '\n' || c == '\r' || c == '\t') &&
    !(match p.text with
      | c :: ':' :: _ => c.toNat < 0x80
      | _ => false)

end Path

end XuleLang
