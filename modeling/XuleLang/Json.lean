import XuleLang.Text.Hexadecimal

/-!
JSON values and how they are written.

A value is written over several lines: every item of a list and every member of an object has a
line of its own, two blanks further in than what encloses it. An empty list or object is written
on the spot. Members are written in the order in which they are listed.

In a string, a quotation mark, a backslash and the characters before the space are escaped, and
nothing else is.
-/

namespace XuleLang

/-- A JSON value. -/
inductive Json where
  | null
  | bool (b : Bool)
  | number (n : Int)
  /-- A number with so many places behind the point. -/
  | fraction (digits : Int) (places : Nat)
  | string (s : String)
  | array (items : List Json)
  | object (members : List (String × Json))
deriving Repr, Inhabited

namespace Json

/-- A list of values. -/
def ofList {α : Type} (item : α → Json) (items : List α) : Json := .array (items.map item)

/-- A character inside a string. -/
def escapedChar (c : Char) : List Char :=
  match c with
  | '"' => ['\\', '"']
  | '\\' => ['\\', '\\']
  | '\n' => ['\\', 'n']
  | '\r' => ['\\', 'r']
  | '\t' => ['\\', 't']
  | '\x08' => ['\\', 'b']
  | '\x0c' => ['\\', 'f']
  | c =>
    if c.toNat < 0x20 then
      ['\\', 'u', '0', '0', hexDigit (c.toNat / 16), hexDigit (c.toNat % 16)]
    else [c]

/-- A string between quotation marks. -/
def literal (s : String) : String :=
  String.ofList ('"' :: (s.toList.flatMap escapedChar ++ ['"']))

/-- A number with so many places behind the point. -/
def fractionText (digits : Int) (places : Nat) : String :=
  let all := Nat.toDigits 10 digits.natAbs
  let padded := List.replicate (places + 1 - all.length) '0' ++ all
  let whole := padded.length - places
  (if digits < 0 then "-" else "") ++
    String.ofList (padded.take whole ++ '.' :: padded.drop whole)

/-- The start of a line. -/
def lineStart (depth : Nat) : String := "\n" ++ String.ofList (List.replicate (2 * depth) ' ')

mutual

/-- The text of a value that stands `depth` levels deep. -/
def renderAt (depth : Nat) : Json → String
  | .null => "null"
  | .bool b => if b then "true" else "false"
  | .number n => toString n
  | .fraction digits places => fractionText digits places
  | .string s => literal s
  | .array [] => "[]"
  | .array (item :: items) =>
    "[" ++ renderItems (depth + 1) (item :: items) ++ lineStart depth ++ "]"
  | .object [] => "\x7b\x7d"
  | .object (member :: members) =>
    "\x7b" ++ renderMembers (depth + 1) (member :: members) ++ lineStart depth ++ "\x7d"

/-- The lines of items. -/
def renderItems (depth : Nat) : List Json → String
  | [] => ""
  | [item] => lineStart depth ++ renderAt depth item
  | item :: items => lineStart depth ++ renderAt depth item ++ "," ++ renderItems depth items

/-- The lines of members. -/
def renderMembers (depth : Nat) : List (String × Json) → String
  | [] => ""
  | [(key, value)] => lineStart depth ++ literal key ++ ": " ++ renderAt depth value
  | (key, value) :: members =>
    lineStart depth ++ literal key ++ ": " ++ renderAt depth value ++ "," ++
      renderMembers depth members

end

/-- The text of a value. -/
def render (j : Json) : String := j.renderAt 0

end Json

end XuleLang
