import XuleLang.Text.Hexadecimal
import XuleLang.Text.Split

/-!
Addresses of hosts: numbers of 32 bits and of 128 bits.

The short ones are written as four bytes with points between them. They are read from up to four
numbers, of which the last one says all bytes that are not said by the others, in bases that show at
their front. A name whose last label is such a number cannot be anything but an address.

The long ones are written as eight pieces of 16 bits with colons between them, and the longest run
of zeros among these as two colons. The last two pieces may be given as a short address.
-/

namespace XuleLang

/-! ## Short addresses -/

/-- The base that a number is written in, and its digits. -/
def basedDigits : List Char → Nat × List Char
  | '0' :: 'x' :: ds => (16, ds)
  | '0' :: 'X' :: ds => (16, ds)
  | '0' :: d :: ds => (8, d :: ds)
  | ds => (10, ds)

/-- A number in the base that shows at its front. In base sixteen it may be without digits. -/
def basedNumber? (cs : List Char) : Option Nat :=
  match basedDigits cs with
  | (16, []) => some 0
  | (base, ds) => digitsInBase? base ds

/-- The labels of a name, without the empty one behind a point at the end. -/
def labelsOfName (name : List Char) : List (List Char) :=
  let labels := splitWhere (· == '.') name
  if labels.length > 1 && labels.getLast? == some [] then labels.dropLast else labels

/-- Whether the last label of a name is a number. -/
def endsInNumber (name : List Char) : Bool :=
  (labelsOfName name).getLast?.any fun label =>
    (!label.isEmpty && label.all Char.isDigit) || (basedNumber? label).isSome

/-- How many values so many bytes have. -/
def valuesOfBytes (count : Nat) : Nat := Nat.pow 256 count

/-- The address that numbers say: a byte each, and the last one all bytes that are left. -/
def addressOfNumbers? (numbers : List Nat) : Option Nat := do
  let last ← numbers.getLast?
  let bytes := numbers.dropLast
  let left := 4 - bytes.length
  guard (numbers.length ≤ 4 && bytes.all (· < 256) && last < valuesOfBytes left)
  return bytes.foldl (fun n b => n * 256 + b) 0 * valuesOfBytes left + last

/-- The short address that a name says. -/
def shortAddress? (name : List Char) : Option Nat := do
  addressOfNumbers? (← (labelsOfName name).mapM basedNumber?)

/-- The bytes of a short address. -/
def addressBytes (n : Nat) : List Nat := [3, 2, 1, 0].map fun place => n / valuesOfBytes place % 256

/-- A short address as it is written. -/
def shortAddressText (n : Nat) : List Char :=
  joinWith '.' ((addressBytes n).map (Nat.toDigits 10))

/-! ## Long addresses -/

/-- The number of pieces of a long address. -/
def pieceCount : Nat := 8

/-- A piece of a long address. -/
def piece? (cs : List Char) : Option Nat := if cs.length ≤ 4 then digitsInBase? 16 cs else none

/-- A byte in a long address, which has no zeros at its front. -/
def plainByte? (cs : List Char) : Option Nat := do
  guard (cs.length == 1 || cs.head? != some '0')
  let n ← digitsInBase? 10 cs
  guard (n < 256)
  return n

/-- Two pieces that are given as four bytes. -/
def dottedPieces? (cs : List Char) : Option (List Nat) := do
  match ← (splitWhere (· == '.') cs).mapM plainByte? with
  | [a, b, c, d] => return [a * 256 + b, c * 256 + d]
  | _ => none

/-- Pieces with colons between them; none if there is nothing. -/
def pieces? (cs : List Char) : Option (List Nat) :=
  if cs.isEmpty then some [] else (splitWhere (· == ':') cs).mapM piece?

/-- Pieces at the end of an address, of which the last ones may be given as bytes. -/
def lastPieces? (cs : List Char) : Option (List Nat) :=
  if cs.contains '.' then
    match splitAtLastMark ':' cs with
    | some (front, bytes) => do
      guard (!front.isEmpty)
      return (← pieces? front) ++ (← dottedPieces? bytes)
    | none => dottedPieces? cs
  else pieces? cs

/-- A text before and behind the first two colons in a row. -/
def splitAtColons : List Char → Option (List Char × List Char)
  | ':' :: ':' :: cs => some ([], cs)
  | c :: cs => (splitAtColons cs).map fun (before, behind) => (c :: before, behind)
  | [] => none

/-- The pieces of a long address. Two colons in a row stand for at least one zero. -/
def longAddress? (cs : List Char) : Option (List Nat) := do
  match splitAtColons cs with
  | some (before, behind) =>
    let first ← pieces? before
    let last ← lastPieces? behind
    guard (first.length + last.length < pieceCount)
    return first ++ List.replicate (pieceCount - (first.length + last.length)) 0 ++ last
  | none =>
    let pieces ← lastPieces? cs
    guard (pieces.length == pieceCount)
    return pieces

/-- The number of zeros at the front of pieces. -/
def zerosAhead (pieces : List Nat) : Nat := (pieces.takeWhile (· == 0)).length

/-- Where the longest run of zeros begins, the first one of several. -/
def longestZeros (pieces : List Nat) : Nat :=
  (List.range pieces.length).foldl
    (fun best i => if zerosAhead (pieces.drop best) < zerosAhead (pieces.drop i) then i else best) 0

/-- Pieces with colons between them. -/
def piecesText (pieces : List Nat) : List Char := joinWith ':' (pieces.map hexDigits)

/-- A long address as it is written. A zero that stands alone is written as it is. -/
def longAddressText (pieces : List Nat) : List Char :=
  let start := longestZeros pieces
  let count := zerosAhead (pieces.drop start)
  if count < 2 then piecesText pieces
  else piecesText (pieces.take start) ++ ':' :: ':' :: piecesText (pieces.drop (start + count))

end XuleLang
