import XuleLang.Text.Hexadecimal
import XuleLang.Text.Split

/-!
Tables of characters.

A table says something of some characters, in rows that cover stretches of them in order. It is
written as a text of words with blanks between them, as short as tables of this size have to be. A
word is the number of a character in hexadecimal digits, or two of them with a hyphen between, and
what is said of the characters stands behind a colon. How that is to be read is up to the table.
-/

namespace XuleLang.Domain

/-- A row of a table: the characters from `first` to `last`, and what is said of them. -/
structure Row (α : Type) where
  first : Nat
  last : Nat
  value : α
deriving Repr

/-- Characters of which something is said. -/
abbrev Table (α : Type) := List (Row α)

/-- The first row for a character. -/
def Table.row? {α : Type} (t : Table α) (c : Char) : Option (Row α) :=
  t.find? fun r => r.first ≤ c.toNat && c.toNat ≤ r.last

/-- What a table says of a character. -/
def Table.value? {α : Type} (t : Table α) (c : Char) : Option α := (t.row? c).map (·.value)

/-- Whether a table says something of a character. -/
def Table.holds {α : Type} (t : Table α) (c : Char) : Bool := (t.row? c).isSome

/-! ## Reading -/

/-- The words of a text. -/
def wordsOf (text : String) : List (List Char) :=
  (splitWhere Char.isWhitespace text.toList).filter (!·.isEmpty)

/-- The number that a word says, which is written in hexadecimal digits. -/
def numberOf (word : List Char) : Nat := (digitsInBase? 16 word).getD 0

/-- The row that a word says. -/
def rowOf {α : Type} (read : List Char → α) (word : List Char) : Row α :=
  let (stretch, said) := match splitWhere (· == ':') word with
    | stretch :: said :: _ => (stretch, said)
    | _ => (word, [])
  match splitWhere (· == '-') stretch with
  | first :: last :: _ => ⟨numberOf first, numberOf last, read said⟩
  | _ => ⟨numberOf stretch, numberOf stretch, read said⟩

/-- The table that a text says. -/
def Table.ofText {α : Type} (read : List Char → α) (text : String) : Table α :=
  (wordsOf text).map (rowOf read)

end XuleLang.Domain
