/-!
Hexadecimal numbers.

Digits beyond nine are read in either case. They are written in lower case, but percent signs are
followed by upper case, so there is a digit of each sort.
-/

namespace XuleLang

/-- The value of a hexadecimal digit. -/
def hexDigit? (c : Char) : Option Nat :=
  if c.isDigit then some (c.toNat - '0'.toNat)
  else if 'a' ≤ c ∧ c ≤ 'f' then some (c.toNat - 'a'.toNat + 10)
  else if 'A' ≤ c ∧ c ≤ 'F' then some (c.toNat - 'A'.toNat + 10)
  else none

/-- A number below sixteen as a digit in lower case. -/
def hexDigit (n : Nat) : Char :=
  if n < 10 then Char.ofNat ('0'.toNat + n) else Char.ofNat ('a'.toNat + (n - 10))

/-- A number below sixteen as a digit in upper case. -/
def upperHexDigit (n : Nat) : Char :=
  if n < 10 then Char.ofNat ('0'.toNat + n) else Char.ofNat ('A'.toNat + (n - 10))

/-- The number that digits in a base mean, if each is one and there is any. -/
def digitsInBase? (base : Nat) (cs : List Char) : Option Nat :=
  if cs.isEmpty then none
  else
    cs.foldlM (fun n c => do
      let d ← hexDigit? c
      guard (d < base)
      return base * n + d) 0

/-- The digits of a number in lower case, without zeros at the front. -/
def hexDigits (n : Nat) : List Char := Nat.toDigits 16 n

end XuleLang
