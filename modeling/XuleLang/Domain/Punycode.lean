import XuleLang.Text.Split

/-!
Labels in ASCII letters.

A label with other characters has a form in ASCII letters and digits alone. Those of its characters
that are in ASCII come first, with a hyphen behind them, and the others follow as numbers: in the
order of the characters, and for each character in the order of its places. Each number says how
many pairs of a character and a place are passed over since the one before.

A number is written in digits of which the last one is known by being small. How small it has to be
follows the numbers that were written before, so that numbers of the usual size are short.
-/

namespace XuleLang.Domain.Punycode

/-- The number of digits. -/
def base : Nat := 36

/-- The character of a digit: letters come before numerals. -/
def digit (n : Nat) : Char :=
  if n < 26 then Char.ofNat ('a'.toNat + n) else Char.ofNat ('0'.toNat + (n - 26))

/-- The value of a digit. -/
def digit? (c : Char) : Option Nat :=
  if c.isLower then some (c.toNat - 'a'.toNat)
  else if c.isUpper then some (c.toNat - 'A'.toNat)
  else if c.isDigit then some (c.toNat - '0'.toNat + 26)
  else none

/-- Below what the last digit is, if it is the digit at this place. -/
def threshold (place bias : Nat) : Nat := min 26 (max 1 (base * place - bias))

theorem threshold_pos (place bias : Nat) : 0 < threshold place bias := by
  unfold threshold; omega

theorem threshold_le (place bias : Nat) : threshold place bias ≤ 26 := by
  unfold threshold; omega

/-- The bias that a number of this size would have suited. -/
def biasFor (steps n : Nat) : Nat :=
  if 455 < n then biasFor (steps + base) (n / 35) else steps + base * n / (n + 38)
termination_by n
decreasing_by omega

/-- The bias after a number. It was written when there were so many characters, with its own. -/
def biasAfter (n count : Nat) (isFirst : Bool) : Nat :=
  let damped := if isFirst then n / 700 else n / 2
  biasFor 0 (damped + damped / count)

/-- The bias at the start. -/
def firstBias : Nat := 72

/-! ## Writing -/

/-- The digits of a number from a place on. -/
def digitsOf (bias place n : Nat) : List Char :=
  let t := threshold place bias
  if n < t then [digit n]
  else digit (t + (n - t) % (base - t)) :: digitsOf bias (place + 1) ((n - t) / (base - t))
termination_by n
decreasing_by
  have := threshold_pos place bias
  exact Nat.lt_of_le_of_lt (Nat.div_le_self _ _) (by omega)

/-- What is known when a label is written: the pairs that are passed over, the bias, the number of
characters that are written, and whether no number is. -/
structure Writer where
  passed : Nat
  bias : Nat
  count : Nat
  isFirst : Bool
deriving Repr

/-- Writes the numbers of a character at the places in a label where it is. -/
def writePlaces (character : Nat) : List Char → Writer → List Char × Writer
  | [], w => ([], w)
  | c :: cs, w =>
    if c.toNat < character then writePlaces character cs { w with passed := w.passed + 1 }
    else if c.toNat = character then
      let next : Writer := ⟨0, biasAfter w.passed (w.count + 1) w.isFirst, w.count + 1, false⟩
      let (digits, last) := writePlaces character cs next
      (digitsOf w.bias 1 w.passed ++ digits, last)
    else writePlaces character cs w

/-- Writes the numbers of characters that are given in order. Those before `next` are done. -/
def writeCharacters (label : List Char) (next : Nat) : List Nat → Writer → List Char
  | [], _ => []
  | n :: ns, w =>
    let reached := { w with passed := w.passed + (n - next) * (w.count + 1) }
    let (digits, after) := writePlaces n label reached
    digits ++ writeCharacters label (n + 1) ns { after with passed := after.passed + 1 }

/-- Whether a character is in ASCII. -/
def isAscii (c : Char) : Bool := c.toNat < 0x80

/-- The form of a label in ASCII. -/
def encode (label : List Char) : List Char :=
  let plain := label.filter isAscii
  let others := ((label.filter (!isAscii ·)).map Char.toNat).eraseDups.mergeSort (· ≤ ·)
  (if plain.isEmpty then [] else plain ++ ['-']) ++
    writeCharacters label 0x80 others ⟨0, firstBias, plain.length, true⟩

/-! ## Reading -/

/-- Reads a number from a place on, at which a digit has the given weight, and gives what is behind
it. -/
def readNumber? (bias place weight : Nat) : List Char → Option (Nat × List Char)
  | [] => none
  | c :: cs => do
    let d ← digit? c
    let t := threshold place bias
    if d < t then return (d * weight, cs)
    let (n, rest) ← readNumber? bias (place + 1) (weight * (base - t)) cs
    return (d * weight + n, rest)

theorem length_lt_of_readNumber? {bias place weight : Nat} {cs rest : List Char} {n : Nat}
    (h : readNumber? bias place weight cs = some (n, rest)) : rest.length < cs.length := by
  induction cs generalizing place weight n with
  | nil => simp [readNumber?] at h
  | cons c cs ih =>
    simp only [readNumber?, Option.bind_eq_bind, Option.bind_eq_some_iff] at h
    obtain ⟨d, -, h⟩ := h
    split at h
    · cases h; simp
    · simp only [Option.bind_eq_some_iff] at h
      obtain ⟨⟨m, rest'⟩, hm, h⟩ := h
      cases h
      exact Nat.lt_succ_of_lt (ih hm)

/-- Puts characters into a label whose places before `place` are done with the character `n`. -/
def readCharacters? (label : List Char) (n place bias : Nat) (isFirst : Bool) (cs : List Char) :
    Option (List Char) :=
  if cs.isEmpty then some label
  else
    match h : readNumber? bias 1 1 cs with
    | none => none
    | some (passed, rest) =>
      let count := label.length + 1
      let next := n + (place + passed) / count
      let here := (place + passed) % count
      if next.isValidChar then
        readCharacters? (label.insertIdx here (Char.ofNat next)) next (here + 1)
          (biasAfter passed count isFirst) false rest
      else none
termination_by cs.length
decreasing_by exact length_lt_of_readNumber? h

/-- The label that a form in ASCII stands for. A hyphen at the front is no mark behind
characters. -/
def decode? (cs : List Char) : Option (List Char) :=
  match splitAtLastMark '-' cs with
  | some ([], _) => none
  | some (plain, numbers) => readCharacters? plain 0x80 0 firstBias true numbers
  | none => readCharacters? [] 0x80 0 firstBias true cs

end XuleLang.Domain.Punycode
