/-!
How alike two texts are, after Jaro and Winkler.

Equal characters that stand not too far apart are matched, each with the first one that is free.
The likeness is the mean of three parts: the share of the first text that is matched, that of the
second, and the share of the matches that are in order. Texts that are alike gain by a common
beginning of up to four characters.
-/

namespace XuleLang

/-- The first place in `hay` between two bounds that holds `c` and is not taken. -/
def freePlace? (c : Char) (low high : Nat) (taken : List Nat) (hay : List Char) : Option Nat :=
  hay.zipIdx.findSome? fun (h, j) =>
    if h == c && low ≤ j && j < high && !taken.contains j then some j else none

/-- Matches characters in order: each of `cs`, the first of which stands at place `i`, takes the
first free place of an equal character of `hay` that is at most `range` away. Gives the characters
matched and the places taken, the latest first. -/
def matchUp (range : Nat) (hay : List Char) :
    List Char → Nat → List Char × List Nat → List Char × List Nat
  | [], _, found => found
  | c :: cs, i, (matched, taken) =>
    match freePlace? c (i - range) (i + range + 1) taken hay with
    | some j => matchUp range hay cs (i + 1) (c :: matched, j :: taken)
    | none => matchUp range hay cs (i + 1) (matched, taken)

/-- The likeness without regard to a common beginning. -/
def jaro (a b : List Char) : Float :=
  if a.isEmpty && b.isEmpty then 1.0
  else
    let range := max a.length b.length / 2 - 1
    let (matched, taken) := matchUp range b a 0 ([], [])
    let matchedB := (b.zipIdx.filter fun (_, j) => taken.contains j).map (·.1)
    let mismatched := ((matched.reverse.zip matchedB).filter fun (x, y) => x != y).length
    if matched.isEmpty then 0.0
    else
      let m := Float.ofNat matched.length
      let t := Float.ofNat (mismatched / 2)
      (m / Float.ofNat a.length + m / Float.ofNat b.length + (m - t) / m) / 3.0

/-- The length of the common beginning of two texts. -/
def commonLength : List Char → List Char → Nat
  | a :: as, b :: bs => if a == b then commonLength as bs + 1 else 0
  | _, _ => 0

/-- How alike two texts are, between zero and one. -/
def jaroWinkler (a b : List Char) : Float :=
  let likeness := jaro a b
  if likeness > 0.7 then
    likeness + 0.1 * Float.ofNat (min 4 (commonLength a b)) * (1.0 - likeness)
  else likeness

end XuleLang
