/-!
Texts in parts.

A text falls into the stretches between characters that separate them, or into what is before and
behind the first mark. A stretch may be empty, and joining the stretches gives the text again.
-/

namespace XuleLang

/-- The stretches of a text between characters that separate them. There is always at least one. -/
def splitWhere (separates : Char → Bool) : List Char → List (List Char)
  | [] => [[]]
  | c :: cs =>
    if separates c then [] :: splitWhere separates cs
    else
      match splitWhere separates cs with
      | [] => [[c]]
      | part :: parts => (c :: part) :: parts

/-- Stretches with a character between them. -/
def joinWith (separator : Char) : List (List Char) → List Char
  | [] => []
  | [part] => part
  | part :: parts => part ++ separator :: joinWith separator parts

/-- A text before and behind the first `mark`. -/
def splitAtMark (mark : Char) (cs : List Char) : List Char × Option (List Char) :=
  match cs.dropWhile (· != mark) with
  | [] => (cs, none)
  | _ :: behind => (cs.takeWhile (· != mark), some behind)

/-- A text before and behind the last `mark`. -/
def splitAtLastMark (mark : Char) (cs : List Char) : Option (List Char × List Char) :=
  match cs.reverse.dropWhile (· != mark) with
  | [] => none
  | _ :: front => some (front.reverse, (cs.reverse.takeWhile (· != mark)).reverse)

end XuleLang
