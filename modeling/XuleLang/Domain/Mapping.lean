import XuleLang.Domain.MappingTable
import XuleLang.Text.LowerCase

/-!
What is written for a character of a domain name.

A name may be given in any case and in many kinds of letters, and it is the same name as long as
the same is written for it. Characters that are no part of names have nothing written for them,
and some are left out. What is written consists of characters that are written as they are.
-/

namespace XuleLang.Domain

/-- Reads words of which every one is about the character behind the one before. -/
def readMappings (next : Nat) : List (List Char) → Table (List Nat)
  | [] => []
  | word :: words =>
    if word.getLast? = some ':' then readMappings (numberOf word.dropLast) words
    else
      let (targets, count) := match splitAtMark '*' word with
        | (targets, some count) => (targets, numberOf count)
        | (targets, none) => (targets, 1)
      ⟨next, next + (count - 1), (splitWhere (· == '+') targets).map numberOf⟩ ::
        readMappings (next + count) words

/-- The characters that may be given for a name. -/
def known : Table Unit := .ofText (fun _ => ()) knownText

/-- The characters that are left out. -/
def ignored : Table Unit := .ofText (fun _ => ()) ignoredText

/-- The characters that are written in others. -/
def mappings : Table (List Nat) := readMappings 0 (wordsOf mappingText)

/-- What is written for a character, or `none` if it is no part of names. -/
def written? (c : Char) : Option (List Char) :=
  if !known.holds c then none
  else if ignored.holds c then some []
  else
    match mappings.row? c with
    | some ⟨first, _, [target]⟩ => some [Char.ofNat (target + (c.toNat - first))]
    | some ⟨_, _, targets⟩ => some (targets.map Char.ofNat)
    | none => some (lowerCase c)

/-- What is written for a text, if all its characters are parts of names. -/
def writtenAll? (cs : List Char) : Option (List Char) := (cs.mapM written?).map List.flatten

/-- Whether a character is written as it is. -/
def isPlain (c : Char) : Bool := written? c == some [c]

end XuleLang.Domain
