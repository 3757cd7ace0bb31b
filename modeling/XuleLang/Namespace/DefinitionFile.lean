import XuleLang.Namespace.Basic
import XuleLang.Text.Hexadecimal

/-!
Definition files: namespaces in JSON.

A definition file is an object whose keys are short names. Their values are objects whose keys are
URIs, with lists of local names as values. Nothing else may occur in the file, and a file with
anything wrong in it defines nothing. A key that occurs twice keeps its last value, and the
namespaces are ordered by short name and then by URI.

String literals are those of JSON: control characters must be escaped, and characters beyond the
first 65536 may be escaped as a pair of surrogates, neither of which may stand alone.
-/

namespace XuleLang

namespace DefinitionFile

/-- Reads a part of a file, and gives what is behind it. -/
abbrev Reader (α : Type) := List Char → Option (α × List Char)

/-- Blanks between the parts of a file. -/
def skipBlanks (cs : List Char) : List Char :=
  cs.dropWhile fun c => c == ' ' || c == '\n' || c == '\r' || c == '\t'

/-- Reads one character, perhaps behind blanks. -/
def expect (c : Char) (cs : List Char) : Option (List Char) :=
  match skipBlanks cs with
  | d :: rest => if d = c then some rest else none
  | [] => none

/-- The number of four hexadecimal digits. -/
def hexUnit? (a b c d : Char) : Option Nat := do
  return (((← hexDigit? a) * 16 + (← hexDigit? b)) * 16 + (← hexDigit? c)) * 16 + (← hexDigit? d)

/-- What a character behind a backslash stands for. -/
def escaped? : Char → Option Nat
  | '"' => some 0x22
  | '\\' => some 0x5C
  | '/' => some 0x2F
  | 'b' => some 0x08
  | 'f' => some 0x0C
  | 'n' => some 0x0A
  | 'r' => some 0x0D
  | 't' => some 0x09
  | _ => none

/-- The rest of a string literal as numbers of characters and of surrogates. -/
def literalUnits : Reader (List Nat)
  | [] => none
  | '"' :: cs => some ([], cs)
  | '\\' :: 'u' :: a :: b :: c :: d :: cs => do
    let unit ← hexUnit? a b c d
    let (units, rest) ← literalUnits cs
    return (unit :: units, rest)
  | '\\' :: e :: cs => do
    let unit ← escaped? e
    let (units, rest) ← literalUnits cs
    return (unit :: units, rest)
  | c :: cs => do
    guard (0x20 ≤ c.toNat)
    let (units, rest) ← literalUnits cs
    return (c.toNat :: units, rest)

/-- Joins pairs of surrogates; none may stand alone. -/
def joinSurrogates : List Nat → Option (List Char)
  | [] => some []
  | high :: rest =>
    if 0xD800 ≤ high ∧ high < 0xDC00 then
      match rest with
      | low :: rest =>
        if 0xDC00 ≤ low ∧ low < 0xE000 then
          (joinSurrogates rest).map
            (Char.ofNat (0x10000 + (high - 0xD800) * 0x400 + (low - 0xDC00)) :: ·)
        else none
      | [] => none
    else if 0xDC00 ≤ high ∧ high < 0xE000 then none
    else (joinSurrogates rest).map (Char.ofNat high :: ·)

/-- Reads a string literal. -/
def literal : Reader String := fun cs => do
  let cs ← expect '"' cs
  let (units, rest) ← literalUnits cs
  return (String.ofList (← joinSurrogates units), rest)

/-- Reads at most `fuel` items with commas between them, and what closes them. -/
def items {α : Type} (item : Reader α) (closing : Char) : Nat → Reader (List α)
  | 0, _ => none
  | fuel + 1, cs => do
    let (first, cs) ← item cs
    match skipBlanks cs with
    | ',' :: cs =>
      let (others, rest) ← items item closing fuel cs
      return (first :: others, rest)
    | c :: rest => if c = closing then return ([first], rest) else none
    | [] => none

/-- Reads items with commas between them, and what encloses them. -/
def enclosed {α : Type} (opening closing : Char) (item : Reader α) : Reader (List α) := fun cs => do
  let cs ← expect opening cs
  match expect closing cs with
  | some rest => return ([], rest)
  | none => items item closing cs.length cs

/-- Reads a list. -/
def listOf {α : Type} (item : Reader α) : Reader (List α) := enclosed '[' ']' item

/-- Reads a key and its value. -/
def member {α : Type} (value : Reader α) : Reader (String × α) := fun cs => do
  let (key, cs) ← literal cs
  let cs ← expect ':' cs
  let (v, rest) ← value cs
  return ((key, v), rest)

/-- Puts a value under a key into members in the order of their keys, in place of the value that
the key had. -/
def put {α : Type} (key : String) (value : α) : List (String × α) → List (String × α)
  | [] => [(key, value)]
  | (k, v) :: rest =>
    if key = k then (key, value) :: rest
    else if key < k then (key, value) :: (k, v) :: rest
    else (k, v) :: put key value rest

/-- Reads an object as members in the order of their keys. -/
def objectOf {α : Type} (value : Reader α) : Reader (List (String × α)) := fun cs => do
  let (members, rest) ← enclosed '\x7b' '\x7d' (member value) cs
  return (members.foldl (fun out m => put m.1 m.2 out) [], rest)

end DefinitionFile

open DefinitionFile in
/-- The namespaces of a definition file, if there is nothing wrong with it. -/
def NamespaceSet.ofDefinitionFile? (text : List Char) : Option NamespaceSet := do
  let (file, rest) ← objectOf (objectOf (listOf literal)) text
  guard (skipBlanks rest).isEmpty
  return ⟨file.flatMap fun (shortName, uris) =>
    uris.map fun (uri, names) => ⟨shortName, uri, names⟩⟩

end XuleLang
