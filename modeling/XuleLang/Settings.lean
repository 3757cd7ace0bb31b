import XuleLang.Analysis.Check
import XuleLang.Json

/-!
Settings: what the user of an editor may choose.

Settings are written in JSON in four sections. A section is an object, or the list of the values
of its fields in order, of which the last ones may be missing. A field that is missing has its
standard value, and an object may have others. Anything else that is out of place makes the
settings as a whole unreadable. In place of all settings `null` stands for the standard ones.
-/

namespace XuleLang

/-- What the user of an editor may choose. -/
structure Settings where
  /-- Whether every validation is logged. -/
  verbose : Bool
  checks : CheckSettings
  /-- Files with namespaces. -/
  definitions : List String
  /-- Files that every document imports. -/
  autoImports : List String
deriving DecidableEq, Repr

namespace Settings

/-- Nothing is logged, everything is checked, and no other files are read. -/
def standard : Settings := ⟨false, .all, [], []⟩

/-- What is said about settings that cannot be read. -/
def unreadable : String := "invalid `xule` settings"

/-- The fields of a section, of which the names are given in order. -/
def openSection (names : List String) : Json → Option (String → Option Json)
  | .object members => some fun name => members.lookup name
  | .array items =>
    if items.length ≤ names.length then some fun name => (names.zip items).lookup name else none
  | _ => none

/-- What a field says, or its standard value if it is missing. -/
def fieldOr {α : Type} (standard : α) (read : Json → Option α) : Option Json → Option α
  | none => some standard
  | some j => read j

/-- Reads a list of texts. -/
def texts? : Json → Option (List String)
  | .array items => items.mapM fun
    | .string s => some s
    | _ => none
  | _ => none

/-- Reads a switch, which is on unless it is off. -/
def switch? : Json → Option Bool
  | .null => some true
  | .bool b => some b
  | _ => none

/-- The word for how much is logged. -/
def verboseOfWord? : String → Option Bool
  | "off" => some false
  | "verbose" => some true
  | _ => none

/-- Reads how much is logged: a word, or an object with `null` under the word. -/
def verbose? : Json → Option Bool
  | .string word => verboseOfWord? word
  | .object [(word, .null)] => verboseOfWord? word
  | _ => none

/-- Reads the section about the server. -/
def server? (j : Json) : Option Bool := do
  let field ← openSection ["debug"] j
  fieldOr false verbose? (field "debug")

/-- Reads the section about what is checked. -/
def checks? (j : Json) : Option CheckSettings := do
  let field ← openSection ["functions", "properties", "variables"] j
  return {
    functionNames := ← fieldOr true switch? (field "functions")
    propertyNames := ← fieldOr true switch? (field "properties")
    variableNames := ← fieldOr true switch? (field "variables") }

/-- Reads the section about namespaces. -/
def namespaces? (j : Json) : Option (List String) := do
  let field ← openSection ["definitions"] j
  fieldOr [] texts? (field "definitions")

/-- Reads all sections. -/
def sections? (j : Json) : Option Settings := do
  let field ← openSection ["server", "checks", "namespaces", "autoImports"] j
  return {
    verbose := ← fieldOr standard.verbose server? (field "server")
    checks := ← fieldOr standard.checks checks? (field "checks")
    definitions := ← fieldOr standard.definitions namespaces? (field "namespaces")
    autoImports := ← fieldOr standard.autoImports texts? (field "autoImports") }

/-- Reads settings. -/
def ofJson? : Json → Option Settings
  | .null => some standard
  | j => sections? j

/-- The settings after an editor was asked for them. Without an answer that can be read they are the
standard ones. -/
def ofAnswer (answer : Option Json) : Settings := (answer.bind ofJson?).getD standard

end Settings

end XuleLang
