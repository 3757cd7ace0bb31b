import XuleLang.Vocabulary.Standard
import Mathlib.Data.List.Basic

/-!
Vocabularies in tables.

To be asked fast, the names of a kind are kept twice: in a list, which has their order, and in a
hash table. The signatures are in another table.

A module may make any additions when it is registered. The modules of the language add functions
and then other names.
-/

namespace XuleLang

/-- The kinds in the order in which they are listed. -/
def NameKind.all : List NameKind :=
  [.function, .property, .outputAttribute, .navigationDirection, .returnOption, .keywordLiteral]

deriving instance Hashable for NameKind

/-- What is added at a time: a name, names of one kind, or a function with its signature. -/
inductive Addition where
  | name (k : NameKind) (name : String)
  | names (k : NameKind) (names : List String)
  | function (name signature : String)
deriving DecidableEq, Repr

/-- What a module adds when it is registered. -/
def NameModule.additions (m : NameModule) : List Addition :=
  m.functions.map (fun f => .function f.1 f.2) ++ m.names.map fun n => .name n.1 n.2

namespace Vocabulary

/-- Adds what is given. -/
def make (v : Vocabulary) : Addition → Vocabulary
  | .name k name => v.add k name
  | .names k names => v.addAll k names
  | .function name signature => v.addFunction name signature

/-- Registers a module that makes some additions, unless one of its name was registered before. -/
def registerAs (v : Vocabulary) (name : String) (additions : List Addition) :
    Except RegistrationError Vocabulary :=
  if v.modules.contains name then .error ⟨name⟩
  else
    let v := additions.foldl make v
    .ok { v with modules := v.modules ++ [name] }

end Vocabulary

/-! ## Names kept twice -/

/-- Names in their order, and in a table for asking. -/
structure NameList where
  ordered : List String
  index : Std.HashSet String

namespace NameList

def empty : NameList := ⟨[], ∅⟩

/-- Puts a name behind the others, unless the table has it. -/
def insert (l : NameList) (name : String) : NameList :=
  if l.index.contains name then l else ⟨l.ordered ++ [name], l.index.insert name⟩

end NameList

/-! ## Tables -/

/-- The names known without a declaration, in tables. -/
structure VocabularyTables where
  lists : Std.HashMap NameKind NameList
  signatures : Std.HashMap String String
  modules : List String

namespace VocabularyTables

/-- Nothing is known. There is a list for each kind. -/
def empty : VocabularyTables :=
  ⟨NameKind.all.foldl (fun lists k => lists.insert k .empty) ∅, ∅, []⟩

def names (t : VocabularyTables) (k : NameKind) : List String :=
  (t.lists[k]?.map (·.ordered)).getD []

def contains (t : VocabularyTables) (k : NameKind) (name : String) : Bool :=
  t.lists[k]?.any (·.index.contains name)

def signature? (t : VocabularyTables) (function : String) : Option String := t.signatures[function]?

def add (t : VocabularyTables) (k : NameKind) (name : String) : VocabularyTables :=
  match t.lists[k]? with
  | some l => { t with lists := t.lists.insert k (l.insert name) }
  | none => t

def addAll (t : VocabularyTables) (k : NameKind) (names : List String) : VocabularyTables :=
  names.foldl (·.add k ·) t

def addFunction (t : VocabularyTables) (name signature : String) : VocabularyTables :=
  let t := t.add .function name
  { t with signatures := t.signatures.insert name signature }

/-- Adds what is given. -/
def make (t : VocabularyTables) : Addition → VocabularyTables
  | .name k name => t.add k name
  | .names k names => t.addAll k names
  | .function name signature => t.addFunction name signature

/-- Registers a module that makes some additions. With the tables as they are then comes what went
wrong. -/
def register (t : VocabularyTables) (name : String) (additions : List Addition) :
    VocabularyTables × Option RegistrationError :=
  if t.modules.contains name then (t, some ⟨name⟩)
  else
    let t := additions.foldl make t
    ({ t with modules := t.modules ++ [name] }, none)

/-- Registers modules up to the first that fails. -/
def registerAll (t : VocabularyTables) : List NameModule →
    VocabularyTables × Option RegistrationError
  | [] => (t, none)
  | m :: ms =>
    match t.register m.name m.additions with
    | (t, none) => t.registerAll ms
    | (t, some e) => (t, some e)

/-- Registers the modules of the language. -/
def registerStandard (t : VocabularyTables) : VocabularyTables × Option RegistrationError :=
  t.registerAll Vocabulary.standardModules

end VocabularyTables

end XuleLang
