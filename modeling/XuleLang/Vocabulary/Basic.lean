/-!
Vocabularies: the names known without a declaration.

A vocabulary holds names of six kinds, each name of a kind once and in the order in which the names
came, and the signatures of functions. Names come in modules. A module can be registered once;
registering another one of its name fails and changes nothing.
-/

namespace XuleLang

/-- What a known name is for. -/
inductive NameKind where
  | function | property | outputAttribute | navigationDirection | returnOption | keywordLiteral
deriving DecidableEq, Repr

/-- A named group of names: functions with their signatures, and names of any kind. -/
structure NameModule where
  name : String
  description : String
  functions : List (String × String)
  names : List (NameKind × String)
deriving DecidableEq, Repr

/-- The names known without a declaration. -/
structure Vocabulary where
  /-- The names with their kinds, in the order in which they came. -/
  entries : List (NameKind × String)
  /-- Functions with their signatures, the latest first. -/
  signatures : List (String × String)
  /-- The names of the modules registered, in order. -/
  modules : List String
deriving DecidableEq, Repr

/-- A module of this name was registered before. -/
structure RegistrationError where
  moduleName : String
deriving DecidableEq, Repr

/-- The failure in words. -/
def RegistrationError.message (e : RegistrationError) : String :=
  "Vocabulary module '" ++ e.moduleName ++ "' already registered"

namespace Vocabulary

/-- Nothing is known. -/
def empty : Vocabulary := ⟨[], [], []⟩

/-- The names of a kind, in the order in which they came. -/
def names (v : Vocabulary) (k : NameKind) : List String :=
  v.entries.filterMap fun e => if e.1 = k then some e.2 else none

/-- Whether a name of a kind is known. -/
def contains (v : Vocabulary) (k : NameKind) (name : String) : Bool := v.entries.contains (k, name)

/-- The signature of a function. -/
def signature? (v : Vocabulary) (function : String) : Option String := v.signatures.lookup function

/-- Adds a name, unless it is known. -/
def add (v : Vocabulary) (k : NameKind) (name : String) : Vocabulary :=
  if v.contains k name then v else { v with entries := v.entries ++ [(k, name)] }

/-- Adds names of one kind. -/
def addAll (v : Vocabulary) (k : NameKind) (names : List String) : Vocabulary :=
  names.foldl (·.add k ·) v

/-- Adds a function. A signature given before is replaced. -/
def addFunction (v : Vocabulary) (name signature : String) : Vocabulary :=
  let v := v.add .function name
  { v with signatures := (name, signature) :: v.signatures }

/-- Adds the names of a module: its functions, then the others. -/
def addModule (v : Vocabulary) (m : NameModule) : Vocabulary :=
  let v := m.functions.foldl (fun v f => v.addFunction f.1 f.2) v
  m.names.foldl (fun v n => v.add n.1 n.2) v

/-- Registers a module, unless one of its name was registered before. -/
def register (v : Vocabulary) (m : NameModule) : Except RegistrationError Vocabulary :=
  if v.modules.contains m.name then .error ⟨m.name⟩
  else
    let v := v.addModule m
    .ok { v with modules := v.modules ++ [m.name] }

/-- Registers modules up to the first that fails. -/
def registerAll (v : Vocabulary) : List NameModule → Vocabulary × Option RegistrationError
  | [] => (v, none)
  | m :: ms =>
    match v.register m with
    | .ok v => v.registerAll ms
    | .error e => (v, some e)

end Vocabulary

end XuleLang
