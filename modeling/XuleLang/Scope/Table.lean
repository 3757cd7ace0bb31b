import XuleLang.Source.File

/-!
Bindings and the environments that hold them.

Environments form a forest: environment zero is global and holds what declarations at the top of
any file declare; every other one was opened by a node of a tree, its owner, inside another
environment, its parent. A name is looked up from an environment outwards, and inside an
environment the latest declaration counts first.

## Visibility

A binding of the global environment is visible everywhere. Any other is visible only in its own
file, to tokens from the one it becomes visible at.
-/

namespace XuleLang

/-- What a name is bound to. -/
inductive BindingKind where
  | constant | function | variableName | outputAttribute
deriving DecidableEq, Repr

/-- How listings name the kind. -/
def BindingKind.label : BindingKind → String
  | constant => "constant"
  | function => "function"
  | variableName => "variable"
  | outputAttribute => "output-attribute"

/-- A name with its meaning. -/
structure Binding where
  name : String
  kind : BindingKind
  /-- The leaf that names it, or the first leaf of the construct that binds it unasked. -/
  declaredAt : NodeRef
  /-- The number of the first token that can see it. -/
  visibleFrom : Nat
deriving DecidableEq, Repr

/-- Bindings made in one place. -/
structure Environment where
  /-- In the order in which they were made. -/
  bindings : List Binding
  parent : Option Nat
  /-- The node that opened it. -/
  owner : Option NodeRef
deriving DecidableEq, Repr

/-- The number of the global environment. -/
def globalEnv : Nat := 0

/-- The environments of a rule set by number, and which node stands for which of them. -/
structure SymbolTable where
  envs : List Environment
  scopes : List (NodeRef × Nat)
deriving DecidableEq, Repr

/-- The number of the token that a place is looked up at: that of its first leaf. -/
def referenceIndex (t : Tree) : Nat := ((t.firstLeaf?).map (·.token.index)).getD 0

namespace SymbolTable

/-- The bindings of the global environment. -/
def globals (t : SymbolTable) : List Binding := ((t.envs[globalEnv]?).map (·.bindings)).getD []

/-- The environment that a node stands for. -/
def scopeOf? (t : SymbolTable) (n : NodeRef) : Option Nat := t.scopes.lookup n

/-- The environment that a place of a file lies in: that of the innermost node around it that
stands for one. -/
def governingEnv (t : SymbolTable) (file : Nat) (c : Cursor) : Nat :=
  (c.ancestors.findSome? fun n => t.scopeOf? ⟨file, n.id⟩).getD globalEnv

/-- At most `fuel` environments from one outwards, with their numbers. -/
def chainUpTo (t : SymbolTable) : Nat → Nat → List (Nat × Environment)
  | 0, _ => []
  | fuel + 1, id =>
    match t.envs[id]? with
    | none => []
    | some e => (id, e) :: (e.parent.map (t.chainUpTo fuel)).getD []

/-- An environment and those around it, from the inside out. A parent has a smaller number than
its child, which bounds their number. -/
def chain (t : SymbolTable) (id : Nat) : List (Nat × Environment) := t.chainUpTo (id + 1) id

/-- Whether a binding of environment `env` is visible to a token of a file. -/
def isVisible (env : Nat) (b : Binding) (file index : Nat) : Bool :=
  env == globalEnv || (b.declaredAt.file == file && b.visibleFrom ≤ index)

/-- The bindings of a kind that a token of a file can see from an environment, in the order in
which they are looked up. -/
def candidates (t : SymbolTable) (env file index : Nat) (kind : BindingKind) : List Binding :=
  (t.chain env).flatMap fun (id, e) =>
    e.bindings.reverse.filter fun b => b.kind == kind && isVisible id b file index

/-- What a name means to a token of a file in an environment. -/
def lookupFrom (t : SymbolTable) (env file index : Nat) (name : String) (kind : BindingKind) :
    Option Binding :=
  (t.candidates env file index kind).find? (·.name == name)

/-- What a name means at a place of a file. -/
def lookup (t : SymbolTable) (file : Nat) (c : Cursor) (name : String) (kind : BindingKind) :
    Option Binding :=
  t.lookupFrom (t.governingEnv file c) file (referenceIndex c.tree) name kind

/-- The first binding of each name in a list. -/
def firstPerName (bs : List Binding) : List Binding :=
  (bs.foldl (fun out b => if out.any (·.name == b.name) then out else b :: out) []).reverse

/-- Everything of a kind that has a meaning to a token of a file in an environment, from the inside
out and each name once. -/
def visibleBindings (t : SymbolTable) (env file index : Nat) (kind : BindingKind) :
    List Binding :=
  firstPerName (t.candidates env file index kind)

/-- The binding that a leaf declares. -/
def declaredAt? (t : SymbolTable) (n : NodeRef) : Option Binding :=
  (t.envs.flatMap (·.bindings)).find? (·.declaredAt == n)

end SymbolTable

end XuleLang
