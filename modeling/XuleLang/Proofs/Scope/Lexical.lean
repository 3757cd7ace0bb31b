import XuleLang.Scope.Build

/-!
Lexical scoping.

What a name means is said here by the trees alone. A declaration belongs to the scope of the
innermost node around it that opens one, or to the whole rule set; what a construct binds unasked
belongs to the construct. A variable means the latest declaration that can be seen in the innermost
scope with one. All else means the latest declaration of the rule set, from wherever one looks.
-/

namespace XuleLang

/-- A leaf or node of one of the files of a rule set. -/
structure Place where
  file : Nat
  cursor : Cursor

/-- What is declared, and for whom. -/
structure Declaration where
  /-- The node whose scope it belongs to; without one it belongs to the whole rule set. -/
  scope : Option NodeRef
  binding : Binding

namespace Place

variable {p : Place} {r : Rule}

def ref (p : Place) : NodeRef := ⟨p.file, p.cursor.tree.id⟩

/-! ## Scopes -/

/-- Whether the place is the block of an assertion or output, which is part of that one's scope. -/
def isBodyOfRule (p : Place) : Bool :=
  p.cursor.tree.rule? == some .expressionBlock && p.cursor.parent?.any fun around =>
    around.rule? == some .assertDeclaration || around.rule? == some .outputDeclaration

def opensScope (p : Place) : Bool :=
  p.cursor.tree.rule?.any (·.opensScope) && !p.isBodyOfRule

/-- Those of some nodes that open scopes. Behind each node stand the nodes above it, the innermost
first. -/
def scopesAmong (file : Nat) : List Tree → List NodeRef
  | [] => []
  | t :: above =>
    if (mk file ⟨t, above⟩).opensScope then ⟨file, t.id⟩ :: scopesAmong file above
    else scopesAmong file above

/-- The nodes whose scopes the place lies in, the innermost first. -/
def scopes (p : Place) : List NodeRef := scopesAmong p.file p.cursor.ancestors

theorem scopes_eq (p : Place) : p.scopes =
    if p.opensScope then p.ref :: scopesAmong p.file p.cursor.above
    else scopesAmong p.file p.cursor.above := rfl

/-- All that opens scopes but blocks does so everywhere. -/
theorem opensScope_of_rule? (rule : p.cursor.tree.rule? = some r) (opens : r.opensScope)
    (other : r ≠ .expressionBlock) : p.opensScope := by
  simp [opensScope, isBodyOfRule, rule, opens, other]

/-! ## Declarations -/

/-- The leaf that names what the node there declares, and what that is. -/
def named? (p : Place) : Option (Leaf × BindingKind) := do
  let (token, kind) ← p.cursor.tree.rule?.bind (·.declares?)
  let name ← p.cursor.tree.childOfKind? token
  return (name, kind)

/-- The leaf that ends the assignment of a name: its semicolon, or the last leaf where that is
missing. -/
def endOfAssignment (p : Place) (name : Leaf) : Leaf :=
  (p.cursor.parent?.bind fun assignment =>
    (assignment.childOfKind? (.punctuator .semicolon)).or assignment.leaves.getLast?).getD name

/-- The number of the first token that can see what is declared under a name. What is assigned is
not seen before the assignment has ended. -/
def visibleFrom (p : Place) (name : Leaf) : Nat :=
  if p.cursor.tree.rule? = some .assignedVariable then (p.endOfAssignment name).token.index + 1
  else name.token.index

/-- What the construct there binds unasked, from its first token on. -/
def unasked? (p : Place) : Option Binding := do
  let name ← p.cursor.tree.rule?.bind (·.implicitVariable?)
  let first ← p.cursor.tree.firstLeaf?
  return ⟨name, .variableName, ⟨p.file, first.id⟩, first.token.index⟩

/-- What the node there declares in the scope around it, and what it binds unasked in its own. -/
def declarations (p : Place) : List Declaration :=
  let named := p.named?.map fun (name, kind) =>
    (⟨name.token.text, kind, ⟨p.file, name.id⟩, p.visibleFrom name⟩ : Binding)
  named.toList.map (.mk (scopesAmong p.file p.cursor.above).head?) ++
    p.unasked?.toList.map (.mk (some p.ref))

/-! ## Roots -/

theorem scopes_of_root (top : p.cursor.above = []) (rule : p.cursor.tree.rule? = some .file) :
    p.scopes = [] := by
  simp [scopes_eq, opensScope, rule, Rule.opensScope, top, scopesAmong]

theorem declarations_of_root (rule : p.cursor.tree.rule? = some .file) : p.declarations = [] := by
  simp [declarations, named?, unasked?, rule, Rule.declares?, Rule.implicitVariable?]

end Place

namespace Declaration

/-- Whether something of a kind is declared under a name. -/
def declares (d : Declaration) (name : String) (kind : BindingKind) : Bool :=
  d.binding.kind == kind && d.binding.name == name

/-- The last declaration with a property. -/
def latest? (ds : List Declaration) (property : Declaration → Bool) : Option Binding :=
  ((ds.filter property).getLast?).map (·.binding)

end Declaration

namespace RuleSet

/-- All places of all files in their order, from the outside in and from left to right. -/
def places (s : RuleSet) : List Place :=
  s.files.zipIdx.flatMap fun (f, i) => f.tree.root.cursors.map (.mk i)

/-- All declarations in the order of the files and their texts. -/
def declarations (s : RuleSet) : List Declaration := s.places.flatMap (·.declarations)

/-- What a name means at a place. For a variable the scopes around the place are gone through from
the inside out, and what is declared in them counts as far as the first token of the place can see
it. All else is the same from everywhere. -/
def lexicalLookup? (s : RuleSet) (p : Place) (name : String) : BindingKind → Option Binding
  | .variableName => p.scopes.findSome? fun scope =>
    Declaration.latest? s.declarations fun d => d.scope == some scope &&
      d.declares name .variableName && d.binding.visibleFrom ≤ referenceIndex p.cursor.tree
  | kind => Declaration.latest? s.declarations (·.declares name kind)

end RuleSet

end XuleLang
