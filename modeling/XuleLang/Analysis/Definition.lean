import XuleLang.Analysis.Caret
import XuleLang.Analysis.State

/-!
Definitions: where a name under a caret is declared.

A name at which a binding is declared leads to itself. Any other leads to what it means where it
stands: as a constant, else as a function, else as a variable, else as an output attribute.
-/

namespace XuleLang

/-- Where a name is declared: a file, and the token there. -/
structure DefinitionTarget where
  origin : String
  range : EditorRange
deriving DecidableEq, Repr

/-- The kinds of bindings, in the order in which a name is looked up. -/
def lookupOrder : List BindingKind := [.constant, .function, .variableName, .outputAttribute]

/-- Tokens that may have a definition. -/
def Token.isName (t : Token) : Bool := t.kind == .identifier || t.kind == .variableName

/-- The leaf of the name that a caret belongs to. Where the caret belongs to another token, the name
that starts there. -/
def SyntaxTree.nameAt? (t : SyntaxTree) (c : Caret) (line column : Nat) : Option Leaf :=
  match c.leaf.filter (·.token.isName) with
  | some l => some l
  | none => t.root.leaves.find? fun l =>
      l.token.isName && l.token.span.start.line == line && l.token.span.start.column == column

namespace Analysis

/-- The binding that a name of the edited file declares or means. -/
def bindingOf? (a : Analysis) (name : Leaf) : Option Binding :=
  match a.symbols.declaredAt? ⟨0, name.id⟩ with
  | some b => some b
  | none => do
    let place ← a.rules.edited.tree.cursor? name.id
    lookupOrder.findSome? fun kind => a.symbols.lookup 0 place name.token.text kind

/-- Where a binding is declared. -/
def targetOf? (a : Analysis) (b : Binding) : Option DefinitionTarget := do
  let file ← a.rules.files[b.declaredAt.file]?
  let place ← file.tree.cursor? b.declaredAt.node
  let span ← place.tree.span?
  return ⟨file.origin, editorRangeOf file.text span⟩

/-- Where the name at a place of the edited file is declared. -/
def definition? (a : Analysis) (p : EditorPosition) : Option DefinitionTarget := do
  let position := positionOfEditor a.rules.edited.text p
  let tree := a.rules.edited.tree
  let caret ← tree.caretAt? position.line position.column
  let name ← tree.nameAt? caret position.line position.column
  let binding ← a.bindingOf? name
  a.targetOf? binding

end Analysis

end XuleLang
