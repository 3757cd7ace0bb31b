import XuleLang.Scope.Build
import XuleLang.Text.Editor
import XuleLang.Vocabulary.Standard

/-!
Diagnostics: what is wrong with the edited file of a rule set.

First come its complaints, then the names in it that mean nothing, in the order of the text.
Functions, properties with output attributes, and variables are checked if the settings say so.
Imported files are never reported on.
-/

namespace XuleLang

/-- Which names are checked. -/
structure CheckSettings where
  functionNames : Bool
  propertyNames : Bool
  variableNames : Bool
deriving DecidableEq, Repr

/-- Everything is checked. -/
def CheckSettings.all : CheckSettings := ⟨true, true, true⟩

/-- How grave something is. -/
inductive Severity where
  | error | warning | information | hint
deriving DecidableEq, Repr

/-- The number by which an editor is told of it. -/
def Severity.number : Severity → Nat
  | error => 1
  | warning => 2
  | information => 3
  | hint => 4

/-- Something wrong. -/
inductive Finding where
  | syntaxError (c : Complaint)
  | unknownFunction (name : String)
  | unknownProperty (name : String)
  | unknownOutputAttribute (name : String)
  | unknownVariable (name : String)
deriving DecidableEq, Repr

namespace Finding

/-- The word by which an editor tells findings apart. -/
def code : Finding → String
  | syntaxError _ => "syntax-error"
  | unknownFunction _ => "unknown-function"
  | unknownProperty _ => "unknown-property"
  | unknownOutputAttribute _ => "unknown-output-attribute"
  | unknownVariable _ => "unknown-variable"

/-- The finding in words. -/
def message : Finding → String
  | syntaxError c => c.message
  | unknownFunction name => "Unknown function '" ++ name ++ "'"
  | unknownProperty name => "Unknown property '" ++ name ++ "'"
  | unknownOutputAttribute name => "Unknown output attribute '" ++ name ++ "'"
  | unknownVariable name => "Unknown variable '" ++ name ++ "'"

/-- Whatever is found is an error. -/
def severity (_ : Finding) : Severity := .error

end Finding

/-- A finding and where it is shown. -/
structure Diagnostic where
  range : EditorRange
  finding : Finding
deriving DecidableEq, Repr

/-- The name that a tree begins with, if its first token reads as one. -/
def Tree.leadingName? (t : Tree) : Option String := do
  let first ← t.firstLeaf?
  guard first.token.kind.isIdentifierLike
  return first.token.text

/-- The place of the first child that stands for a rule. -/
def Cursor.childOfRule? (c : Cursor) (r : Rule) : Option Cursor :=
  (c.tree.childOfRule? r).map fun t => ⟨t, c.tree :: c.above⟩

/-- What names are checked against: what is known without a declaration, and what is declared. -/
structure NameContext where
  vocabulary : Vocabulary
  symbols : SymbolTable

namespace NameContext

/-- Whether a name means something of a kind at a place of the edited file. -/
def resolves (x : NameContext) (c : Cursor) (name : String) (k : BindingKind) : Bool :=
  (x.symbols.lookup 0 c name k).isSome

/-- The callee of a call must be a function. A call by a qualified name is left alone. -/
def checkCall? (x : NameContext) (call : Cursor) : Option (Cursor × Finding) := do
  let callee ← call.childOfRule? .functionRef
  let name ← callee.tree.leadingName?
  guard !(x.vocabulary.contains .function name || x.resolves callee name .function)
  return (callee, .unknownFunction name)

/-- What stands behind a point must be a property. -/
def checkProperty? (x : NameContext) (c : Cursor) : Option (Cursor × Finding) := do
  let name ← c.tree.leadingName?
  guard !(x.vocabulary.contains .property name)
  return (c, .unknownProperty name)

/-- An attribute of a rule must be one that every rule accepts, or be declared. -/
def checkOutputAttribute? (x : NameContext) (c : Cursor) : Option (Cursor × Finding) := do
  let name ← c.tree.leadingName?
  guard !(x.vocabulary.contains .outputAttribute name || x.resolves c name .outputAttribute)
  return (c, .unknownOutputAttribute name)

/-- What is read must be a variable or a constant. -/
def checkVariable? (x : NameContext) (c : Cursor) : Option (Cursor × Finding) := do
  let name ← c.tree.leadingName?
  guard !(x.resolves c name .variableName || x.resolves c name .constant)
  return (c, .unknownVariable name)

/-- What is wrong at a place, and the place where it is shown. -/
def check? (x : NameContext) (settings : CheckSettings) (c : Cursor) : Option (Cursor × Finding) :=
  match c.tree.rule? with
  | some .callExpression => if settings.functionNames then x.checkCall? c else none
  | some .propertyRef => if settings.propertyNames then x.checkProperty? c else none
  | some .outputAttributeName => if settings.propertyNames then x.checkOutputAttribute? c else none
  | some .variableRead => if settings.variableNames then x.checkVariable? c else none
  | _ => none

end NameContext

/-- The diagnostic of a complaint. One about no place is shown at the start. -/
def Diagnostic.ofError (text : List Char) (e : SyntaxError) : Diagnostic :=
  ⟨(e.span.map (editorRangeOf text)).getD ⟨⟨0, 0⟩, ⟨0, 0⟩⟩, .syntaxError e.what⟩

/-- The diagnostics of the edited file. -/
def check (s : RuleSet) (x : NameContext) (settings : CheckSettings) : List Diagnostic :=
  let text := s.edited.text
  let names := s.edited.tree.root.cursors.filterMap fun c => do
    let (place, finding) ← x.check? settings c
    let span ← place.tree.span?
    return (⟨editorRangeOf text span, finding⟩ : Diagnostic)
  s.edited.errors.map (Diagnostic.ofError text) ++ names

end XuleLang
