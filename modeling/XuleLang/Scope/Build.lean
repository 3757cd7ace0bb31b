import XuleLang.Scope.Table

/-!
Which environments a rule set has, and what is declared in them.

Trees are walked from the outside in and from left to right. A declaration goes into the
environment it stands in. Some nodes open an environment of their own for what is inside them; the
block of an assertion or output does not, so that what is assigned in it reaches the attributes
behind it. Some constructs bind a variable unasked.

A variable that is assigned becomes visible behind the semicolon of its assignment, or behind the
last token where the semicolon is missing. All other bindings are visible from the token that
declares them.
-/

namespace XuleLang

/-- Rules whose nodes open an environment. -/
def Rule.opensScope : Rule → Bool
  | .functionDeclaration | .assertDeclaration | .outputDeclaration | .expressionBlock
  | .forExpression | .navigation | .factset | .filterExpression | .argumentList => true
  | _ => false

/-- The variable that a construct binds unasked. -/
def Rule.implicitVariable? : Rule → Option String
  | .navigation => some "$relationship"
  | .factset => some "$fact"
  | .filterExpression => some "$item"
  | .assertDeclaration | .outputDeclaration => some "$rule-value"
  | _ => none

/-- What the node of a rule declares, and the kind of the token that names it. -/
def Rule.declares? : Rule → Option (TokenKind × BindingKind)
  | .functionDeclaration => some (.identifier, .function)
  | .constantDeclaration => some (.variableName, .constant)
  | .outputAttributeDeclaration => some (.identifier, .outputAttribute)
  | .functionArgument | .forVariable | .bindAs | .assignedVariable =>
    some (.variableName, .variableName)
  | _ => none

/-- Whether a node works in the environment around it although its rule opens one: the block of an
assertion or output does. -/
def sharesScope (parent : Tree) (r : Rule) : Bool :=
  r == .expressionBlock &&
    (parent.rule? == some .assertDeclaration || parent.rule? == some .outputDeclaration)

/-- The number of the first token behind an assignment: behind its semicolon, or behind its last
token. -/
def indexBehind (assignment : Tree) (name : Leaf) : Nat :=
  match assignment.childOfKind? (.punctuator .semicolon) with
  | some semicolon => semicolon.token.index + 1
  | none => (assignment.leaves.getLast?.getD name).token.index + 1

/-- The binding that a node below `parent` declares. -/
def declaredBy? (file : Nat) (parent node : Tree) : Option Binding := do
  let rule ← node.rule?
  let (tokenKind, kind) ← rule.declares?
  let name ← node.childOfKind? tokenKind
  let visibleFrom :=
    if rule = .assignedVariable then indexBehind parent name else name.token.index
  return ⟨name.token.text, kind, ⟨file, name.id⟩, visibleFrom⟩

/-- The binding that a node makes unasked in the environment that it opens. -/
def implicitBinding? (file : Nat) (node : Tree) : Option Binding := do
  let rule ← node.rule?
  let name ← rule.implicitVariable?
  let first ← node.firstLeaf?
  return ⟨name, .variableName, ⟨file, first.id⟩, first.token.index⟩

namespace SymbolTable

/-- Adds a binding to an environment. -/
def declare (t : SymbolTable) (env : Nat) (b : Option Binding) : SymbolTable :=
  match b with
  | none => t
  | some b =>
    { t with envs := t.envs.modify env fun e => { e with bindings := e.bindings ++ [b] } }

/-- Opens an environment for a node. -/
def openScope (t : SymbolTable) (owner : NodeRef) (parent : Nat) (b : Option Binding) :
    SymbolTable :=
  ⟨t.envs ++ [⟨b.toList, some parent, some owner⟩], t.scopes ++ [(owner, t.envs.length)]⟩

mutual

/-- Adds what is declared at and below a node that lies in the environment `env`. -/
def visit (file : Nat) (parent : Tree) (env : Nat) (t : SymbolTable) : Tree → SymbolTable
  | .leaf _ => t
  | .node id rule span children =>
    let node := Tree.node id rule span children
    let t := t.declare env (declaredBy? file parent node)
    if rule.opensScope && !sharesScope parent rule then
      let inner := t.envs.length
      visitAll file node inner (t.openScope ⟨file, id⟩ env (implicitBinding? file node)) children
    else visitAll file node env t children

def visitAll (file : Nat) (parent : Tree) (env : Nat) (t : SymbolTable) :
    List Tree → SymbolTable
  | [] => t
  | n :: ns => visitAll file parent env (visit file parent env t n) ns

end

/-- Adds what is declared in a file. Its root stands for the global environment. -/
def addFile (t : SymbolTable) (file : Nat) (f : RuleFile) : SymbolTable :=
  let root := f.tree.root
  visitAll file root globalEnv { t with scopes := t.scopes ++ [(⟨file, root.id⟩, globalEnv)] }
    root.children

/-- Before anything is declared. -/
def empty : SymbolTable := ⟨[⟨[], none, none⟩], []⟩

/-- What is declared in the files of a rule set. -/
def ofRuleSet (s : RuleSet) : SymbolTable :=
  s.files.zipIdx.foldl (fun t (f, i) => t.addFile i f) empty

end SymbolTable

end XuleLang
