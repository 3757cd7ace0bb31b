import XuleLang.Source.File

/-!
Namespaces: short names for URIs, and the local names known under them.

A set keeps its namespaces in the order in which they came. One short name may stand for several
URIs; its local names are those of all of them. Rule files declare namespaces without local names.
-/

namespace XuleLang

/-- A short name for a URI, and local names known under it. -/
structure Namespace where
  shortName : String
  uri : String
  names : List String
deriving DecidableEq, Repr

/-- Namespaces in the order in which they came. -/
structure NamespaceSet where
  entries : List Namespace
deriving DecidableEq, Repr

namespace NamespaceSet

def empty : NamespaceSet := ⟨[]⟩

def add (s : NamespaceSet) (n : Namespace) : NamespaceSet := ⟨s.entries ++ [n]⟩

/-- The namespaces of one set and then those of another. -/
def merge (s t : NamespaceSet) : NamespaceSet := ⟨s.entries ++ t.entries⟩

/-- The first occurrence of each text. -/
def firstOfEach (names : List String) : List String :=
  (names.foldl (fun out n => if out.contains n then out else n :: out) []).reverse

/-- The short names that are not empty, each once. -/
def shortNames (s : NamespaceSet) : List String :=
  firstOfEach ((s.entries.map (·.shortName)).filter (· != ""))

/-- The local names known under a short name, each once. -/
def namesFor (s : NamespaceSet) (shortName : String) : List String :=
  firstOfEach ((s.entries.filter (·.shortName == shortName)).flatMap (·.names))

end NamespaceSet

/-- The URI that a declaration gives: a URL, or the text of a string literal without what is
inserted into it. -/
def Tree.declaredUri? (declaration : Tree) : Option String :=
  match declaration.childOfKind? .url with
  | some url => some url.token.text
  | none =>
    (declaration.childOfRule? .stringLiteral).map fun literal =>
      String.join ((literal.leaves.filter (·.token.kind == .stringContent)).map (·.token.text))

/-- The namespace that a node declares; a declaration without a short name declares none. -/
def Tree.declaredNamespace? (node : Tree) : Option Namespace := do
  guard (node.rule? == some .namespaceDeclaration)
  let name ← node.childOfKind? .identifier
  let uri ← node.declaredUri?
  return ⟨name.token.text, uri, []⟩

/-- The namespaces that the files of a rule set declare, file by file and in order. -/
def NamespaceSet.ofRuleSet (s : RuleSet) : NamespaceSet :=
  ⟨s.files.flatMap fun f => f.tree.root.subtrees.filterMap Tree.declaredNamespace?⟩

end XuleLang
