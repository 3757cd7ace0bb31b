import XuleLang.Parser.State
import XuleLang.Scope.Build

/-!
How the children of an open node grow.

While a node is open, its children come to be one after the other: leaves for the tokens that are
read, nodes that were opened and closed meanwhile, and nodes put around the latest child. `Grows`
says what can become of them, with no word on the nodes around. Everything that holds of all trees
of a parser is drawn from it.

## Regions

Which rules may be opened depends on where the open node stands. A file has declarations for its
children, and stretches that were skipped. A node that declares a variable occurs only where some
node around it opens a scope.
-/

namespace XuleLang

/-- Where in a tree an open node stands: it is the file, or lies in a declaration but in no scope,
or in a scope. -/
inductive Region where
  | file | declaration | scope
deriving DecidableEq, Repr

/-- The rules of the parts of a file. -/
def Rule.isDeclaration : Rule → Bool
  | .assertDeclaration | .outputDeclaration | .functionDeclaration | .constantDeclaration
  | .namespaceDeclaration | .outputAttributeDeclaration | .ruleNamePrefixDeclaration
  | .ruleNameSeparatorDeclaration => true
  | _ => false

/-- The rules of nodes that stand around their first part. -/
def Rule.wraps : Rule → Bool
  | .binaryExpression | .propertyAccess | .callExpression => true
  | _ => false

namespace Region

/-- Whether a node of the rule may be a child here. -/
def admits (g : Region) (r : Rule) : Bool :=
  match g with
  | file => r.isDeclaration || r == .skipped
  | declaration => !r.isDeclaration && r != .file && r.declares?.isNone
  | scope => !r.isDeclaration && r != .file

/-- The region inside a node of the rule. -/
def below (g : Region) (r : Rule) : Region :=
  if r.opensScope then scope else if g = file then declaration else g

theorem below_eq_scope {g : Region} {r : Rule} (opens : r.opensScope) : g.below r = scope := by
  simp [below, opens]

/-- A node around an operand leaves the operand in its region. -/
theorem below_of_wraps {g : Region} {r : Rule} (wraps : r.wraps) (deep : g ≠ file) :
    g.below r = g := by
  cases r <;> simp_all [Rule.wraps, below, Rule.opensScope]

theorem admits_of_wraps {g : Region} {r : Rule} (wraps : r.wraps) (deep : g ≠ file) :
    g.admits r := by
  cases g <;> cases r <;>
    simp_all [Rule.wraps, admits, Rule.isDeclaration, Rule.declares?]

end Region

/-- The tokens ahead, the next number, and the children so far with the latest first. -/
structure Growth where
  rest : List Token
  nextId : Nat
  trees : List Tree

/-- What the children of an open node can become. -/
inductive Grows : Region → Growth → Growth → Prop where
  | still (a : Growth) : Grows g a a
  | next (first : Grows g a b) (second : Grows g b c) : Grows g a c
  | leaf (inside : t.kind ≠ .endOfInput) (rest : List Token) (n : Nat) (ts : List Tree) :
    Grows g ⟨t :: rest, n, ts⟩ ⟨rest, n + 1, .leaf ⟨n, t⟩ :: ts⟩
  | node (admitted : g.admits r) (ts : List Tree)
    (body : Grows (g.below r) ⟨rest, n + 1, []⟩ ⟨rest', n', cs⟩) :
    Grows g ⟨rest, n, ts⟩ ⟨rest', n', .ofChildren n r cs.reverse :: ts⟩
  | around (wraps : r.wraps) (deep : g ≠ .file) (ts : List Tree)
    (body : Grows g ⟨rest, n + 1, [c]⟩ ⟨rest', n', cs⟩) :
    Grows g ⟨rest, n, c :: ts⟩ ⟨rest', n', .ofChildren n r cs.reverse :: ts⟩

section Leaves

theorem Tree.leavesOfAll_append (ts us : List Tree) :
    leavesOfAll (ts ++ us) = leavesOfAll ts ++ leavesOfAll us := by
  induction ts with
  | nil => rfl
  | cons t ts ih => simp [leavesOfAll, ih]

@[simp] theorem Tree.leavesOfAll_singleton (t : Tree) : leavesOfAll [t] = t.leaves := by
  simp [leavesOfAll]

/-- The tokens of the children. -/
def Growth.tokens (a : Growth) : List Token :=
  (Tree.leavesOfAll a.trees.reverse).map (·.token)

/-- The children grow by just the tokens that are read, and the end is never among them. -/
theorem Grows.reads {a b : Growth} (grows : Grows g a b) :
    ∃ read, a.rest = read ++ b.rest ∧ b.tokens = a.tokens ++ read ∧
      ∀ t ∈ read, t.kind ≠ .endOfInput := by
  induction grows with
  | still a => exact ⟨[], by simp⟩
  | next first second ihFirst ihSecond =>
    obtain ⟨before, rest_eq, tokens_eq, inside⟩ := ihFirst
    obtain ⟨after, restEq, tokensEq, insideAfter⟩ := ihSecond
    refine ⟨before ++ after, by simp [rest_eq, restEq], by simp [tokens_eq, tokensEq], ?_⟩
    intro t member
    exact (List.mem_append.mp member).elim (inside t) (insideAfter t)
  | leaf inside rest n ts =>
    refine ⟨[_], rfl, ?_, by simpa using inside⟩
    simp [Growth.tokens, Tree.leavesOfAll_append, Tree.leaves]
  | node admitted ts body ih =>
    obtain ⟨read, rest_eq, tokens_eq, inside⟩ := ih
    refine ⟨read, rest_eq, ?_, inside⟩
    simpa [Growth.tokens, Tree.leavesOfAll_append, Tree.leavesOfAll, Tree.leaves, Tree.ofChildren]
      using tokens_eq
  | around wraps deep ts body ih =>
    obtain ⟨read, rest_eq, tokens_eq, inside⟩ := ih
    refine ⟨read, rest_eq, ?_, inside⟩
    simpa [Growth.tokens, Tree.leavesOfAll_append, Tree.leavesOfAll, Tree.leaves, Tree.ofChildren]
      using tokens_eq

theorem Grows.suffix {a b : Growth} (grows : Grows g a b) : b.rest <:+ a.rest := by
  obtain ⟨read, rest_eq, -⟩ := grows.reads
  exact ⟨read, rest_eq.symm⟩

end Leaves

end XuleLang
