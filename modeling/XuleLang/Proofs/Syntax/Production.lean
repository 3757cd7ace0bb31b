import Mathlib
import XuleLang.Parser.Declaration

/-!
The productions of the grammar.

A production says what the children of a node may be, in their order. It is a language of sequences
of trees, put together from single leaves and nodes by concatenation, union and repetition. Where a
production asks for an operand it means a node of one of the sixteen expression rules, of whatever
precedence: how operators group is not its matter.

The rule for skipped tokens has no production. A tree all of whose nodes match their productions is
a derivation.
-/

namespace XuleLang

open Computability

namespace Grammar

/-- Sequences of a single tree that is as wanted. -/
def single (wanted : Tree → Prop) : Language Tree := fun ts => ∃ t, ts = [t] ∧ wanted t

/-- A leaf with a token that is as wanted. -/
def leafWith (wanted : Token → Prop) : Language Tree :=
  single fun t => ∃ l, t = .leaf l ∧ wanted l.token

def token (k : TokenKind) : Language Tree := leafWith (·.kind = k)

def oneOf (ks : List TokenKind) : Language Tree := leafWith (·.kind ∈ ks)

def keyword (k : Keyword) : Language Tree := token (.keyword k)

def sign (p : Punctuator) : Language Tree := token (.punctuator p)

/-- An identifier that is spelled like one of the words. -/
def wordOf (words : List String) : Language Tree :=
  leafWith fun t => t.kind = .identifier ∧ t.text ∈ words

/-- An identifier, or a reserved word in its place. -/
def name : Language Tree := leafWith fun t => t.kind = .identifier ∨ t.kind.isKeyword

def node (r : Rule) : Language Tree := single (·.rule? = some r)

def nodeOf (rs : List Rule) : Language Tree := single fun t => ∃ r ∈ rs, t.rule? = some r

def expressionRules : List Rule :=
  [.binaryExpression, .unaryExpression, .propertyAccess, .callExpression,
   .parenthesizedExpression, .ifExpression, .forExpression, .variableRead, .qualifiedName,
   .numberLiteral, .stringLiteral, .booleanLiteral, .keywordLiteral, .factset, .navigation,
   .filterExpression]

def expression : Language Tree := nodeOf expressionRules

def declarationRules : List Rule :=
  [.assertDeclaration, .outputDeclaration, .functionDeclaration, .constantDeclaration,
   .namespaceDeclaration, .outputAttributeDeclaration, .ruleNamePrefixDeclaration,
   .ruleNameSeparatorDeclaration]

def declaration : Language Tree := nodeOf declarationRules

def maybe (L : Language Tree) : Language Tree := 1 + L

/-- One or more with commas between them. -/
def listed (L : Language Tree) : Language Tree := L * (sign .comma * L)∗

/-- A token of one of the kinds, or `not in`. -/
def operatorOf (ks : List TokenKind) : Language Tree := oneOf ks + keyword .notKw * keyword .inKw

def binaryOperator : Language Tree :=
  operatorOf ([.keyword .orKw, .keyword .andKw] ++ Parser.comparisonOperators ++
    Parser.additiveOperators ++ Parser.multiplicativeOperators)

def prefixOperator : Language Tree := oneOf (.keyword .notKw :: Parser.signs)

def aspectOperator : Language Tree :=
  operatorOf [.punctuator .assign, .punctuator .notEqual, .keyword .inKw]

def loopHead : Language Tree := node .forVariable * keyword .inKw * expression

def factsetBody : Language Tree :=
  (node .factsetOption)∗ * (node .aspectFilter)∗ *
    maybe (node .whereClause + node .expressionBlock)

end Grammar

open Grammar in
/-- What the children of a node of the rule are. -/
def Rule.production : Rule → Language Tree
  | .file => declaration∗ * token .endOfInput
  | .assertDeclaration =>
    keyword .assertKw * node .assertionName *
      maybe (oneOf [.keyword .satisfiedKw, .keyword .unsatisfiedKw]) *
      node .expressionBlock * (node .outputAttribute)∗
  | .outputDeclaration =>
    keyword .outputKw * node .assertionName * node .expressionBlock * (node .outputAttribute)∗
  | .assertionName =>
    (name + token .number) * (sign .dot * oneOf [.identifier, .number])∗
  | .functionDeclaration =>
    keyword .functionKw * token .identifier * node .functionArguments * node .expressionBlock
  | .functionArguments => sign .lparen * maybe (listed (node .functionArgument)) * sign .rparen
  | .functionArgument => token .variableName
  | .constantDeclaration =>
    keyword .constantKw * token .variableName * sign .assign * node .expressionBlock
  | .namespaceDeclaration =>
    keyword .namespaceKw * maybe (token .identifier * sign .assign) *
      (token .url + node .stringLiteral)
  | .outputAttributeDeclaration => keyword .outputAttributeKw * token .identifier
  | .ruleNamePrefixDeclaration => keyword .ruleNamePrefixKw * token .identifier
  | .ruleNameSeparatorDeclaration => keyword .ruleNameSeparatorKw * node .stringLiteral
  | .outputAttribute => node .outputAttributeName * expression
  | .outputAttributeName => token .identifier
  | .expressionBlock => (node .assignment)∗ * expression
  | .assignment => node .assignedVariable * sign .assign * node .expressionBlock * sign .semicolon
  | .assignedVariable => token .variableName
  | .binaryExpression => expression * binaryOperator * expression
  | .unaryExpression => prefixOperator * expression
  | .propertyAccess => expression * sign .dot * node .propertyRef * maybe (node .argumentList)
  | .propertyRef => name
  | .callExpression => nodeOf [.functionRef, .qualifiedName] * node .argumentList
  | .functionRef => oneOf [.identifier, .variableName]
  | .argumentList => sign .lparen * maybe (listed (node .expressionBlock)) * sign .rparen
  | .parenthesizedExpression => sign .lparen * node .expressionBlock * sign .rparen
  | .ifExpression =>
    keyword .ifKw * expression * node .expressionBlock * keyword .elseKw * node .expressionBlock
  | .forExpression =>
    keyword .forKw * (sign .lparen * loopHead * sign .rparen + loopHead) * node .expressionBlock
  | .forVariable => token .variableName
  | .variableRead => token .variableName
  | .qualifiedName => name * maybe (sign .colon * name)
  | .numberLiteral => token .number
  | .stringLiteral =>
    token .stringOpen *
      (token .stringContent + sign .lbrace * node .expressionBlock * sign .rbrace)∗ *
      token .stringClose
  | .booleanLiteral => oneOf [.keyword .trueKw, .keyword .falseKw]
  | .keywordLiteral => oneOf [.keyword .noneKw, .keyword .skipKw]
  | .factset =>
    sign .lbrace * factsetBody * sign .rbrace + sign .lbracket * factsetBody * sign .rbracket
  | .factsetOption => oneOf Parser.factsetOptions
  | .aspectFilter =>
    sign .atSign * maybe (sign .atSign) * node .qualifiedName * (sign .dot * node .propertyRef)∗ *
      maybe (aspectOperator * node .aspectValue) * maybe (node .bindAs)
  | .aspectValue => sign .times + expression
  | .bindAs => keyword .asKw * token .variableName
  | .whereClause => keyword .whereKw * node .expressionBlock
  | .navigation =>
    keyword .navigateKw * maybe (keyword .dimensionsKw) * maybe (node .navigationArcrole) *
      node .navigationDirection * maybe (token .number) *
      (nodeOf [.navigationClause, .whereClause])∗ * maybe (node .returnsClause)
  | .navigationArcrole => token .identifier + token .url + node .stringLiteral
  | .navigationDirection => token .identifier
  | .navigationClause =>
    keyword .includeKw * keyword .startKw + oneOf [.keyword .fromKw, .keyword .toKw] * expression +
      keyword .stopKw * keyword .whenKw * expression + wordOf Parser.clauseWords * expression
  | .returnsClause =>
    keyword .returnsKw * (wordOf ["by"] * wordOf ["network"] + wordOf Parser.formWords)∗ *
      (sign .lparen * listed (node .returnOption) * sign .rparen + node .returnOption) *
      maybe (keyword .asKw * token .identifier)
  | .returnOption => token .identifier
  | .filterExpression =>
    keyword .filterKw * expression * maybe (node .whereClause) * maybe (node .filterReturns)
  | .filterReturns => keyword .returnsKw * expression
  | .skipped => 0

/-- A node matches the production of its rule. -/
def Tree.Matches (t : Tree) : Prop := ∀ r, t.rule? = some r → t.children ∈ r.production

/-- Every node is a match, whatever stands around it. -/
def Tree.IsDerivation (t : Tree) : Prop := ∀ u ∈ t.subtrees, u.Matches

namespace Grammar

variable {L M : Language Tree}

theorem token_le_oneOf {k : TokenKind} {ks : List TokenKind} (listed : k ∈ ks) :
    token k ≤ oneOf ks := by
  rintro _ ⟨t, rfl, l, rfl, rfl⟩
  exact ⟨_, rfl, l, rfl, listed⟩

theorem oneOf_mono {ks ks' : List TokenKind} (fewer : ks ⊆ ks') : oneOf ks ≤ oneOf ks' := by
  rintro _ ⟨t, rfl, l, rfl, listed⟩
  exact ⟨_, rfl, l, rfl, fewer listed⟩

theorem operatorOf_mono {ks ks' : List TokenKind} (fewer : ks ⊆ ks') :
    operatorOf ks ≤ operatorOf ks' :=
  add_le_add_left (oneOf_mono fewer) _

theorem node_le_nodeOf {r : Rule} {rs : List Rule} (listed : r ∈ rs) : node r ≤ nodeOf rs := by
  rintro _ ⟨t, rfl, rule⟩
  exact ⟨t, rfl, r, listed, rule⟩

theorem one_le_maybe : 1 ≤ maybe L := le_add_right le_rfl

theorem le_maybe : L ≤ maybe L := le_add_left le_rfl

theorem nil_mem_mul : [] ∈ L * M ↔ [] ∈ L ∧ [] ∈ M := by
  rw [Language.mem_mul]
  constructor
  · rintro ⟨ts, here, us, there, nothing⟩
    obtain ⟨rfl, rfl⟩ := List.append_eq_nil_iff.mp nothing
    exact ⟨here, there⟩
  · rintro ⟨here, there⟩
    exact ⟨[], here, [], there, rfl⟩

theorem nil_notMem_single (wanted : Tree → Prop) : [] ∉ single wanted := by
  rintro ⟨t, nothing, -⟩
  cases nothing

end Grammar

open Grammar in
/-- No production lets a node be empty. -/
theorem Rule.nil_notMem_production (r : Rule) : [] ∉ r.production := by
  cases r <;>
    simp [-add_eq_sup, Rule.production, nil_mem_mul, Language.mem_add, Language.notMem_zero,
      nil_notMem_single, token, oneOf, keyword, sign, wordOf, name, leafWith, node, nodeOf,
      expression, prefixOperator, factsetBody]

/-- A derivation has a leaf. -/
theorem Tree.IsDerivation.leaves_ne_nil : {t : Tree} → t.IsDerivation → t.leaves ≠ []
  | .leaf l, _ => by simp [Tree.leaves]
  | .node i r s cs, derived => by
    have phrase : cs ∈ r.production := derived (.node i r s cs) (by simp [Tree.subtrees]) r rfl
    match cs with
    | [] => exact absurd phrase r.nil_notMem_production
    | c :: cs =>
      have first : c.IsDerivation := fun u below => derived u (by
        simp [Tree.subtrees, Tree.subtreesOfAll, below])
      simp [Tree.leaves, Tree.leavesOfAll, first.leaves_ne_nil]

end XuleLang
