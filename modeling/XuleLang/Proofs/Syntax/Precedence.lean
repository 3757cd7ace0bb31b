import XuleLang.Proofs.Syntax.Production
import XuleLang.Proofs.Syntax.Subtree

/-!
How operators group.

Operators have levels, from the loosest to the tightest: `or`, `and`, the prefix `not`, comparisons,
the additive and the multiplicative ones, signs, and the property access. A tree binds at the level
of its outermost operator, and one without at the level of the property access. Where a production
of the grammar asks for an operand, the production here says how tightly it has to bind: a left
operand as tightly as the operator, a right one tighter, so that operators of one level group to the
left.
-/

namespace XuleLang

open Computability

/-- The operators between two operands by their levels. A `not` is the first half of `not in`. -/
def Grammar.operatorLevels : List (Nat × List TokenKind) :=
  [(1, [.keyword .orKw]), (2, [.keyword .andKw]),
   (4, .keyword .notKw :: Parser.comparisonOperators), (5, Parser.additiveOperators),
   (6, Parser.multiplicativeOperators)]

/-- The level of an operator between two operands. -/
def TokenKind.operatorLevel? (k : TokenKind) : Option Nat :=
  (Grammar.operatorLevels.find? (·.2.contains k)).map (·.1)

namespace Tree

/-- An expression of the form `not x`. -/
def IsNegation (t : Tree) : Prop :=
  t.rule? = some .unaryExpression ∧ t.children.head?.bind kind? = some (.keyword .notKw)

/-- An operand with a sign before it. -/
def IsSigned (t : Tree) : Prop :=
  t.rule? = some .unaryExpression ∧ ∃ k ∈ Parser.signs, t.children.head?.bind kind? = some k

instance (t : Tree) : Decidable t.IsNegation := inferInstanceAs (Decidable (_ ∧ _))

instance (t : Tree) : Decidable t.IsSigned := inferInstanceAs (Decidable (_ ∧ _))

/-- The level of the operator of a binary expression, which stands behind the left operand. -/
def operatorLevel? (t : Tree) : Option Nat :=
  (t.children[1]?.bind kind?).bind TokenKind.operatorLevel?

/-- The level at which a tree binds. -/
def level (t : Tree) : Nat :=
  if t.rule? = some .binaryExpression then t.operatorLevel?.getD 0
  else if t.rule? = some .unaryExpression then if t.IsNegation then 3 else 7
  else 8

end Tree

namespace Grammar

/-- The rules of expressions without an operator between operands or before one. -/
def atomicRules : List Rule :=
  expressionRules.filter fun r => r != .binaryExpression && r != .unaryExpression

/-- An operator of a level between two operands. -/
def operatorAt : Nat → Language Tree
  | 1 => keyword .orKw
  | 2 => keyword .andKw
  | 4 => operatorOf Parser.comparisonOperators
  | 5 => oneOf Parser.additiveOperators
  | 6 => oneOf Parser.multiplicativeOperators
  | _ => 0

/-- An operand that binds at the level or tighter. -/
def operand (n : Nat) : Language Tree :=
  single fun t => (∃ r ∈ expressionRules, t.rule? = some r) ∧ n ≤ t.level

/-- Two operands with an operator of the level between them. -/
def binaryAt (n : Nat) : Language Tree := operand n * operatorAt n * operand (n + 1)

/-- The node of a rule with children of some kind. -/
def nodeWith (r : Rule) (L : Language Tree) : Language Tree :=
  single fun t => t.rule? = some r ∧ t.children ∈ L

end Grammar

open Grammar in
/-- What the children of a node of the rule are, and how tightly its operands bind. -/
def Rule.grouping : Rule → Language Tree
  | .binaryExpression => fun ts => ∃ n, ts ∈ binaryAt n
  | .unaryExpression => keyword .notKw * operand 3 + oneOf Parser.signs * operand 7
  | .propertyAccess => operand 8 * sign .dot * node .propertyRef * maybe (node .argumentList)
  | r => r.production

/-- In every node the operands bind as tightly as they have to. -/
def Tree.IsGrouped (t : Tree) : Prop :=
  ∀ u ∈ t.subtrees, ∀ r, u.rule? = some r → u.children ∈ r.grouping

namespace Grammar

variable {n m : Nat} {L M : Language Tree} {r : Rule} {t : Tree} {ts : List Tree}

theorem operand_anti (looser : n ≤ m) : operand m ≤ operand n := by
  rintro _ ⟨t, rfl, rule, binds⟩
  exact ⟨t, rfl, rule, Nat.le_trans looser binds⟩

theorem operand_le_expression : operand n ≤ expression := by
  rintro _ ⟨t, rfl, rule, -⟩
  exact ⟨t, rfl, rule⟩

theorem nodeWith_le_node : nodeWith r L ≤ node r := by
  rintro _ ⟨t, rfl, rule, -⟩
  exact ⟨t, rfl, rule⟩

/-- A node without an operator of its own is an operand everywhere. -/
theorem node_le_operand (listed : r ∈ atomicRules) : node r ≤ operand 8 := by
  rintro _ ⟨t, rfl, rule⟩
  obtain ⟨expresses, atomic⟩ := List.mem_filter.mp listed
  simp only [Bool.and_eq_true, bne_iff_ne] at atomic
  refine ⟨t, rfl, ⟨r, expresses, rule⟩, ?_⟩
  rw [Tree.level, rule, if_neg (by simpa using atomic.1), if_neg (by simpa using atomic.2)]

theorem operatorAt_le_binaryOperator : operatorAt n ≤ binaryOperator := by
  fun_cases operatorAt n with
  | case1 | case2 => exact (token_le_oneOf (by decide)).trans le_self_add
  | case3 => exact operatorOf_mono (by decide)
  | case4 | case5 => exact (oneOf_mono (by decide)).trans le_self_add
  | case6 => exact bot_le

theorem grouping_le_production (r : Rule) : r.grouping ≤ r.production := by
  fun_cases Rule.grouping r with
  | case1 =>
    rintro ts ⟨n, binary⟩
    exact mul_le_mul' (mul_le_mul' operand_le_expression operatorAt_le_binaryOperator)
      operand_le_expression binary
  | case2 =>
    refine add_le ?_ ?_
    · exact mul_le_mul' (token_le_oneOf (by decide)) operand_le_expression
    · exact mul_le_mul' (oneOf_mono (by decide)) operand_le_expression
  | case3 => exact mul_le_mul_left (mul_le_mul_left (mul_le_mul_left operand_le_expression _) _) _
  | case4 => exact le_rfl

/-- The first token of an operator tells its level. -/
theorem exists_of_mem_operatorAt (operator : ts ∈ operatorAt n) :
    ∃ l rest, ts = .leaf l :: rest ∧ l.token.kind.operatorLevel? = some n := by
  have one (ks : List TokenKind) {ts : List Tree} (levels : ∀ k ∈ ks, k.operatorLevel? = some n)
      (listed : ts ∈ oneOf ks) :
      ∃ l rest, ts = .leaf l :: rest ∧ l.token.kind.operatorLevel? = some n := by
    obtain ⟨_, rfl, l, rfl, kind⟩ := listed
    exact ⟨l, [], rfl, levels _ kind⟩
  revert operator
  fun_cases operatorAt n with
  | case1 =>
    exact fun operator => one [.keyword .orKw] (by decide) (token_le_oneOf (.head _) operator)
  | case2 =>
    exact fun operator => one [.keyword .andKw] (by decide) (token_le_oneOf (.head _) operator)
  | case3 =>
    rintro (single | double)
    · exact one _ (by decide) single
    · obtain ⟨_, ⟨_, rfl, l, rfl, kind⟩, rest, -, rfl⟩ := Language.mem_mul.mp double
      exact ⟨l, rest, rfl, by rw [kind]; decide⟩
  | case4 => exact one _ (by decide)
  | case5 => exact one _ (by decide)
  | case6 => exact fun operator => absurd operator (Language.notMem_zero _)

/-- Two operands with an operator between them bind at its level. -/
theorem level_of_binaryAt (rule : t.rule? = some .binaryExpression)
    (binary : t.children ∈ binaryAt n) : t.level = n := by
  obtain ⟨_, ⟨_, ⟨left, rfl, -⟩, operator, listed, rfl⟩, right, -, children⟩ := binary
  obtain ⟨l, rest, rfl, level⟩ := exists_of_mem_operatorAt listed
  have second : t.operatorLevel? = some n := by
    rw [Tree.operatorLevel?, ← children]
    exact level
  rw [Tree.level, if_pos rule, second, Option.getD_some]

theorem binary_le_operand : nodeWith .binaryExpression (binaryAt n) ≤ operand n := by
  rintro _ ⟨t, rfl, rule, binary⟩
  exact ⟨t, rfl, ⟨_, by decide, rule⟩, (level_of_binaryAt rule binary).ge⟩

theorem level_of_unary (rule : t.rule? = some .unaryExpression) :
    t.level = if t.IsNegation then 3 else 7 := by
  rw [Tree.level, if_neg (by simp [rule]), if_pos rule]

theorem isSigned_of_children (rule : t.rule? = some .unaryExpression)
    (signed : t.children ∈ oneOf Parser.signs * L) : t.IsSigned := by
  obtain ⟨_, ⟨_, rfl, l, rfl, listed⟩, operand, -, children⟩ := Language.mem_mul.mp signed
  exact ⟨rule, _, listed, by rw [← children]; rfl⟩

theorem isNegation_of_children (rule : t.rule? = some .unaryExpression)
    (negated : t.children ∈ keyword .notKw * L) : t.IsNegation := by
  obtain ⟨_, ⟨_, rfl, l, rfl, kind⟩, operand, -, children⟩ := Language.mem_mul.mp negated
  exact ⟨rule, by rw [← children]; exact congrArg some kind⟩

end Grammar

theorem Tree.IsSigned.not_isNegation {t : Tree} (signed : t.IsSigned) : ¬ t.IsNegation := by
  obtain ⟨-, k, listed, here⟩ := signed
  rintro ⟨-, negated⟩
  obtain rfl := Option.some.inj (here.symm.trans negated)
  exact absurd listed (by decide)

namespace Grammar

theorem negation_le_operand : nodeWith .unaryExpression (keyword .notKw * L) ≤ operand 3 := by
  rintro _ ⟨t, rfl, rule, negated⟩
  refine ⟨t, rfl, ⟨_, by decide, rule⟩, ?_⟩
  rw [level_of_unary rule, if_pos (isNegation_of_children rule negated)]

theorem signed_le_operand : nodeWith .unaryExpression (oneOf Parser.signs * L) ≤ operand 7 := by
  rintro _ ⟨t, rfl, rule, signed⟩
  refine ⟨t, rfl, ⟨_, by decide, rule⟩, ?_⟩
  rw [level_of_unary rule, if_neg (isSigned_of_children rule signed).not_isNegation]

end Grammar

/-! ## Nodes of a grouped tree -/

namespace Tree

variable {t u c : Tree} {ts : List Tree}

/-- How the operands of a node group. The left operand of an operator binds as tightly as the
operator or tighter, the right one tighter, and a negation is an operand of `or` and `and` only. A
`not` stands before no looser operator than a comparison, a sign before no binary operator and no
`not`, and a property is accessed of what has no operator outside of parentheses. -/
structure GroupsOperands (t : Tree) : Prop where
  binary : t.rule? = some .binaryExpression → ∃ left operator right,
    t.children = left :: operator ++ [right] ∧ operator ∈ Grammar.operatorAt t.level ∧
    (left.rule? = some .binaryExpression → t.level ≤ left.level) ∧
    (right.rule? = some .binaryExpression → t.level < right.level) ∧
    (left.IsNegation ∨ right.IsNegation → t.level ≤ 2)
  unary : t.rule? = some .unaryExpression → t.IsNegation ∨ t.IsSigned
  negation : t.IsNegation → ∃ operator operand, t.children = [operator, operand] ∧
    (operand.rule? = some .binaryExpression → 4 ≤ operand.level)
  signed : t.IsSigned → ∃ operator operand, t.children = [operator, operand] ∧
    operand.rule? ≠ some .binaryExpression ∧ ¬ operand.IsNegation
  access : t.rule? = some .propertyAccess → ∃ object rest, t.children = object :: rest ∧
    object.rule? ≠ some .binaryExpression ∧ object.rule? ≠ some .unaryExpression

section Grouped

variable (matching : ∀ r, t.rule? = some r → t.children ∈ r.grouping)
  (parts : ∀ c ∈ t.children, ∀ r, c.rule? = some r → c.children ∈ r.grouping)

include matching in
/-- The operators between two operands have five levels. -/
theorem level_mem_of_binary (rule : t.rule? = some .binaryExpression) :
    t.level ∈ [1, 2, 4, 5, 6] := by
  obtain ⟨n, binary⟩ := matching _ rule
  rw [Grammar.level_of_binaryAt rule binary]
  obtain ⟨_, ⟨_, -, operator, listed, -⟩, -⟩ := binary
  revert listed
  fun_cases Grammar.operatorAt n with
  | case1 | case2 | case3 | case4 | case5 => exact fun _ => by decide
  | case6 => exact fun listed => absurd listed (Language.notMem_zero _)

theorem IsNegation.level_eq (negation : t.IsNegation) : t.level = 3 := by
  rw [Grammar.level_of_unary negation.1, if_pos negation]

include matching in
/-- A negation has the operand of one, a signed operand that of a sign. -/
theorem children_of_unary (rule : t.rule? = some .unaryExpression) :
    (t.IsNegation ∧ ∃ operator operand, t.children = [operator, operand] ∧ 3 ≤ operand.level) ∨
      t.IsSigned ∧ ∃ operator operand, t.children = [operator, operand] ∧ 7 ≤ operand.level := by
  rcases matching _ rule with negated | signed
  · refine .inl ⟨Grammar.isNegation_of_children rule negated, ?_⟩
    obtain ⟨_, ⟨operator, rfl, -⟩, _, ⟨operand, rfl, -, tight⟩, same⟩ := negated
    exact ⟨operator, operand, same.symm, tight⟩
  · refine .inr ⟨Grammar.isSigned_of_children rule signed, ?_⟩
    obtain ⟨_, ⟨operator, rfl, -⟩, _, ⟨operand, rfl, -, tight⟩, same⟩ := signed
    exact ⟨operator, operand, same.symm, tight⟩

include matching parts in
theorem groupsOperands_of_grouping : t.GroupsOperands := by
  have levels {c : Tree} (child : c ∈ t.children) (rule : c.rule? = some .binaryExpression) :
      c.level = 1 ∨ c.level = 2 ∨ c.level = 4 ∨ c.level = 5 ∨ c.level = 6 := by
    simpa using level_mem_of_binary (parts c child) rule
  constructor
  case binary =>
    intro rule
    have own := level_mem_of_binary matching rule
    obtain ⟨n, binary⟩ := matching _ rule
    obtain rfl : t.level = n := Grammar.level_of_binaryAt rule binary
    obtain ⟨_, ⟨_, ⟨left, rfl, -, loose⟩, operator, listed, rfl⟩, _, ⟨right, rfl, -, tight⟩,
      same⟩ := binary
    refine ⟨left, operator, right, same.symm, listed, fun _ => loose, fun _ => tight, ?_⟩
    rintro (negation | negation) <;> have three := negation.level_eq <;> simp at own <;> omega
  case unary => exact fun rule => (children_of_unary matching rule).imp (·.1) (·.1)
  case negation =>
    intro negation
    rcases children_of_unary matching negation.1 with
      ⟨-, operator, operand, same, tight⟩ | ⟨signed, -⟩
    · refine ⟨operator, operand, same, fun rule => ?_⟩
      have := levels (by simp [same]) rule
      omega
    · exact absurd negation signed.not_isNegation
  case signed =>
    intro signed
    rcases children_of_unary matching signed.1 with
      ⟨negation, -⟩ | ⟨-, operator, operand, same, tight⟩
    · exact absurd negation signed.not_isNegation
    · refine ⟨operator, operand, same, fun rule => ?_, fun negation => ?_⟩
      · have := levels (by simp [same]) rule
        omega
      · have := negation.level_eq
        omega
  case access =>
    intro rule
    obtain ⟨_, ⟨_, ⟨_, ⟨object, rfl, -, tight⟩, _, -, rfl⟩, _, -, rfl⟩, rest, -, same⟩ :=
      matching _ rule
    refine ⟨object, _, same.symm, fun rule => ?_, fun rule => ?_⟩
    · have := levels (by simp [← same]) rule
      omega
    · have := Grammar.level_of_unary rule
      split at this <;> omega

end Grouped

/-- A grouped tree is a derivation. -/
theorem IsGrouped.isDerivation (grouped : t.IsGrouped) : t.IsDerivation :=
  fun u below r rule => Grammar.grouping_le_production r (grouped u below r rule)

/-- All below a grouped tree groups its operands. -/
theorem IsGrouped.groupsOperands (grouped : t.IsGrouped) : ∀ u ∈ t.subtrees, u.GroupsOperands :=
  fun u below => groupsOperands_of_grouping (grouped u below) fun c child =>
    grouped c (children_subset_subtrees below child)

end Tree

end XuleLang
