import XuleLang.Proofs.Parser.Nesting

/-!
What operations are put around.

An operation is a node of an operator between two operands, or of a point and a property behind one.
It is put around the latest child of the open node when its operator is ahead. That child is its
left operand where one has been read. An operand that could not be read has left no child, and then
the operation is put around whatever stands there: a word of the grammar, an assignment, the
operator of another operation. But nothing has been read since then, so that the operator is what
has been complained of (`Tried`). Hence an operation either stands around its left operand or has
its operator complained of (`Operates`).
-/

namespace XuleLang

/-- The rules of expressions. -/
def Rule.isValue : Rule → Bool
  | .binaryExpression | .unaryExpression | .propertyAccess | .callExpression
  | .parenthesizedExpression | .ifExpression | .forExpression | .variableRead | .qualifiedName
  | .numberLiteral | .stringLiteral | .booleanLiteral | .keywordLiteral | .factset | .navigation
  | .filterExpression => true
  | _ => false

/-- The kinds of the tokens that an operation of the rule can have for its operator. The first token
of the operator `not in` counts. -/
def Rule.operators : Rule → List TokenKind
  | .binaryExpression =>
    [.keyword .orKw, .keyword .andKw, .keyword .notKw] ++ Parser.comparisonOperators ++
      Parser.additiveOperators ++ Parser.multiplicativeOperators
  | .propertyAccess => [.punctuator .dot]
  | _ => []

theorem Rule.endOfInput_not_mem_operators (r : Rule) : .endOfInput ∉ r.operators := by
  cases r <;> decide

/-- The first leaf of the trees holds the token. -/
def Begins (t : Token) (ts : List Tree) : Prop :=
  ((Tree.leavesOfAll ts).head?).map (·.token) = some t

/-- The tree can be an operand: it is an expression, or stands for one that was too deep, a token
that was complained of and skipped. -/
inductive IsOperand (errors : List SyntaxError) : Tree → Prop where
  | value {t : Tree} {r : Rule} (rule : t.rule? = some r) (value : r.isValue = true) :
    IsOperand errors t
  | skipped (n : Nat) (x : Leaf) (complained : ComplainsAt errors x.token) :
    IsOperand errors (.ofChildren n .skipped [.leaf x])

/-- These are the children of an operation of the rule. Its operator stands behind the left operand,
or has been complained of: then it comes first, or the operation has adopted what stood before. -/
inductive Operates (errors : List SyntaxError) (r : Rule) : List Tree → Prop where
  | onOperand {v : Tree} {t : Token} {behind : List Tree} (operand : IsOperand errors v)
    (operator : t.kind ∈ r.operators) (begins : Begins t behind) : Operates errors r (v :: behind)
  | onNothing {t : Token} {cs : List Tree} (complained : ComplainsAt errors t)
    (operator : t.kind ∈ r.operators) (begins : Begins t cs) : Operates errors r cs
  | onAdopted {t : Token} {behind : List Tree} (c : Tree) (complained : ComplainsAt errors t)
    (operator : t.kind ∈ r.operators) (begins : Begins t behind) : Operates errors r (c :: behind)

/-- All operations in the tree are of this kind. -/
inductive Operated (errors : List SyntaxError) : Tree → Prop where
  | leaf (x : Leaf) : Operated errors (.leaf x)
  | node {n : Nat} {r : Rule} {span : Option Span} {cs : List Tree}
    (parts : ∀ c ∈ cs, Operated errors c) (operates : r.isOperation = true → Operates errors r cs) :
    Operated errors (.node n r span cs)

/-- What an attempt at an operand makes of the children `ts`, with the tokens `before` ahead at its
begin and the tokens `after` at its end. -/
inductive Tried (errors : List SyntaxError) (before after : List Token) (ts : List Tree) :
    List Tree → Prop where
  /-- Nothing has been read but complained of. -/
  | failed (unread : after = before) (complained : ∀ t ∈ before.head?, ComplainsAt errors t) :
    Tried errors before after ts ts
  | added {v : Tree} (operand : IsOperand errors v) : Tried errors before after ts (v :: ts)
  /-- The operand failed, but an operator followed, and adopted the latest child. -/
  | adopted {v : Tree} (operand : IsOperand errors v)
    (kept : Tree.leavesOfAll ts.head?.toList <+: v.leaves) :
    Tried errors before after ts (v :: ts.tail)

variable {errors : List SyntaxError} {t : Token} {r : Rule}

theorem Operated.parts {u : Tree} (operated : Operated errors u) :
    ∀ c ∈ u.children, Operated errors c := by
  cases operated with
  | leaf => exact nofun
  | node parts => exact parts

theorem Operated.operates {u : Tree} (operated : Operated errors u) (rule : u.rule? = some r)
    (operation : r.isOperation = true) : Operates errors r u.children := by
  cases operated with
  | leaf => cases rule
  | node parts operates => cases rule; exact operates operation

namespace Begins

theorem leaf (n : Nat) (ts : List Tree) : Begins t (.leaf ⟨n, t⟩ :: ts) := rfl

theorem append {ts : List Tree} (begins : Begins t ts) (us : List Tree) : Begins t (ts ++ us) := by
  obtain ⟨x, first, same⟩ := Option.map_eq_some_iff.mp begins
  simp [Begins, Tree.leavesOfAll_append, first, same]

/-- Where the first tree is replaced by one that begins alike, all of them begin alike. -/
theorem of_prefix {ts us : List Tree} (begins : Begins t ts)
    (kept : Tree.leavesOfAll ts <+: Tree.leavesOfAll us) : Begins t us := by
  obtain ⟨x, first, same⟩ := Option.map_eq_some_iff.mp begins
  obtain ⟨more, all⟩ := kept
  simp [Begins, ← all, first, same]

end Begins

/-- What is put around the outcome of an attempt, with the operator that is then ahead, is an
operation, and with it the outcome is one of an attempt again. -/
theorem Tried.around {before after rest : List Token} {ts mid behind : List Tree} (n : Nat)
    (tried : Tried errors before (t :: rest) ts mid) (operator : t.kind ∈ r.operators)
    (value : r.isValue = true) (begins : Begins t behind) :
    Operates errors r (mid.head?.toList ++ behind) ∧
      Tried errors before after ts
        (.ofChildren n r (mid.head?.toList ++ behind) :: mid.tail) := by
  have operand (cs : List Tree) : IsOperand errors (.ofChildren n r cs) := .value rfl value
  cases tried with
  | failed unread complained =>
    have complained : ComplainsAt errors t := complained t (by simp [← unread])
    refine ⟨?_, .adopted (operand _) ?_⟩
    · cases ts.head? with
      | none => exact .onNothing complained operator begins
      | some c => exact .onAdopted c complained operator begins
    · simp [Tree.ofChildren, Tree.leaves, Tree.leavesOfAll_append]
  | added left => exact ⟨.onOperand left operator begins, .added (operand _)⟩
  | adopted left kept =>
    refine ⟨.onOperand left operator begins, .adopted (operand _) (kept.trans ?_)⟩
    simp [Tree.ofChildren, Tree.leaves, Tree.leavesOfAll]

/-! ## Attempts at operands -/

/-- Trees that begin with the token have come behind those that were there. -/
def Behind (t : Token) (ts us : List Tree) : Prop :=
  ∃ behind, us = behind.reverse ++ ts ∧ Begins t behind

theorem Behind.append {ts mid us : List Tree} (first : Behind t ts mid) (more : mid <:+ us) :
    Behind t ts us := by
  obtain ⟨behind, rfl, begins⟩ := first
  obtain ⟨new, rfl⟩ := more
  exact ⟨behind ++ new.reverse, by simp, begins.append _⟩

/-- An attempt behind the operator adopts the operator at most. -/
theorem Behind.tried {before after : List Token} {ts mid us : List Tree} (first : Behind t ts mid)
    (tried : Tried errors before after mid us) : Behind t ts us := by
  cases tried with
  | failed => exact first
  | @added v => exact first.append (List.suffix_cons v mid)
  | @adopted v operand kept =>
    obtain ⟨behind, rfl, begins⟩ := first
    rcases List.eq_nil_or_concat behind with rfl | ⟨front, last, rfl⟩
    · cases begins
    · refine ⟨front ++ [v], by simp, begins.of_prefix ?_⟩
      simpa [Tree.leavesOfAll_append] using kept

namespace ParserState

variable {s s' u : ParserState} {rest : List Token}

/-- From the one state to the other an operand has been attempted. -/
abbrev Attempted (errors : List SyntaxError) (s s' : ParserState) : Prop :=
  Turns (fun _ => True) errors
    (fun ts us => Keeping (Operated errors) ts us ∧ Tried errors s.rest s'.rest ts us) s s'

/-- From the one state to the other trees that begin with the token have been made. -/
abbrev ReadFrom (errors : List SyntaxError) (t : Token) (s s' : ParserState) : Prop :=
  Turns (fun _ => True) errors
    (fun ts us => Keeping (Operated errors) ts us ∧ Behind t ts us) s s'

/-- An operation around the outcome of an attempt is the outcome of one. -/
theorem Attempted.around (attempted : Attempted errors s s') (here : s'.rest = t :: rest)
    (operator : t.kind ∈ r.operators) (value : r.isValue = true)
    (body : ReadFrom errors t (s'.wrap r) u) : Attempted errors s u.finish := by
  refine (attempted.trans (body.around attempted.opened)).weaken ?_
  rintro ts us ⟨mid, ⟨keeps, tried⟩, n, cs, ⟨inside, behind, rfl, begins⟩, rfl⟩
  have order : (behind.reverse ++ mid.head?.toList).reverse = mid.head?.toList ++ behind := by
    cases mid.head? <;> simp
  rw [here] at tried
  rw [order]
  obtain ⟨operates, tried⟩ := tried.around n operator value begins
  refine ⟨fun before => ?_, tried⟩
  have kept := keeps before
  have parts := inside fun c member => kept c (List.mem_of_head? (Option.mem_toList.mp member))
  refine List.forall_mem_cons.mpr
    ⟨.node (fun c member => parts c ?_) fun _ => operates,
      fun c member => kept c (List.mem_of_mem_tail member)⟩
  rw [← List.mem_reverse, order]
  exact member

end ParserState

namespace Parser

variable {α : Type} {l : Level} {p : Parser α} {rest : List Token}

/-- The parser attempts an operand. -/
def Attempts (errors : List SyntaxError) (p : Parser Unit) : Prop :=
  ∀ s : ParserState, s.frames ≠ [] → ParserState.Attempted errors s (p.run s).2

/-- The parser makes no operations but those that are as they should be. -/
abbrev Orderly (errors : List SyntaxError) (p : Parser α) : Prop :=
  Keeps (fun _ => True) errors (Operated errors) p

theorem Attempts.orderly {p : Parser Unit} (attempts : Attempts errors p) : Orderly errors p :=
  fun s opened => (attempts s opened).weaken fun _ _ => And.left

/-- What makes no operations itself is as orderly as its parts. -/
theorem Assembled.orderly {own : Rule → Bool} {given : Parser Unit → Prop}
    (assembled : Assembled own given p) (none : ∀ r, own r = true → r.isOperation = false)
    (parts : ∀ q, given q → Orderly errors q) : Orderly errors p :=
  assembled.keeps (fun _ _ => trivial) .leaf
    (fun _ r _ owned parts => .node parts fun operation => by simp [none r owned] at operation)
    parts

/-- The parser is put together of operations that open no nodes. -/
abbrev Bare (p : Parser α) : Prop := Assembled (fun _ => false) (fun _ => False) p

/-- What only notes and complains leaves all children as they are. -/
theorem Stays.turns {Q : α → List Token → Prop} (stays : Stays p Q) (errors : List SyntaxError)
    (bare : Bare p) :
    Turns (fun _ => True) errors (fun ts us => us = ts) p := by
  intro s opened
  have keeps : Keeps (fun _ => True) errors (fun _ => True) p :=
    bare.keeps (fun _ _ => trivial) (fun _ => trivial) nofun nofun
  exact (stays s).1.turns (keeps s opened).errors opened fun _ _ _ => rfl

/-- The parser reads an operand. -/
def ReadsOperand (errors : List SyntaxError) (p : Parser Unit) : Prop :=
  Turns (fun _ => True) errors
    (fun ts us => Keeping (Operated errors) ts us ∧ ∃ v, IsOperand errors v ∧ us = v :: ts) p

namespace Attempts

theorem after {Q : α → List Token → Prop} {f : α → Parser Unit} (stays : Stays p Q)
    (bare : Bare p) (next : ∀ a, Attempts errors (f a)) : Attempts errors (p >>= f) := by
  intro s opened
  have quiet := stays.turns errors bare s opened
  refine (quiet.trans (next (p.run s).1 _ quiet.opened)).weaken ?_
  rintro ts us ⟨mid, rfl, keeps, tried⟩
  exact ⟨keeps, (stays s).1.rest ▸ tried⟩

theorem either {c : Bool} {p q : Parser Unit} (yes : Attempts errors p) (no : Attempts errors q) :
    Attempts errors (if c then p else q) := by
  cases c
  · exact no
  · exact yes

theorem complain (c : Complaint) : Attempts errors (complain c) := by
  intro s opened
  refine (ParserState.complain_turns (fun _ => True) errors opened c).weaken ?_
  rintro ts us ⟨rfl, complained⟩
  exact ⟨id, .failed (s.complain_agrees c).rest complained⟩

/-- What reads an operand attempts one. -/
theorem of_reads {p : Parser Unit} (reads : ReadsOperand errors p) : Attempts errors p :=
  fun s opened => (reads s opened).weaken fun _ _ ⟨keeps, _, operand, same⟩ =>
    ⟨keeps, same ▸ .added operand⟩

end Attempts

/-! ## Operands without operators around them -/

/-- A node that is no operation is as orderly as what is inside. -/
theorem Makes.turns {given : Parser Unit → Prop} {p : Parser Unit}
    (makes : Makes Rule.isOrdinary given r p) (other : r.isOperation = false)
    (parts : ∀ q, given q → Orderly errors q) :
    Turns (fun _ => True) errors (fun ts us => Keeping (Operated errors) ts us ∧
      ∃ n cs, us = .ofChildren n r cs :: ts) p := by
  obtain ⟨body, rfl, inside⟩ := makes
  refine (Turns.within (inside.orderly Rule.isOperation_of_isOrdinary parts)).weaken ?_
  rintro ts us ⟨n, cs, keeps, rfl⟩
  refine ⟨fun before => List.forall_mem_cons.mpr ⟨.node ?_ (by simp [other]), before⟩, n, _, rfl⟩
  simpa using keeps nofun

/-- A node of an expression is an operand. -/
theorem Makes.readsOperand {given : Parser Unit → Prop} {p : Parser Unit}
    (makes : Makes Rule.isOrdinary given r p) (value : r.isValue = true)
    (other : r.isOperation = false) (parts : ∀ q, given q → Orderly errors q) :
    ReadsOperand errors p :=
  (makes.turns other parts).weaken fun _ _ ⟨keeps, _, _, same⟩ =>
    ⟨keeps, _, .value rfl value, same⟩

section Operands

variable (parts : ∀ q, l.Gives q → Orderly errors q)
include parts

/-- A call around a name stands in its place. -/
theorem readsOperand_nameOrCall : ReadsOperand errors (nameOrCall l) := by
  have named : ReadsOperand errors qualifiedName := makes_qualifiedName.readsOperand rfl rfl parts
  have arguments : Orderly errors (argumentList l) :=
    (makes_argumentList.assembled rfl).orderly Rule.isOperation_of_isOrdinary parts
  have called : Turns (fun _ => True) errors
      (fun ts us => ∀ v others, ts = v :: others → IsOperand errors v →
        ∃ w, IsOperand errors w ∧ us = w :: others)
      (wrapping .callExpression (argumentList l)) := by
    refine (Turns.wrapping arguments).weaken ?_
    rintro ts us ⟨n, cs, -, rfl⟩ v others rfl -
    exact ⟨_, .value rfl rfl, rfl⟩
  refine (assembled_nameOrCall.orderly Rule.isOperation_of_isOrdinary parts).and <|
    (named.andThen fun _ => (stays_kind.turns errors assembled_kind).andThen fun _ =>
      called.either (.answer () fun _ v _ same operand => ⟨v, operand, same⟩)).weaken ?_
  rintro ts us ⟨mid, ⟨-, v, operand, rfl⟩, _, rfl, stands⟩
  exact stands v ts rfl operand

theorem attempts_primary : Attempts errors (primary l) := by
  have reads {r : Rule} {p : Parser Unit} (makes : Makes Rule.isOrdinary l.Gives r p)
      (value : r.isValue = true) (other : r.isOperation = false) : Attempts errors p :=
    .of_reads (makes.readsOperand value other parts)
  refine .after (stays_predict _) (assembled_predict _) fun _ =>
    .after (stays_seesAny _) (assembled_seesAny _) fun _ =>
    .after (stays_seesAny _) (assembled_seesAny _) fun _ =>
    .after (stays_kindAt 1) (assembled_kindAt 1) fun _ =>
    .after stays_kind assembled_kind fun k => ?_
  split
  case h_1 | h_3 | h_4 | h_5 | h_6 => exact reads (makes_leafOf _) rfl rfl
  case h_2 => exact reads makes_stringLiteral rfl rfl
  case h_7 => exact .either (reads makes_call rfl rfl) (reads (makes_leafOf _) rfl rfl)
  case h_8 => exact .either (reads makes_call rfl rfl) (.of_reads (readsOperand_nameOrCall parts))
  case h_9 => exact reads makes_parenthesized rfl rfl
  case h_10 => exact reads makes_conditional rfl rfl
  case h_11 => exact reads makes_loop rfl rfl
  case h_12 | h_13 => exact reads makes_factset rfl rfl
  case h_14 => exact reads makes_navigation rfl rfl
  case h_15 => exact reads makes_filter rfl rfl
  case h_16 => exact .complain _

end Operands

/-! ## Operations around operands -/

section Steps

variable {s s' : ParserState} {ask step : Parser Bool} {body operand : Parser Unit}

/-- Whatever token is ahead, the body reads it first. -/
def ReadsFirst (errors : List SyntaxError) (body : Parser Unit) : Prop :=
  ∀ (u : ParserState) (t : Token) (rest : List Token), u.frames ≠ [] → u.rest = t :: rest →
    ParserState.ReadFrom errors t u (body.run u).2

/-- After an attempt, a step that puts an operation around its outcome if an operator is ahead. -/
theorem attempted_operation (attempted : ParserState.Attempted errors s s')
    (finds : Finds (· ∈ r.operators) ask) (bare : Bare ask) (value : r.isValue = true)
    (reads : ReadsFirst errors body) :
    ParserState.Attempted errors s ((do
      if ← ask then
        wrapping r body
        pure true
      else pure false : Parser Bool).run s').2 := by
  have asked := finds.turns errors bare s' attempted.opened
  have outcome : ParserState.Attempted errors s (ask.run s').2 := by
    refine (attempted.trans asked).weaken ?_
    rintro ts us ⟨mid, ⟨keeps, tried⟩, rfl⟩
    exact ⟨keeps, (finds s').1.rest ▸ tried⟩
  change ParserState.Attempted errors s ((if (ask.run s').1 = true then
    (do wrapping r body; pure true : Parser Bool) else pure false).run (ask.run s').2).2
  split
  case isFalse => exact outcome
  case isTrue yes =>
    have operator := (finds s').2 yes
    rw [← (finds s').1.rest] at operator
    obtain ⟨t, rest, here, -⟩ := exists_cons_of_kindAhead fun reached =>
      r.endOfInput_not_mem_operators (reached ▸ operator)
    rw [here] at operator
    have wrapped := ParserState.wrap_rest outcome.opened r
    exact outcome.around here operator value (reads _ t rest wrapped.2 (wrapped.1.trans here))

theorem attempted_repeatWhile (attempted : ParserState.Attempted errors s s')
    (continues : ∀ u, ParserState.Attempted errors s u →
      ParserState.Attempted errors s (step.run u).2) :
    ParserState.Attempted errors s ((repeatWhile step).run s').2 := by
  change ParserState.Attempted errors s ((repeatUpTo (s'.rest.length + 1) step).run s').2
  generalize s'.rest.length + 1 = n
  induction n generalizing s' with
  | zero =>
    refine (attempted.trans (ParserState.overrun_turns attempted.opened fun _ => rfl)).weaken ?_
    rintro ts us ⟨mid, attempted, rfl⟩
    exact attempted
  | succ n ih =>
    change ParserState.Attempted errors s ((if (step.run s').1 = true then repeatUpTo n step
      else pure ()).run (step.run s').2).2
    split
    · exact ih (continues s' attempted)
    · exact continues s' attempted

/-- The parser puts children behind those that were there. -/
def Extending (errors : List SyntaxError) (p : Parser α) : Prop :=
  Turns (fun _ => True) errors (fun ts us => Keeping (Operated errors) ts us ∧ ts <:+ us) p

namespace Extending

theorem andThen {f : α → Parser Unit} (first : Extending errors p)
    (next : ∀ a, Extending errors (f a)) : Extending errors (p >>= f) :=
  (Turns.andThen first next).weaken fun _ _ ⟨_, ⟨keeps, more⟩, keeps', more'⟩ =>
    ⟨keeps' ∘ keeps, more.trans more'⟩

theorem answer (a : α) : Extending errors (pure a : Parser α) :=
  Turns.answer a fun ts => ⟨id, List.suffix_refl ts⟩

theorem of_stays {Q : α → List Token → Prop} (stays : Stays p Q) (bare : Bare p) :
    Extending errors p :=
  (stays.turns errors bare).weaken fun _ _ same => same ▸ ⟨id, List.suffix_refl _⟩

theorem node {given : Parser Unit → Prop} {p : Parser Unit}
    (makes : Makes Rule.isOrdinary given r p) (other : r.isOperation = false)
    (parts : ∀ q, given q → Orderly errors q) : Extending errors p :=
  (makes.turns other parts).weaken fun ts _ ⟨keeps, _, _, same⟩ =>
    ⟨keeps, same ▸ List.suffix_cons _ ts⟩

theorem bump : Extending errors bump :=
  Turns.bump (fun _ _ => trivial)
    (fun _ _ ts =>
      ⟨fun before => List.forall_mem_cons.mpr ⟨.leaf _, before⟩, List.suffix_cons _ ts⟩)
    fun ts => ⟨id, List.suffix_refl ts⟩

/-- More children come behind the token that was read first. -/
theorem readFrom (extending : Extending errors p) (reads : ParserState.ReadFrom errors t s s') :
    ParserState.ReadFrom errors t s (p.run s').2 := by
  refine (reads.trans (extending s' reads.opened)).weaken ?_
  rintro ts us ⟨mid, ⟨keeps, behind⟩, keeps', more⟩
  exact ⟨keeps' ∘ keeps, behind.append more⟩

end Extending

theorem bump_readsFirst (errors : List SyntaxError) : ReadsFirst errors bump := by
  intro u t rest opened here
  refine (ParserState.bump_turns (fun _ _ => trivial) opened here).weaken ?_
  rintro ts us ⟨n, rfl⟩
  exact ⟨fun before => List.forall_mem_cons.mpr ⟨.leaf _, before⟩, [.leaf ⟨n, t⟩], rfl, .leaf n []⟩

/-- The operator `not in` is read to its end. -/
theorem bumpOperator_readsFirst (errors : List SyntaxError) : ReadsFirst errors bumpOperator := by
  intro u t rest opened here
  have first := bump_readsFirst errors u t rest opened here
  change ParserState.ReadFrom errors t u
    ((if (seesNotIn.run u).1 = true then (do bump; bump) else bump).run u).2
  split
  case isFalse => exact first
  case isTrue => exact Extending.bump.readFrom first

theorem ReadsFirst.operator (attempts : Attempts errors operand) :
    ReadsFirst errors (do bumpOperator; operand) := by
  intro u t rest opened here
  have read := bumpOperator_readsFirst errors u t rest opened here
  refine (read.trans (attempts _ read.opened)).weaken ?_
  rintro ts us ⟨mid, ⟨keeps, behind⟩, keeps', tried⟩
  exact ⟨keeps' ∘ keeps, behind.tried tried⟩

theorem ReadsFirst.property (parts : ∀ q, l.Gives q → Orderly errors q) :
    ReadsFirst errors (do
      bump
      propertyRef
      if ← sees (.punctuator .lparen) then argumentList l) := by
  have behind : Extending errors (do
      propertyRef
      if ← sees (.punctuator .lparen) then argumentList l) :=
    .andThen (.node makes_propertyRef rfl parts) fun _ =>
      .andThen (.of_stays (stays_sees _) (assembled_sees _)) fun _ =>
      Turns.either (Extending.node makes_argumentList rfl parts) (Extending.answer ())
  exact fun u t rest opened here => behind.readFrom (bump_readsFirst errors u t rest opened here)

end Steps

/-! ## Levels -/

theorem Attempts.operands {ask : Parser Bool} {operand : Parser Unit}
    (finds : Finds (· ∈ Rule.binaryExpression.operators) ask) (bare : Bare ask)
    (attempts : Attempts errors operand) : Attempts errors (operands ask operand) :=
  fun s opened => attempted_repeatWhile (attempts s opened) fun _ attempted =>
    attempted_operation attempted finds bare rfl (.operator attempts)

theorem attempts_access (parts : ∀ q, l.Gives q → Orderly errors q) :
    Attempts errors (access l) :=
  fun s opened => attempted_repeatWhile (attempts_primary parts s opened) fun _ attempted =>
    attempted_operation attempted (r := .propertyAccess) (finds_sees (.head _)) (assembled_sees _)
      rfl (.property parts)

/-- The parsers of the level attempt operands. -/
structure LevelAttempts (errors : List SyntaxError) (l : Level) : Prop where
  expression : Attempts errors l.expression
  negation : Attempts errors l.negation
  signed : Attempts errors l.signed

/-- What the level gives is orderly, and so are the blocks that are made of its expressions. -/
theorem LevelAttempts.orderly (attempts : LevelAttempts errors l) :
    ∀ q, l.Gives q → Orderly errors q := by
  intro q gives
  cases gives with
  | expression => exact attempts.expression.orderly
  | negation => exact attempts.negation.orderly
  | signed => exact attempts.signed.orderly
  | block =>
    have assembled : Assembled (!Rule.isOperation ·) (· = l.expression) (block l) :=
      assembled_block rfl rfl rfl rfl
    exact assembled.orderly (by simp) fun q same => same ▸ attempts.expression.orderly

/-- A token that is skipped since nothing may nest any more stands for an operand. -/
theorem attempts_tooDeep : Attempts errors tooDeep := by
  intro s opened
  refine (tooDeep_skips (fun _ _ => trivial) errors opened).weaken ?_
  rintro ts us (⟨n, x, rfl, complained⟩ | ⟨rfl, unread, complained⟩)
  · refine ⟨fun before => List.forall_mem_cons.mpr ⟨.node ?_ nofun, before⟩,
      .added (.skipped n x complained)⟩
    simpa using Operated.leaf x
  · exact ⟨id, .failed unread fun t ahead => (complained t ahead).2⟩

section Levels

variable (attempts : LevelAttempts errors l)
include attempts

theorem attempts_signedOperand : Attempts errors (signedOperand l) :=
  .after (stays_seesAny _) (assembled_seesAny _) fun _ =>
    .either attempts.signed (attempts_access attempts.orderly)

theorem attempts_negatable : Attempts errors (negatable l) := by
  have comparison : Attempts errors (comparison l) :=
    .operands (finds_seesComparison (by decide) (by decide)) assembled_seesComparison <|
      .operands (finds_seesAny (by decide)) (assembled_seesAny _) <|
      .operands (finds_seesAny (by decide)) (assembled_seesAny _) (attempts_signedOperand attempts)
  exact .after (stays_sees _) (assembled_sees _) fun _ =>
    .after (stays_kindAt 1) (assembled_kindAt 1) fun _ => .either attempts.negation comparison

theorem attempts_disjunction : Attempts errors (disjunction l) :=
  .operands (finds_sees (by decide)) (assembled_sees _) <|
    .operands (finds_sees (by decide)) (assembled_sees _) (attempts_negatable attempts)

end Levels

/-- By induction on the depth: every level attempts operands. -/
theorem level_attempts (d : Nat) : LevelAttempts errors (level d) := by
  induction d with
  | zero => exact ⟨attempts_tooDeep, attempts_tooDeep, attempts_tooDeep⟩
  | succ d ih =>
    have unary {operand : Parser Unit} (attempts : Attempts errors operand) :
        Attempts errors (unary operand) :=
      .of_reads <| (makes_unary (.part rfl)).readsOperand rfl rfl
        fun q (same : operand = q) => same ▸ attempts.orderly
    exact
      { expression := attempts_disjunction ih
        negation := unary (attempts_negatable ih)
        signed := unary (attempts_signedOperand ih) }

end Parser

open XuleLang.Parser

/-! ## Texts -/

/-- In the tree of a text all operations are as they should be. -/
theorem parse_operated (tokens : List Token) :
    Operated (parse tokens).errors (parse tokens).tree.root := by
  have declarations : Orderly (parse tokens).errors
      (repeatWhile (nextDeclaration (level maxDepth))) :=
    assembled_declarations.orderly Rule.isOperation_of_isOrdinary (level_attempts maxDepth).orderly
  obtain ⟨span, cs, root, operated⟩ :=
    parse_keeps (fun _ _ => trivial) .leaf declarations trivial
  rw [root]
  exact .node operated nofun

/-- **Operations stand around their left operands, or their operators are complained of.** -/
theorem operations_adopt_operands_or_are_complained_of (tokens : List Token) :
    ∀ c ∈ (parse tokens).tree.root.cursors, ∀ r, c.tree.rule? = some r → r.isOperation = true →
      Operates (parse tokens).errors r c.tree.children := by
  have operated : ∀ c ∈ (parse tokens).tree.root.cursors, Operated (parse tokens).errors c.tree :=
    Tree.forall_cursors (parse_operated tokens) fun p operated => operated.parts
  exact fun c member r rule operation => (operated c member).operates rule operation

/-- A condition whose left operand is missing. -/
def strayOperator : List Token :=
  tokensOfKinds [.keyword .outputKw, .identifier, .keyword .ifKw, .keyword .orKw, .number, .number,
    .keyword .elseKw, .number, .endOfInput]

/-- The operation of the condition begins with a word, which is no operand. -/
theorem stray_operator_is_complained_of :
    ∃ c ∈ (parse strayOperator).tree.root.cursors, c.tree.rule? = some .binaryExpression ∧
      ∃ t : Token, t.kind ∈ Rule.binaryExpression.operators ∧
        ComplainsAt (parse strayOperator).errors t := by
  obtain ⟨c, member, rule, word⟩ : ∃ c ∈ (parse strayOperator).tree.root.cursors,
      c.tree.rule? = some .binaryExpression ∧ c.tree.children.head?.any Tree.isLeaf = true := by
    decide +kernel
  have operates :=
    operations_adopt_operands_or_are_complained_of strayOperator c member _ rule rfl
  refine ⟨c, member, rule, ?_⟩
  generalize c.tree.children = cs at operates word
  cases operates with
  | onNothing complained operator => exact ⟨_, operator, complained⟩
  | onAdopted first complained operator => exact ⟨_, operator, complained⟩
  | @onOperand v t behind operand =>
    cases operand with
    | value rule =>
      cases v with
      | leaf => cases rule
      | node => cases word
    | skipped => cases word

/-- An operation whose operator is complained of need not begin with the operator: here it begins
with the `if` of the expression around it. -/
theorem operation_can_adopt_a_word :
    ¬∀ tokens, ∀ c ∈ (parse tokens).tree.root.cursors, ∀ r, c.tree.rule? = some r →
      r.isOperation = true → c.tree.children.head?.any (fun t =>
        t.rule?.any Rule.isValue || t.kind?.any r.operators.contains) = true := by
  intro always
  obtain ⟨c, member, rule, begins⟩ : ∃ c ∈ (parse strayOperator).tree.root.cursors,
      c.tree.rule? = some .binaryExpression ∧ c.tree.children.head?.any (fun t =>
        t.rule?.any Rule.isValue || t.kind?.any Rule.binaryExpression.operators.contains) =
          false := by
    decide +kernel
  exact Bool.false_ne_true (begins.symm.trans (always strayOperator c member _ rule rfl))

end XuleLang
