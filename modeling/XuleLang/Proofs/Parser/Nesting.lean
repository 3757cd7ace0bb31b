import XuleLang.Proofs.Parser.File
import XuleLang.Proofs.Parser.Keeping
import XuleLang.Proofs.Syntax.Cursor

/-!
How deep blocks nest.

A level of expressions bounds the blocks inside it: a block at the lowest level is broken off, with
a complaint, where its value should begin. Going from a block to one inside its value takes one
level. Going from a block to one inside an assignment takes none, as the value of an assignment is a
block of the same level. So it is blocks less assignments that are bounded on the way down to a
place (`Nests`), and the bound is that of the levels.
-/

namespace XuleLang

/-- One of the complaints is about the place where the token starts. -/
def ComplainsAt (errors : List SyntaxError) (t : Token) : Prop :=
  ∃ e ∈ errors, ∃ span, e.span = some span ∧ span.start.offset = t.span.start.offset

/-- These are the children of a block without a value. Behind its assignments a token was complained
of and skipped, or the end was complained of. -/
inductive BreaksOff (errors : List SyntaxError) (ending : Token) : List Tree → Prop where
  | skips {front : List Tree} (assignments : ∀ t ∈ front, t.rule? = some .assignment) (n : Nat)
    (x : Leaf) (complained : ComplainsAt errors x.token) :
    BreaksOff errors ending (front ++ [.ofChildren n .skipped [.leaf x]])
  | ends {cs : List Tree} (assignments : ∀ t ∈ cs, t.rule? = some .assignment)
    (complained : ComplainsAt errors ending) : BreaksOff errors ending cs

/-- On each way down the tree there are at most `d` blocks more than assignments, and a block that
reaches the bound is broken off. -/
inductive Nests (errors : List SyntaxError) (ending : Token) : Nat → Tree → Prop where
  | leaf (d : Nat) (x : Leaf) : Nests errors ending d (.leaf x)
  | block {d n : Nat} {span : Option Span} {cs : List Tree}
    (parts : ∀ c ∈ cs, Nests errors ending d c) (deepest : d = 0 → BreaksOff errors ending cs) :
    Nests errors ending (d + 1) (.node n .expressionBlock span cs)
  | assignment {d n : Nat} {span : Option Span} {cs : List Tree}
    (parts : ∀ c ∈ cs, Nests errors ending (d + 1) c) :
    Nests errors ending d (.node n .assignment span cs)
  | other {d n : Nat} {r : Rule} {span : Option Span} {cs : List Tree}
    (other : r.nestsValues = false) (parts : ∀ c ∈ cs, Nests errors ending d c) :
    Nests errors ending d (.node n r span cs)

variable {errors : List SyntaxError} {ending t : Token} {rest tokens : List Token}

/-! ## Blocks that are broken off -/

/-- Nothing has been read but a token that was complained of; at the end nothing at all. -/
def Skipping (errors : List SyntaxError) (ending : Token) (ts us : List Tree) : Prop :=
  (∃ n x, us = .ofChildren n .skipped [.leaf x] :: ts ∧ ComplainsAt errors x.token) ∨
    us = ts ∧ ComplainsAt errors ending

theorem Skipping.keeping {ts us : List Tree} (skipping : Skipping errors ending ts us) (k : Nat) :
    Keeping (Nests errors ending k) ts us := by
  intro before
  rcases skipping with ⟨n, x, rfl, -⟩ | ⟨rfl, -⟩
  · refine List.forall_mem_cons.mpr ⟨.other rfl ?_, before⟩
    simpa using Nests.leaf k x
  · exact before

/-- Whatever is complained of, there is a complaint about this place afterwards. -/
theorem ParserState.complainsAt_complain {s : ParserState} (here : s.rest = t :: rest)
    (c : Complaint) : ComplainsAt (s.complain c).errors t := by
  have span : s.settle.span = t.span := by
    simp only [ParserState.span, s.settle_agrees.rest, here, List.head?_cons, Option.map_some,
      Option.getD_some]
  unfold ParserState.complain
  dsimp only
  rw [span]
  split
  case isTrue repeated =>
    obtain ⟨e, last, same⟩ := (Option.any_eq_true _ _).mp repeated
    obtain ⟨stretch, spanned, starts⟩ := (Option.any_eq_true _ _).mp same
    exact ⟨e, List.mem_of_head? last, stretch, spanned, beq_iff_eq.mp starts⟩
  case isFalse => exact ⟨_, .head _, t.span, rfl, rfl⟩

/-- A complaint leaves all children as they are. -/
theorem ParserState.complain_turns (Ahead : List Token → Prop) (errors : List SyntaxError)
    {s : ParserState} (opened : s.frames ≠ []) (c : Complaint) :
    ParserState.Turns Ahead errors
      (fun ts us => us = ts ∧ ∀ t ∈ s.rest.head?, ComplainsAt errors t) s (s.complain c) := by
  refine (s.complain_agrees c).turns (ParserState.errors_subset (.complain c) s) opened
    fun _ kept ts => ⟨rfl, fun t ahead => ?_⟩
  obtain ⟨rest, here⟩ := List.head?_eq_some_iff.mp ahead
  obtain ⟨e, member, about⟩ := ParserState.complainsAt_complain here c
  exact ⟨e, kept member, about⟩

namespace Parser

variable {l : Level} {d k : Nat} {Ahead : List Token → Prop}

/-- The token ahead becomes a node. -/
theorem leafOf_turns {r : Rule} {s : ParserState} (remains : Remains Ahead) (opened : s.frames ≠ [])
    (here : s.rest = t :: rest) :
    ParserState.Turns Ahead errors
      (fun ts us => ∃ n m, us = .ofChildren n r [.leaf ⟨m, t⟩] :: ts) s ((leafOf r).run s).2 := by
  have started := s.start_agrees r
  have read : ParserState.Turns Ahead errors (fun ts us => ∃ n, us = .leaf ⟨n, t⟩ :: ts)
      (s.start r) (s.start r).bump :=
    ParserState.bump_turns remains (by simp [started.frames]) (started.rest.trans here)
  refine (read.inside opened).weaken ?_
  rintro ts us ⟨n, cs, ⟨m, rfl⟩, rfl⟩
  exact ⟨n, m, rfl⟩

theorem tooDeep_run (s : ParserState) : (tooDeep.run s).2 =
    let s' := s.complain .tooDeepExpression
    if s'.kind = .endOfInput then s' else ((leafOf .skipped).run s').2 := by
  change ((if (s.complain .tooDeepExpression).kind != .endOfInput then leafOf .skipped
    else pure ()).run (s.complain .tooDeepExpression)).2 = _
  dsimp only
  split
  case isTrue more => rw [if_neg (by simpa using more)]
  case isFalse ended =>
    rw [if_pos (by simpa using ended)]
    rfl

/-- Where nothing may nest any more, the token ahead is complained of, and skipped unless it is the
end. -/
theorem tooDeep_skips (remains : Remains Ahead) (errors : List SyntaxError) {s : ParserState}
    (opened : s.frames ≠ []) :
    ParserState.Turns Ahead errors (fun ts us =>
      (∃ n x, us = .ofChildren n .skipped [.leaf x] :: ts ∧ ComplainsAt errors x.token) ∨
        us = ts ∧ (tooDeep.run s).2.rest = s.rest ∧
          ∀ t ∈ s.rest.head?, t.kind = .endOfInput ∧ ComplainsAt errors t) s (tooDeep.run s).2 := by
  have same := (s.complain_agrees .tooDeepExpression).rest
  have complained := ParserState.complain_turns Ahead errors opened .tooDeepExpression
  rw [tooDeep_run]
  dsimp only
  split
  case isTrue ended =>
    refine complained.weaken ?_
    rintro ts us ⟨rfl, complained⟩
    refine .inr ⟨rfl, same, fun t ahead => ⟨?_, complained t ahead⟩⟩
    obtain ⟨rest, here⟩ := List.head?_eq_some_iff.mp ahead
    simpa [ParserState.kind, ParserState.kindAt, same, here] using ended
  case isFalse more =>
    obtain ⟨t, rest, here, -⟩ := exists_cons_of_kindAhead more
    refine (complained.trans (leafOf_turns remains complained.opened here)).weaken ?_
    rintro ts us ⟨_, ⟨rfl, complained⟩, n, m, rfl⟩
    exact .inl ⟨n, ⟨m, t⟩, rfl, complained t (by simp [← same, here])⟩

theorem tooDeep_turns : Turns (EndsWith ending) errors (Skipping errors ending) tooDeep := by
  intro s opened
  have remains : Remains (EndsWith ending) := .tail
  obtain ⟨kept, ahead, rebuilds⟩ := tooDeep_skips remains errors opened
  refine ⟨kept, ahead, rebuilds.weaken fun ts us skips ends kept => ?_⟩
  rcases skips ends kept with ⟨n, x, same, complained⟩ | ⟨same, -, complained⟩
  · exact .inl ⟨n, x, same, complained⟩
  · obtain ⟨t, rest, here⟩ := ends.exists_cons
    obtain ⟨reached, complained⟩ := complained t (by simp [here])
    exact .inr ⟨same, (here ▸ ends).eq_of_endOfInput reached ▸ complained⟩

/-! ## Levels -/

/-- The parser of a value keeps the bound. Where nothing may nest any more it only skips. -/
abbrev Values (ending : Token) (errors : List SyntaxError) (k : Nat) (p : Parser Unit) : Prop :=
  Turns (EndsWith ending) errors (fun ts us =>
    Keeping (Nests errors ending k) ts us ∧ (k = 0 → Skipping errors ending ts us)) p

/-- What a level gives keeps all bounds from its depth on. -/
structure Bounds (ending : Token) (errors : List SyntaxError) (d : Nat) (l : Level) : Prop where
  expression : ∀ k, d ≤ k → Values ending errors k l.expression
  negation : ∀ k, d ≤ k → Keeps (EndsWith ending) errors (Nests errors ending k) l.negation
  signed : ∀ k, d ≤ k → Keeps (EndsWith ending) errors (Nests errors ending k) l.signed

/-- The nodes that assembled parsers open themselves keep every bound. -/
theorem Assembled.keeps_nests {given : Parser Unit → Prop} {α : Type} {p : Parser α}
    (assembled : Assembled Rule.isFlat given p)
    (parts : ∀ q, given q → Keeps (EndsWith ending) errors (Nests errors ending k) q) :
    Keeps (EndsWith ending) errors (Nests errors ending k) p :=
  assembled.keeps .tail (.leaf k) (fun _ _ _ flat => .other (Bool.not_eq_true' _ ▸ flat)) parts

/-- An assignment is one level closer to its parts than what is around it. -/
theorem assignment_keeps {value : Parser Unit}
    (keeps : Keeps (EndsWith ending) errors (Nests errors ending (k + 1)) value) :
    Keeps (EndsWith ending) errors (fun t => Nests errors ending k t ∧ t.rule? = some .assignment)
      (assignment value) := by
  obtain ⟨body, same, parts⟩ : Makes Rule.isFlat (· = value) .assignment (assignment value) :=
    makes_assignment rfl (.part rfl)
  rw [same]
  exact .within (parts.keeps_nests fun q same => same ▸ keeps) fun n cs parts =>
    ⟨.assignment parts, rfl⟩

/-- Asking for an assignment leaves all trees as they are. -/
theorem keeps_seesAssignment {K : Tree → Prop} : Keeps (EndsWith ending) errors K seesAssignment :=
  .andThen (.note _ _) fun _ =>
    .andThen (.andThen (.note _ _) fun _ => .andThen (.andThen .ask fun _ => .answer _)
      fun _ => .answer _) fun _ =>
    .andThen (.andThen .ask fun _ => .answer _) fun _ => .answer _

/-- A block is one level further from its value than what is around it. -/
theorem blockUpTo_keeps (values : Values ending errors k l.expression) (fuel : Nat) :
    Keeps (EndsWith ending) errors (Nests errors ending (k + 1)) (blockUpTo l fuel) := by
  induction fuel with
  | zero => exact .overrun
  | succ fuel ih =>
    have assigns : Keeps (EndsWith ending) errors
        (fun t => Nests errors ending k t ∧ t.rule? = some .assignment) (repeatWhile do
          let ahead ← seesAssignment
          if ahead then assignment (blockUpTo l fuel)
          return ahead) :=
      .repeated <| .andThen keeps_seesAssignment fun _ =>
        .either (.andThen (assignment_keeps ih) fun _ => .answer _) (.answer _)
    refine ((Turns.andThen assigns fun _ => values).within).weaken ?_
    rintro ts us ⟨n, cs, ⟨front, assigned, valued, last⟩, rfl⟩ before
    have assignments := assigned nofun
    have parts := valued fun t member => (assignments t member).1
    refine List.forall_mem_cons.mpr ⟨.block (by simpa using parts) fun deepest => ?_, before⟩
    have assignments : ∀ t ∈ front.reverse, t.rule? = some .assignment :=
      fun t member => (assignments t (List.mem_reverse.mp member)).2
    rcases last deepest with ⟨m, x, rfl, complained⟩ | ⟨rfl, complained⟩
    · rw [List.reverse_cons]
      exact .skips assignments m x complained
    · exact .ends assignments complained

theorem block_keeps (values : Values ending errors k l.expression) :
    Keeps (EndsWith ending) errors (Nests errors ending (k + 1)) (block l) :=
  .andThen .ask fun _ => blockUpTo_keeps values _

/-- What a level gives keeps the bounds of what is assembled of it. -/
theorem Bounds.parts (bounds : Bounds ending errors d l) (deeper : d < k) :
    ∀ q, l.Gives q → Keeps (EndsWith ending) errors (Nests errors ending k) q := by
  intro q gives
  cases gives with
  | expression => exact (bounds.expression k (by omega)).weaken fun _ _ => And.left
  | negation => exact bounds.negation k (by omega)
  | signed => exact bounds.signed k (by omega)
  | block =>
    obtain ⟨k, rfl⟩ : ∃ j, k = j + 1 := ⟨k - 1, by omega⟩
    exact block_keeps (bounds.expression k (by omega))

/-- By induction on the depth: a level bounds what is assembled of the level below it. -/
theorem level_bounds (d : Nat) : Bounds ending errors d (level d) := by
  induction d with
  | zero =>
    have keeps (k : Nat) : Keeps (EndsWith ending) errors (Nests errors ending k) tooDeep :=
      tooDeep_turns.weaken fun _ _ skipping => skipping.keeping k
    exact
      { expression := fun k _ => tooDeep_turns.weaken fun _ _ skipping =>
          ⟨skipping.keeping k, fun _ => skipping⟩
        negation := fun k _ => keeps k
        signed := fun k _ => keeps k }
  | succ d ih =>
    exact
      { expression := fun k deeper =>
          (assembled_disjunction.keeps_nests (ih.parts deeper)).weaken fun _ _ keeps =>
            ⟨keeps, by omega⟩
        negation := fun k deeper =>
          ((makes_unary assembled_negatable).assembled rfl).keeps_nests (ih.parts deeper)
        signed := fun k deeper =>
          ((makes_unary assembled_signedOperand).assembled rfl).keeps_nests (ih.parts deeper) }

end Parser

open XuleLang.Parser

/-! ## Files -/

/-- What the declarations keep, the parts of a file have. -/
theorem file_keeps {Ahead : List Token → Prop} {K : Tree → Prop} {l : Level} {ts : List Token}
    (remains : Remains Ahead) (leaf : ∀ x, K (.leaf x))
    (declarations : Keeps Ahead errors K (repeatWhile (nextDeclaration l))) (ahead : Ahead ts)
    (kept : ((file l).run (.ofTokens ts none)).2.errors ⊆ errors) :
    ∃ cs, ((file l).run (.ofTokens ts none)).2.finished = [.ofChildren 0 .file cs] ∧
      ∀ c ∈ cs, K c := by
  have started := (ParserState.ofTokens ts none).start_agrees .file
  have declared := declarations ((ParserState.ofTokens ts none).start .file)
    (by simp [started.frames])
  have last : Keeps Ahead errors K bump :=
    .bump remains (fun _ _ _ before => List.forall_mem_cons.mpr ⟨leaf _, before⟩) fun _ => id
  rw [file_run] at kept ⊢
  obtain ⟨cs, finished, keeps⟩ := (declared.keep (last _ declared.opened)).alone rfl
  exact ⟨cs.reverse, finished, by simpa using keeps ahead kept nofun⟩

/-- What the declarations keep, the parts of the tree of a text have. -/
theorem parse_keeps {Ahead : List Token → Prop} {K : Tree → Prop} (remains : Remains Ahead)
    (leaf : ∀ x, K (.leaf x))
    (declarations : Keeps Ahead (parse tokens).errors K
      (repeatWhile (nextDeclaration (level maxDepth))))
    (ahead : Ahead (visibleTokens tokens)) :
    ∃ span cs, (parse tokens).tree.root = .node 0 .file span cs ∧ ∀ c ∈ cs, K c := by
  obtain ⟨cs, finished, keeps⟩ :=
    file_keeps remains leaf declarations ahead (by simp [parse, runFile])
  refine ⟨some (wholeSpan tokens), cs, ?_, keeps⟩
  simp only [parse, runFile, finished]
  rfl

/-- Blocks nest in the tree of a text as deep as the levels go, and once more. -/
theorem parse_nests (ends : EndsWith ending (visibleTokens tokens)) :
    Nests (parse tokens).errors ending (maxDepth + 1) (parse tokens).tree.root := by
  have declarations : Keeps (EndsWith ending) (parse tokens).errors
      (Nests (parse tokens).errors ending (maxDepth + 1))
      (repeatWhile (nextDeclaration (level maxDepth))) :=
    (assembled_declarations.widen Rule.isFlat_of_isOrdinary).keeps_nests
      ((level_bounds maxDepth).parts (Nat.lt_succ_self maxDepth))
  obtain ⟨span, cs, root, nests⟩ := parse_keeps .tail (.leaf _) declarations ends
  rw [root]
  exact .other rfl nests

/-! ## Places -/

/-- The number of nodes of a rule at a place and above it. -/
def Cursor.countOf (c : Cursor) (r : Rule) : Nat := c.ancestors.countP (·.rule? == some r)

/-- What holds of the root and passes from nodes to their children holds of all places. -/
theorem Tree.forall_cursors {P : Cursor → Prop} {t : Tree} (root : P ⟨t, []⟩)
    (child : ∀ p, P p → ∀ u ∈ p.tree.children, P (p.child u)) : ∀ c ∈ t.cursors, P c := by
  rintro ⟨u, above⟩ member
  induction above generalizing u with
  | nil =>
    rcases exists_parent_of_mem_cursorsUnder t _ member with here | ⟨p, -, v, -, below⟩
    · exact here ▸ root
    · simp [Cursor.child] at below
  | cons parent above ih =>
    rcases exists_parent_of_mem_cursorsUnder t _ member with here | ⟨p, there, v, among, below⟩
    · simp at here
    · obtain ⟨rfl, rfl, rfl⟩ : u = v ∧ parent = p.tree ∧ above = p.above := by
        simpa [Cursor.child] using below
      exact child p (ih p.tree there) u among

/-- A block has parts with a lower bound, an assignment has parts with a higher one. -/
theorem Nests.exists_of_child {t u : Tree} {k : Nat} (nests : Nests errors ending k t)
    (child : u ∈ t.children) : ∃ j, Nests errors ending j u ∧
      (if t.rule? == some .expressionBlock then 1 else 0) + j =
        k + if t.rule? == some .assignment then 1 else 0 := by
  cases nests with
  | leaf k x => cases child
  | @block k n span cs parts deepest => exact ⟨k, parts u child, Nat.add_comm 1 k⟩
  | @assignment k n span cs parts => exact ⟨k + 1, parts u child, Nat.zero_add _⟩
  | @other k n r span cs other parts =>
    obtain ⟨block, assignment⟩ := Bool.or_eq_false_iff.mp other
    refine ⟨k, parts u child, ?_⟩
    change (if some r == some .expressionBlock then 1 else 0) + k =
      k + if some r == some .assignment then 1 else 0
    simp [block, assignment]

/-- On the way down to a place the bound becomes less by each block and more by each assignment. -/
theorem Nests.at_place {t : Tree} {d : Nat} (nests : Nests errors ending d t) :
    ∀ c ∈ t.cursors, ∃ k, Nests errors ending k c.tree ∧
      c.above.countP (·.rule? == some .expressionBlock) + k =
        d + c.above.countP (·.rule? == some .assignment) := by
  refine Tree.forall_cursors ⟨d, nests, Nat.zero_add d⟩ ?_
  rintro p ⟨k, nests, counted⟩ u child
  obtain ⟨j, nests, less⟩ := nests.exists_of_child child
  refine ⟨j, nests, ?_⟩
  simp only [Cursor.child, List.countP_cons]
  omega

/-- A block takes one of the bound. If that was the last one, it is broken off. -/
theorem Nests.exists_of_block {t : Tree} {k : Nat} (nests : Nests errors ending k t)
    (block : t.rule? = some .expressionBlock) :
    ∃ j, k = j + 1 ∧ (j = 0 → BreaksOff errors ending t.children) := by
  cases nests with
  | leaf | assignment => cases block
  | @block k n span cs parts deepest => exact ⟨k, rfl, deepest⟩
  | other other => cases block; cases other

/-- The bound holds at each place, and a block that reaches it is broken off. -/
theorem Nests.bounded {t : Tree} {d : Nat} (nests : Nests errors ending d t) :
    ∀ c ∈ t.cursors,
      c.countOf .expressionBlock ≤ d + c.countOf .assignment ∧
      (c.tree.rule? = some .expressionBlock →
        c.countOf .expressionBlock = d + c.countOf .assignment →
          BreaksOff errors ending c.tree.children) := by
  intro c member
  obtain ⟨k, nests, counted⟩ := nests.at_place c member
  simp only [Cursor.countOf, Cursor.ancestors, List.countP_cons]
  by_cases block : c.tree.rule? = some .expressionBlock
  · obtain ⟨j, rfl, deepest⟩ := nests.exists_of_block block
    have alone : (if c.tree.rule? == some .assignment then 1 else 0) = 0 := by rw [block]; rfl
    simp only [block, beq_self_eq_true, if_true]
    refine ⟨by omega, fun _ reached => deepest (by omega)⟩
  · simp only [beq_iff_eq, block, if_false, false_implies, and_true]
    omega

/-- **Levels bound the nesting of blocks, but for assignments.** Each assignment above a place lets
one block more stand above it than there are levels for. A block that reaches this bound is broken
off: what should be its value is complained of, and is not parsed. -/
theorem nesting_is_bounded_but_for_assignments (ends : EndsOnce (visibleTokens tokens)) :
    ∃ ending, EndsWith ending (visibleTokens tokens) ∧
      ∀ c ∈ (parse tokens).tree.root.cursors,
        c.countOf .expressionBlock ≤ maxDepth + 1 + c.countOf .assignment ∧
        (c.tree.rule? = some .expressionBlock →
          c.countOf .expressionBlock = maxDepth + 1 + c.countOf .assignment →
            BreaksOff (parse tokens).errors ending c.tree.children) := by
  obtain ⟨ending, ends⟩ := ends.exists_endsWith
  exact ⟨ending, ends, (parse_nests ends).bounded⟩

/-- Tokens of these kinds, one behind the other. -/
def tokensOfKinds (ks : List TokenKind) : List Token :=
  ks.mapIdx fun i k => ⟨k, "", .single ⟨1, i + 1, i⟩, .visible, i⟩

/-- More parentheses in each other than there are levels for. -/
def deepParentheses : List Token :=
  tokensOfKinds <| .keyword .outputKw :: .identifier ::
    List.replicate maxDepth (.punctuator .lparen) ++ [.number, .endOfInput]

/-- The block in the innermost parentheses reaches the bound, and its value is skipped. -/
theorem deepest_block_is_broken_off :
    EndsOnce (visibleTokens deepParentheses) ∧
    ∃ ending, EndsWith ending (visibleTokens deepParentheses) ∧
      ∃ c ∈ (parse deepParentheses).tree.root.cursors,
        c.countOf .expressionBlock = maxDepth + 1 ∧ c.countOf .assignment = 0 ∧
          BreaksOff (parse deepParentheses).errors ending c.tree.children := by
  have ends : EndsOnce (visibleTokens deepParentheses) := by decide +kernel
  obtain ⟨ending, last, bounded⟩ := nesting_is_bounded_but_for_assignments ends
  obtain ⟨c, member, block, reached, none⟩ : ∃ c ∈ (parse deepParentheses).tree.root.cursors,
      c.tree.rule? = some .expressionBlock ∧ c.countOf .expressionBlock = maxDepth + 1 ∧
        c.countOf .assignment = 0 := by decide +kernel
  exact ⟨ends, ending, last, c, member, reached, none, (bounded c member).2 block (by omega)⟩

end XuleLang
