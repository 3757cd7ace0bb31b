import XuleLang.Proofs.Parser.Nesting
import XuleLang.Proofs.Parser.Recovery

/-!
Assignments that nest without bound.

The value of an assignment is a block, which may begin with an assignment again. Between them no
level is taken, so that a tower of assignments of any height is parsed without a complaint, and the
blocks in its tree nest as deep as the tower is high.

What the parser makes of a tower follows from the kinds of its tokens. `Parser.Piles` says what is
read of some kinds with which answer, and how high the blocks are that are piled up by it. It is
composed as the parser is, and by induction on the height of the tower for its blocks.
-/

namespace XuleLang

/-! ## Piles of blocks -/

/-- Somewhere in the tree there are this many blocks one inside the other. -/
def Tree.Piles (d : Nat) (t : Tree) : Prop :=
  ∀ above, ∃ c ∈ t.cursorsUnder above,
    d + above.countP (·.rule? == some .expressionBlock) ≤ c.countOf .expressionBlock

/-- One of the trees piles blocks as high, unless there are none to pile. -/
def PileUp (d : Nat) (ts : List Tree) : Prop := d = 0 ∨ ∃ t ∈ ts, t.Piles d

theorem PileUp.mono {d : Nat} {ts us : List Tree} (piles : PileUp d ts) (more : ts ⊆ us) :
    PileUp d us :=
  piles.imp_right fun ⟨t, member, high⟩ => ⟨t, more member, high⟩

/-- A block is one more than the highest pile below it. -/
theorem PileUp.node {d : Nat} {cs : List Tree} (piles : PileUp d cs) (n : Nat) (r : Rule)
    (span : Option Span) :
    Tree.Piles ((if r == .expressionBlock then 1 else 0) + d) (.node n r span cs) := by
  intro above
  rcases piles with rfl | ⟨t, member, high⟩
  · refine ⟨⟨.node n r span cs, above⟩, .head _, ?_⟩
    simp [Cursor.countOf, Cursor.ancestors, Tree.rule?, List.countP_cons]
    omega
  · obtain ⟨c, below, counted⟩ := high (.node n r span cs :: above)
    refine ⟨c, .tail _ (Tree.cursorsUnder_subset_of_mem member below), ?_⟩
    simp [Tree.rule?, List.countP_cons] at counted ⊢
    omega

/-! ## Kinds of tokens -/

/-- The kinds of tokens. -/
def kindsOf (ts : List Token) : List TokenKind := ts.map (·.kind)

theorem kindsOf_tokensOfKinds (ks : List TokenKind) : kindsOf (tokensOfKinds ks) = ks := by
  refine List.ext_getElem (by simp [kindsOf, tokensOfKinds]) fun i _ _ => ?_
  simp [kindsOf, tokensOfKinds]

theorem visibleTokens_tokensOfKinds (ks : List TokenKind) :
    visibleTokens (tokensOfKinds ks) = tokensOfKinds ks := by
  refine visibleTokens_eq_self fun t member => ?_
  obtain ⟨i, inside, rfl⟩ := List.mem_mapIdx.mp member
  rfl

theorem endsOnce_of_kinds {ts : List Token} {ks : List TokenKind}
    (kinds : kindsOf ts = ks ++ [.endOfInput]) (unended : .endOfInput ∉ ks) : EndsOnce ts := by
  obtain ⟨front, lasts, rfl, rfl, ended⟩ := List.map_eq_append_iff.mp kinds
  obtain ⟨last, rfl, last_ends⟩ := List.map_eq_singleton_iff.mp ended
  exact ⟨front, last, rfl, last_ends,
    fun t member same => unended (List.mem_map.mpr ⟨t, member, same⟩)⟩

/-! ## Reading -/

namespace ParserState

/-- Up to tokens of the kinds `behind` all has been read without a complaint, and blocks have been
piled up inside the innermost open node. -/
structure Piles (d : Nat) (behind : List TokenKind) (s s' : ParserState) : Prop where
  rest : kindsOf s'.rest = behind
  errors : s'.errors = s.errors
  rebuilds : Rebuilds (fun ts us => ∃ added, us = added ++ ts ∧ PileUp d added) s s'

variable {d e : Nat} {between behind : List TokenKind} {s t u : ParserState} {r : Rule}

theorem Agrees.piles (agrees : Agrees s t) (errors : t.errors = s.errors)
    (opened : s.frames ≠ []) : Piles 0 (kindsOf s.rest) s t :=
  ⟨congrArg kindsOf agrees.rest, errors, agrees.rebuilds opened fun _ => ⟨[], rfl, .inl rfl⟩⟩

theorem Piles.trans (first : Piles d between s t) (second : Piles e behind t u) :
    Piles (max d e) behind s u := by
  refine ⟨second.rest, second.errors.trans first.errors,
    (first.rebuilds.trans second.rebuilds).weaken ?_⟩
  rintro ts us ⟨_, ⟨earlier, rfl, high⟩, later, rfl, high'⟩
  refine ⟨later ++ earlier, (List.append_assoc _ _ _).symm, ?_⟩
  rcases Nat.le_total d e with less | more
  · rw [Nat.max_eq_right less]
    exact high'.mono (List.subset_append_left _ _)
  · rw [Nat.max_eq_left more]
    exact high.mono (List.subset_append_right _ _)

theorem start_errors (s : ParserState) (r : Rule) : (s.start r).errors = s.errors :=
  note_errors _ [] []

/-- A node around what has been added. -/
theorem Piles.inside (opened : s.frames ≠ []) (body : Piles d behind (s.start r) u) :
    Piles ((if r == .expressionBlock then 1 else 0) + d) behind s u.finish := by
  refine ⟨u.finish_rest ▸ body.rest,
    u.finish_reseen.1.errors.trans (body.errors.trans (s.start_errors r)),
    (body.rebuilds.inside opened).weaken ?_⟩
  rintro ts us ⟨_, ⟨added, rfl, high⟩, rfl⟩
  exact ⟨[_], rfl, .inr ⟨_, .head _, (high.mono (by simp)).node s.nextId r _⟩⟩

/-- A node outside all others, around what has been added. -/
theorem Piles.alone (outside : s.frames = []) (body : Piles d behind (s.start r) u) :
    u.finish.errors = s.errors ∧
      ∃ cs, u.finish.finished = .ofChildren s.nextId r cs :: s.finished ∧ PileUp d cs := by
  obtain ⟨_, ⟨added, rfl, high⟩, finished⟩ := body.rebuilds.alone outside
  exact ⟨u.finish_reseen.1.errors.trans (body.errors.trans (s.start_errors r)), _, finished,
    high.mono (by simp)⟩

/-- The end is never read over. -/
theorem bump_piles (opened : s.frames ≠ []) {k : TokenKind}
    (here : kindsOf s.rest = k :: behind) :
    Piles 0 (if k = .endOfInput then k :: behind else behind) s s.bump := by
  obtain ⟨x, rest, there, rfl, rfl⟩ := List.map_eq_cons_iff.mp here
  obtain ⟨v, same, -, bumped⟩ := bump_eq_settle there
  refine ⟨?_, ?_, (bump_rebuilds opened there).weaken fun ts us read => ⟨[_], read, .inl rfl⟩⟩
  · rw [(bump_of_cons there).rest]
    dsimp only
    split
    · exact here
    · rfl
  · rw [bumped]
    split <;> exact v.settle_errors.trans same.errors

end ParserState

namespace Parser

/-- With tokens of the kinds `ahead` ahead and a node open, the parser gives this answer and piles
up blocks. -/
def Piles {α : Type} (d : Nat) (ahead behind : List TokenKind) (p : Parser α) (a : α) : Prop :=
  ∀ s : ParserState, kindsOf s.rest = ahead → s.frames ≠ [] →
    (p.run s).1 = a ∧ ParserState.Piles d behind s (p.run s).2

variable {α β : Type} {d e n : Nat} {ahead between behind : List TokenKind} {p : Parser α}
  {f : α → Parser β} {a : α} {b : β} {k : TokenKind} {r : Rule} {l : Level}

namespace Piles

theorem answer (a : α) : Piles 0 ahead ahead (pure a) a := by
  rintro s rfl opened
  exact ⟨rfl, ParserState.Agrees.piles ⟨rfl, rfl, rfl, rfl, rfl⟩ rfl opened⟩

theorem andThen (first : Piles d ahead between p a) (next : Piles e between behind (f a) b) :
    Piles (max d e) ahead behind (p >>= f) b := by
  intro s here opened
  obtain ⟨rfl, piled⟩ := first s here opened
  obtain ⟨result, more⟩ := next _ piled.rest piled.rebuilds.opened
  exact ⟨result, piled.trans more⟩

/-- What comes first is of no height. -/
theorem after (first : Piles 0 ahead between p a) (next : Piles d between behind (f a) b) :
    Piles d ahead behind (p >>= f) b :=
  Nat.zero_max d ▸ first.andThen next

/-- What comes last is of no height. -/
theorem before (first : Piles d ahead between p a) (next : Piles 0 between behind (f a) b) :
    Piles d ahead behind (p >>= f) b :=
  Nat.max_zero d ▸ first.andThen next

theorem inside {body : Parser Unit} (piles : Piles d ahead behind body ()) (r : Rule) :
    Piles ((if r == .expressionBlock then 1 else 0) + d) ahead behind (within r body) () := by
  intro s here opened
  have started := s.start_agrees r
  obtain ⟨-, piled⟩ := piles (s.start r) ((congrArg kindsOf started.rest).trans here)
    (by simp [started.frames])
  exact ⟨rfl, piled.inside opened⟩

theorem within {body : Parser Unit} (other : r ≠ .expressionBlock)
    (piles : Piles d ahead behind body ()) : Piles d ahead behind (within r body) () := by
  simpa [other] using piles.inside r

/-- A repetition is bounded by the number of tokens ahead. -/
theorem repeated {step : Parser Bool}
    (piles : Piles d ahead behind (repeatUpTo (ahead.length + 1) step) ()) :
    Piles d ahead behind (repeatWhile step) () := by
  intro s here opened
  have same : s.rest.length = ahead.length := by rw [← here, kindsOf, List.length_map]
  rw [repeatWhile_run, same]
  exact piles s here opened

/-- A repetition whose step says no at once. -/
theorem idle {step : Parser Bool} (stops : Piles 0 ahead ahead step false) :
    Piles 0 ahead ahead (repeatWhile step) () :=
  .repeated (stops.after (.answer ()))

/-- A repetition whose step says yes once. -/
theorem once {step : Parser Bool} (goes : Piles d (k :: ahead) behind step true)
    (stops : Piles 0 behind behind step false) :
    Piles d (k :: ahead) behind (repeatWhile step) () := by
  have last : Piles 0 behind behind (repeatUpTo (ahead.length + 1) step) () :=
    stops.after (.answer ())
  exact .repeated (goes.before last)

end Piles

/-! ## What is read without a choice -/

theorem piles_bump (inside : k ≠ .endOfInput) : Piles 0 (k :: behind) behind bump () := by
  intro s here opened
  have bumped := ParserState.bump_piles opened here
  rw [if_neg inside] at bumped
  exact ⟨rfl, bumped⟩

theorem piles_leafOf (inside : k ≠ .endOfInput) (other : r ≠ .expressionBlock) :
    Piles 0 (k :: behind) behind (leafOf r) () :=
  .within other (piles_bump inside)

theorem piles_kindAt (n : Nat) :
    Piles 0 ahead ahead (kindAt n) ((ahead[n]?).getD .endOfInput) := by
  rintro s rfl opened
  refine ⟨?_, ParserState.Agrees.piles ⟨rfl, rfl, rfl, rfl, rfl⟩ rfl opened⟩
  rw [kindsOf, List.getElem?_map]
  rfl

theorem piles_kind : Piles 0 ahead ahead kind ((ahead[0]?).getD .endOfInput) := piles_kindAt 0

theorem piles_note (kinds : List TokenKind) (rules : List Rule) :
    Piles 0 ahead ahead (modify (·.note kinds rules)) () := by
  rintro s rfl opened
  exact ⟨rfl, (s.note_agrees kinds rules).piles (s.note_errors kinds rules) opened⟩

theorem piles_predict (rules : List Rule) : Piles 0 ahead ahead (predict rules) () :=
  piles_note [] rules

theorem piles_sees (k : TokenKind) :
    Piles 0 ahead ahead (sees k) ((ahead[0]?).getD .endOfInput == k) :=
  (piles_note _ _).after (piles_kind.after (.answer _))

theorem piles_seesAny (ks : List TokenKind) :
    Piles 0 ahead ahead (seesAny ks) (ks.any ((ahead[0]?).getD .endOfInput == ·)) := by
  induction ks with
  | nil => exact .answer false
  | cons k ks ih => exact (piles_sees k).after (ih.after (.answer _))

theorem piles_expect (inside : k ≠ .endOfInput) : Piles 0 (k :: behind) behind (expect k) true := by
  have eats : Piles 0 (k :: behind) behind (eat k) true := by
    refine (piles_sees k).after ?_
    simp only [List.getElem?_cons_zero, Option.getD_some, beq_self_eq_true, if_true]
    exact (piles_bump inside).after (.answer true)
  exact eats.before (.answer true)

/-! ## Towers -/

/-- What may stand behind a value, but no operator. -/
def valueEnds : List TokenKind := [.punctuator .semicolon, .endOfInput]

theorem piles_operands {asks : Parser Bool} {operand : Parser Unit}
    (piles : Piles d ahead behind operand ()) (stops : Piles 0 behind behind asks false) :
    Piles d ahead behind (operands asks operand) () :=
  piles.before <| .idle <| stops.after (.answer false)

/-- Nothing is added to a number if no operator follows. -/
theorem piles_number (stop : k ∈ valueEnds) :
    Piles 0 (.number :: k :: behind) (k :: behind) (levelAbove l).expression () := by
  have apart {k' : TokenKind} (other : k' ∉ valueEnds) : (k == k') = false := by
    simpa using fun same : k = k' => other (same ▸ stop)
  have unseen {k' : TokenKind} (other : k' ∉ valueEnds) :
      Piles 0 (k :: behind) (k :: behind) (sees k') false :=
    apart other ▸ piles_sees k'
  have noneSeen {ks : List TokenKind} (others : ∀ k' ∈ ks, k' ∉ valueEnds) :
      Piles 0 (k :: behind) (k :: behind) (seesAny ks) false := by
    have none : ks.any (k == ·) = false :=
      List.any_eq_false.mpr fun k' member => by simp [apart (others k' member)]
    exact none ▸ piles_seesAny ks
  have literal : Piles 0 (.number :: k :: behind) (k :: behind) (primary l) () :=
    (piles_predict _).after <| (piles_seesAny _).after <| (piles_seesAny _).after <|
      (piles_kindAt 1).after <| piles_kind.after <| piles_leafOf nofun nofun
  have signed : Piles 0 (.number :: k :: behind) (k :: behind) (signedOperand l) () :=
    (piles_seesAny _).after <| literal.before <| .idle <|
      (unseen (by decide)).after (.answer false)
  have compared : Piles 0 (.number :: k :: behind) (k :: behind) (comparison l) () := by
    have notIn : Piles 0 (k :: behind) (k :: behind) seesNotIn false := by
      have other : (k == .keyword .notKw) = false := apart (by decide)
      refine piles_kind.after ((piles_kindAt 1).after ?_)
      simpa [other] using Piles.answer false
    exact piles_operands (piles_operands (piles_operands signed (noneSeen (by decide)))
      (noneSeen (by decide))) (notIn.after ((noneSeen (by decide)).after (.answer false)))
  have negated : Piles 0 (.number :: k :: behind) (k :: behind) (negatable l) () :=
    (piles_sees _).after <| (piles_kindAt 1).after compared
  exact piles_operands (piles_operands negated (unseen (by decide))) (unseen (by decide))

/-- The kinds of a block with a number as its value, and of so many assignments in each other before
it. -/
def towerKinds : Nat → List TokenKind
  | 0 => [.number]
  | n + 1 => .variableName :: .punctuator .assign ::
      (towerKinds n ++ [.punctuator .semicolon, .number])

theorem length_towerKinds (n : Nat) : (towerKinds n).length = 4 * n + 1 := by
  induction n with
  | zero => rfl
  | succ n ih => simp [towerKinds, ih]; omega

theorem piles_seesAssignment : Piles 0 ahead ahead seesAssignment
    ((ahead[0]?).getD .endOfInput == .variableName &&
      (ahead[1]?).getD .endOfInput == .punctuator .assign) :=
  (piles_predict _).after <| (piles_sees _).after <| (piles_kindAt 1).after <| .answer _

theorem piles_assignment {value : Parser Unit}
    (piles : Piles d ahead (.punctuator .semicolon :: behind) value ()) :
    Piles d (.variableName :: .punctuator .assign :: ahead) behind (assignment value) () :=
  .within (by decide) <| (piles_leafOf (by decide) (by decide)).after <|
    (piles_bump (by decide)).after <| piles.before <| (piles_expect (by decide)).after <| .answer ()

/-- A block is one more than what the assignments in it pile up. -/
theorem piles_blockUpTo {fuel : Nat}
    (assigns : Piles d ahead between (repeatWhile do
      let ahead ← seesAssignment
      if ahead then assignment (blockUpTo l fuel)
      return ahead) ())
    (value : Piles 0 between behind l.expression ()) :
    Piles (1 + d) ahead behind (blockUpTo l (fuel + 1)) () :=
  (assigns.before value).inside .expressionBlock

/-- A tower is read as one block, in which all others are. -/
theorem piles_tower {fuel : Nat} (enough : n < fuel) (stop : k ∈ valueEnds) :
    Piles (1 + n) (towerKinds n ++ k :: behind) (k :: behind)
      (blockUpTo (levelAbove l) fuel) () := by
  induction n generalizing fuel k behind with
  | zero =>
    obtain ⟨fuel, rfl⟩ := Nat.exists_eq_add_of_le' enough
    exact piles_blockUpTo (.idle <| piles_seesAssignment.after <| .answer false)
      (piles_number stop)
  | succ n ih =>
    obtain ⟨fuel, rfl⟩ : ∃ m, fuel = m + 1 := ⟨fuel - 1, by omega⟩
    have ahead : towerKinds (n + 1) ++ k :: behind = .variableName :: .punctuator .assign ::
        (towerKinds n ++ .punctuator .semicolon :: .number :: k :: behind) := by
      simp [towerKinds]
    have value : Piles (1 + n) (towerKinds n ++ .punctuator .semicolon :: .number :: k :: behind)
        (.punctuator .semicolon :: .number :: k :: behind)
        (blockUpTo (levelAbove l) fuel) () := ih (by omega) (by decide)
    have assigns : Piles (1 + n) (.variableName :: .punctuator .assign ::
        (towerKinds n ++ .punctuator .semicolon :: .number :: k :: behind)) (.number :: k :: behind)
        (repeatWhile do
          let ahead ← seesAssignment
          if ahead then assignment (blockUpTo (levelAbove l) fuel)
          return ahead) () :=
      .once (piles_seesAssignment.after ((piles_assignment value).before (.answer true)))
        (piles_seesAssignment.after (.answer false))
    rw [ahead, Nat.add_comm n 1]
    exact piles_blockUpTo assigns (piles_number stop)

theorem block_run (l : Level) (s : ParserState) :
    (block l).run s = (blockUpTo l (s.rest.length + 1)).run s := rfl

theorem piles_block (stop : k ∈ valueEnds) :
    Piles (1 + n) (towerKinds n ++ k :: behind) (k :: behind) (block (levelAbove l)) () := by
  intro s here opened
  have long : s.rest.length = (towerKinds n ++ k :: behind).length := by
    rw [← here, kindsOf, List.length_map]
  rw [List.length_append, length_towerKinds] at long
  rw [block_run]
  exact piles_tower (by omega) stop s here opened

/-! ## Files -/

/-- The kinds of a file with an output whose value is a tower. -/
def towerFile (n : Nat) : List TokenKind :=
  .keyword .outputKw :: .identifier :: (towerKinds n ++ [.endOfInput])

theorem piles_ruleName : Piles 0 (.identifier :: (towerKinds n ++ [.endOfInput]))
    (towerKinds n ++ [.endOfInput]) ruleName () := by
  have unpointed : Piles 0 (towerKinds n ++ [.endOfInput]) (towerKinds n ++ [.endOfInput])
      ruleNamePart false := by
    refine (piles_kindAt 1).after (piles_kind.after ?_)
    cases n with
    | zero => exact .answer false
    | succ n => exact .answer false
  have named : Piles 0 (.identifier :: (towerKinds n ++ [.endOfInput]))
      (.identifier :: (towerKinds n ++ [.endOfInput])) seesName true :=
    (piles_sees _).after <| piles_kind.after <| .answer true
  exact .within (by decide) <| named.after <| (Piles.answer true).after <|
    (piles_bump (by decide)).after (.idle unpointed)

theorem piles_output : Piles (1 + n) (towerFile n) [.endOfInput] (output (levelAbove l)) () := by
  have attributes : Piles 0 [.endOfInput] [.endOfInput]
      (repeatWhile (outputAttribute (levelAbove l))) () :=
    .idle <| (piles_predict _).after <| (piles_sees _).after <| .answer false
  exact .within (by decide) <| (piles_bump (by decide)).after <| piles_ruleName.after <|
    (piles_block (by decide)).before attributes

theorem piles_declaration :
    Piles (1 + n) (towerFile n) [.endOfInput] (declaration (levelAbove l)) () := by
  refine piles_kind.after ?_
  simp only [towerFile, List.getElem?_cons_zero, Option.getD_some]
  exact piles_output

theorem piles_declarations : Piles (1 + n) (towerFile n) [.endOfInput]
    (repeatWhile (nextDeclaration (levelAbove l))) () := by
  have goes : Piles (1 + n) (towerFile n) [.endOfInput] (nextDeclaration (levelAbove l)) true := by
    refine (piles_seesAny _).after ((piles_sees _).after ?_)
    exact piles_declaration.before (.answer true)
  exact .once goes <| (piles_seesAny _).after <| (piles_sees _).after <| .answer false

/-- A file whose value is a tower is complete without a complaint. -/
theorem file_piles {ts : List Token} (kinds : kindsOf ts = towerFile n) :
    ((file (levelAbove l)).run (.ofTokens ts none)).2.errors = [] ∧
      ∃ cs, ((file (levelAbove l)).run (.ofTokens ts none)).2.finished = [.ofChildren 0 .file cs] ∧
        PileUp (1 + n) cs := by
  have started := (ParserState.ofTokens ts none).start_agrees .file
  obtain ⟨-, declared⟩ := piles_declarations (l := l) ((ParserState.ofTokens ts none).start .file)
    ((congrArg kindsOf started.rest).trans kinds) (by simp [started.frames])
  have bumped := declared.trans (ParserState.bump_piles declared.rebuilds.opened declared.rest)
  rw [Nat.max_zero] at bumped
  rw [file_run]
  exact bumped.alone rfl

end Parser

open XuleLang.Parser

variable {tokens : List Token} {n : Nat}

/-- **Towers of any height are parsed.** There is no complaint, and the blocks in the tree nest as
deep as the tower is high. -/
theorem parse_tower (kinds : kindsOf (visibleTokens tokens) = towerFile n) :
    (parse tokens).errors = [] ∧
      ∃ c ∈ (parse tokens).tree.root.cursors, n < c.countOf .expressionBlock := by
  obtain ⟨errors, cs, finished, high⟩ := file_piles (l := level 127) kinds
  have level : levelAbove (level 127) = level maxDepth := rfl
  rw [level] at errors finished
  have root : (parse tokens).tree.root = .node 0 .file (some (wholeSpan tokens)) cs := by
    simp only [parse, runFile, finished]
    rfl
  obtain ⟨c, member, counted⟩ := high.node 0 .file (some (wholeSpan tokens)) []
  refine ⟨by simp only [parse, runFile, errors, List.reverse_nil], c, root ▸ member, ?_⟩
  simp at counted
  omega

theorem towerKinds_unended (n : Nat) : .endOfInput ∉ towerKinds n := by
  induction n with
  | zero => decide
  | succ n ih => simpa [towerKinds] using ih

/-- **No number bounds the nesting of blocks**, not even where there is no complaint. -/
theorem nesting_of_blocks_is_unbounded :
    ¬ ∃ bound, ∀ tokens, EndsOnce (visibleTokens tokens) → (parse tokens).errors = [] →
      ∀ c ∈ (parse tokens).tree.root.cursors, c.countOf .expressionBlock ≤ bound := by
  rintro ⟨bound, bounded⟩
  have kinds : kindsOf (visibleTokens (tokensOfKinds (towerFile bound))) = towerFile bound := by
    rw [visibleTokens_tokensOfKinds, kindsOf_tokensOfKinds]
  have unended : .endOfInput ∉ .keyword .outputKw :: .identifier :: towerKinds bound := by
    simp [towerKinds_unended]
  have ends := endsOnce_of_kinds kinds unended
  obtain ⟨errors, c, member, high⟩ := parse_tower kinds
  exact absurd (bounded _ ends errors c member) (Nat.not_le_of_lt high)

end XuleLang
