import XuleLang.Proofs.Parser.File
import XuleLang.Proofs.Parser.Production
import XuleLang.Proofs.Parser.Lossless

/-!
A parse without complaints is a derivation, and its operators group by their precedence.

The declarations match their productions like everything in them. What is no declaration has been
complained of before it is skipped, so that a parse without complaints skips nothing.
-/

namespace XuleLang

open Computability Grammar

namespace Parser

variable {l : Level} {ts : List Token}

/-! ## Declarations -/

theorem yields_ruleNamePart :
    Yields ts ruleNamePart fun yes =>
      if yes then sign .dot * oneOf [.identifier, .number] else 1 := by
  refine .of_derives (.after (asks_kindAt 1) fun following second => ?_)
  refine .after asks_kind fun k first => ?_
  split
  case isTrue yes =>
    simp only [Bool.and_eq_true, Bool.or_eq_true, beq_iff_eq, first, second] at yes
    have point : Yields ts bump fun _ => sign .dot := yields_token yes.1 (by simp)
    have part : Yields ts.tail bump fun _ => oneOf [.identifier, .number] :=
      yields_oneOf (by simpa using yes.2) (by simp)
    refine .andThenAt (moves_bump (by simp [yes.1])) (point 1) fun _ => ?_
    exact part.andThen fun _ _ => .answer (mul_le_mul_left (one_mul _).le _)
  case isFalse => exact .answer le_rfl

theorem yields_ruleName : Yields ts ruleName fun _ => node .assertionName := by
  have parts (us : List Token) (A : Language Tree) :
      Derives us A (repeatWhile ruleNamePart)
        fun _ => A * (sign .dot * oneOf [.identifier, .number])∗ :=
    Yields.repeated (fun _ => yields_ruleNamePart) A
  have named {L : Language Tree} (first : Yields ts bump fun _ => L)
      (fits : L ≤ name + token .number) :
      Derives ts 1 (bump >>= fun _ => repeatWhile ruleNamePart)
        fun _ => Rule.assertionName.production :=
    first.begin fun _ us => (parts us L).weaken fun _ => mul_le_mul_left fits _
  refine .within (.after asks_seesName fun nameAhead found => ?_)
  cases nameAhead with
  | true => exact named (yields_name found.symm) le_self_add
  | false =>
    refine .after (asks_sees _) fun numberAhead found => ?_
    cases numberAhead with
    | true => exact named (yields_token (by simpa using found.symm) (by simp)) le_add_self
    | false => exact .complainingWanted _

theorem yields_outputAttribute (productive : l.Productive) :
    Yields ts (outputAttribute l) fun yes => if yes then node .outputAttribute else 1 := by
  refine .of_derives (.after (asks_predict _) fun _ _ => .after (asks_sees _) fun ahead found => ?_)
  cases ahead with
  | false => exact .answer le_rfl
  | true =>
    have attributeName :
        Yields ts (leafOf .outputAttributeName) fun _ => node .outputAttributeName :=
      yields_leafOf (yields_token (by simpa using found.symm) (by simp))
    have given : Yields ts (within .outputAttribute do
        leafOf .outputAttributeName
        l.expression) fun _ => node .outputAttribute :=
      .within (attributeName.begin fun _ us => productive.expression us _)
    exact given.begin fun _ _ => .answer le_rfl

theorem yields_ruleBody (productive : l.Productive) :
    Yields ts (ruleBody l) fun _ => node .expressionBlock * (node .outputAttribute)∗ :=
  .of_derives <| (yields_block productive).begin fun _ _ =>
    Yields.repeated (fun _ => yields_outputAttribute productive) _

theorem yields_assertion (productive : l.Productive) (ahead : kindAhead ts 0 = .keyword .assertKw) :
    Yields ts (assertion l) fun _ => node .assertDeclaration := by
  refine .within ((yields_token ahead (by simp)).begin fun _ us => ?_)
  refine yields_ruleName.andThen fun _ us => .after (asks_seesAny _) fun holds found => ?_
  refine .optionalThen (L := oneOf [.keyword .satisfiedKw, .keyword .unsatisfiedKw])
    (fun yes => yields_oneOf (by simpa [yes] using found.symm) (by simp)) fun vs => ?_
  exact (yields_ruleBody productive _).weaken fun _ => (mul_assoc _ _ _).ge

theorem yields_output (productive : l.Productive) (ahead : kindAhead ts 0 = .keyword .outputKw) :
    Yields ts (output l) fun _ => node .outputDeclaration := by
  refine .within ((yields_token ahead (by simp)).begin fun _ us => ?_)
  refine yields_ruleName.andThen fun _ us => ?_
  exact (yields_ruleBody productive _).weaken fun _ => (mul_assoc _ _ _).ge

theorem yields_functionArguments :
    Yields ts functionArguments fun _ => node .functionArguments := by
  have argument (us : List Token) : Yields us functionArgument fun _ => node .functionArgument :=
    .within ((yields_require _ (by simp) 1).weaken fun _ => (one_mul _).le)
  refine .within (.ifExpected (by simp) fun us => .after (asks_sees _) fun closed _ => ?_)
  refine .optionalThen (fun _ => yields_commaSeparated argument) fun vs => ?_
  refine (yields_expected (by simp)).andThen fun _ _ => .answer ?_
  exact one_mul (sign .lparen) ▸ le_rfl

theorem yields_function (productive : l.Productive)
    (ahead : kindAhead ts 0 = .keyword .functionKw) :
    Yields ts (function l) fun _ => node .functionDeclaration := by
  refine .within ((yields_token ahead (by simp)).begin fun _ us => ?_)
  refine (yields_require _ (by simp)).andThen fun _ us => ?_
  exact yields_functionArguments.andThen fun _ us => yields_block productive _

theorem yields_constant (productive : l.Productive)
    (ahead : kindAhead ts 0 = .keyword .constantKw) :
    Yields ts (constant l) fun _ => node .constantDeclaration := by
  refine .within ((yields_token ahead (by simp)).begin fun _ us => ?_)
  refine (yields_require _ (by simp)).andThen fun _ us => ?_
  exact .ifExpected (by simp) fun vs => yields_block productive _

theorem yields_namespaceDeclaration (productive : l.Productive)
    (ahead : kindAhead ts 0 = .keyword .namespaceKw) :
    Yields ts (namespaceDeclaration l) fun _ => node .namespaceDeclaration := by
  have uri (us : List Token) : Yields us (do
      if ← sees .url then bump
      else if ← sees .stringOpen then stringLiteral l
      else complainWanted .namespaceUri) fun _ => token .url + node .stringLiteral := by
    refine .of_derives (.after (asks_sees _) fun url found => ?_)
    cases url with
    | true =>
      exact (yields_token (by simpa using found.symm) (by simp) 1).weaken fun _ =>
        (one_mul _).trans_le le_self_add
    | false =>
    refine .after (asks_sees _) fun opened found => ?_
    cases opened with
    | true =>
      exact (yields_stringLiteral productive (by simpa using found.symm) 1).weaken fun _ =>
        (one_mul _).trans_le le_add_self
    | false => exact .complainingWanted _
  refine .within ((yields_token ahead (by simp)).begin fun _ us => ?_)
  refine .after (asks_sees _) fun named first => .after (asks_kindAt 1) fun following second => ?_
  split
  case isTrue yes =>
    obtain ⟨rfl, assign⟩ := Bool.and_eq_true_iff.mp yes
    have nameAhead : kindAhead us 0 = .identifier := by simpa using first.symm
    have signAhead : kindAhead us.tail 0 = .punctuator .assign := by
      rw [kindAhead_tail, ← second, beq_iff_eq.mp assign]
    have prefixName : Yields us bump fun _ => token .identifier := yields_token nameAhead (by simp)
    have assigned : Yields us.tail bump fun _ => sign .assign := yields_token signAhead (by simp)
    refine .andThenAt (moves_bump (by simp [nameAhead])) (prefixName _) fun _ => ?_
    refine assigned.andThen fun _ vs => (uri vs _).strengthen ?_ |>.weaken fun _ => le_rfl
    rw [mul_assoc]
    exact mul_le_mul_right le_maybe _
  case isFalse =>
    exact (uri us _).strengthen (le_mul_of_one_le_right' one_le_maybe)

theorem yields_nameDeclaration {r : Rule} {w : Keyword} (ahead : kindAhead ts 0 = .keyword w)
    (fits : keyword w * token .identifier ≤ r.grouping) :
    Yields ts (nameDeclaration r) fun _ => node r :=
  .within ((yields_token ahead (by simp)).begin fun _ us =>
    (yields_require _ (by simp) _).weaken fun _ => fits)

theorem yields_separatorDeclaration (productive : l.Productive)
    (ahead : kindAhead ts 0 = .keyword .ruleNameSeparatorKw) :
    Yields ts (separatorDeclaration l) fun _ => node .ruleNameSeparatorDeclaration := by
  refine .within ((yields_token ahead (by simp)).begin fun _ us => ?_)
  refine .after (asks_sees _) fun opened found => ?_
  cases opened with
  | true => exact yields_stringLiteral productive (by simpa using found.symm) _
  | false => exact .complainingWanted _

/-- Skipping takes no complaint back. -/
theorem derives_skipTo (kinds : List TokenKind) {B : Unit → Language Tree} :
    Derives ts 0 (skipTo kinds) B := by
  refine .withinVacuous (A := 0) (B := 0) (.repeated fun us => .after asks_kind fun k here => ?_)
  split
  case isTrue => exact .answer le_rfl
  case isFalse on =>
    have inside : kindAhead us 0 ≠ .endOfInput := by
      rintro reached
      simp [here, reached] at on
    exact (yields_token rfl inside).andThen fun _ _ => .answer (zero_mul _).le

/-- The word that begins a declaration says of which rule it is. -/
theorem yields_declaration (productive : l.Productive) :
    Yields ts (declaration l) fun _ => Grammar.declaration := by
  refine .of_derives (.after asks_kind fun k here => ?_)
  have one {p : Parser Unit} {r : Rule} (yields : Yields ts p fun _ => node r)
      (listed : r ∈ declarationRules) : Derives ts 1 p fun _ => Grammar.declaration :=
    (yields 1).weaken fun _ => (one_mul _).trans_le (node_le_nodeOf listed)
  split
  case h_1 => exact one (yields_assertion productive here.symm) (by decide)
  case h_2 => exact one (yields_output productive here.symm) (by decide)
  case h_3 => exact one (yields_function productive here.symm) (by decide)
  case h_4 => exact one (yields_constant productive here.symm) (by decide)
  case h_5 => exact one (yields_namespaceDeclaration productive here.symm) (by decide)
  case h_6 => exact one (yields_nameDeclaration here.symm le_rfl) (by decide)
  case h_7 => exact one (yields_nameDeclaration here.symm le_rfl) (by decide)
  case h_8 => exact one (yields_separatorDeclaration productive here.symm) (by decide)
  case h_9 => exact .complainingFirst _ fun _ => derives_skipTo _

theorem yields_nextDeclaration (productive : l.Productive) :
    Yields ts (nextDeclaration l) fun yes => if yes then Grammar.declaration else 1 := by
  refine .of_derives (.after (asks_seesAny _) fun _ _ => .after (asks_sees _) fun ended _ => ?_)
  cases ended with
  | true => exact .answer le_rfl
  | false => exact (yields_declaration productive).begin fun _ _ => .answer le_rfl

end Parser

/-! ## Files -/

open XuleLang.Parser

variable {tokens : List Token}

/-- The end closes the file. -/
theorem ParserState.Holds.closed {s : ParserState} {A : Language Tree} {last : Token}
    (holds : s.Holds ⟨0, .file, [], []⟩ A) (here : s.rest = [last])
    (last_ends : last.kind = .endOfInput) (nothing : s.finished = []) :
    ∃ cs, s.bump.finish.finished = [.ofChildren 0 .file cs] ∧ cs ∈ A * token .endOfInput ∧
      ∀ t ∈ cs, t.IsGrouped := by
  have bumped := bump_of_cons here
  have attached : (s.attach (.leaf ⟨s.nextId, last⟩)).Holds ⟨0, .file, [], []⟩
      (A * token .endOfInput) :=
    holds.attach ⟨_, rfl, _, rfl, last_ends⟩ (Tree.isGrouped_leaf _)
  obtain ⟨before, opened, -⟩ := holds
  obtain ⟨cs, frames, phrase, derived⟩ := attached.of_frames bumped.frames
  refine ⟨cs, ?_, phrase, derived⟩
  have finished : s.bump.finished = [] := by
    rw [bumped.finished, attach_of_cons opened, nothing]
  simp [finish, frames, ParserState.attach, finished]

/-- A file that is parsed without complaints is a grouped derivation. -/
theorem runFile_groups (ends : EndsOnce (visibleTokens tokens))
    (clean : (runFile tokens none).errors = []) :
    ∃ cs, (runFile tokens none).finished = [.ofChildren 0 .file cs] ∧
      cs ∈ Rule.file.production ∧ ∀ t ∈ cs, t.IsGrouped := by
  let before : ParserState := .ofTokens (visibleTokens tokens) none
  let declarations := repeatWhile (nextDeclaration (level maxDepth))
  let behind := (declarations.run (before.start .file)).2
  have whole : runFile tokens none = behind.bump.finish := file_run (level maxDepth) before
  have started := before.start_agrees .file
  have does : Does .file (visibleTokens tokens) declarations fun _ us =>
      kindAhead us 0 = .endOfInput :=
    .repeated fun us _ => does_nextDeclaration (level_sound maxDepth)
  obtain ⟨builds, reached⟩ := does (before.start .file) started.rest (by simp [started.frames]) ends
  obtain ⟨last, here, last_ends⟩ : ∃ last, behind.rest = [last] ∧ last.kind = .endOfInput :=
    (builds.endsOnce (started.rest ▸ ends)).eq_singleton reached
  have never_overran := (runFile_builds ends none).1
  rw [whole] at clean never_overran ⊢
  have clean_behind : behind.Clean :=
    ParserState.bump_clean (ParserState.finish_clean ⟨clean, never_overran⟩)
  have derives : Yields (visibleTokens tokens) declarations fun _ => Grammar.declaration∗ :=
    .repeated fun _ => yields_nextDeclaration (level_productive maxDepth)
  have nothing : (before.start .file).Holds ⟨0, .file, [], []⟩ 1 :=
    ⟨[], started.frames, Language.nil_mem_one, by simp⟩
  have holds : behind.Holds ⟨0, .file, [], []⟩ (Grammar.declaration∗) :=
    ((derives 1 _ started.rest clean_behind).2 _ nothing).le (one_mul _).le
  exact holds.closed here last_ends (builds.finished.trans started.finished)

/-- A file that is parsed without complaints is a derivation. -/
theorem runFile_derives (ends : EndsOnce (visibleTokens tokens))
    (clean : (runFile tokens none).errors = []) :
    ∃ cs, (runFile tokens none).finished = [.ofChildren 0 .file cs] ∧
      cs ∈ Rule.file.production ∧ ∀ t ∈ cs, t.IsDerivation := by
  obtain ⟨cs, finished, phrase, grouped⟩ := runFile_groups ends clean
  exact ⟨cs, finished, phrase, fun t child => (grouped t child).isDerivation⟩

/-- **A parse without complaints is a derivation.** If the end stands behind all visible tokens and
nothing is complained of, the tree is a file, no token was skipped, and the children of every node
are in their order what the production of its rule says. -/
theorem error_free_parse_is_a_derivation (ends : EndsOnce (visibleTokens tokens))
    (error_free : (parse tokens).errors = []) :
    (parse tokens).tree.root.rule? = some .file ∧
    ∀ t ∈ (parse tokens).tree.root.subtrees, ∀ r, t.rule? = some r →
      r ≠ .skipped ∧ t.children ∈ r.production := by
  have clean : (runFile tokens none).errors = [] := by
    simpa only [parse, List.reverse_eq_nil_iff] using error_free
  obtain ⟨cs, finished, matching, derived⟩ := runFile_derives ends clean
  have root : (parse tokens).tree.root = .node 0 .file (some (wholeSpan tokens)) cs := by
    simp only [parse, finished]
    rfl
  rw [root]
  refine ⟨rfl, fun t member r rule => ?_⟩
  have phrase : t.children ∈ r.production := Tree.isDerivation_node matching derived t member r rule
  refine ⟨?_, phrase⟩
  rintro rfl
  exact Language.notMem_zero _ phrase

/-- An assertion with operators of every precedence, calls, a fact set and an attribute. -/
def soundTokens : List Token := tokensOf <|
  "assert r.1 satisfied $x = 2; not -b.c($x) not in [@d as $y] and a:f(1, skip) " ++
  "total if $x \"s\" else none"

/-- A text that can be parsed without complaints is derived, down to its operators and calls. -/
theorem sound_assertion_is_derived :
    (parse soundTokens).errors = [] ∧
    (parse soundTokens).tree.root.rule? = some .file ∧
    ∀ t ∈ (parse soundTokens).tree.root.subtrees, ∀ r, t.rule? = some r →
      r ≠ .skipped ∧ t.children ∈ r.production := by
  have ends : EndsOnce (visibleTokens soundTokens) := by decide +kernel
  have error_free : (parse soundTokens).errors = [] := by decide +kernel
  exact ⟨error_free, error_free_parse_is_a_derivation ends error_free⟩

/-! ## Operators -/

/-- **Operators group by their precedence, and to the left.** If the end stands behind all visible
tokens and nothing is complained of, every node of the tree groups its operands as the levels of
the operators say: `or`, `and`, the prefix `not`, comparisons, additive and multiplicative
operators, signs, and the access of a property. -/
theorem operators_group_by_precedence (ends : EndsOnce (visibleTokens tokens))
    (error_free : (parse tokens).errors = []) :
    ∀ t ∈ (parse tokens).tree.root.subtrees, t.GroupsOperands := by
  have clean : (runFile tokens none).errors = [] := by
    simpa only [parse, List.reverse_eq_nil_iff] using error_free
  obtain ⟨cs, finished, phrase, grouped⟩ := runFile_groups ends clean
  have root : (parse tokens).tree.root = .node 0 .file (some (wholeSpan tokens)) cs := by
    simp only [parse, finished]
    rfl
  rw [root]
  exact (Tree.isGrouped_node (r := .file) phrase grouped).groupsOperands

/-- Operators of all levels, both meanings of `not`, and a condition that ends with one. -/
def chainedTokens : List Token := tokensOf <|
  "output o not 1 - 2 - 3 * -$a.b not in $c and not $d == 4 or if $e 5 else 6 + 7 or $f"

/-- In the chain each operator has the operands that its level gives it. The condition takes what
follows its `else`, with operators of any level. -/
theorem chained_operators_group :
    (parse chainedTokens).errors = [] ∧
    (∀ t ∈ (parse chainedTokens).tree.root.subtrees, t.GroupsOperands) ∧
    ((parse chainedTokens).tree.root.subtrees.filter (·.rule? = some .binaryExpression)).map
      (fun t => (t.level, t.children.map (·.text))) =
      [(1, ["not1-2-3*-$a.bnotin$candnot$d==4", "or", "if$e5else6+7or$f"]),
       (2, ["not1-2-3*-$a.bnotin$c", "and", "not$d==4"]),
       (4, ["1-2-3*-$a.b", "not", "in", "$c"]), (5, ["1-2", "-", "3*-$a.b"]),
       (5, ["1", "-", "2"]), (6, ["3", "*", "-$a.b"]), (4, ["$d", "==", "4"]),
       (1, ["6+7", "or", "$f"]), (5, ["6", "+", "7"])] := by
  have ends : EndsOnce (visibleTokens chainedTokens) := by decide +kernel
  have error_free : (parse chainedTokens).errors = [] := by decide +kernel
  exact ⟨error_free, operators_group_by_precedence ends error_free, by decide +kernel⟩

end XuleLang
