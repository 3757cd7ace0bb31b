import XuleLang.Proofs.Parser.File
import XuleLang.Proofs.Parser.Shape
import XuleLang.Proofs.Syntax.Subtree

/-!
Every node that the parser makes is in shape.

The parsers of the grammar are gone through once more. Most of their nodes ask for nothing. The few
that do read their tokens where these have been asked for, or stand around a name that was completed
just before.
-/

namespace XuleLang

/-- The parsers of a level leave children in shape. -/
structure Level.Forms (l : Level) : Prop where
  expression : Parser.Forms l.expression
  negation : Parser.Forms l.negation
  signed : Parser.Forms l.signed

namespace Parser

variable {l : Level} {ts : List Token} {r : Rule}

/-! ## Tokens and repetition -/

section Operations

theorem forms_leafOf (plain : r.isPlain) : Forms (leafOf r) := .node plain .bump

theorem forms_eat (k : TokenKind) : Forms (eat k) :=
  .andThen (.of_stays (stays_sees k)) fun _ => .either (.andThen .bump fun _ => .answer true)
    (.answer false)

theorem forms_expect (k : TokenKind) : Forms (expect k) :=
  .andThen (forms_eat k) fun _ => .eitherThen (.of_stays (stays_complainWanted _)) (.answer _)

theorem forms_expecting (k : TokenKind) : Forms (do let _ ← expect k) :=
  .andThen (forms_expect k) fun _ => .answer ()

theorem forms_require (k : TokenKind) (w : Wanted) : Forms (require k w) :=
  .andThen (.of_stays (stays_sees k)) fun _ => .either .bump (.of_stays (stays_complainWanted w))

theorem forms_bumpOperator : Forms bumpOperator :=
  .andThen (.of_stays stays_seesNotIn) fun _ => .eitherThen .bump .bump

theorem Forms.repeated {step : Parser Bool} (forms : Forms step) : Forms (repeatWhile step) := by
  refine .andThen (.of_stays stays_get) fun s => ?_
  induction s.rest.length + 1 with
  | zero => exact .overrun
  | succ n ih => exact .andThen forms fun _ => .either ih (.answer ())

theorem forms_commaSeparated {item : Parser Unit} (forms : Forms item) :
    Forms (commaSeparated item) :=
  .repeated (.andThen forms fun _ => forms_eat _)

/-- A step that runs a parser if it is asked for. -/
theorem Forms.asking {ask : Parser Bool} {item : Parser Unit} (asks : Forms ask)
    (forms : Forms item) : Forms (do
      let ahead ← ask
      if ahead then item
      return ahead) :=
  .andThen asks fun _ => .eitherThen forms (.answer _)

theorem forms_skipTo (kinds : List TokenKind) : Forms (skipTo kinds) :=
  .node rfl <| .repeated <| .andThen (.of_stays stays_kind) fun _ =>
    .either (.answer false) (.andThen .bump fun _ => .answer true)

end Operations

/-! ## Blocks and names -/

theorem lowestLevel_forms : lowestLevel.Forms := by
  have forms : Forms tooDeep :=
    .andThen (.of_stays (stays_complain _)) fun _ => .andThen (.of_stays stays_kind) fun _ =>
      .either (forms_leafOf rfl) (.answer ())
  exact ⟨forms, forms, forms⟩

theorem forms_assignment {value : Parser Unit} (forms : Forms value) : Forms (assignment value) :=
  .node rfl <| .andThen (forms_leafOf rfl) fun _ =>
    .andThen .bump fun _ => .andThen forms fun _ => forms_expecting _

theorem forms_blockUpTo (forms : l.Forms) (fuel : Nat) : Forms (blockUpTo l fuel) := by
  induction fuel with
  | zero => exact .overrun
  | succ fuel ih =>
    exact .node rfl <|
      .andThen (.repeated (.asking (.of_stays stays_seesAssignment) (forms_assignment ih)))
        fun _ => forms.expression

theorem forms_block (forms : l.Forms) : Forms (block l) :=
  .andThen (.of_stays stays_get) fun _ => forms_blockUpTo forms _

/-- A name that is there is the only child of its node. -/
theorem adds_requireName {W : List Tree → Prop} (w : Wanted) (nothing : W [])
    (name : ∀ l : Leaf, l.token.kind = .identifier ∨ l.token.kind.isKeyword → W [.leaf l]) :
    AddsAt ts (requireName w) W := by
  have stays : Stays seesName fun yes ts =>
      yes = (kindAhead ts 0 == .identifier || (kindAhead ts 0).isKeyword) := by
    refine (stays_sees _).andThen fun identifier => stays_kind.andThen fun k => .answer ?_
    rintro ts rfl rfl
    rfl
  refine .after stays fun yes found => ?_
  cases yes with
  | false => exact .of_stays (stays_complainWanted w) nothing
  | true =>
    have kinds : kindAhead ts 0 = .identifier ∨ (kindAhead ts 0).isKeyword := by
      simpa using found.symm
    refine .bump ?_ fun l here => name l (here ▸ kinds)
    rcases kinds with identifier | keyword
    · simp [identifier]
    · rintro reached
      rw [reached] at keyword
      cases keyword

theorem adds_qualifiedName : AddsNode .qualifiedName qualifiedName := by
  let W : List Tree → Prop := fun ds => ∀ d ∈ ds, ∃ l, d = .leaf l ∧ l.token.kind ≠ .variableName
  have both (ds es : List Tree) (first : W ds) (second : W es) : W (ds ++ es) := fun d member =>
    (List.mem_append.mp member).elim (first d) (second d)
  have name {ts : List Token} (w : Wanted) : AddsAt ts (requireName w) W := by
    refine adds_requireName w nofun fun l kinds => ?_
    refine List.forall_mem_singleton.mpr ⟨l, rfl, fun read => ?_⟩
    rw [read] at kinds
    exact kinds.elim nofun nofun
  have colon {ts : List Token} : AddsAt ts (eat (.punctuator .colon)) W := by
    refine .after (stays_sees _) fun yes found => ?_
    cases yes with
    | false => exact .answer false nofun
    | true =>
      have here : kindAhead ts 0 = .punctuator .colon := by simpa using found.symm
      refine .andThen (.bump (W := W) (by simp [here]) fun l same => ?_)
        (fun _ _ => .answer true (W := W) nofun) both
      exact List.forall_mem_singleton.mpr ⟨l, rfl, by simp [same, here]⟩
  refine fun ts => .within
    (.of_adds (W := W) ?_ (fun _ fits => fits) fun ds fits d member callee => ?_)
    fun t rule => ⟨t, rfl, rule⟩
  · refine .andThen (name _) (fun _ _ => .andThen colon (fun yes _ => ?_) both) both
    cases yes with
    | false => exact .answer () nofun
    | true => exact name _
  · obtain ⟨l, rfl, -⟩ := fits d member
    cases callee

theorem forms_propertyRef : Forms propertyRef := by
  let W : List Tree → Prop := Rule.IsMadeOf .propertyRef
  refine fun ts => .within nofun
    (.of_adds (W := W) ?_ (fun _ fits => fits) fun ds fits d member => ?_)
  · exact adds_requireName _ (.inl rfl) fun l kinds => .inr ⟨l, rfl, kinds⟩
  · rcases fits with rfl | ⟨l, rfl, -⟩
    · cases member
    · cases List.mem_singleton.mp member
      nofun

theorem forms_stringPart (forms : l.Forms) : Forms (stringPart l) := by
  refine .andThen (.of_stays stays_kind) fun k => ?_
  split
  case h_1 => exact .andThen .bump fun _ => .answer true
  case h_2 =>
    exact .andThen .bump fun _ => .andThen (forms_block forms) fun _ =>
      .andThen (forms_expect _) fun _ => .answer true
  case h_3 => exact .andThen .bump fun _ => .answer false
  case h_4 => exact .andThen (.of_stays (stays_complain _)) fun _ => .answer false

theorem forms_stringLiteral (forms : l.Forms) : Forms (stringLiteral l) :=
  .node rfl <| .andThen .bump fun _ => .repeated (forms_stringPart forms)

theorem adds_argumentList (forms : l.Forms) : AddsNode .argumentList (argumentList l) := by
  have inside : Forms (do
      if ← expect (.punctuator .lparen) then
        if !(← sees (.punctuator .rparen)) then commaSeparated (block l)
        let _ ← expect (.punctuator .rparen)) :=
    .andThen (forms_expect _) fun _ => .either
      (.andThen (.of_stays (stays_sees _)) fun _ =>
        .eitherThen (forms_commaSeparated (forms_block forms)) (forms_expecting _))
      (.answer ())
  exact fun ts => .within ((inside ts).makes rfl) fun t rule => ⟨t, rfl, rule⟩

theorem forms_argumentList (forms : l.Forms) : Forms (argumentList l) :=
  (adds_argumentList forms).forms nofun

theorem forms_whereClause (forms : l.Forms) : Forms (whereClause l) :=
  .node rfl <| .andThen .bump fun _ => forms_block forms

/-! ## Queries -/

theorem forms_aspectCondition (forms : l.Forms) : Forms (aspectCondition l) :=
  .andThen forms_bumpOperator fun _ => .node rfl <|
    .andThen (.of_stays (stays_sees _)) fun _ => .either .bump forms.expression

theorem forms_binding : Forms binding :=
  .node rfl <| .andThen .bump fun _ => forms_require _ _

theorem forms_aspectFilter (forms : l.Forms) : Forms (aspectFilter l) := by
  have property : Forms (do
      if (← kind) == .punctuator .dot then
        bump
        propertyRef
        pure true
      else pure false) :=
    .andThen (.of_stays stays_kind) fun _ => .either
      (.andThen .bump fun _ => .andThen forms_propertyRef fun _ => .answer true) (.answer false)
  exact .node rfl <| .andThen .bump fun _ => .andThen (forms_eat _) fun _ =>
    .andThen (adds_qualifiedName.forms nofun) fun _ => .andThen property.repeated fun _ =>
    .andThen (.of_stays stays_seesNotIn) fun _ => .andThen (.of_stays (stays_seesAny _)) fun _ =>
    .eitherThen (forms_aspectCondition forms) <|
    .andThen (.of_stays (stays_sees _)) fun _ => .either forms_binding (.answer ())

theorem forms_factset (forms : l.Forms) (ahead : kindAhead ts 0 ≠ .endOfInput)
    (noName : kindAhead ts 0 ∉ TokenKind.names) : FormsAt ts (factset l) := by
  refine .within nofun (.after stays_kind fun k _ => .begins rfl ahead noName ?_)
  refine .andThen (.repeated (.asking (.of_stays (stays_seesAny _))
      (forms_leafOf rfl))) fun _ =>
    .andThen (.repeated (.asking (.of_stays (stays_sees _)) (forms_aspectFilter forms))) fun _ =>
    .andThen (.of_stays (stays_sees _)) fun _ => .either
      (.andThen (forms_whereClause forms) fun _ => forms_expecting _) ?_
  exact .andThen (.of_stays (stays_sees _)) fun _ => .andThen (.of_stays stays_kind) fun _ =>
    .eitherThen (forms_block forms) (forms_expecting _)

theorem forms_arcrole (forms : l.Forms) : Forms (arcrole l) :=
  .node rfl <| .andThen (.of_stays stays_kind) fun _ =>
    .either (forms_stringLiteral forms) .bump

theorem forms_direction : Forms direction :=
  .node rfl <| .andThen (.of_stays (stays_predict _)) fun _ =>
    forms_require _ _

theorem forms_includeClause : Forms includeClause :=
  .node rfl <| .andThen .bump fun _ => forms_expecting _

theorem forms_wordClause (forms : l.Forms) : Forms (wordClause l) :=
  .node rfl <| .andThen .bump fun _ => forms.expression

theorem forms_stopClause (forms : l.Forms) : Forms (stopClause l) :=
  .node rfl <| .andThen .bump fun _ => .andThen (forms_expect _) fun _ =>
    .either forms.expression (.answer ())

theorem forms_clause (forms : l.Forms) : Forms (clause l) :=
  .andThen (.of_stays (stays_seesAny _)) fun _ => .either
    (.andThen (forms_wordClause forms) fun _ => .answer true) <|
  .andThen (.of_stays (stays_sees _)) fun _ => .either
    (.andThen (forms_stopClause forms) fun _ => .answer true) <|
  .andThen (.of_stays (spots_seesAnyWord _)) fun _ => .either
    (.andThen (forms_wordClause forms) fun _ => .answer true) <|
  .andThen (.of_stays (stays_sees _)) fun _ => .either
    (.andThen (forms_whereClause forms) fun _ => .answer true) (.answer false)

theorem forms_returnOption : Forms returnOption :=
  .node rfl <| .andThen (.of_stays (stays_predict _)) fun _ =>
    forms_require _ _

theorem forms_formModifier : Forms formModifier :=
  .andThen (.of_stays (stays_isWordAt 0 _)) fun _ =>
    .andThen (.of_stays (stays_isWordAt 1 _)) fun _ => .andThen (.of_stays stays_get) fun _ =>
    .andThen (.of_stays (stays_kindAt 1)) fun _ => .either
      (.andThen .bump fun _ => .andThen .bump fun _ => .answer true)
      (.either (.andThen .bump fun _ => .answer true) (.answer false))

theorem forms_returnsClause : Forms returnsClause := by
  have shape : Forms (do if ← eat (.keyword .asKw) then require .identifier .resultShape) :=
    .andThen (forms_eat _) fun _ => .either (forms_require _ _) (.answer ())
  exact .node rfl <| .andThen .bump fun _ =>
    .andThen (.repeated forms_formModifier) fun _ => .andThen (forms_eat _) fun _ => .either
      (.andThen (forms_commaSeparated forms_returnOption) fun _ =>
        .andThen (forms_expect _) fun _ => shape)
      (.andThen forms_returnOption fun _ => shape)

theorem forms_navigation (forms : l.Forms) (ahead : kindAhead ts 0 ≠ .endOfInput)
    (noName : kindAhead ts 0 ∉ TokenKind.names) : FormsAt ts (navigation l) :=
  .within nofun <| .begins rfl ahead noName <|
    .andThen (forms_eat _) fun _ =>
    .andThen (.of_stays (stays_predict _)) fun _ => .andThen (.of_stays spots_seesArcrole) fun _ =>
    .eitherThen (forms_arcrole forms) <|
    .andThen forms_direction fun _ => .andThen (forms_eat _) fun _ =>
    .andThen (.of_stays (stays_sees _)) fun _ => .eitherThen forms_includeClause <|
    .andThen (.repeated (forms_clause forms)) fun _ =>
    .andThen (.of_stays (stays_sees _)) fun _ => .either forms_returnsClause (.answer ())

theorem forms_filterReturns (forms : l.Forms) : Forms (filterReturns l) :=
  .node rfl <| .andThen .bump fun _ => forms.expression

theorem forms_filter (forms : l.Forms) (ahead : kindAhead ts 0 ≠ .endOfInput)
    (noName : kindAhead ts 0 ∉ TokenKind.names) : FormsAt ts (filter l) :=
  .within nofun <| .begins rfl ahead noName <|
    .andThen forms.expression fun _ =>
    .andThen (.of_stays (stays_sees _)) fun _ => .eitherThen (forms_whereClause forms) <|
    .andThen (.of_stays (stays_sees _)) fun _ => .either (forms_filterReturns forms) (.answer ())

/-! ## Expressions -/

/-- A call by a name: the name is a node of its own, and arguments follow. -/
theorem forms_call (forms : l.Forms) (ahead : kindAhead ts 0 ≠ .endOfInput)
    (name : kindAhead ts 0 ∈ TokenKind.names) : FormsAt ts (call l) := by
  let W : List Tree → Prop := fun ds => ∃ callee arguments, ds = [callee, arguments] ∧
    callee.rule? = some .functionRef ∧ arguments.rule? = some .argumentList
  have callee : AddsAt ts (leafOf .functionRef) fun ds => ∃ t, ds = [t] ∧
      t.rule? = some .functionRef :=
    .within (.bump ahead fun l here => ⟨l, rfl, here ▸ name⟩) fun t rule => ⟨t, rfl, rule⟩
  refine .within nofun
    (.of_adds (W := W) (callee.andThen (fun _ us => adds_argumentList forms us) ?_)
      ?_ fun _ _ _ _ _ => rfl)
  · rintro _ _ ⟨callee, rfl, rule⟩ ⟨arguments, rfl, rule'⟩
    exact ⟨callee, arguments, rfl, rule, rule'⟩
  · rintro _ ⟨callee, arguments, rfl, rule, rule'⟩
    exact ⟨callee, arguments, rfl, .inl rule, rule'⟩

/-- A call by a qualified name: the node around the name is that of the call. -/
theorem forms_nameOrCall (forms : l.Forms) : Forms (nameOrCall l) := by
  intro ts s here opened
  obtain ⟨ds, ⟨callee, rfl, rule⟩, named⟩ := adds_qualifiedName ts s here opened
  obtain ⟨t, after⟩ : ∃ t, (qualifiedName.run s).2 = t := ⟨_, rfl⟩
  rw [after] at named
  have split : ((nameOrCall l).run s).2 =
      ((if t.kind == .punctuator .lparen then wrapping .callExpression (argumentList l)
        else pure ()).run t).2 := after ▸ rfl
  rw [split]
  cases t.kind == .punctuator .lparen with
  | false => exact named.forms (by simp [rule])
  | true =>
    -- The call takes the name from the node around it.
    obtain ⟨es, ⟨arguments, rfl, rule'⟩, given⟩ :=
      adds_argumentList forms _ (t.wrap .callExpression) rfl (t.wrap_rest named.opened _).2
    have parts : ∀ c ∈ [callee, arguments], c.IsPart := by
      simpa using ⟨⟨named.shapes callee (by simp), by simp [rule]⟩,
        ⟨given.shapes arguments (by simp), by simp [rule']⟩⟩
    have call : (Tree.ofChildren t.nextId .callExpression [callee, arguments]).IsPart :=
      .node nofun ⟨callee, arguments, rfl, .inr rule, rule'⟩ parts
    exact (named.around given call.shape).forms (by simpa using call.free)

theorem forms_parenthesized (forms : l.Forms) : Forms (parenthesized l) :=
  .node rfl <| .andThen .bump fun _ => .andThen (forms_block forms) fun _ =>
    forms_expecting _

theorem forms_conditional (forms : l.Forms) : Forms (conditional l) :=
  .node rfl <| .andThen .bump fun _ => .andThen forms.expression fun _ =>
    .andThen (forms_block forms) fun _ => .andThen (forms_expect _) fun _ =>
    .either (forms_block forms) (.answer ())

theorem forms_loopVariable : Forms loopVariable :=
  .node rfl (forms_require _ _)

theorem forms_loop (forms : l.Forms) : Forms (loop l) :=
  .node rfl <| .andThen .bump fun _ => .andThen (forms_eat _) fun _ =>
    .andThen forms_loopVariable fun _ => .andThen (forms_expect _) fun _ =>
    .eitherThen forms.expression <| .either
      (.andThen (forms_expect _) fun _ => forms_block forms) (forms_block forms)

theorem forms_primary (forms : l.Forms) : Forms (primary l) := by
  refine .andThen (.of_stays (stays_predict _)) fun _ =>
    .andThen (.of_stays (stays_seesAny _)) fun _ => .andThen (.of_stays (stays_seesAny _)) fun _ =>
    .andThen (.of_stays (stays_kindAt 1)) fun _ ts => .after stays_kind fun k here => ?_
  split
  case h_1 | h_3 | h_4 | h_5 | h_6 => exact forms_leafOf rfl ts
  case h_2 => exact forms_stringLiteral forms ts
  case h_7 =>
    split
    · exact forms_call forms (by simp [← here]) (by simp [← here, TokenKind.names])
    · exact .within nofun (.bump (by simp [← here]) fun l same => ⟨l, rfl, same.trans here.symm⟩)
  case h_8 =>
    split
    · exact forms_call forms (by simp [← here]) (by simp [← here, TokenKind.names])
    · exact forms_nameOrCall forms ts
  case h_9 => exact forms_parenthesized forms ts
  case h_10 => exact forms_conditional forms ts
  case h_11 => exact forms_loop forms ts
  case h_12 | h_13 =>
    exact forms_factset forms (by simp [← here]) (by simp [← here, TokenKind.names])
  case h_14 => exact forms_navigation forms (by simp [← here]) (by simp [← here, TokenKind.names])
  case h_15 => exact forms_filter forms (by simp [← here]) (by simp [← here, TokenKind.names])
  case h_16 => exact .of_stays (stays_complain _)

theorem forms_propertyAccess (forms : l.Forms) : Forms (propertyAccess l) :=
  .andThen (.of_stays (stays_sees _)) fun _ => .either
    (.andThen (.wrapping rfl <| .andThen .bump fun _ =>
      .andThen forms_propertyRef fun _ => .andThen (.of_stays (stays_sees _)) fun _ =>
      .either (forms_argumentList forms) (.answer ())) fun _ => .answer true)
    (.answer false)

theorem forms_access (forms : l.Forms) : Forms (access l) :=
  .andThen (forms_primary forms) fun _ => .repeated (forms_propertyAccess forms)

theorem forms_signedOperand (forms : l.Forms) : Forms (signedOperand l) :=
  .andThen (.of_stays (stays_seesAny _)) fun _ => .either forms.signed (forms_access forms)

theorem forms_operands {sees : Parser Bool} {operand : Parser Unit} (asks : Forms sees)
    (forms : Forms operand) : Forms (operands sees operand) :=
  .andThen forms fun _ => .repeated <| .andThen asks fun _ => .either
    (.andThen (.wrapping rfl <|
      .andThen forms_bumpOperator fun _ => forms) fun _ => .answer true)
    (.answer false)

theorem forms_comparison (forms : l.Forms) : Forms (comparison l) :=
  forms_operands (.of_stays spots_seesComparison) <| forms_operands (.of_stays (stays_seesAny _)) <|
    forms_operands (.of_stays (stays_seesAny _)) <| forms_signedOperand forms

theorem forms_negatable (forms : l.Forms) : Forms (negatable l) :=
  .andThen (.of_stays (stays_sees _)) fun _ => .andThen (.of_stays (stays_kindAt 1)) fun _ =>
    .either forms.negation (forms_comparison forms)

theorem forms_disjunction (forms : l.Forms) : Forms (disjunction l) :=
  forms_operands (.of_stays (stays_sees _)) <| forms_operands (.of_stays (stays_sees _)) <|
    forms_negatable forms

theorem forms_unary {operand : Parser Unit} (forms : Forms operand) : Forms (unary operand) :=
  .node rfl <| .andThen .bump fun _ => forms

theorem levelAbove_forms (forms : l.Forms) : (levelAbove l).Forms :=
  ⟨forms_disjunction forms, forms_unary (forms_negatable forms),
    forms_unary (forms_signedOperand forms)⟩

theorem level_forms (depth : Nat) : (level depth).Forms := by
  induction depth with
  | zero => exact lowestLevel_forms
  | succ depth ih => exact levelAbove_forms ih

/-! ## Declarations -/

theorem forms_ruleNamePart : Forms ruleNamePart :=
  .andThen (.of_stays (stays_kindAt 1)) fun _ => .andThen (.of_stays stays_kind) fun _ => .either
    (.andThen .bump fun _ => .andThen .bump fun _ => .answer true) (.answer false)

theorem forms_ruleName : Forms ruleName := by
  have parts : Forms (bump >>= fun _ => repeatWhile ruleNamePart) :=
    .andThen .bump fun _ => .repeated forms_ruleNamePart
  refine .node rfl <| .andThen (.of_stays spots_seesName) fun named => ?_
  cases named with
  | true => exact parts
  | false =>
    exact .andThen (.of_stays (stays_sees _)) fun _ =>
      .either parts (.of_stays (stays_complainWanted _))

theorem forms_outputAttribute (forms : l.Forms) : Forms (outputAttribute l) := by
  refine .andThen (.of_stays (stays_predict _)) fun _ ts => ?_
  refine .after (stays_sees _) fun yes found => ?_
  cases yes with
  | false => exact Forms.answer false ts
  | true =>
    have here : kindAhead ts 0 = .identifier := by simpa using found.symm
    have name : FormsAt ts (leafOf .outputAttributeName) :=
      .within nofun (.bump (by simp [here]) fun l same => ⟨l, rfl, same.trans here⟩)
    have given := name.andThen fun _ => forms.expression
    exact FormsAt.andThen (.within nofun (given.makes rfl)) fun _ => .answer true

theorem forms_ruleBody (forms : l.Forms) : Forms (ruleBody l) :=
  .andThen (forms_block forms) fun _ => .repeated (forms_outputAttribute forms)

theorem forms_assertion (forms : l.Forms) (ahead : kindAhead ts 0 ≠ .endOfInput)
    (noName : kindAhead ts 0 ∉ TokenKind.names) : FormsAt ts (assertion l) :=
  .within nofun <| .begins rfl ahead noName <|
    .andThen forms_ruleName fun _ => .andThen (.of_stays (stays_seesAny _)) fun _ =>
    .eitherThen .bump (forms_ruleBody forms)

theorem forms_output (forms : l.Forms) (ahead : kindAhead ts 0 ≠ .endOfInput)
    (noName : kindAhead ts 0 ∉ TokenKind.names) : FormsAt ts (output l) :=
  .within nofun <| .begins rfl ahead noName <|
    .andThen forms_ruleName fun _ => forms_ruleBody forms

theorem forms_functionArguments : Forms functionArguments :=
  .node rfl <| .andThen (forms_expect _) fun _ => .either
    (.andThen (.of_stays (stays_sees _)) fun _ => .eitherThen
      (forms_commaSeparated (.node rfl (forms_require _ _)))
      (forms_expecting _))
    (.answer ())

theorem forms_function (forms : l.Forms) : Forms (function l) :=
  .node rfl <| .andThen .bump fun _ => .andThen (forms_require _ _) fun _ =>
    .andThen forms_functionArguments fun _ => forms_block forms

theorem forms_constant (forms : l.Forms) : Forms (constant l) :=
  .node rfl <| .andThen .bump fun _ => .andThen (forms_require _ _) fun _ =>
    .andThen (forms_expect _) fun _ => .either (forms_block forms) (.answer ())

theorem forms_namespaceDeclaration (forms : l.Forms) : Forms (namespaceDeclaration l) := by
  have uri : Forms (do
      if ← sees .url then bump
      else if ← sees .stringOpen then stringLiteral l
      else complainWanted .namespaceUri) :=
    .andThen (.of_stays (stays_sees _)) fun _ => .either .bump <|
      .andThen (.of_stays (stays_sees _)) fun _ =>
      .either (forms_stringLiteral forms) (.of_stays (stays_complainWanted _))
  exact .node rfl <| .andThen .bump fun _ =>
    .andThen (.of_stays (stays_sees _)) fun _ => .andThen (.of_stays (stays_kindAt 1)) fun _ =>
    .either (.andThen .bump fun _ => .andThen .bump fun _ => uri) uri

theorem forms_nameDeclaration (plain : r.isPlain) : Forms (nameDeclaration r) :=
  .node plain <| .andThen .bump fun _ => forms_require _ _

theorem forms_separatorDeclaration (forms : l.Forms) : Forms (separatorDeclaration l) :=
  .node rfl <| .andThen .bump fun _ =>
    .andThen (.of_stays (stays_sees _)) fun _ =>
    .either (forms_stringLiteral forms) (.of_stays (stays_complainWanted _))

theorem forms_declaration (forms : l.Forms) : Forms (declaration l) := by
  refine fun ts => .after stays_kind fun k here => ?_
  split
  case h_1 => exact forms_assertion forms (by simp [← here]) (by simp [← here, TokenKind.names])
  case h_2 => exact forms_output forms (by simp [← here]) (by simp [← here, TokenKind.names])
  case h_3 => exact forms_function forms ts
  case h_4 => exact forms_constant forms ts
  case h_5 => exact forms_namespaceDeclaration forms ts
  case h_6 | h_7 => exact forms_nameDeclaration rfl ts
  case h_8 => exact forms_separatorDeclaration forms ts
  case h_9 => exact Forms.andThen (.of_stays (stays_complain _)) (fun _ => forms_skipTo _) ts

theorem forms_nextDeclaration (forms : l.Forms) : Forms (nextDeclaration l) :=
  .andThen (.of_stays (stays_seesAny _)) fun _ => .andThen (.of_stays (stays_sees _)) fun _ =>
    .either (.answer false) (.andThen (forms_declaration forms) fun _ => .answer true)

/-- A file that is parsed outside of all nodes is in shape. -/
theorem finished_file (forms : l.Forms) {s : ParserState} (outside : s.frames = []) :
    ∃ file : Tree, file.HasShape ∧
      ((Parser.file l).run s).2.finished = file :: s.finished := by
  have body : Forms (repeatWhile (nextDeclaration l) >>= fun _ => bump) :=
    .andThen (.repeated (forms_nextDeclaration forms)) fun _ => .bump
  have started := s.start_agrees .file
  have makes : MakesAt .file (s.start .file).rest _ := (body _).makes rfl
  obtain ⟨cs, finished, frames, shape⟩ := makes (s.start .file) _ _ rfl started.frames rfl
  have inside : ((repeatWhile (nextDeclaration l)).run (s.start .file)).2.bump.frames =
      ⟨s.nextId, .file, cs⟩ :: s.frames := frames
  refine ⟨_, shape s.nextId, ?_⟩
  rw [file_run, ParserState.finish, inside, outside]
  exact congrArg (_ :: ·) (finished.trans started.finished)

end Parser

namespace Tree

theorem HasShape.withSpan {t : Tree} (shape : t.HasShape) (span : Option Span) :
    (t.withSpan span).HasShape := by
  cases shape with
  | leaf l => exact .leaf l
  | node n _ made parts callees => exact .node n span made parts callees

/-- All below a node in shape is in shape. -/
theorem HasShape.subtrees (t : Tree) (shape : t.HasShape) : ∀ u ∈ t.subtrees, u.HasShape :=
  of_mem_subtrees (fun _ => HasShape.child) t shape

end Tree

/-- Every node of a tree is in shape, whatever the tokens are. -/
theorem parse_hasShape (tokens : List Token) : (parse tokens).tree.root.HasShape := by
  obtain ⟨file, shape, finished⟩ := Parser.finished_file (Parser.level_forms Parser.maxDepth)
    (s := .ofTokens (visibleTokens tokens) none) rfl
  have root : (parse tokens).tree.root = file.withSpan (some (wholeSpan tokens)) := by
    simp only [parse, runFile, finished]
    rfl
  exact root ▸ shape.withSpan _

end XuleLang
