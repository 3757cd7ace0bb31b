import XuleLang.Proofs.Parser.Foresight.Expression

/-!
Declarations at a fork.

At the place of a declaration the words that begin one are asked for, and no other word is read. A
file is a row of declarations with the end behind it. The runs go through it side by side until they
are settled, by induction on how many declarations may still come (`settled_declarations`).
-/

namespace XuleLang

open ParserState (Kept Told Agrees)
open XuleLang.Parser

namespace Fork

variable {k : Fork} {l : Level} {inside : Option Rule} {r : Rule} {I : List Token → Prop}

theorem meets_ruleNamePart : k.Meets none Anywhere ruleNamePart ruleNamePart := by
  let named (first following : TokenKind) : Bool :=
    first == .punctuator .dot && (following == .identifier || following == .number)
  let read (ahead : Bool) : Parser Bool :=
    if ahead then bump >>= fun _ => bump >>= fun _ => pure true else pure false
  have asks : k.Inquires (kindAt 1 >>= fun following => kind >>= fun first =>
      pure (named first following)) [] fun ts => named (kindAhead ts 0) (kindAhead ts 1) :=
    (inquires_kindAt 1).andThen fun following => inquires_kind.andThen fun first =>
      inquires_answer (named first following)
  have meets : k.Meets none Anywhere
      ((kindAt 1 >>= fun following => kind >>= fun first => pure (named first following)) >>= read)
      ((kindAt 1 >>= fun following => kind >>= fun first => pure (named first following)) >>= read)
      := by
    refine .deciding asks (same_of_head named (fun _ => rfl) (fun _ => rfl) (fun _ _ => rfl)
      fun _ _ => rfl) fun ahead => ?_
    cases ahead with
    | false => exact .answer false
    | true =>
      refine .bumpThen (J := (· ≠ [])) (.bumpThen (J := Anywhere) (.answer true) fun left ahead =>
        ⟨ahead, trivial⟩) fun left known => ?_
      have second := (Bool.and_eq_true_iff.mp known.2).2
      rcases Bool.or_eq_true_iff.mp second with identifier | number
      · exact two_left (beq_iff_eq.mp identifier) nofun
      · exact two_left (beq_iff_eq.mp number) nofun
  exact meets

theorem meets_ruleName : k.Meets inside I ruleName ruleName := by
  let numbered (ahead : Bool) : Parser Unit :=
    if ahead then bump >>= fun _ => repeatWhile ruleNamePart else complainWanted .ruleName
  let after (named : Bool) : Parser Unit :=
    if named then pure true >>= numbered else sees .number >>= numbered
  have reads : after true = bump >>= fun _ => repeatWhile ruleNamePart := rfl
  have complained : k.Ends (complainWanted .ruleName) [] :=
    .asking inquires_kind rfl (ends_complain _)
  have ended := Ends.asking (f := numbered) (a := false) (inquires_sees .number)
    (unseen_end (by decide)) complained
  have other : k.word.kind ∉ [TokenKind.number] ++ [] := by
    obtain ⟨w, reserved⟩ := k.word_isKeyword
    simp [reserved]
  have parts {inside : Option Rule} {I : List Token → Prop} :
      k.Meets inside I (repeatWhile ruleNamePart) (repeatWhile ruleNamePart) :=
    .repeated meets_ruleNamePart
  have meets : k.Meets (some .assertionName) I (seesName >>= after) (seesName >>= after) := by
    refine meets_name (by decide) (fun beside => (ended.run beside).2 other) reads ?_ ?_ ?_
    · exact .of_yields alike_ruleNamePart.steady.repeated fun _ =>
        .repeated fun _ => yields_ruleNamePart
    · rw [reads]
      exact .bumpThen (J := Anywhere) parts fun _ ahead => ⟨ahead, trivial⟩
    · exact .ifSeen (inquires_sees _) (by decide) (Begins.bump.andThen fun _ => parts)
        (meets_complainWanted _)
  exact .within meets

theorem meets_outputAttribute (meets : l.Meets k) :
    k.Meets none Anywhere (outputAttribute l) (outputAttribute l) := by
  have given : k.Begins (within .outputAttribute do leafOf .outputAttributeName; l.expression)
      (within .outputAttribute do leafOf .outputAttributeName; l.expression) :=
    ⟨.within (.leafThen (J := Anywhere) meets.expression.inner fun _ ahead => ⟨ahead, trivial⟩),
      ((takes_leafOf _).andThen fun _ => meets.expression.steady).within _⟩
  exact .andThen (meets_predict _) fun _ => .ifSeen (inquires_sees _) (by decide)
    (given.andThen fun _ => .answer true) (.answer false)

theorem meets_ruleBody (meets : l.Meets k) : k.Meets inside I (ruleBody l) (ruleBody l) :=
  .andThen (meets_block meets) fun _ => .repeated (meets_outputAttribute meets)

theorem begins_assertion (meets : l.Meets k) : k.Begins (assertion l) (assertion l) :=
  .node <| .andThen meets_ruleName fun _ =>
    .ifSeenThen (inquires_seesAny _) (by decide) .bump (meets_ruleBody meets)

theorem begins_output (meets : l.Meets k) : k.Begins (output l) (output l) :=
  .node (.andThen meets_ruleName fun _ => meets_ruleBody meets)

theorem begins_function (meets : l.Meets k) : k.Begins (function l) (function l) := by
  have argument : k.Meets none Anywhere functionArgument functionArgument :=
    .within (meets_require _ (by decide))
  have arguments : k.Meets none Anywhere functionArguments functionArguments :=
    .within <| .andThen (meets_expect (by decide)) fun _ => .ite
      (.andThen (meets_sees (by simp) rfl) fun _ =>
        .iteThen (meets_commaSeparated argument) (meets_expecting (by decide))) (.answer ())
  exact .node <| .andThen (meets_require _ (by decide)) fun _ => .andThen arguments fun _ =>
    meets_block meets

theorem begins_constant (meets : l.Meets k) : k.Begins (constant l) (constant l) :=
  .node <| .andThen (meets_require _ (by decide)) fun _ =>
    .andThen (meets_expect (by decide)) fun _ => .ite (meets_block meets) (.answer ())

theorem begins_namespaceDeclaration (meets : l.Meets k) :
    k.Begins (namespaceDeclaration l) (namespaceDeclaration l) := by
  obtain ⟨w, reserved⟩ := k.word_isKeyword
  let uri : Parser Unit := do
    if ← sees .url then bump
    else if ← sees .stringOpen then stringLiteral l
    else complainWanted .namespaceUri
  have given {I : List Token → Prop} : k.Meets (some .namespaceDeclaration) I uri uri :=
    .ifSeen (inquires_sees _) (by decide) .bump <|
    .ifSeen (inquires_sees _) (by decide) (begins_stringLiteral meets) (meets_complainWanted _)
  let assigned (first following : TokenKind) : Bool :=
    [TokenKind.identifier].contains first && following == .punctuator .assign
  let asks : Parser Bool := sees .identifier >>= fun named => kindAt 1 >>= fun following =>
    pure (named && following == .punctuator .assign)
  have inquires : k.Inquires asks [] fun ts => assigned (kindAhead ts 0) (kindAhead ts 1) := by
    refine Inquires.weaken ((inquires_sees .identifier).andThen fun named =>
      (inquires_kindAt 1).andThen fun following =>
        inquires_answer (named && following == .punctuator .assign)) ?_
    simp [reserved]
  let after (named : Bool) : Parser Unit :=
    if named then bump >>= fun _ => bump >>= fun _ => uri else uri
  have meets : k.Meets (some .namespaceDeclaration) Anywhere (asks >>= after) (asks >>= after) := by
    refine .deciding inquires (same_of_head assigned (fun _ => rfl) (fun _ => rfl) (fun _ _ => rfl)
      fun _ _ => rfl) fun named => ?_
    cases named with
    | false => exact given
    | true =>
      refine .bumpThen (J := (· ≠ [])) (.bumpThen (J := Anywhere) given fun left ahead =>
        ⟨ahead, trivial⟩) fun left known => ?_
      have second := (Bool.and_eq_true_iff.mp known.2).2
      exact two_left (beq_iff_eq.mp second) nofun
  exact .node meets

theorem begins_nameDeclaration (r : Rule) :
    k.Begins (nameDeclaration r) (nameDeclaration r) :=
  .node (meets_require _ (by decide))

theorem begins_separatorDeclaration (meets : l.Meets k) :
    k.Begins (separatorDeclaration l) (separatorDeclaration l) :=
  .node (.ifSeen (inquires_sees _) (by decide) (begins_stringLiteral meets)
    (meets_complainWanted _))

theorem meets_declaration (meets : l.Meets k) :
    k.Meets none (· ≠ []) (declaration l) (declaration l) := by
  refine .before inquires_kind (fun _ => id) (fun _ _ => rfl) fun kk => ?_
  split
  case h_1 => exact (begins_assertion meets).meets.weaken fun _ => And.left
  case h_2 => exact (begins_output meets).meets.weaken fun _ => And.left
  case h_3 => exact (begins_function meets).meets.weaken fun _ => And.left
  case h_4 => exact (begins_constant meets).meets.weaken fun _ => And.left
  case h_5 => exact (begins_namespaceDeclaration meets).meets.weaken fun _ => And.left
  case h_6 | h_7 => exact (begins_nameDeclaration _).meets.weaken fun _ => And.left
  case h_8 => exact (begins_separatorDeclaration meets).meets.weaken fun _ => And.left
  case h_9 =>
    have steady : Steady (skipTo declarationStarts) := (alike_skipTo _).steady
    exact .complainThen steady steady _ _

/-- A word that begins a declaration is read. -/
theorem takes_declaration (meets : l.Meets k) (declares : k.word.kind ∈ declarationStarts) :
    k.Takes (declaration l) := by
  refine .asking inquires_kind ?_
  rw [show kindAhead (k.word :: k.behind) 0 = k.word.kind from rfl]
  generalize k.word.kind = kk at declares
  simp only [declarationStarts, List.mem_cons, List.not_mem_nil, or_false] at declares
  rcases declares with rfl | rfl | rfl | rfl | rfl | rfl | rfl | rfl
  · exact (begins_assertion meets).takes
  · exact (begins_output meets).takes
  · exact (begins_function meets).takes
  · exact (begins_constant meets).takes
  · exact (begins_namespaceDeclaration meets).takes
  · exact (begins_nameDeclaration _).takes
  · exact (begins_nameDeclaration _).takes
  · exact (begins_separatorDeclaration meets).takes

theorem balks_declaration (k : Fork) {w : Keyword} (other : .keyword w ∉ declarationStarts) :
    Balks (.keyword w) (declaration l) := by
  refine .asking (k := k) inquires_kind fun ts here => ?_
  rw [here]
  have steady : Steady (skipTo declarationStarts) := (alike_skipTo _).steady
  have complained : Balks (.keyword w) (do
      complain (.expected .declaration (.keyword w))
      skipTo declarationStarts) := (balks_complain _).andThen fun _ => steady
  cases w <;> first | exact complained | exact absurd other (by decide)

/-! ## Files -/

/-- Whether nothing is left to declare. -/
def seesEnd : Parser Bool := do
  let _ ← seesAny declarationStarts
  sees .endOfInput

/-- Declarations, and the end behind them. -/
def declarationsUpTo (n : Nat) (l : Level) : Parser Unit := do
  repeatUpTo n (nextDeclaration l)
  bump

/-- The end, or else a declaration and those behind it. -/
def declarationsUnless (n : Nat) (l : Level) (ended : Bool) : Parser Unit :=
  if ended then bump else declaration l >>= fun _ => declarationsUpTo n l

theorem declarationsUpTo_succ (n : Nat) (l : Level) :
    declarationsUpTo (n + 1) l = seesEnd >>= declarationsUnless n l := by
  simp only [declarationsUpTo, repeatUpTo, nextDeclaration, seesEnd, bind_assoc]
  congr 1
  funext _
  congr 1
  funext ended
  cases ended <;> simp [declarationsUnless, declarationsUpTo, nextDeclaration]

theorem inquires_seesEnd : k.Inquires seesEnd declarationStarts fun ts =>
    [TokenKind.endOfInput].contains (kindAhead ts 0) :=
  ((inquires_seesAny _).andThen fun _ => inquires_sees .endOfInput).weaken (by simp [k.word_inside])

theorem steady_declarationsUpTo (meets : l.Meets k) (n : Nat) : Steady (declarationsUpTo n l) := by
  induction n with
  | zero => exact Steady.overrun.andThen fun _ => .bump
  | succ n ih =>
    rw [declarationsUpTo_succ]
    exact (inquires_seesEnd (k := k)).steady.andThen fun _ =>
      .either .bump ((meets_declaration meets).steady.andThen fun _ => ih)

theorem steady_declarationsUnless (meets : l.Meets k) (n : Nat) (ended : Bool) :
    Steady (declarationsUnless n l ended) :=
  .either .bump ((meets_declaration meets).steady.andThen fun _ => steady_declarationsUpTo meets n)

/-- At the place of a declaration the word begins one, or is complained of. -/
theorem settled_at_declaration (meets : l.Meets k) {rules : List Rule} {s t : ParserState}
    (beside : k.Beside rules [] s t) (a b : Nat) :
    k.Settled ((declarationsUpTo (a + 1) l).run s).2 ((declarationsUpTo (b + 1) l).run t).2 := by
  have comes : k.Comes t := ⟨beside.rest', beside.silent', beside.unprobed⟩
  have unended : [TokenKind.endOfInput].contains (kindAhead (k.word :: k.behind) 0) = false := by
    simpa [kindAhead] using k.word_inside
  have ended : [TokenKind.endOfInput].contains (kindAhead [k.last] 0) = true := by
    simpa [kindAhead] using k.ended
  rw [declarationsUpTo_succ, declarationsUpTo_succ]
  by_cases declares : k.word.kind ∈ declarationStarts
  case pos =>
    have told : Told k.word.kind ((seesEnd >>= declarationsUnless a l).run s).2.probe :=
      steady_declarationsUnless meets a _ _ (ParserState.kept_told _) _
        (inquires_seesEnd.told beside declares)
    have read : k.Takes (declarationsUnless b l false) :=
      (takes_declaration meets declares).andThen fun _ => steady_declarationsUpTo meets b
    have took : k.Takes (seesEnd >>= declarationsUnless b l) :=
      .asking inquires_seesEnd (unended ▸ read)
    exact .inr (.inr ⟨.inr (.inl told), .inr (.inr (.inl (took t comes)))⟩)
  case neg =>
    obtain ⟨w, reserved⟩ := k.word_isKeyword
    have near := inquires_seesEnd.near beside fun _ => declares
    have missed : k.Missed ((seesEnd >>= declarationsUnless a l).run s).2 := by
      rw [(inquires_seesEnd (k := k)).run _ beside.rest, List.nil_append, ended]
      exact near.bump_missed
    have balks : Balks (.keyword w) (declarationsUnless b l false) :=
      (balks_declaration k (reserved ▸ declares)).andThen fun _ => steady_declarationsUpTo meets b
    have complained : ∃ e, e ∈ ((seesEnd >>= declarationsUnless b l).run t).2.errors := by
      rw [(inquires_seesEnd (k := k)).run_unprobed _ comes.rest comes.unprobed, unended]
      exact balks t comes.unprobed comes.silent (by rw [comes.rest]; exact reserved)
    exact .inr (.inr ⟨.inl complained, .inr (.inl missed)⟩)

/-- Declarations at a fork. -/
theorem settled_declarations (meets : l.Meets k) {rules : List Rule} {left : List Token}
    {s t : ParserState} (beside : k.Beside rules left s t) (a b : Nat) :
    k.Settled ((declarationsUpTo a l).run s).2 ((declarationsUpTo b l).run t).2 := by
  induction a generalizing b rules left s t with
  | zero => exact .inl (Steady.bump _ ParserState.kept_overran _ rfl)
  | succ a ih =>
    cases b with
    | zero => exact .inr (.inl (Steady.bump _ ParserState.kept_overran _ rfl))
    | succ b =>
      cases left with
      | nil => exact settled_at_declaration meets beside a b
      | cons x xs =>
        have near := inquires_seesEnd.near beside nofun
        have unended : [TokenKind.endOfInput].contains x.kind = false := by
          simpa using beside.inside
        have next (n : Nat) := steady_declarationsUpTo meets n
        have ahead (ts : List Token) : kindAhead (x :: ts) 0 = x.kind := rfl
        rw [declarationsUpTo_succ, declarationsUpTo_succ,
          (inquires_seesEnd (k := k)).run _ beside.rest,
          (inquires_seesEnd (k := k)).run_unprobed _ beside.rest' beside.unprobed,
          List.cons_append, List.cons_append, ahead, ahead, unended]
        rcases (meets_declaration meets).run nofun (List.cons_ne_nil x xs) near with
          ⟨-, rest, further⟩ | settled | ⟨⟨⟩, -⟩
        · exact ih further b
        · exact settled.onwards (next a) (next b)

theorem file_run_declarations (l : Level) (s : ParserState) :
    ((file l).run s).2 =
      ((declarationsUpTo ((s.start .file).rest.length + 1) l).run (s.start .file)).2.finish := by
  rw [file_run]
  rfl

end Fork

end XuleLang
