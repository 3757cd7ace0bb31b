import XuleLang.Proofs.Parser.Foresight.Query

/-!
Operands at a fork.

An operand asks for all that it may begin with before it looks at what there is, and the list has
`not`, which begins none. So a reserved word other than `not` is predicted exactly if it is read.
An `Operand` is a parser that keeps this, and that complains of a `not` and comes to nothing at the
end; what may follow an operand does not change it (`Operand.repeated`).
-/

namespace XuleLang

open ParserState (Kept Told Agrees)
open XuleLang.Parser

namespace Fork

variable {k : Fork} {l : Level} {inside : Option Rule} {r : Rule} {I : List Token → Prop}

/-- What an operand may begin with is asked for, and whether a parenthesis follows. -/
def seesOperand : Parser Bool := do
  predict [.variableRead, .qualifiedName, .booleanLiteral, .callExpression]
  let _ ← seesAny operandKinds
  let _ ← seesAny operandKeywords
  let following ← kindAt 1
  return following == .punctuator .lparen

/-- The operand that begins with a token of the kind. -/
def operandOf (l : Level) (called : Bool) : TokenKind → Parser Unit
  | .number => leafOf .numberLiteral
  | .stringOpen => stringLiteral l
  | .keyword .trueKw | .keyword .falseKw => leafOf .booleanLiteral
  | .keyword .noneKw | .keyword .skipKw => leafOf .keywordLiteral
  | .variableName => if called then call l else leafOf .variableRead
  | .identifier => if called then call l else nameOrCall l
  | .punctuator .lparen => parenthesized l
  | .keyword .ifKw => conditional l
  | .keyword .forKw => loop l
  | .punctuator .lbrace | .punctuator .lbracket => factset l
  | .keyword .navigateKw => navigation l
  | .keyword .filterKw => filter l
  | other => complain (.expected .expression other)

theorem primary_eq (l : Level) :
    primary l = seesOperand >>= fun called => kind >>= operandOf l called := by
  simp only [primary, seesOperand, bind_assoc, pure_bind]
  refine congrArg _ (funext fun _ => congrArg _ (funext fun _ => congrArg _ (funext fun _ =>
    congrArg _ (funext fun following => congrArg _ (funext fun kk => ?_)))))
  cases kk with
  | keyword w => cases w <;> rfl
  | punctuator p => cases p <;> rfl
  | _ => rfl

/-- Other reserved words than those listed begin no operand, and neither does `not`. -/
theorem operandOf_keyword {called : Bool} {w : Keyword}
    (other : .keyword w ∉ operandKeywords ∨ w = .notKw) :
    operandOf l called (.keyword w) = complain (.expected .expression (.keyword w)) := by
  cases w <;> first | rfl | exact absurd other (by decide)

theorem inquires_seesOperand :
    k.Inquires seesOperand operandKeywords fun ts => kindAhead ts 1 == .punctuator .lparen := by
  obtain ⟨w, reserved⟩ := k.word_isKeyword
  refine Inquires.weaken ((inquires_predict _).andThen fun _ =>
    (inquires_seesAny operandKinds).andThen fun _ =>
      (inquires_seesAny operandKeywords).andThen fun _ => (inquires_kindAt 1).andThen
        fun following => inquires_answer (following == .punctuator .lparen)) ?_
  simp [operandKinds, reserved]

theorem meets_call (meets : l.Meets k) : k.Meets inside (· ≠ []) (call l) (call l) :=
  .within (.leafThen (J := Anywhere) (meets_argumentList meets) fun _ ahead => ⟨ahead, trivial⟩)

theorem meets_nameOrCall (meets : l.Meets k) : k.Meets inside I (nameOrCall l) (nameOrCall l) := by
  obtain ⟨w, reserved⟩ := k.word_isKeyword
  refine .andThen meets_qualifiedName fun _ => .onKind ?_ fun a =>
    .ite (.wrapping (meets_argumentList meets)) (.answer ())
  rw [reserved]
  exact .answer ()

theorem begins_parenthesized (meets : l.Meets k) : k.Begins (parenthesized l) (parenthesized l) :=
  .node (.andThen (meets_block meets) fun _ => meets_expecting (by decide))

theorem begins_conditional (meets : l.Meets k) : k.Begins (conditional l) (conditional l) :=
  .node <| .andThen (meets.expression.weaken fun _ _ => trivial) fun _ =>
    .andThen (meets_block meets) fun _ => .andThen (meets_expect (by decide)) fun _ =>
    .ite (meets_block meets) (.answer ())

theorem begins_loop (meets : l.Meets k) : k.Begins (loop l) (loop l) := by
  refine .node <| .andThen (meets_eat (by decide)) fun _ =>
    .andThen (.within (meets_require _ (by decide))) fun _ =>
    .andThen (meets_expect (by decide)) fun _ =>
    .iteThen (meets.expression.weaken fun _ _ => trivial) ?_
  exact .ite (.andThen (meets_expect (by decide)) fun _ => meets_block meets) (meets_block meets)

theorem meets_operandOf (meets : l.Meets k) (called : Bool) (kk : TokenKind) :
    k.Meets inside (· ≠ []) (operandOf l called kk) (operandOf l called kk) := by
  unfold operandOf
  split
  case h_1 | h_3 | h_4 | h_5 | h_6 => exact .leafOf fun _ => id
  case h_2 => exact (begins_stringLiteral meets).meets.inner
  case h_7 => exact .ite (meets_call meets) (.leafOf fun _ => id)
  case h_8 => exact .ite (meets_call meets) (meets_nameOrCall meets)
  case h_9 => exact (begins_parenthesized meets).meets.inner
  case h_10 => exact (begins_conditional meets).meets.inner
  case h_11 => exact (begins_loop meets).meets.inner
  case h_12 | h_13 => exact meets_factset meets
  case h_14 => exact (begins_navigation meets).meets.inner
  case h_15 => exact (begins_filter meets).meets.inner
  case h_16 => exact .complain _ _

/-- A reserved word that begins an operand is read. -/
theorem takes_operandOf (meets : l.Meets k) {called : Bool} {w : Keyword}
    (listed : .keyword w ∈ operandKeywords) (positive : w ≠ .notKw) :
    k.Takes (operandOf l called (.keyword w)) := by
  have listed : w ∈ [Keyword.ifKw, .forKw, .navigateKw, .filterKw, .trueKw, .falseKw, .noneKw,
      .skipKw, .notKw] := by simpa [operandKeywords] using listed
  simp only [List.mem_cons, List.not_mem_nil, or_false, positive] at listed
  rcases listed with rfl | rfl | rfl | rfl | rfl | rfl | rfl | rfl
  · exact (begins_conditional meets).takes
  · exact (begins_loop meets).takes
  · exact (begins_navigation meets).takes
  · exact (begins_filter meets).takes
  all_goals exact takes_leafOf _

theorem ends_primary : k.Ends (primary l) operandKeywords := by
  rw [primary_eq]
  have complained : k.Ends (kind >>= operandOf l false) [] :=
    .asking inquires_kind k.ended (ends_complain _)
  have ends := Ends.asking (f := fun called => kind >>= operandOf l called) (a := false)
    inquires_seesOperand rfl complained
  rwa [List.append_nil] at ends

theorem balks_primary (k : Fork) {w : Keyword}
    (other : .keyword w ∉ operandKeywords ∨ w = .notKw) : Balks (.keyword w) (primary l) := by
  rw [primary_eq]
  refine .asking (k := k) inquires_seesOperand fun _ _ =>
    .asking (k := k) inquires_kind fun _ here => ?_
  rw [here, operandOf_keyword other]
  exact balks_complain _

theorem meets_primary (meets : l.Meets k) :
    k.Meets inside k.Unnegated (primary l) (primary l) := by
  obtain ⟨w, reserved⟩ := k.word_isKeyword
  refine .except (· = []) ?_ ?_
  · rintro rules left s t - positive rfl beside
    have positive : w ≠ .notKw := fun negated => positive rfl (reserved.trans (negated ▸ rfl))
    by_cases listed : k.word.kind ∈ operandKeywords
    · have told := ((ends_primary (l := l)).run beside).1 listed
      have took : k.Takes (primary l) := by
        rw [primary_eq]
        refine .asking inquires_seesOperand (.asking inquires_kind ?_)
        rw [show kindAhead (k.word :: k.behind) 0 = .keyword w from reserved]
        exact takes_operandOf meets (reserved ▸ listed) positive
      exact .inl (.inr (.inr ⟨.inr (.inl told), .inr (.inr (.inl (took t beside.comes)))⟩))
    · have missed := ((ends_primary (l := l)).run beside).2 listed
      have complained := balks_primary (l := l) k (.inl (reserved ▸ listed)) t beside.unprobed
        beside.silent' (beside.rest' ▸ reserved)
      exact .inl (.inr (.inr ⟨.inl complained, .inr (.inl missed)⟩))
  · rw [primary_eq]
    refine .before inquires_seesOperand (fun _ => And.right) ?_ fun called =>
      .before inquires_kind (fun _ known => known.1.2) (fun _ _ => rfl) fun kk =>
        (meets_operandOf meets called kk).weaken fun _ known => known.1.1.2
    intro x xs
    cases xs with
    | nil =>
      have ended : kindAhead ([x] ++ [k.last]) 1 = .endOfInput := k.ended
      have worded : kindAhead ([x] ++ k.word :: k.behind) 1 = .keyword w := reserved
      simp only [ended, worded]
      rfl
    | cons y ys => rfl

theorem idles_primary : k.Idles (primary l) := by
  rw [primary_eq]
  refine .asking (inquires_seesOperand (k := k)).stays fun called _ =>
    .asking stays_kind fun kk here => ?_
  rw [here, show kindAhead [k.last] 0 = .endOfInput from k.ended]
  exact .complain _

/-- A step that is asked for ends where the answer is no. -/
theorem idles_repeated {ask : Parser Bool} {ks : List TokenKind} {φ : List Token → Bool}
    {item : Parser Bool} (inquires : k.Inquires ask ks φ) (nothing : φ [k.last] = false) :
    k.Idles (repeatWhile (ask >>= fun ahead => if ahead then item else pure false)) := by
  refine .repeated (.asking inquires.stays fun ahead answer => ?_) fun s here => ?_
  · rw [answer, nothing]
    exact .answer false
  · have run : ((ask >>= fun ahead => if ahead then item else pure false).run s).1 =
        ((if (ask.run s).1 then item else pure false).run (ask.run s).2).1 := rfl
    rw [run, inquires.answers here, nothing]
    rfl

/-! ## What may follow an operand -/

/-- A parser of operands that take no `not` before them. -/
structure Operand (k : Fork) (p : Parser Unit) : Prop where
  meets : k.Meets none k.Unnegated p p
  idles : k.Idles p
  balks : Balks (.keyword .notKw) p
  ends : k.Ends p operandKeywords

/-- What may follow an operand changes nothing before the end. -/
theorem Operand.repeated {p : Parser Unit} {ask item : Parser Bool} {ks : List TokenKind}
    {φ : List Token → Bool} (operand : k.Operand p) (inquires : k.Inquires ask ks φ)
    (nothing : φ [k.last] = false)
    (step : k.Meets none Anywhere (ask >>= fun ahead => if ahead then item else pure false)
      (ask >>= fun ahead => if ahead then item else pure false)) :
    k.Operand (p >>= fun _ => repeatWhile (ask >>= fun ahead => if ahead then item else pure false))
    where
  meets := operand.meets.andThen fun _ => .repeated step
  idles := operand.idles.andThen fun _ => idles_repeated inquires nothing
  balks := operand.balks.andThen fun _ => step.steady.repeated
  ends := operand.ends.andThen fun _ => step.steady.repeated

theorem operand_primary (meets : l.Meets k) : k.Operand (primary l) where
  meets := meets_primary meets
  idles := idles_primary
  balks := balks_primary k (.inr rfl)
  ends := ends_primary

theorem meets_propertyAccess (meets : l.Meets k) :
    k.Meets none Anywhere (propertyAccess l) (propertyAccess l) := by
  refine .ifSeen (inquires_sees _) (by decide) (Begins.andThen (.wrapped ?_) fun _ => .answer true)
    (.answer false)
  exact .andThen meets_propertyRef fun _ => .andThen (meets_sees (by simp) rfl) fun _ =>
    .ite (meets_argumentList meets) (.answer ())

theorem unseen_end {ks : List TokenKind} (unended : .endOfInput ∉ ks) :
    ks.contains (kindAhead [k.last] 0) = false := by
  rw [show kindAhead [k.last] 0 = .endOfInput from k.ended]
  simpa using unended

theorem operand_access (meets : l.Meets k) : k.Operand (access l) :=
  (operand_primary meets).repeated (inquires_sees _) (unseen_end (by decide))
    (meets_propertyAccess meets)

theorem operand_signedOperand (meets : l.Meets k) : k.Operand (signedOperand l) := by
  have operand := operand_access meets
  refine ⟨?_, ?_, ?_, ?_⟩
  · refine .seeing (inquires_seesAny signs) (by decide) (fun sign => ?_)
      (meets.signed.weaken fun _ => And.right) (operand.meets.weaken fun _ => And.left)
    obtain ⟨w, reserved⟩ := k.word_isKeyword
    rw [reserved] at sign
    exact absurd sign (by simp [signs])
  · refine .asking (stays_seesAny _) fun ahead answer => ?_
    rw [answer, unseen_end (by decide)]
    exact operand.idles
  · refine .asking (k := k) (inquires_seesAny _) fun ts here => ?_
    rw [here]
    exact operand.balks
  · have nothing : signs.contains (kindAhead [k.last] 0) = false := unseen_end (by decide)
    have ends := Ends.asking (f := fun sign => if sign then l.signed else access l) (a := false)
      (inquires_seesAny signs) nothing operand.ends
    obtain ⟨w, reserved⟩ := k.word_isKeyword
    exact ends.weaken (by simp [signs, reserved])

end Fork

end XuleLang
