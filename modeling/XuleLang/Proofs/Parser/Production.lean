import XuleLang.Proofs.Parser.Derivation

/-!
Blocks, queries and expressions match their productions.

Each parser of the grammar derives what the production of its node says, one level of nesting after
the other. At the lowest level nothing is derived, since its parsers always complain. The parsers
that put a node around the latest child keep it that exactly one operand stands there.
-/

namespace XuleLang

open Computability Grammar

namespace Grammar

variable {L : Language Tree}

theorem append_le_listed : (L * sign .comma)∗ * L ≤ listed L := by
  refine kstar_mul_le ?_ ?_
  · exact le_mul_of_one_le_right' one_le_kstar
  · calc L * sign .comma * (L * (sign .comma * L)∗)
        = L * (sign .comma * L * (sign .comma * L)∗) := by simp only [mul_assoc]
      _ ≤ L * (sign .comma * L)∗ := mul_le_mul_right mul_kstar_le_kstar L

theorem maybe_mul_kstar_le : maybe L * L∗ ≤ L∗ := by
  rw [maybe, add_mul, one_mul]
  exact add_le le_rfl mul_kstar_le_kstar

end Grammar

/-- The parsers of a level derive operands, which bind as tightly as the operators say. -/
structure Level.Productive (l : Level) : Prop where
  expression : ∀ ts, Parser.Yields ts l.expression fun _ => Grammar.expression
  negation : ∀ ts, kindAhead ts 0 = .keyword .notKw →
    Parser.Yields ts l.negation fun _ => Grammar.operand 3
  signed : ∀ ts, kindAhead ts 0 ∈ Parser.signs →
    Parser.Yields ts l.signed fun _ => Grammar.operand 7

namespace Parser

variable {l : Level} {ts : List Token} {A B L M : Language Tree}

/-! ## Parts -/

section Parts

variable {c : Bool} {p : Parser Unit}

/-- A part that may be left out. -/
theorem Yields.optional (yes : c = true → Yields ts p fun _ => L) :
    Yields ts (if c then p else pure ()) fun _ => maybe L := by
  cases c with
  | true => exact (yes rfl).weaken fun _ => le_maybe
  | false => exact .of_derives (Derives.answer one_le_maybe)

/-- A part that may be left out before the others. -/
theorem Derives.optionalThen {q : Unit → Parser β} {C : β → Language Tree}
    (yes : c = true → Yields ts p fun _ => L)
    (rest : ∀ us, Derives us (A * maybe L) (q ()) C) :
    Derives ts A (if c then p >>= q else q ()) C := by
  cases c with
  | true => exact .andThen (((yes rfl).weaken fun _ => le_maybe) A) fun _ => rest
  | false => exact (rest ts).strengthen (le_mul_of_one_le_right' one_le_maybe)

/-- An item for which was asked, as a step of a repetition. -/
theorem Yields.step {ask : Parser Bool} {Q : Bool → List Token → Prop} (asks : Asks ask Q)
    (item : Q true ts → Yields ts p fun _ => L) :
    Yields ts (do
      let ahead ← ask
      if ahead then p
      return ahead) fun yes => if yes then L else 1 := by
  refine .of_derives (.after asks fun ahead found => ?_)
  cases ahead with
  | true => exact .andThen (item found 1) fun _ _ => .answer (one_mul L).le
  | false => exact .answer le_rfl

theorem yields_eat {k : TokenKind} (inside : k ≠ .endOfInput) :
    Yields ts (eat k) fun yes => if yes then token k else 1 := by
  refine .of_derives (.after (asks_sees k) fun ahead found => ?_)
  cases ahead with
  | true =>
    exact (yields_token (by simpa using found.symm) inside).begin fun _ _ => .answer le_rfl
  | false => exact .answer le_rfl

theorem yields_eatOrNot {k : TokenKind} (inside : k ≠ .endOfInput) :
    Yields ts (eat k) fun _ => maybe (token k) := by
  refine (yields_eat inside).weaken fun yes => ?_
  cases yes with
  | true => exact le_maybe
  | false => exact one_le_maybe

/-- What is expected stands there, if nothing is complained of. -/
theorem yields_expect {k : TokenKind} (inside : k ≠ .endOfInput) :
    Yields ts (expect k) fun yes => if yes then token k else 0 := by
  refine .of_derives ((yields_eat inside).begin fun found us => ?_)
  cases found with
  | true => exact .answer le_rfl
  | false => exact .andThen (.complainingWanted _) fun _ _ => .answer le_rfl

theorem yields_expected {k : TokenKind} (inside : k ≠ .endOfInput) :
    Yields ts (expect k) fun _ => token k := by
  refine (yields_expect inside).weaken fun yes => ?_
  cases yes with
  | true => exact le_rfl
  | false => exact bot_le

theorem yields_require {k : TokenKind} (w : Wanted) (inside : k ≠ .endOfInput) :
    Yields ts (require k w) fun _ => token k := by
  refine .of_derives (.after (asks_sees k) fun ahead found => ?_)
  cases ahead with
  | true => exact (yields_token (by simpa using found.symm) inside 1).weaken fun _ => (one_mul _).le
  | false => exact .complainingWanted w

theorem yields_requireName (w : Wanted) : Yields ts (requireName w) fun _ => name := by
  refine .of_derives (.after asks_seesName fun ahead found => ?_)
  cases ahead with
  | true => exact (yields_name found.symm 1).weaken fun _ => (one_mul _).le
  | false => exact .complainingWanted w

/-- What follows a token that is expected is parsed only if the token is there. -/
theorem Derives.ifExpected {k : TokenKind} {q : Parser Unit} (inside : k ≠ .endOfInput)
    (yes : ∀ us, Derives us (A * token k) q fun _ => B) :
    Derives ts A (expect k >>= fun found => if found then q else pure ()) fun _ => B := by
  refine (yields_expect inside).andThen fun found us => ?_
  cases found with
  | true => exact yes us
  | false => exact .answer ((mul_zero A).le.trans bot_le)

/-- The same before other parsers, which are the same whether the token is there or not. -/
theorem Derives.ifExpectedThen {k : TokenKind} {q : Unit → Parser β} {C : β → Language Tree}
    (inside : k ≠ .endOfInput) (yes : ∀ us, Yields us p fun _ => L)
    (rest : ∀ us, Derives us (A * token k * L) (q ()) C) :
    Derives ts A (expect k >>= fun found => if found then p >>= q else q ()) C := by
  refine (yields_expect inside).andThen fun found us => ?_
  cases found with
  | true => exact (yes us).andThen fun _ => rest
  | false => exact (rest us).strengthen ((mul_zero A).le.trans bot_le)

theorem yields_leafOf {r : Rule} (matching : Yields ts bump fun _ => r.grouping) :
    Yields ts (leafOf r) fun _ => node r :=
  .within ((matching 1).weaken fun _ => (one_mul _).le)

theorem Yields.repeatedTo {step : Parser Bool}
    (steps : ∀ us, Yields us step fun yes => if yes then L else M) :
    Yields ts (repeatWhile step) fun _ => L∗ * M := by
  refine .of_derives (Derives.strengthen (Derives.repeated (A := L∗) fun us => ?_) one_le_kstar)
  refine (steps us _).weaken fun yes => ?_
  cases yes with
  | true => exact kstar_mul_le_kstar
  | false => exact le_rfl

theorem yields_commaSeparated {item : Parser Unit} (items : ∀ us, Yields us item fun _ => L) :
    Yields ts (commaSeparated item) fun _ => listed L := by
  refine Yields.weaken (Yields.repeatedTo (L := L * sign .comma) (M := L) fun us => ?_)
    fun _ => append_le_listed
  refine .of_derives ((items us).begin fun _ vs => (yields_eat (by simp) L).weaken fun yes => ?_)
  cases yes with
  | true => exact le_rfl
  | false => exact (mul_one L).le

end Parts

/-! ## Blocks and names -/

theorem lowestLevel_productive : lowestLevel.Productive := by
  have tooDeep_yields (L : Language Tree) (ts : List Token) : Yields ts tooDeep fun _ => L := by
    refine .of_derives (.complainingFirst _ fun us => .after asks_kind fun k here => ?_)
    split
    case isTrue inside =>
      exact .withinVacuous (yields_token rfl (by simpa [here] using inside) 1)
    case isFalse => exact .answer bot_le
  exact ⟨tooDeep_yields _, fun ts _ => tooDeep_yields _ ts, fun ts _ => tooDeep_yields _ ts⟩

theorem asks_seesAssignment :
    Asks seesAssignment fun yes ts => yes = true →
      kindAhead ts 0 = .variableName ∧ kindAhead ts 1 = .punctuator .assign :=
  (asks_predict _).andThen fun _ => (asks_sees _).andThen fun _ => (asks_kindAt 1).andThen fun _ =>
    .answer fun ts second first _ yes => by simpa [first, second] using yes

theorem yields_assignment {value : Parser Unit} (ahead : kindAhead ts 0 = .variableName)
    (second : kindAhead ts 1 = .punctuator .assign)
    (block : ∀ us, Yields us value fun _ => node .expressionBlock) :
    Yields ts (assignment value) fun _ => node .assignment := by
  have inside : kindAhead ts 0 ≠ .endOfInput := by simp [ahead]
  have variable_yields : Yields ts (leafOf .assignedVariable) fun _ => node .assignedVariable :=
    yields_leafOf (yields_token ahead (by simp))
  refine .within (.andThenAt (moves_leafOf inside) (variable_yields 1) fun _ => ?_)
  refine Derives.strengthen ?_ (one_mul _).le
  refine (yields_token (by simpa using second) (by simp)).andThen fun _ us => ?_
  refine (block us).andThen fun _ vs => ?_
  exact (yields_expected (by simp)).andThen fun _ _ => .answer le_rfl

theorem yields_blockUpTo (productive : l.Productive) (fuel : Nat) :
    Yields ts (blockUpTo l fuel) fun _ => node .expressionBlock := by
  induction fuel generalizing ts with
  | zero => exact fun _ => .overrunning
  | succ fuel ih =>
    have assignments := fun us : List Token =>
      (Yields.step asks_seesAssignment fun found =>
        yields_assignment (found rfl).1 (found rfl).2 fun _ => ih : Yields us _ _)
    exact .within ((Yields.repeated assignments).begin fun _ us => productive.expression us _)

theorem yields_block (productive : l.Productive) :
    Yields ts (block l) fun _ => node .expressionBlock :=
  fun A s here clean => yields_blockUpTo productive (s.rest.length + 1) A s here clean

theorem yields_qualifiedName : Yields ts qualifiedName fun _ => node .qualifiedName := by
  refine .within ((yields_requireName _).begin fun _ us => ?_)
  refine (yields_eat (by simp)).andThen fun colon vs => ?_
  cases colon with
  | true =>
    refine (yields_requireName _ _).weaken fun _ => ?_
    rw [mul_assoc]
    exact mul_le_mul_right le_maybe _
  | false => exact .answer (mul_le_mul_right one_le_maybe _)

theorem yields_propertyRef : Yields ts propertyRef fun _ => node .propertyRef :=
  .within ((yields_requireName _ 1).weaken fun _ => (one_mul _).le)

/-- A part of a string literal is text or a block in braces, and the last one the closing quote. -/
theorem yields_stringPart (productive : l.Productive) :
    Yields ts (stringPart l) fun yes =>
      if yes then token .stringContent + sign .lbrace * node .expressionBlock * sign .rbrace
      else token .stringClose := by
  refine .of_derives (.after asks_kind fun k here => ?_)
  split
  case h_1 => exact (yields_token here.symm (by simp)).begin fun _ _ => .answer le_self_add
  case h_2 =>
    refine (yields_token here.symm (by simp)).begin fun _ us => ?_
    refine (yields_block productive).andThen fun _ vs => ?_
    exact (yields_expected (by simp)).andThen fun _ _ => .answer le_add_self
  case h_3 => exact (yields_token here.symm (by simp)).begin fun _ _ => .answer le_rfl
  case h_4 => exact .complainingFirst _ fun _ => .answer bot_le

theorem yields_stringLiteral (productive : l.Productive) (ahead : kindAhead ts 0 = .stringOpen) :
    Yields ts (stringLiteral l) fun _ => node .stringLiteral := by
  refine .within ((yields_token ahead (by simp)).begin fun _ us => ?_)
  refine (Yields.repeatedTo (fun vs => yields_stringPart productive) _).weaken fun _ => ?_
  exact (mul_assoc _ _ _).ge

theorem yields_argumentList (productive : l.Productive) :
    Yields ts (argumentList l) fun _ => node .argumentList := by
  have blocks := fun us : List Token =>
    (yields_commaSeparated fun _ => yields_block productive : Yields us _ _)
  refine .within (.ifExpected (by simp) fun us => .after (asks_sees _) fun closed _ => ?_)
  refine .optionalThen (fun _ => blocks us) fun vs => ?_
  refine (yields_expected (by simp)).andThen fun _ _ => .answer ?_
  exact one_mul (sign .lparen) ▸ le_rfl

theorem yields_whereClause (productive : l.Productive)
    (ahead : kindAhead ts 0 = .keyword .whereKw) :
    Yields ts (whereClause l) fun _ => node .whereClause :=
  .within ((yields_token ahead (by simp)).begin fun _ _ => yields_block productive _)

/-- An operator of one or two tokens is ahead. -/
def OperatorAhead (ks : List TokenKind) (ts : List Token) : Prop :=
  kindAhead ts 0 ∈ ks ∨ kindAhead ts 0 = .keyword .notKw ∧ kindAhead ts 1 = .keyword .inKw

theorem yields_bumpOperator {ks : List TokenKind} (ahead : OperatorAhead ks ts)
    (inside : .endOfInput ∉ ks) : Yields ts bumpOperator fun _ => operatorOf ks := by
  refine .of_derives (.after asks_seesNotIn fun notIn found => ?_)
  cases notIn with
  | true =>
    simp only [Bool.true_eq, Bool.and_eq_true, beq_iff_eq] at found
    have first : Yields ts bump fun _ => keyword .notKw := yields_token found.1 (by simp)
    have second : Yields ts.tail bump fun _ => keyword .inKw :=
      yields_token (by simpa using found.2) (by simp)
    refine .andThenAt (moves_bump (by simp [found.1])) (first 1) fun _ => ?_
    refine (second _).weaken fun _ => ?_
    rw [one_mul]
    exact le_add_self
  | false =>
    have single : kindAhead ts 0 ∈ ks := ahead.resolve_right (by simpa using found)
    refine (yields_oneOf single inside 1).weaken fun _ => ?_
    rw [one_mul]
    exact le_self_add

/-! ## Queries -/

theorem yields_aspectCondition (productive : l.Productive)
    (ahead : OperatorAhead [.punctuator .assign, .punctuator .notEqual, .keyword .inKw] ts) :
    Yields ts (aspectCondition l) fun _ => aspectOperator * node .aspectValue := by
  have value (us : List Token) : Yields us (within .aspectValue do
      if ← sees (.punctuator .times) then bump else l.expression) fun _ => node .aspectValue := by
    refine .within (.after (asks_sees _) fun any found => ?_)
    cases any with
    | true =>
      have times : kindAhead us 0 = .punctuator .times := by simpa using found.symm
      exact (yields_token times (by simp) 1).weaken fun _ => (one_mul _).trans_le le_self_add
    | false => exact (productive.expression us 1).weaken fun _ => (one_mul _).trans_le le_add_self
  exact .of_derives ((yields_bumpOperator ahead (by simp)).begin fun _ us => value us _)

theorem yields_binding (ahead : kindAhead ts 0 = .keyword .asKw) :
    Yields ts binding fun _ => node .bindAs :=
  .within ((yields_token ahead (by simp)).begin fun _ _ => yields_require _ (by simp) _)

theorem yields_aspectFilter (productive : l.Productive)
    (ahead : kindAhead ts 0 = .punctuator .atSign) :
    Yields ts (aspectFilter l) fun _ => node .aspectFilter := by
  have property (us : List Token) : Yields us (do
      if (← kind) == .punctuator .dot then
        bump
        propertyRef
        pure true
      else pure false) fun yes => if yes then sign .dot * node .propertyRef else 1 := by
    refine .of_derives (.after asks_kind fun k here => ?_)
    split
    case isTrue dot =>
      refine (yields_token (by rw [← here, beq_iff_eq.mp dot]) (by simp)).begin fun _ vs => ?_
      exact yields_propertyRef.andThen fun _ _ => .answer le_rfl
    case isFalse => exact .answer le_rfl
  refine .within ((yields_token ahead (by simp)).begin fun _ us => ?_)
  refine (yields_eatOrNot (by simp)).andThen fun _ us => yields_qualifiedName.andThen fun _ us => ?_
  refine (Yields.repeated property).andThen fun _ us => ?_
  refine .after asks_seesNotIn fun notIn two => .after (asks_seesAny _) fun operator one => ?_
  refine .optionalThen (fun yes => yields_aspectCondition productive ?_) fun vs => ?_
  · rcases Bool.or_eq_true_iff.mp yes with yes | yes
    · exact .inl (by simpa [yes] using one.symm)
    · exact .inr (by simpa [yes] using two.symm)
  · refine .after (asks_sees _) fun named found => ?_
    exact Yields.optional (fun yes => yields_binding (by simpa [yes] using found.symm)) _

/-- The sign that closes a fact set fits the one that opens it. -/
theorem yields_factset (productive : l.Productive)
    (ahead : kindAhead ts 0 = .punctuator .lbrace ∨ kindAhead ts 0 = .punctuator .lbracket) :
    Yields ts (factset l) fun _ => node .factset := by
  have option_yields := fun us : List Token =>
    (Yields.step (asks_seesAny factsetOptions) fun found => yields_leafOf (r := .factsetOption)
      (yields_oneOf (by simpa using found.symm) (by decide)) : Yields us _ _)
  have filter_yields := fun us : List Token =>
    (Yields.step (asks_sees (.punctuator .atSign)) fun found =>
      yields_aspectFilter productive (by simpa using found.symm) : Yields us _ _)
  refine .within (.after asks_kind fun k here => ?_)
  subst here
  have closing_inside : (if (kindAhead ts 0 == .punctuator .lbracket) = true then
      TokenKind.punctuator .rbracket else .punctuator .rbrace) ≠ .endOfInput := by split <;> simp
  have opening_inside : kindAhead ts 0 ≠ .endOfInput := by rcases ahead with k | k <;> simp [k]
  refine (yields_token rfl opening_inside).begin fun _ us => ?_
  refine (Yields.repeated option_yields).andThen fun _ us => ?_
  refine (Yields.repeated filter_yields).andThen fun _ us => ?_
  have last (vs : List Token) : Derives vs
      (token (kindAhead ts 0) * (node .factsetOption)∗ * (node .aspectFilter)∗ *
        maybe (node .whereClause + node .expressionBlock)) (do
      let _ ← expect (if (kindAhead ts 0 == .punctuator .lbracket) = true then
        TokenKind.punctuator .rbracket else .punctuator .rbrace))
      fun _ => Rule.factset.production := by
    refine (yields_expected closing_inside).andThen fun _ _ => .answer ?_
    rcases ahead with opening | opening <;> rw [opening]
    · refine le_trans (le_of_eq ?_) le_self_add
      simp [factsetBody, sign, mul_assoc]
    · refine le_trans (le_of_eq ?_) le_add_self
      simp [factsetBody, sign, mul_assoc]
  refine .after (asks_sees _) fun condition found => ?_
  cases condition with
  | true =>
    have clause : Yields us (whereClause l) fun _ => node .whereClause :=
      yields_whereClause productive (by simpa using found.symm)
    exact (clause.weaken fun _ => le_self_add.trans le_maybe).andThen fun _ => last
  | false =>
    refine .after (asks_sees _) fun closed _ => .after asks_kind fun k _ => ?_
    refine .optionalThen (fun _ => ?_) last
    exact (yields_block productive).weaken fun _ => le_add_self

theorem asks_seesArcrole :
    Asks seesArcrole fun yes ts => yes = true →
      kindAhead ts 0 = .identifier ∨ kindAhead ts 0 = .url ∨ kindAhead ts 0 = .stringOpen := by
  refine asks_kind.andThen fun k => ?_
  split
  case h_1 => exact (asks_kindAt 1).andThen fun _ => .answer fun ts _ here _ => .inl here.symm
  case h_2 => exact .answer fun ts here _ => .inr (.inl here.symm)
  case h_3 => exact .answer fun ts here _ => .inr (.inr here.symm)
  case h_4 => exact .answer fun _ _ => nofun

theorem yields_arcrole (productive : l.Productive)
    (ahead : kindAhead ts 0 = .identifier ∨ kindAhead ts 0 = .url ∨ kindAhead ts 0 = .stringOpen) :
    Yields ts (arcrole l) fun _ => node .navigationArcrole := by
  refine .within (.after asks_kind fun k here => ?_)
  split
  case isTrue opens =>
    have opening : kindAhead ts 0 = .stringOpen := by rw [← here, beq_iff_eq.mp opens]
    refine (yields_stringLiteral productive opening 1).weaken fun _ => ?_
    exact (one_mul _).trans_le le_add_self
  case isFalse others =>
    rcases ahead with identifier | url | opening
    · refine (yields_token identifier (by simp) 1).weaken fun _ => ?_
      exact (one_mul _).trans_le (le_self_add.trans le_self_add)
    · refine (yields_token url (by simp) 1).weaken fun _ => ?_
      exact (one_mul _).trans_le (le_add_self.trans le_self_add)
    · exact absurd (beq_iff_eq.mpr (here.trans opening)) others

theorem yields_direction : Yields ts direction fun _ => node .navigationDirection := by
  refine .within (.after (asks_predict _) fun _ _ => ?_)
  exact (yields_require _ (by simp) 1).weaken fun _ => (one_mul _).le

theorem yields_includeClause (ahead : kindAhead ts 0 = .keyword .includeKw) :
    Yields ts includeClause fun _ => node .navigationClause := by
  refine .within ((yields_token ahead (by simp)).begin fun _ us => ?_)
  refine (yields_expected (by simp)).andThen fun _ _ => .answer ?_
  exact (le_self_add.trans le_self_add).trans le_self_add

theorem yields_wordClause (productive : l.Productive) (word : Yields ts bump fun _ => L)
    (fits : L * expression ≤ Rule.navigationClause.production) :
    Yields ts (wordClause l) fun _ => node .navigationClause :=
  .within (word.begin fun _ us => (productive.expression us _).weaken fun _ => fits)

theorem yields_stopClause (productive : l.Productive)
    (ahead : kindAhead ts 0 = .keyword .stopKw) :
    Yields ts (stopClause l) fun _ => node .navigationClause := by
  refine .within ((yields_token ahead (by simp)).begin fun _ us => ?_)
  refine .ifExpected (by simp) fun vs => (productive.expression vs _).weaken fun _ => ?_
  exact le_add_self.trans le_self_add

/-- The clauses of a navigation, whatever their order. -/
theorem yields_clause (productive : l.Productive) :
    Yields ts (clause l) fun yes =>
      if yes then nodeOf [.navigationClause, .whereClause] else 1 := by
  have done {p : Parser Unit} {r : Rule} (yields : Yields ts p fun _ => node r)
      (among : r ∈ [Rule.navigationClause, .whereClause]) :
      Derives ts 1 (p >>= fun _ => pure true) fun yes =>
        if yes then nodeOf [.navigationClause, .whereClause] else 1 :=
    yields.begin fun _ _ => .answer (node_le_nodeOf among)
  refine .of_derives (.after (asks_seesAny _) fun ends found => ?_)
  cases ends with
  | true =>
    have ahead : kindAhead ts 0 ∈ [TokenKind.keyword .fromKw, .keyword .toKw] := by
      simpa using found.symm
    refine done (yields_wordClause productive (yields_oneOf ahead (by simp)) ?_) (by simp)
    exact (le_add_self.trans le_self_add).trans le_self_add
  | false =>
  refine .after (asks_sees _) fun stops found => ?_
  cases stops with
  | true => exact done (yields_stopClause productive (by simpa using found.symm)) (by simp)
  | false =>
  refine .after (asks_seesAnyWord _) fun word found => ?_
  cases word with
  | true =>
    exact done (yields_wordClause productive (yields_word (found rfl)) le_add_self) (by simp)
  | false =>
  refine .after (asks_sees _) fun condition found => ?_
  cases condition with
  | true => exact done (yields_whereClause productive (by simpa using found.symm)) (by simp)
  | false => exact .answer le_rfl

theorem yields_returnOption : Yields ts returnOption fun _ => node .returnOption := by
  refine .within (.after (asks_predict _) fun _ _ => ?_)
  exact (yields_require _ (by simp) 1).weaken fun _ => (one_mul _).le

/-- Words on the form of the results are `by network` and the single ones. -/
theorem yields_formModifier :
    Yields ts formModifier fun yes =>
      if yes then wordOf ["by"] * wordOf ["network"] + wordOf formWords else 1 := by
  refine .of_derives (.after (asks_isWordAt 0 _) fun byAhead first => ?_)
  refine .after (asks_isWordAt 1 _) fun networkAhead second => ?_
  refine .after asks_get fun s here => .after (asks_kindAt 1) fun following _ => ?_
  split
  case isTrue both =>
    obtain ⟨rfl, rfl⟩ := Bool.and_eq_true_iff.mp both
    have one : Yields ts bump fun _ => wordOf ["by"] := yields_word <| by
      simpa only [List.contains_cons, List.contains_nil, Bool.or_false] using first.symm
    have two : Yields ts.tail bump fun _ => wordOf ["network"] :=
      yields_word <| by
        simpa only [List.contains_cons, List.contains_nil, Bool.or_false, List.getElem?_tail]
          using second.symm
    have inside : kindAhead ts 0 ≠ .endOfInput := by
      cases ts with
      | nil => cases first
      | cons t ts =>
        simp only [List.getElem?_cons_zero, Option.any_some, Bool.true_eq, Bool.and_eq_true,
          beq_iff_eq] at first
        simp [kindAhead, first.1]
    refine .andThenAt (moves_bump inside) (one 1) fun _ => two.andThen fun _ _ => .answer ?_
    rw [one_mul]
    exact le_self_add
  case isFalse =>
    split
    case isTrue form =>
      have word : (ts[0]?).any fun t => t.kind == .identifier && formWords.contains t.text := by
        have spelled := (Bool.and_eq_true_iff.mp form).1
        simp only [List.any_eq_true, ParserState.isWordAt, here] at spelled
        obtain ⟨w, among, spelled⟩ := spelled
        cases ahead : ts[0]? with
        | none => simp [ahead] at spelled
        | some t =>
          simp only [ahead, Option.any_some, Bool.and_eq_true, beq_iff_eq] at spelled
          simp [spelled, among]
      exact (yields_word word).begin fun _ _ => .answer le_add_self
    case isFalse => exact .answer le_rfl

theorem yields_returnsClause (ahead : kindAhead ts 0 = .keyword .returnsKw) :
    Yields ts returnsClause fun _ => node .returnsClause := by
  refine .within ((yields_token ahead (by simp)).begin fun _ us => ?_)
  refine (Yields.repeated fun _ => yields_formModifier).andThen fun _ us => ?_
  have shape (vs : List Token) : Derives vs
      (keyword .returnsKw * (wordOf ["by"] * wordOf ["network"] + wordOf formWords)∗ *
        (sign .lparen * listed (node .returnOption) * sign .rparen + node .returnOption))
      (do if ← eat (.keyword .asKw) then require .identifier .resultShape)
      fun _ => Rule.returnsClause.production := by
    refine (yields_eat (by simp)).andThen fun named ws => ?_
    cases named with
    | true =>
      refine (yields_require _ (by simp) _).weaken fun _ => ?_
      exact (mul_assoc _ _ _).trans_le (mul_le_mul_right le_maybe _)
    | false => exact .answer (mul_le_mul_right one_le_maybe _)
  refine (yields_eat (by simp)).andThen fun opened vs => ?_
  cases opened with
  | true =>
    refine (yields_commaSeparated fun _ => yields_returnOption).andThen fun _ ws => ?_
    refine (yields_expected (by simp)).andThen fun _ ws => (shape ws).strengthen ?_
    refine le_trans (le_of_eq ?_) (mul_le_mul_right le_self_add _)
    simp [sign, keyword, mul_assoc]
  | false =>
    refine (yields_returnOption).andThen fun _ ws => (shape ws).strengthen ?_
    exact mul_le_mul' (mul_one _).le le_add_self

theorem yields_navigation (productive : l.Productive)
    (ahead : kindAhead ts 0 = .keyword .navigateKw) :
    Yields ts (navigation l) fun _ => node .navigation := by
  refine .within ((yields_token ahead (by simp)).begin fun _ us => ?_)
  refine (yields_eatOrNot (by simp)).andThen fun _ us => .after (asks_predict _) fun _ _ => ?_
  refine .after asks_seesArcrole fun named found => ?_
  refine .optionalThen (fun yes => yields_arcrole productive (found yes)) fun us => ?_
  refine yields_direction.andThen fun _ us => (yields_eatOrNot (by simp)).andThen fun _ us => ?_
  refine .after (asks_sees _) fun includes found => ?_
  -- An `include start` is the first of the clauses.
  have behind (vs : List Token) : Derives vs
      (keyword .navigateKw * maybe (keyword .dimensionsKw) * maybe (node .navigationArcrole) *
        node .navigationDirection * maybe (token .number) *
        maybe (nodeOf [.navigationClause, .whereClause])) (do
      repeatWhile (clause l)
      if ← sees (.keyword .returnsKw) then returnsClause)
      fun _ => Rule.navigation.production := by
    refine (Yields.repeated fun _ => yields_clause productive).andThen fun _ ws => ?_
    refine .after (asks_sees _) fun returns found => ?_
    have given : Yields ws (if returns then returnsClause else pure ()) _ := .optional fun yes =>
      yields_returnsClause (by simpa [yes] using found.symm)
    refine (given _).weaken fun _ => mul_le_mul_left ?_ _
    rw [mul_assoc]
    exact mul_le_mul_right maybe_mul_kstar_le _
  refine .optionalThen (fun yes => ?_) behind
  exact (yields_includeClause (by simpa [yes] using found.symm)).weaken fun _ =>
    node_le_nodeOf (by simp)

theorem yields_filterReturns (productive : l.Productive)
    (ahead : kindAhead ts 0 = .keyword .returnsKw) :
    Yields ts (filterReturns l) fun _ => node .filterReturns :=
  .within ((yields_token ahead (by simp)).begin fun _ us => productive.expression us _)

theorem yields_filter (productive : l.Productive)
    (ahead : kindAhead ts 0 = .keyword .filterKw) :
    Yields ts (filter l) fun _ => node .filterExpression := by
  refine .within ((yields_token ahead (by simp)).begin fun _ us => ?_)
  refine (productive.expression us).andThen fun _ us => .after (asks_sees _) fun limited found => ?_
  refine .optionalThen
    (fun yes => yields_whereClause productive (by simpa [yes] using found.symm)) fun vs => ?_
  refine .after (asks_sees _) fun returns found => ?_
  exact Yields.optional
    (fun yes => yields_filterReturns productive (by simpa [yes] using found.symm)) _

/-! ## Operands -/

/-- The node of an expression rule without an operator of its own is an operand everywhere. -/
theorem Yields.operand {p : Parser Unit} {r : Rule} (yields : Yields ts p fun _ => node r)
    (listed : r ∈ atomicRules) : Yields ts p fun _ => Grammar.operand 8 :=
  yields.weaken fun _ => node_le_operand listed

theorem yields_call (productive : l.Productive)
    (ahead : kindAhead ts 0 ∈ [TokenKind.identifier, .variableName]) :
    Yields ts (call l) fun _ => node .callExpression := by
  have callee : Yields ts (leafOf .functionRef) fun _ => node .functionRef :=
    yields_leafOf (yields_oneOf ahead (by simp))
  refine .within (callee.begin fun _ us => (yields_argumentList productive _).weaken fun _ => ?_)
  exact mul_le_mul_left (node_le_nodeOf (by simp)) _

/-- A qualified name with arguments behind it becomes the first part of a call. -/
theorem yields_nameOrCall (productive : l.Productive) :
    Yields ts (nameOrCall l) fun _ => Grammar.operand 8 := by
  refine .of_derives (yields_qualifiedName.andThen fun _ us => .after asks_kind fun k _ => ?_)
  split
  case isTrue =>
    refine Derives.weaken (.wrapping ((yields_argumentList productive _).weaken fun _ => ?_))
      fun _ => (one_mul _).trans_le (node_le_operand (by decide))
    exact mul_le_mul_left (node_le_nodeOf (by simp)) _
  case isFalse => exact .answer ((one_mul _).trans_le (node_le_operand (by decide)))

theorem yields_parenthesized (productive : l.Productive)
    (ahead : kindAhead ts 0 = .punctuator .lparen) :
    Yields ts (parenthesized l) fun _ => node .parenthesizedExpression := by
  refine .within ((yields_token ahead (by simp)).begin fun _ us => ?_)
  refine (yields_block productive).andThen fun _ us => ?_
  exact (yields_expected (by simp)).andThen fun _ _ => .answer le_rfl

theorem yields_conditional (productive : l.Productive)
    (ahead : kindAhead ts 0 = .keyword .ifKw) :
    Yields ts (conditional l) fun _ => node .ifExpression := by
  refine .within ((yields_token ahead (by simp)).begin fun _ us => ?_)
  refine (productive.expression us).andThen fun _ us => ?_
  refine (yields_block productive).andThen fun _ us => ?_
  exact .ifExpected (by simp) fun vs => yields_block productive _

theorem yields_loopVariable : Yields ts loopVariable fun _ => node .forVariable :=
  .within ((yields_require _ (by simp) 1).weaken fun _ => (one_mul _).le)

/-- The parentheses of a loop come in pairs. -/
theorem yields_loop (productive : l.Productive) (ahead : kindAhead ts 0 = .keyword .forKw) :
    Yields ts (loop l) fun _ => node .forExpression := by
  have body (us : List Token) (X : Language Tree)
      (fits : X ≤ keyword .forKw * (sign .lparen * loopHead * sign .rparen + loopHead)) :
      Derives us X (block l) fun _ => Rule.forExpression.production :=
    (yields_block productive _).weaken fun _ => mul_le_mul_left fits _
  refine .within ((yields_token ahead (by simp)).begin fun _ us => ?_)
  refine (yields_eat (by simp)).andThen fun parenthesis us => ?_
  refine yields_loopVariable.andThen fun _ us => ?_
  refine .ifExpectedThen (by simp) (fun vs => productive.expression vs) fun vs => ?_
  cases parenthesis with
  | true =>
    refine (yields_expected (by simp)).andThen fun _ ws => body ws _ ?_
    refine le_trans (le_of_eq ?_) (mul_le_mul_right le_self_add _)
    simp [loopHead, keyword, sign, mul_assoc]
  | false =>
    refine body vs _ (le_trans (le_of_eq ?_) (mul_le_mul_right le_add_self _))
    simp [loopHead, keyword, mul_assoc]

/-- What begins an operand says of which rule it is. -/
theorem yields_primary (productive : l.Productive) :
    Yields ts (primary l) fun _ => Grammar.operand 8 := by
  refine .of_derives (.after (asks_predict _) fun _ _ => .after (asks_seesAny _) fun _ _ => ?_)
  refine .after (asks_seesAny _) fun _ _ => .after (asks_kindAt 1) fun _ _ => ?_
  refine .after asks_kind fun k here => ?_
  have one {p : Parser Unit} {r : Rule} (yields : Yields ts p fun _ => node r)
      (listed : r ∈ atomicRules) : Derives ts 1 p fun _ => Grammar.operand 8 :=
    (yields.operand listed 1).weaken fun _ => (one_mul _).le
  split
  case h_1 =>
    exact one (yields_leafOf (r := .numberLiteral) (yields_token here.symm (by simp))) (by decide)
  case h_2 => exact one (yields_stringLiteral productive here.symm) (by decide)
  case h_3 | h_4 =>
    exact one (yields_leafOf (r := .booleanLiteral) (yields_oneOf (by simp [← here]) (by simp)))
      (by decide)
  case h_5 | h_6 =>
    exact one (yields_leafOf (r := .keywordLiteral) (yields_oneOf (by simp [← here]) (by simp)))
      (by decide)
  case h_7 =>
    split
    · exact one (yields_call productive (by simp [← here])) (by decide)
    · exact one (yields_leafOf (r := .variableRead) (yields_token here.symm (by simp))) (by decide)
  case h_8 =>
    split
    · exact one (yields_call productive (by simp [← here])) (by decide)
    · exact (yields_nameOrCall productive 1).weaken fun _ => (one_mul _).le
  case h_9 => exact one (yields_parenthesized productive here.symm) (by decide)
  case h_10 => exact one (yields_conditional productive here.symm) (by decide)
  case h_11 => exact one (yields_loop productive here.symm) (by decide)
  case h_12 => exact one (yields_factset productive (.inl here.symm)) (by decide)
  case h_13 => exact one (yields_factset productive (.inr here.symm)) (by decide)
  case h_14 => exact one (yields_navigation productive here.symm) (by decide)
  case h_15 => exact one (yields_filter productive here.symm) (by decide)
  case h_16 => exact .complaining _

/-! ## Operators -/

/-- The operand stays the only one when it becomes the first part of an access. -/
theorem derives_propertyAccess (productive : l.Productive) :
    Derives ts (A * Grammar.operand 8) (propertyAccess l) fun _ => A * Grammar.operand 8 := by
  refine .after (asks_sees _) fun dot found => ?_
  cases dot with
  | false => exact .answer le_rfl
  | true =>
    refine Derives.andThen (.wrapping (r := .propertyAccess) ?_) fun _ us => .answer ?_
    · refine (yields_token (by simpa using found.symm) (by simp)).andThen fun _ us => ?_
      refine yields_propertyRef.andThen fun _ us => .after (asks_sees _) fun arguments _ => ?_
      exact Yields.optional (fun _ => yields_argumentList productive) _
    · exact mul_le_mul_right (node_le_operand (by decide)) A

theorem yields_access (productive : l.Productive) :
    Yields ts (access l) fun _ => Grammar.operand 8 := by
  refine fun A => (yields_primary productive).andThen fun _ us => .repeated fun vs => ?_
  refine (derives_propertyAccess productive).weaken fun yes => ?_
  cases yes <;> exact le_rfl

theorem yields_signedOperand (productive : l.Productive) :
    Yields ts (signedOperand l) fun _ => Grammar.operand 7 := by
  refine fun A => .after (asks_seesAny _) fun ahead found => ?_
  cases ahead with
  | true => exact productive.signed ts (by simpa using found.symm) A
  | false => exact ((yields_access productive).weaken fun _ => operand_anti (by decide)) A

/-- An operator puts the operand before it and the one behind it, which binds tighter, into one
operand. -/
theorem yields_operands {sees : Parser Bool} {operand : Parser Unit} {n : Nat}
    (asks : Asks sees fun yes ts => yes = true → Yields ts bumpOperator fun _ => operatorAt n)
    (operand_yields : ∀ ts, Yields ts operand fun _ => Grammar.operand (n + 1)) :
    Yields ts (operands sees operand) fun _ => Grammar.operand n := by
  have first := (operand_yields ts).weaken fun _ => operand_anti (Nat.le_succ n)
  refine fun A => first.andThen fun _ us => .repeated fun vs => ?_
  refine .after asks fun ahead found => ?_
  cases ahead with
  | false => exact .answer le_rfl
  | true =>
    have binary : binaryAt n ≤ Rule.binaryExpression.grouping := fun _ phrase => ⟨n, phrase⟩
    refine Derives.andThen (.wrappingOf binary ?_) fun _ us => .answer ?_
    · exact (found rfl).andThen fun _ us => operand_yields us _
    · exact mul_le_mul_right binary_le_operand A

/-- An operator of one token. -/
theorem yields_bumpOperator_of_mem {ks : List TokenKind} (ahead : kindAhead ts 0 ∈ ks)
    (inside : .endOfInput ∉ ks) (other : .keyword .notKw ∉ ks) :
    Yields ts bumpOperator fun _ => oneOf ks := by
  refine .of_derives (.after asks_seesNotIn fun notIn found => ?_)
  cases notIn with
  | true =>
    simp only [Bool.true_eq, Bool.and_eq_true, beq_iff_eq] at found
    exact absurd (found.1 ▸ ahead) other
  | false => exact (yields_oneOf ahead inside 1).weaken fun _ => (one_mul _).le

theorem asks_seesOperator {ks : List TokenKind} (inside : .endOfInput ∉ ks)
    (other : .keyword .notKw ∉ ks) :
    Asks (seesAny ks) fun yes ts => yes = true → Yields ts bumpOperator fun _ => oneOf ks :=
  (asks_seesAny ks).weaken fun yes ts found answer =>
    yields_bumpOperator_of_mem (by simpa [answer] using found.symm) inside other

theorem asks_seesComparison :
    Asks seesComparison fun yes ts => yes = true →
      Yields ts bumpOperator fun _ => operatorAt 4 := by
  refine asks_seesNotIn.andThen fun notIn => (asks_seesAny _).andThen fun operator => .answer ?_
  intro ts one two yes
  refine yields_bumpOperator ?_ (by decide)
  rcases Bool.or_eq_true_iff.mp yes with yes | yes
  · exact .inl (by simpa [yes] using one.symm)
  · exact .inr (by simpa [yes] using two.symm)

theorem yields_additive (productive : l.Productive) :
    Yields ts (additive l) fun _ => Grammar.operand 5 :=
  yields_operands (asks_seesOperator (by decide) (by decide)) fun _ =>
    yields_operands (asks_seesOperator (by decide) (by decide)) fun _ =>
      yields_signedOperand productive

theorem yields_comparison (productive : l.Productive) :
    Yields ts (comparison l) fun _ => Grammar.operand 4 :=
  yields_operands asks_seesComparison fun _ => yields_additive productive

theorem yields_negatable (productive : l.Productive) :
    Yields ts (negatable l) fun _ => Grammar.operand 3 := by
  refine fun A => .after (asks_sees _) fun notAhead found => .after (asks_kindAt 1) fun _ _ => ?_
  split
  case isTrue yes =>
    have ahead := (Bool.and_eq_true_iff.mp yes).1
    exact productive.negation ts (by simpa [ahead] using found.symm) A
  case isFalse => exact ((yields_comparison productive).weaken fun _ => operand_anti (by decide)) A

theorem asks_seesWord (k : Keyword) (other : k ≠ .notKw) :
    Asks (sees (.keyword k)) fun yes ts => yes = true →
      Yields ts bumpOperator fun _ => keyword k :=
  (asks_sees _).weaken fun yes ts found answer => by
    have ahead : kindAhead ts 0 ∈ [.keyword k] := by simpa [answer] using found.symm
    have apart : .keyword .notKw ∉ [TokenKind.keyword k] := by simpa using other.symm
    refine (yields_bumpOperator_of_mem ahead (by simp) apart).weaken fun _ => ?_
    rintro _ ⟨t, rfl, x, rfl, listed⟩
    exact ⟨_, rfl, x, rfl, List.mem_singleton.mp listed⟩

theorem yields_disjunction (productive : l.Productive) :
    Yields ts (disjunction l) fun _ => Grammar.operand 1 :=
  yields_operands (asks_seesWord _ (by decide)) fun _ =>
    yields_operands (asks_seesWord _ (by decide)) fun _ => yields_negatable productive

theorem yields_negation {operand : Parser Unit} (ahead : kindAhead ts 0 = .keyword .notKw)
    (operand_yields : ∀ ts, Yields ts operand fun _ => Grammar.operand 3) :
    Yields ts (unary operand) fun _ => Grammar.operand 3 := by
  refine (Yields.withinOf (r := .unaryExpression) le_self_add ?_).weaken fun _ =>
    negation_le_operand
  exact (yields_token ahead (by simp)).begin fun _ us => operand_yields us _

theorem yields_signed {operand : Parser Unit} (ahead : kindAhead ts 0 ∈ signs)
    (operand_yields : ∀ ts, Yields ts operand fun _ => Grammar.operand 7) :
    Yields ts (unary operand) fun _ => Grammar.operand 7 := by
  refine (Yields.withinOf (r := .unaryExpression) le_add_self ?_).weaken fun _ => signed_le_operand
  exact (yields_oneOf ahead (by decide)).begin fun _ us => operand_yields us _

theorem levelAbove_productive (productive : l.Productive) : (levelAbove l).Productive where
  expression _ := (yields_disjunction productive).weaken fun _ => operand_le_expression
  negation _ ahead := yields_negation ahead fun _ => yields_negatable productive
  signed _ ahead := yields_signed ahead fun _ => yields_signedOperand productive

/-- However deep expressions may nest, their parsers derive operands. -/
theorem level_productive (depth : Nat) : (level depth).Productive := by
  induction depth with
  | zero => exact lowestLevel_productive
  | succ depth ih => exact levelAbove_productive ih

end Parser

end XuleLang
