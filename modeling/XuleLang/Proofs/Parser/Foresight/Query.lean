import XuleLang.Proofs.Parser.Foresight.Operator

/-!
Fact sets, navigations and filters at a fork.

Most clauses begin with a token that is asked for. Three things are otherwise. Fact sets end with a
block unless the input does, and so a word at the caret begins a block which nobody asked for
(`meets_factsetRest`). The condition of an aspect filter is an operator, so a `not in` may join
there (`begins_aspectFilter`). And some clauses begin with words that are not reserved, which are
known by their spelling (`wordAhead`); neither the end nor a reserved word is spelled like them.
-/

namespace XuleLang

open ParserState (Kept Told Agrees)
open XuleLang.Parser

namespace Fork

variable {k : Fork} {l : Level} {inside : Option Rule} {r : Rule} {I : List Token → Prop}

/-! ## Aspects -/

theorem meets_aspectValue (meets : l.Meets k) :
    k.Meets inside I (within .aspectValue do
      if ← sees (.punctuator .times) then bump else l.expression) (within .aspectValue do
      if ← sees (.punctuator .times) then bump else l.expression) :=
  .within (.ifSeen (inquires_sees _) (by decide) .bump
    (meets.expression.inner.weaken fun _ _ => trivial))

theorem appends_aspectValue (meets : l.Meets k) : Appends (within .aspectValue do
      if ← sees (.punctuator .times) then bump else l.expression) := by
  refine .within (.andThen (.of_stays ?_ (stays_sees _)) fun _ => .ite .bump ?_) _
  · exact (alike_sees _).steady
  · exact .of_yields meets.expression.steady meets.productive.expression

theorem begins_binding : k.Begins binding binding := .node (meets_require _ (by decide))

theorem appends_binding : Appends binding :=
  .within (.andThen .bump fun _ => .of_yields (alike_require _ _).steady fun _ =>
    yields_require _ (by simp)) _

theorem begins_aspectFilter (meets : l.Meets k) : k.Begins (aspectFilter l) (aspectFilter l) := by
  refine .node (.andThen (meets_eat (by decide)) fun _ => .andThen meets_qualifiedName fun _ =>
    .andThen (.repeated ?_) fun _ => ?_)
  · refine .onKind ?_ fun a => .ite ?_ (.answer false)
    · obtain ⟨w, reserved⟩ := k.word_isKeyword
      rw [reserved]
      exact .answer false
    · exact .bumpThen (J := Anywhere)
        (.andThen meets_propertyRef fun _ => .answer true) fun _ known => ⟨known.2.1, trivial⟩
  · let named : Parser Unit := do if ← sees (.keyword .asKw) then binding
    have bound {I : List Token → Prop} : k.Meets (some .aspectFilter) I named named :=
      .ifSeen (inquires_sees _) (by decide) begins_binding (.answer ())
    have appends : Appends named :=
      .andThen (.of_stays (alike_sees _).steady (stays_sees _)) fun _ =>
        .ite appends_binding (.answer ())
    let after (spotted : Bool) : Parser Unit :=
      if spotted then aspectCondition l >>= fun _ => named else named
    let operators : List TokenKind := [.punctuator .assign, .punctuator .notEqual, .keyword .inKw]
    change k.Meets _ _ (seesOperator operators >>= after) (seesOperator operators >>= after)
    refine .operator (by decide) ?_ ?_ ?_ bound
    · intro rules left s t here joined beside s'
      have opened : rules ≠ [] := by
        rintro rfl
        cases here .aspectFilter rfl
      exact joined.opens beside opened (.andThen (appends_aspectValue meets) fun _ => appends) s'
    · intro member
      refine Takes.andThen (Takes.andThen (takes_bumpOperator ?_) fun _ => ?_) fun _ => ?_
      · rintro negated
        rw [negated] at member
        exact absurd member (by decide)
      · exact (appends_aspectValue meets).steady
      · exact appends.steady
    · exact .andThen (.andThen meets_bumpOperator fun _ => meets_aspectValue meets) fun _ => bound

/-! ## Fact sets -/

/-- A block that is parsed without a complaint becomes a child, and its leaves are the tokens that
have been read. -/
theorem block_read {t : ParserState} {f : Frame} {outer : List Frame} (meets : l.Meets k)
    (ends : EndsOnce t.rest) (frames : t.frames = f :: outer)
    (clean : ((block l).run t).2.Clean) :
    ∃ b, ((block l).run t).2.frames = { f with children := b :: f.children } :: outer ∧
      b.rule? = some .expressionBlock ∧ b.IsDerivation ∧
      b.leaves.map (·.token) ++ ((block l).run t).2.rest = t.rest := by
  obtain ⟨builds, -⟩ := works_block (g := .scope) meets.sound nofun t.rest t rfl
    (by simp [frames]) ends
  obtain ⟨-, yields⟩ := yields_block meets.productive 1 t rfl clean
  obtain ⟨new, built, phrase, grouped⟩ := yields ⟨f.id, f.rule, f.children, outer⟩
    ⟨[], frames, Language.nil_mem_one, by simp⟩
  obtain ⟨b, rfl, isBlock⟩ : new ∈ Grammar.node .expressionBlock := by
    simpa only [one_mul] using phrase
  obtain ⟨f', outer', trees, opened, grown, grows⟩ := builds.grown
  obtain ⟨rfl, rfl⟩ := List.cons.inj (frames.symm.trans opened)
  obtain rfl : trees = b :: f.children := by simpa using grown.symm.trans built
  obtain ⟨read, rest_eq, tokens_eq, -⟩ := grows.reads
  have leaves : b.leaves.map (·.token) = read := by
    simpa [Growth.tokens, Tree.leavesOfAll_append] using tokens_eq
  exact ⟨b, grown, isBlock, (grouped b (by simp)).isDerivation, leaves ▸ rest_eq.symm⟩

/-- A block that begins with the word, in a fact set. -/
theorem Comes.opened_block {t : ParserState} (comes : k.Comes t) (meets : l.Meets k)
    (here : t.rules.head? = some .factset) (clean : ((block l).run t).2.Clean) :
    k.Opened ((block l).run t).2 := by
  obtain ⟨f, outer, frames, rule⟩ : ∃ f outer, t.frames = f :: outer ∧ f.rule = .factset := by
    cases frames : t.frames with
    | nil => simp [ParserState.rules, frames] at here
    | cons f outer => exact ⟨f, outer, rfl, by simpa [ParserState.rules, frames] using here⟩
  have ends : EndsOnce t.rest := by
    have behind : EndsOnce ([k.word] ++ k.behind) := k.ends.append (by simpa using k.word_inside)
    exact comes.rest ▸ behind
  obtain ⟨b, frames', isBlock, derived, read⟩ := block_read meets ends frames clean
  have first : b.firstLeaf?.map (·.token) = some k.word := by
    cases fresh : b.leaves with
    | nil => exact absurd fresh derived.leaves_ne_nil
    | cons x xs =>
      rw [fresh, comes.rest, List.map_cons, List.cons_append] at read
      rw [Tree.firstLeaf?, fresh, List.head?_cons, Option.map_some, (List.cons.inj read).1]
  refine ⟨_, outer, frames', .inr (.inr ⟨congrArg some rule, b, ?_, isBlock, first⟩)⟩
  simp [Tree.children]

theorem expect_run (kk : TokenKind) (s : ParserState) :
    ((expect kk).run s).2 = if ((sees kk).run s).1 then ((sees kk).run s).2.bump
      else ((complainWanted (.token kk)).run ((sees kk).run s).2).2 := by
  change (((if ((sees kk).run s).1 then do bump; pure true else pure false : Parser Bool) >>=
    fun found => if !found then complainWanted (.token kk) >>= fun _ => pure found
      else pure found).run ((sees kk).run s).2).2 = _
  cases ((sees kk).run s).1 <;> rfl

/-- The end is not what is expected. -/
theorem missed_expect {kk : TokenKind} (unended : kk ≠ .endOfInput) (other : k.word.kind ≠ kk)
    {rules : List Rule} {s t : ParserState} (beside : k.Beside rules [] s t) :
    k.Missed ((expect kk).run s).2 := by
  have nothing : [kk].contains (kindAhead [k.last] 0) = false := by
    rw [show kindAhead [k.last] 0 = .endOfInput from k.ended]
    simpa using unended.symm
  rw [expect_run, (inquires_sees (k := k) kk).answers beside.rest, List.nil_append, nothing]
  exact missed_complainWanted _ ((inquires_sees kk).near beside fun _ => by simpa using other)

theorem appends_expecting {kk : TokenKind} (unended : kk ≠ .endOfInput) :
    Appends (do let _ ← expect kk) :=
  .andThen (.of_yields (alike_expect kk).steady fun _ => yields_expected unended)
    fun _ => .answer ()

/-- What is left of a fact set that has no `where`. -/
def factsetRest (l : Level) (closing : TokenKind) : Parser Unit := do
  let closed ← sees closing
  if !closed && (← kind) != .endOfInput then block l
  let _ ← expect closing

theorem factsetRest_run (l : Level) {closing : TokenKind} {s s' : ParserState}
    (still : ((sees closing).run s).2 = s') (nothing : ((sees closing).run s).1 = false) :
    (factsetRest l closing).run s =
      (if kindAhead s'.rest 0 != .endOfInput then block l >>= fun _ => do let _ ← expect closing
        else do let _ ← expect closing : Parser Unit).run s' := by
  subst still
  change (if !((sees closing).run s).1 && kindAhead ((sees closing).run s).2.rest 0 != .endOfInput
    then block l >>= fun _ => do let _ ← expect closing
    else do let _ ← expect closing : Parser Unit).run ((sees closing).run s).2 = _
  rw [nothing]
  rfl

/-- Before the end a fact set has no block, but before the word it has one. -/
theorem meets_factsetRest (meets : l.Meets k) {closing : TokenKind}
    (unended : closing ≠ .endOfInput) (sign : closing.isKeyword = false) :
    k.Meets (some .factset) I (factsetRest l closing) (factsetRest l closing) := by
  have other : k.word.kind ≠ closing := by
    rintro rfl
    exact absurd (k.reserved.symm.trans sign) nofun
  have reached : kindAhead [k.last] 0 = .endOfInput := k.ended
  have word : kindAhead (k.word :: k.behind) 0 = k.word.kind := rfl
  refine .except (· = []) ?_ ?_
  · rintro rules left s t here - rfl beside
    have first : ((sees closing).run s).1 = false := by
      rw [(inquires_sees (k := k) closing).answers beside.rest, List.nil_append, reached]
      simpa using unended.symm
    have second : ((sees closing).run t).1 = false := by
      rw [(inquires_sees (k := k) closing).answers beside.rest', List.nil_append, word]
      simpa using other
    have asked := (inquires_sees closing).near beside fun _ => by simpa using other
    have still := (inquires_sees (k := k) closing).still t beside.unprobed
    rw [factsetRest_run l rfl first, factsetRest_run l still second, asked.rest, asked.rest',
      List.nil_append, List.nil_append, reached, word, if_neg (by simp),
      if_pos (by simpa using k.word_inside)]
    have missed := missed_expect unended other asked
    have appends := appends_expecting unended
    by_cases clean : ((block l).run t).2.Clean
    · have opened := beside.comes.opened_block meets (beside.opened' ▸ here _ rfl) clean
      exact opened.onwards appends (.inr (.inl missed))
    · refine .inl (settled_of_not_clean (fun after => clean ?_) (.inr (.inl missed)))
      exact appends.steady.clean after
  · exact .before (inquires_sees closing) (fun _ => And.right) (fun _ _ => rfl) fun closed =>
      .before inquires_kind (fun _ known => known.1.2) (fun _ _ => rfl) fun a =>
        .iteThen (meets_block meets) (meets_expecting (by simpa using unended.symm))

theorem meets_factset (meets : l.Meets k) :
    k.Meets inside (· ≠ []) (factset l) (factset l) := by
  refine .within (.before inquires_kind (fun _ => id) (fun _ _ => rfl) fun a => ?_)
  refine .bumpThen (J := Anywhere) ?_ fun _ known => ⟨known.1, trivial⟩
  refine .andThen (.repeated (.step (inquires_seesAny _) (by decide) .leafOf)) fun _ => ?_
  refine .andThen (.repeated (.step (inquires_sees _) (by decide) (begins_aspectFilter meets)))
    fun _ => ?_
  by_cases bracket : (a == .punctuator .lbracket) = true
  · rw [if_pos bracket]
    exact .ifSeen (inquires_sees _) (by decide)
      ((begins_whereClause meets).andThen fun _ => meets_expecting (by decide))
      (meets_factsetRest meets (by decide) rfl)
  · rw [if_neg bracket]
    exact .ifSeen (inquires_sees _) (by decide)
      ((begins_whereClause meets).andThen fun _ => meets_expecting (by decide))
      (meets_factsetRest meets (by decide) rfl)

/-! ## Navigations -/

/-- By which two kinds an arcrole is known. -/
def arcroleAhead (first second : TokenKind) : Bool :=
  match first with
  | .identifier => second == .identifier
  | .url | .stringOpen => true
  | _ => false

theorem inquires_seesArcrole :
    k.Inquires seesArcrole [] fun ts => arcroleAhead (kindAhead ts 0) (kindAhead ts 1) := by
  refine inquires_kind.andThen (m := []) (ψ := fun first ts => arcroleAhead first (kindAhead ts 1))
    fun first => ?_
  split
  case h_1 =>
    exact (inquires_kindAt 1).andThen fun second => inquires_answer (second == .identifier)
  case h_2 | h_3 => exact inquires_answer true
  case h_4 other no_url no_string =>
    refine (inquires_answer false).congr fun ts => ?_
    unfold arcroleAhead
    split
    · exact absurd rfl other
    · exact absurd rfl no_url
    · exact absurd rfl no_string
    · rfl

theorem meets_arcrole (meets : l.Meets k) : k.Meets inside (· ≠ []) (arcrole l) (arcrole l) :=
  .within <| .before inquires_kind (fun _ => id) (fun _ _ => rfl) fun _ =>
    .ite ((begins_stringLiteral meets).meets.inner.weaken fun _ => And.left)
      (.bump fun _ => And.left)

theorem meets_predict (noted : List Rule) : k.Meets inside I (predict noted) (predict noted) :=
  .ask (inquires_predict noted) fun _ => rfl

theorem meets_direction : k.Meets inside I direction direction :=
  .within (.andThen (meets_predict _) fun _ => meets_require _ (by decide))

theorem begins_includeClause : k.Begins includeClause includeClause :=
  .node (meets_expecting (by decide))

theorem begins_wordClause (meets : l.Meets k) : k.Begins (wordClause l) (wordClause l) :=
  .node meets.expression.inner

theorem begins_stopClause (meets : l.Meets k) : k.Begins (stopClause l) (stopClause l) :=
  .node (.andThen (meets_expect (by decide)) fun _ => .ite meets.expression.inner (.answer ()))

/-- Whether an identifier spelled like one of the words is ahead. -/
def wordAhead (words : List String) (ts : List Token) (n : Nat) : Bool :=
  (ts[n]?).any fun t => t.kind == .identifier && words.contains t.text

theorem inquires_seesAnyWord (words : List String) :
    k.Inquires (seesAnyWord words) [] fun ts => wordAhead words ts 0 := by
  obtain ⟨w, reserved⟩ := k.word_isKeyword
  induction words with
  | nil => exact (inquires_answer false).congr fun ts => by cases ts[0]? <;> simp [wordAhead]
  | cons word words ih =>
    have asked : k.Inquires (seesWord word) [] fun ts =>
        (ts[0]?).any fun t => t.kind == .identifier && t.text == word :=
      ((inquires_sees .identifier).andThen fun _ => inquires_isWordAt 0 word).weaken
        (by simp [reserved])
    refine (asked.andThen (m := []) (ψ := fun first ts => first || wordAhead words ts 0)
      fun first => ?_).congr fun ts => ?_
    · cases first with
      | true => exact (inquires_answer true).congr fun _ => rfl
      | false => exact ih.congr fun _ => rfl
    · cases here : ts[0]? with
      | none => simp [wordAhead, here]
      | some t =>
        simp only [wordAhead, here, Option.any_some, List.contains_cons, Bool.and_or_distrib_left]

/-- Neither the end nor the word is spelled like one. -/
theorem wordAhead_same (words : List String) {n : Nat} {left : List Token}
    (near : n ≤ left.length) :
    wordAhead words (left ++ [k.last]) n = wordAhead words (left ++ k.word :: k.behind) n := by
  obtain ⟨w, reserved⟩ := k.word_isKeyword
  rcases Nat.lt_or_eq_of_le near with before | rfl
  · simp only [wordAhead, List.getElem?_append_left before]
  · simp only [wordAhead, List.getElem?_append_right (Nat.le_refl _), Nat.sub_self,
      List.getElem?_cons_zero, Option.any_some, k.ended, reserved]
    rfl

theorem lt_length_of_wordAhead {words : List String} {n : Nat} {left : List Token}
    (spotted : wordAhead words (left ++ [k.last]) n = true) : n < left.length := by
  by_contra behind
  have nothing : wordAhead words (left ++ [k.last]) n = false := by
    rw [wordAhead, List.getElem?_append_right (Nat.le_of_not_lt behind)]
    cases n - left.length <;> simp [k.ended]
  exact absurd (spotted.symm.trans nothing) nofun

theorem meets_clause (meets : l.Meets k) : k.Meets inside I (clause l) (clause l) := by
  have worded := (begins_wordClause meets).andThen fun _ => .answer true
  have where_ := (begins_whereClause meets).andThen fun _ => .answer true
  have stopped := (begins_stopClause meets).andThen fun _ => .answer true
  refine .ifSeen (inquires_seesAny _) (by decide) worded <|
    .ifSeen (inquires_sees _) (by decide) stopped <|
    .deciding (inquires_seesAnyWord _) (fun left => wordAhead_same _ (Nat.zero_le _)) fun a => ?_
  cases a with
  | false => exact .ifSeen (inquires_sees _) (by decide) where_ (.answer false)
  | true =>
    refine worded.meets.inner.weaken fun left known => ?_
    exact List.ne_nil_of_length_pos (lt_length_of_wordAhead known.2)

theorem meets_returnOption : k.Meets inside I returnOption returnOption :=
  .within (.andThen (meets_predict _) fun _ => meets_require _ (by decide))

/-- The words on the form of a result that are ahead: one of two, and one of the others. -/
def formAhead (ts : List Token) : Bool × Bool :=
  (wordAhead ["by"] ts 0 && wordAhead ["network"] ts 1,
    wordAhead formWords ts 0 &&
      (kindAhead ts 1 == .identifier || kindAhead ts 1 == .punctuator .lparen))

/-- The questions for the words on the form of a result. -/
def seesForm : Parser (Bool × Bool) := do
  let byAhead ← isWordAt 0 "by"
  let networkAhead ← isWordAt 1 "network"
  let form ← (return formWords.any ((← get).isWordAt 0) : Parser Bool)
  let following ← kindAt 1
  return (byAhead && networkAhead, form &&
    (following == .identifier || following == .punctuator .lparen))

theorem inquires_seesForm : k.Inquires seesForm [] formAhead := by
  have asked (n : Nat) (word : String) :
      k.Inquires (isWordAt n word) [] fun ts => wordAhead [word] ts n :=
    (inquires_isWordAt n word).congr fun ts => by simp [wordAhead, Bool.beq_eq_decide_eq]
  have forms : k.Inquires (return formWords.any ((← get).isWordAt 0) : Parser Bool) []
      fun ts => wordAhead formWords ts 0 :=
    { steady := fun _ _ _ => id
      stays := fun s => by
        refine ⟨⟨rfl, rfl, rfl, rfl, rfl⟩, ?_⟩
        change formWords.any (s.isWordAt 0) = wordAhead formWords s.rest 0
        cases here : s.rest[0]? <;>
          simp [wordAhead, ParserState.isWordAt, here, formWords, Bool.beq_eq_decide_eq,
            Bool.and_or_distrib_left]
      still := fun _ _ => rfl
      near := fun beside _ => beside
      told := fun _ member => absurd member List.not_mem_nil }
  exact (asked 0 "by").andThen fun byAhead => (asked 1 "network").andThen fun networkAhead =>
    forms.andThen fun form => (inquires_kindAt 1).andThen fun following =>
    inquires_answer (byAhead && networkAhead, form &&
      (following == .identifier || following == .punctuator .lparen))

theorem formAhead_same (left : List Token) :
    formAhead (left ++ [k.last]) = formAhead (left ++ k.word :: k.behind) := by
  obtain ⟨w, reserved⟩ := k.word_isKeyword
  have first (words : List String) :
      wordAhead words (left ++ [k.last]) 0 = wordAhead words (left ++ k.word :: k.behind) 0 :=
    wordAhead_same words (Nat.zero_le _)
  match left with
  | [] =>
    have nothing (words : List String) : wordAhead words [k.last] 0 = false := by
      simp [wordAhead, k.ended]
    have nothing' (words : List String) : wordAhead words (k.word :: k.behind) 0 = false :=
      (first words).symm.trans (nothing words)
    simp only [formAhead, List.nil_append, nothing, nothing', Bool.false_and]
  | [x] =>
    have second : wordAhead ["network"] ([x] ++ [k.last]) 1 =
        wordAhead ["network"] ([x] ++ k.word :: k.behind) 1 := wordAhead_same _ (Nat.le_refl _)
    have ended : kindAhead ([x] ++ [k.last]) 1 = .endOfInput := k.ended
    have worded : kindAhead ([x] ++ k.word :: k.behind) 1 = .keyword w := reserved
    simp only [formAhead, first, second, ended, worded]
    rfl
  | _ :: _ :: _ => rfl

theorem meets_formModifier : k.Meets none Anywhere formModifier formModifier := by
  obtain ⟨w, reserved⟩ := k.word_isKeyword
  let read (form : Bool × Bool) : Parser Bool :=
    if form.1 then bump >>= fun _ => bump >>= fun _ => pure true
    else if form.2 then bump >>= fun _ => pure true
    else pure false
  have meets : k.Meets none Anywhere (seesForm >>= read) (seesForm >>= read) := by
    refine .deciding inquires_seesForm formAhead_same fun form => ?_
    match form with
    | (false, false) => exact .answer false
    | (false, true) =>
      refine .bumpThen (J := Anywhere) (.answer true) fun left known => ⟨?_, trivial⟩
      have spotted := (Bool.and_eq_true_iff.mp (congrArg Prod.snd known.2)).1
      exact List.ne_nil_of_length_pos (lt_length_of_wordAhead spotted)
    | (true, _) =>
      refine .bumpThen (J := (· ≠ [])) (.bumpThen (J := Anywhere) (.answer true) fun left ahead =>
        ⟨ahead, trivial⟩) fun left known => ?_
      have spotted := (Bool.and_eq_true_iff.mp (congrArg Prod.fst known.2)).2
      have longer := lt_length_of_wordAhead spotted
      match left with
      | [] | [_] => simp at longer
      | _ :: _ :: _ => simp
  exact meets

theorem begins_returnsClause : k.Begins returnsClause returnsClause := by
  have shape {I : List Token → Prop} : k.Meets (some .returnsClause) I
      (do if ← eat (.keyword .asKw) then require .identifier .resultShape)
      (do if ← eat (.keyword .asKw) then require .identifier .resultShape) :=
    .andThen (meets_eat (by decide)) fun _ => .ite (meets_require _ (by decide)) (.answer ())
  refine .node (.andThen (.repeated meets_formModifier) fun _ =>
    .andThen (meets_eat (by decide)) fun _ => .ite ?_ ?_)
  · exact .andThen (meets_commaSeparated meets_returnOption) fun _ =>
      .andThen (meets_expect (by decide)) fun _ => shape
  · exact .andThen meets_returnOption fun _ => shape

theorem begins_navigation (meets : l.Meets k) : k.Begins (navigation l) (navigation l) := by
  refine .node (.andThen (meets_eat (by decide)) fun _ => .andThen (meets_predict _) fun _ =>
    .deciding inquires_seesArcrole (same_of_head arcroleAhead (fun _ => rfl) (fun _ => rfl)
      (fun _ _ => rfl) fun a w => ?_) fun a => ?_)
  · cases a <;> rfl
  have rest {I : List Token → Prop} : k.Meets (some .navigation) I (do
      direction
      let _ ← eat .number
      if ← sees (.keyword .includeKw) then includeClause
      repeatWhile (clause l)
      if ← sees (.keyword .returnsKw) then returnsClause) (do
      direction
      let _ ← eat .number
      if ← sees (.keyword .includeKw) then includeClause
      repeatWhile (clause l)
      if ← sees (.keyword .returnsKw) then returnsClause) :=
    .andThen meets_direction fun _ => .andThen (meets_eat (by decide)) fun _ =>
      .ifSeenThen (inquires_sees _) (by decide) begins_includeClause <|
      .andThen (.repeated (meets_clause meets)) fun _ =>
      .ifSeen (inquires_sees _) (by decide) begins_returnsClause (.answer ())
  cases a with
  | false => exact rest
  | true =>
    refine .andThen ((meets_arcrole meets).weaken fun left known => ?_) fun _ => rest
    rintro rfl
    have nothing : arcroleAhead (kindAhead [k.last] 0) (kindAhead [k.last] 1) = false := by
      rw [show kindAhead [k.last] 0 = .endOfInput from k.ended]
      rfl
    exact absurd (nothing.symm.trans known.2) nofun

/-! ## Filters -/

theorem begins_filterReturns (meets : l.Meets k) : k.Begins (filterReturns l) (filterReturns l) :=
  .node meets.expression.inner

theorem begins_filter (meets : l.Meets k) : k.Begins (filter l) (filter l) :=
  .node <| .andThen (meets.expression.weaken fun _ _ => trivial) fun _ =>
    .ifSeenThen (inquires_sees _) (by decide) (begins_whereClause meets) <|
    .ifSeen (inquires_sees _) (by decide) (begins_filterReturns meets) (.answer ())

end Fork

end XuleLang
