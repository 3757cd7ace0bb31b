import XuleLang.Proofs.Parser.Foresight.Block

/-!
Questions for operators at a fork.

A reserved word may be one of the two of a `not in`. Whoever looks for an operator looks two tokens
ahead, so a `not` before the caret, or the word at it, is an operator for the run that sees an `in`
behind and none for the other (`Fork.Joined`). There the words are read without having been asked
for; everywhere else the runs see the same operator (`Fork.OperatorLeft`) and stay side by side.
-/

namespace XuleLang

open ParserState (Kept Told Agrees)
open XuleLang.Parser

namespace Fork

variable {k : Fork} {l : Level} {inside : Option Rule} {r : Rule} {I : List Token → Prop}
  {ks : List TokenKind} {rules : List Rule} {left : List Token} {s t : ParserState}

/-- Whether a `not` with an `in` behind it is ahead. -/
def notInAhead (ts : List Token) : Bool :=
  kindAhead ts 0 == .keyword .notKw && kindAhead ts 1 == .keyword .inKw

/-- Whether an operator of one of the kinds is ahead, or `not in`. -/
def seesOperator (ks : List TokenKind) : Parser Bool := do
  let notIn ← seesNotIn
  let operator ← seesAny ks
  return operator || notIn

variable (k) in
/-- The word is no `not` without anything before it. -/
def Unnegated (left : List Token) : Prop := left = [] → k.word.kind ≠ .keyword .notKw

theorem inquires_seesNotIn : k.Inquires seesNotIn [] notInAhead :=
  inquires_kind.andThen fun first => (inquires_kindAt 1).andThen fun second =>
    inquires_answer (first == .keyword .notKw && second == .keyword .inKw)

theorem inquires_seesOperator (ks : List TokenKind) :
    k.Inquires (seesOperator ks) ks fun ts => ks.contains (kindAhead ts 0) || notInAhead ts := by
  refine (inquires_seesNotIn.andThen fun notIn => (inquires_seesAny ks).andThen fun operator =>
    inquires_answer (operator || notIn)).weaken ?_
  simp

variable (k) in
/-- The word is one of the two of a `not in`, of which the other parser sees nothing. -/
def Joined (left : List Token) : Prop :=
  notInAhead (left ++ k.word :: k.behind) = true ∧ notInAhead (left ++ [k.last]) = false

theorem not_joined (apart : ¬ k.Joined left) :
    notInAhead (left ++ [k.last]) = notInAhead (left ++ k.word :: k.behind) := by
  match left with
  | [] =>
    have ended : notInAhead ([] ++ [k.last]) = false := by
      simp [notInAhead, kindAhead, k.ended]
    rw [ended]
    exact (Bool.eq_false_iff.mpr fun seen => apart ⟨seen, ended⟩).symm
  | [x] =>
    have ended : notInAhead ([x] ++ [k.last]) = false := by
      simp [notInAhead, kindAhead, k.ended]
    rw [ended]
    exact (Bool.eq_false_iff.mpr fun seen => apart ⟨seen, ended⟩).symm
  | _ :: _ :: _ => rfl

/-- The word stands at the caret with an `in` behind it, or is an `in` behind a last `not`. -/
theorem Joined.cases (joined : k.Joined left) :
    left = [] ∧ k.word.kind = .keyword .notKw ∧ kindAhead k.behind 0 = .keyword .inKw ∨
      ∃ x, left = [x] ∧ x.kind = .keyword .notKw ∧ k.word.kind = .keyword .inKw := by
  obtain ⟨seen, unseen⟩ := joined
  match left with
  | [] =>
    obtain ⟨first, second⟩ := Bool.and_eq_true_iff.mp seen
    exact .inl ⟨rfl, beq_iff_eq.mp first, beq_iff_eq.mp second⟩
  | [x] =>
    obtain ⟨first, second⟩ := Bool.and_eq_true_iff.mp seen
    exact .inr ⟨x, rfl, beq_iff_eq.mp first, beq_iff_eq.mp second⟩
  | _ :: _ :: _ => exact absurd (seen.symm.trans unseen) nofun

theorem bump_of_unprobed {x : Token} {xs : List Token} {f : Frame} {outer : List Frame}
    (here : t.rest = x :: xs) (unended : x.kind ≠ .endOfInput) (unprobed : t.probe = none)
    (frames : t.frames = f :: outer) :
    t.bump.rest = xs ∧ t.bump.errors = t.errors ∧ t.bump.probe = none ∧
      t.bump.frames = { f with children := .leaf ⟨t.nextId, x⟩ :: f.children } :: outer := by
  simp [ParserState.bump, here, ParserState.attach_of_cons frames, ParserState.settle, unprobed,
    unended]

/-- The two words of the operator, and what stands behind them. -/
theorem Joined.words (joined : k.Joined left) :
    ∃ x y rest, left ++ k.word :: k.behind = x :: y :: rest ∧ x.kind = .keyword .notKw ∧
      y.kind = .keyword .inKw ∧ (x = k.word ∨ y = k.word) ∧
      (k.behind.length = 1 → rest = k.behind) := by
  rcases joined.cases with ⟨rfl, first, second⟩ | ⟨x, rfl, first, second⟩
  · cases behind : k.behind with
    | nil => simp [behind, kindAhead] at second
    | cons y rest =>
      refine ⟨k.word, y, rest, rfl, first, by simpa [behind, kindAhead] using second, .inl rfl,
        fun single => ?_⟩
      -- A single token behind the word would be the end.
      obtain ⟨front, last, behind_eq, last_ends, -⟩ := k.ends
      rw [behind] at behind_eq second
      cases front with
      | nil =>
        obtain ⟨rfl, -⟩ := List.cons.inj behind_eq
        cases second.symm.trans last_ends
      | cons z front =>
        have longer := congrArg List.length behind_eq
        simp only [List.length_cons, List.length_append, List.length_nil] at longer single
        omega
  · exact ⟨x, k.word, k.behind, rfl, first, second, .inr rfl, fun _ => rfl⟩

theorem bumpOperator_run (s : ParserState) (answer : (seesNotIn.run s).1 = notInAhead s.rest) :
    (bumpOperator.run s).2 = if notInAhead s.rest then s.bump.bump else s.bump := by
  change ((if (seesNotIn.run s).1 then bump >>= fun _ => bump else bump : Parser Unit).run s).2 = _
  rw [answer]
  split <;> rfl

/-- Both words of the operator become leaves. -/
theorem Joined.bumpOperator (joined : k.Joined left) (beside : k.Beside rules left s t)
    (opened : rules ≠ []) :
    k.Opened (bumpOperator.run t).2 ∧ k.Took (bumpOperator.run t).2 := by
  obtain ⟨f, outer, frames⟩ : ∃ f outer, t.frames = f :: outer := by
    apply List.exists_cons_of_ne_nil
    intro nothing
    exact opened (by rw [← beside.opened', ParserState.rules, nothing, List.map_nil])
  have run : (Parser.bumpOperator.run t).2 = t.bump.bump := by
    rw [bumpOperator_run t ((inquires_seesNotIn (k := k)).answers rfl), beside.rest', joined.1]
    rfl
  obtain ⟨x, y, rest, two, first, second, member, took⟩ := joined.words
  have here := beside.rest'
  rw [two] at here
  obtain ⟨rest₁, errors₁, unprobed₁, frames₁⟩ :=
    bump_of_unprobed here (by simp [first]) beside.unprobed frames
  obtain ⟨rest₂, errors₂, -, frames₂⟩ :=
    bump_of_unprobed rest₁ (by simp [second]) unprobed₁ frames₁
  rw [run]
  constructor
  · have pair : [.leaf ⟨t.nextId, x⟩, .leaf ⟨t.bump.nextId, y⟩] <:+:
        (Tree.leaf ⟨t.bump.nextId, y⟩ :: .leaf ⟨t.nextId, x⟩ :: f.children).reverse :=
      ⟨f.children.reverse, [], by simp⟩
    refine ⟨_, outer, frames₂, .inr (.inl ⟨_, Tree.mem_zip_tail.mpr pair, ?_, ?_, ?_⟩)⟩
    · exact congrArg some first
    · exact congrArg some second
    · exact member.imp (congrArg some) (congrArg some)
  · intro single
    refine ⟨rest₂.trans (took single), ?_⟩
    rw [errors₂, errors₁, beside.silent']
    intro e nothing
    cases nothing

variable (k ks) in
/-- An operator is ahead of both parsers, and neither sees more of it than the other. -/
def OperatorLeft (left : List Token) : Prop :=
  left ≠ [] ∧ ¬ k.Joined left ∧
    (ks.contains (kindAhead (left ++ [k.last]) 0) || notInAhead (left ++ [k.last])) = true

/-- The last token of the operator is read behind everything before it. -/
theorem OperatorLeft.bumpOperator (operator : k.OperatorLeft ks left)
    (beside : k.Beside rules left s t) :
    ∃ op rest u v, k.Beside rules (op :: rest) u v ∧ op.kind ∈ .keyword .inKw :: ks ∧
      (bumpOperator.run s).2 = u.bump ∧ (bumpOperator.run t).2 = v.bump := by
  obtain ⟨some_left, apart, spotted⟩ := operator
  have same := not_joined apart
  rw [bumpOperator_run s ((inquires_seesNotIn (k := k)).answers rfl),
    bumpOperator_run t ((inquires_seesNotIn (k := k)).answers rfl), beside.rest, beside.rest',
    ← same]
  cases two : notInAhead (left ++ [k.last]) with
  | false =>
    cases left with
    | nil => exact absurd rfl some_left
    | cons x xs =>
      rw [two, Bool.or_false] at spotted
      exact ⟨x, xs, s, t, beside, .tail _ (List.contains_iff_mem.mp spotted), rfl, rfl⟩
  | true =>
    have second : kindAhead (left ++ [k.last]) 1 = .keyword .inKw :=
      beq_iff_eq.mp (Bool.and_eq_true_iff.mp two).2
    match left with
    | [] => exact absurd rfl some_left
    | [x] => exact absurd (second.symm.trans k.ended) nofun
    | x :: y :: ys =>
      have in_word : y.kind = .keyword .inKw := second
      exact ⟨y, ys, s.bump, t.bump, beside.bump, in_word ▸ .head _, rfl, rfl⟩

theorem meets_bumpOperator :
    k.Meets inside (k.OperatorLeft ks) Parser.bumpOperator Parser.bumpOperator where
  steady := alike_bumpOperator.steady
  steady' := alike_bumpOperator.steady
  run _ operator beside := by
    obtain ⟨op, rest, u, v, near, -, read, read'⟩ := operator.bumpOperator beside
    rw [read, read']
    exact .inl ⟨rfl, rest, near.bump⟩

theorem takes_bumpOperator (single : k.word.kind ≠ .keyword .notKw) :
    k.Takes Parser.bumpOperator := by
  intro t comes
  have one : notInAhead t.rest = false := by
    simp [notInAhead, kindAhead, comes.rest, single]
  have run := bumpOperator_run t ((inquires_seesNotIn (k := k)).answers rfl)
  rw [one] at run
  rw [run]
  exact takes_bump t comes

/-- What follows is appended to the node in which both words are leaves. -/
theorem Joined.opens {rest : Parser β} (joined : k.Joined left) (beside : k.Beside rules left s t)
    (opened : rules ≠ []) (appends : Appends rest) (s' : ParserState) :
    k.Apart (some r) s' ((Parser.bumpOperator >>= fun _ => rest).run t).2 := by
  obtain ⟨reads, took⟩ := joined.bumpOperator beside opened
  have run : ((Parser.bumpOperator >>= fun _ => rest).run t).2 =
      (rest.run (Parser.bumpOperator.run t).2).2 := rfl
  rw [run]
  exact reads.onwards appends (.inr (.inr (.inl (appends.steady _ k.kept_took _ took))))

/-- A question for an operator. Where the word is one of the two of a `not in`, it is looked at by
itself. -/
theorem Meets.operator {f g : Bool → Parser β} (unended : .endOfInput ∉ ks)
    (joined : ∀ {rules left s t}, (∀ r ∈ inside, rules.head? = some r) → k.Joined left →
      k.Beside rules left s t → ∀ s', k.Apart inside s' ((g true).run t).2)
    (takes : k.word.kind ∈ ks → k.Takes (g true))
    (yes : k.Meets inside (k.OperatorLeft ks) (f true) (g true))
    (no : k.Meets inside (fun left => left = [] → k.word.kind ∉ ks) (f false) (g false)) :
    k.Meets inside I (seesOperator ks >>= f) (seesOperator ks >>= g) := by
  refine .except k.Joined ?_ ?_
  · intro rules left s t here _ both beside
    have run : (seesOperator ks >>= g).run t =
        (g ((seesOperator ks).run t).1).run ((seesOperator ks).run t).2 := rfl
    rw [run, (inquires_seesOperator (k := k) ks).answers beside.rest',
      (inquires_seesOperator (k := k) ks).still t beside.unprobed, both.1, Bool.or_true]
    exact joined here both beside _
  · refine .asking (inquires_seesOperator ks) ?_ ?_ fun a => ?_
    · rintro left ⟨-, apart⟩ other
      rw [not_joined apart]
      cases left with
      | nil =>
        have first : ks.contains k.last.kind = false := by simpa [k.ended] using unended
        have second : ks.contains k.word.kind = false := by simpa using other rfl
        exact congrArg (· || _) (first.trans second.symm)
      | cons x xs => rfl
    · intro _ member
      have spotted : ks.contains (kindAhead (k.word :: k.behind) 0) = true := by
        simpa [kindAhead] using member
      rw [spotted, Bool.true_or]
      exact takes member
    · cases a with
      | false =>
        apply no.weaken
        rintro left ⟨-, -, -, other⟩
        exact other
      | true =>
        apply yes.weaken
        rintro left ⟨⟨-, apart⟩, spotted, -⟩
        refine ⟨?_, apart, spotted⟩
        rintro rfl
        rw [List.nil_append] at spotted
        have nothing : (ks.contains (kindAhead [k.last] 0) || notInAhead [k.last]) = false := by
          simpa [kindAhead, notInAhead, k.ended] using unended
        cases spotted.symm.trans nothing

end Fork

end XuleLang
