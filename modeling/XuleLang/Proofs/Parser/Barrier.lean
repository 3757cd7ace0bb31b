import XuleLang.Parser.Declaration
import XuleLang.Proofs.Parser.Operation
import XuleLang.Proofs.Parser.Conduct

/-!
Parsers halt before a word that begins a declaration.

The word is a barrier: whatever stands before it, a parser that is run before it does not read it.
It begins no operand, and it is no operator, sign or bracket, so every parser that comes to it has
nothing to read and complains. Reserved words may stand for names, but a name is read only behind a
point, a colon or an at sign, or behind `assert` or `output`; with none of these right before the
word it is not read as a name either.

What is left is the limit of nesting, at which a token is skipped that nothing is known of.
`watchedLevel` nests like `level`, but gives up where the limit is reached too early: with more
than so many tokens ahead.
-/

namespace XuleLang

open XuleLang.Parser (declarationStarts)

/-- Tokens behind which any reserved word is read as a name. -/
def Parser.joiners : List TokenKind :=
  [.punctuator .dot, .punctuator .colon, .punctuator .atSign, .keyword .assertKw,
   .keyword .outputKw]

/-- A word that begins a declaration, with the tokens before it and behind it. -/
structure Barrier where
  front : List Token
  word : Token
  rest : List Token
  declares : word.kind ∈ declarationStarts
  unended : ∀ t ∈ front, t.kind ≠ .endOfInput
  unjoined : ∀ t ∈ front.getLast?, t.kind ∉ Parser.joiners

namespace Barrier

variable (b : Barrier) {b : Barrier} {ts : List Token}

/-- The word and what stands behind it. -/
def behind (b : Barrier) : List Token := b.word :: b.rest

/-- The word has not been read. -/
def Ahead (b : Barrier) (ts : List Token) : Prop :=
  ∃ left, left <:+ b.front ∧ ts = left ++ b.behind

/-- A token before the word has not been read. -/
def Before (b : Barrier) (ts : List Token) : Prop :=
  ∃ t left, t :: left <:+ b.front ∧ ts = t :: left ++ b.behind

theorem Ahead.eq_or_before (ahead : b.Ahead ts) : ts = b.behind ∨ b.Before ts := by
  obtain ⟨left, suffix, rfl⟩ := ahead
  cases left with
  | nil => exact .inl rfl
  | cons t left => exact .inr ⟨t, left, suffix, rfl⟩

theorem kindAhead_behind : kindAhead b.behind 0 ∈ declarationStarts := b.declares

/-- What begins no declaration stands before the word. -/
theorem Ahead.before (ahead : b.Ahead ts) (other : kindAhead ts 0 ∉ declarationStarts) :
    b.Before ts := by
  rcases ahead.eq_or_before with rfl | before
  · exact absurd b.kindAhead_behind other
  · exact before

theorem Before.kindAhead_ne (before : b.Before ts) : kindAhead ts 0 ≠ .endOfInput := by
  obtain ⟨t, left, suffix, rfl⟩ := before
  exact b.unended t (suffix.mem (.head _))

theorem Before.tail (before : b.Before ts) : b.Ahead ts.tail := by
  obtain ⟨t, left, suffix, rfl⟩ := before
  exact ⟨left, (List.suffix_cons t left).trans suffix, rfl⟩

/-- Behind a token that calls for a name there still is one before the word. -/
theorem Before.tail_before (before : b.Before ts) (joins : kindAhead ts 0 ∈ Parser.joiners) :
    b.Before ts.tail := by
  obtain ⟨t, left, suffix, rfl⟩ := before
  cases left with
  | nil =>
    obtain ⟨front, front_eq⟩ := suffix
    exact absurd joins (b.unjoined t (by simp [← front_eq]))
  | cons u left => exact ⟨u, left, (List.suffix_cons t _).trans suffix, rfl⟩

theorem Before.length_lt (before : b.Before ts) : b.behind.length < ts.length := by
  obtain ⟨t, left, -, rfl⟩ := before
  simp only [List.cons_append, List.length_cons, List.length_append]
  omega

end Barrier

namespace Parser

/-- Run before the word, the parser halts before it, and its answer and the tokens then ahead
satisfy `Q`. -/
def Halts (b : Barrier) (ts : List Token) (p : Parser α) (Q : α → List Token → Prop) : Prop :=
  b.Ahead ts → ∀ s : ParserState, s.rest = ts →
    b.Ahead (p.run s).2.rest ∧ Q (p.run s).1 (p.run s).2.rest

/-- The parser may be run wherever the word is ahead. -/
def Heeds (b : Barrier) (p : Parser α) : Prop := ∀ ts, Halts b ts p fun _ _ => True

/-- The parser may be run where a token before the word is ahead. -/
def HeedsBefore (b : Barrier) (p : Parser α) : Prop :=
  ∀ ts, b.Before ts → Halts b ts p fun _ _ => True

/-- The parser stays, and says yes only where a token is ahead that begins no declaration. -/
abbrev Passes (p : Parser Bool) : Prop := Finds (· ∉ declarationStarts) p

variable {α β : Type} {b : Barrier} {ts us : List Token} {p : Parser α} {f : α → Parser β}
  {r : Rule}

/-! ## Parsers one after the other -/

section Composition

variable {Q : α → List Token → Prop} {R : β → List Token → Prop}

namespace Halts

theorem answer {a : α} (done : Q a ts) : Halts b ts (pure a) Q := by
  rintro ahead s rfl
  exact ⟨ahead, done⟩

theorem andThen (first : Halts b ts p Q) (next : ∀ a us, Q a us → Halts b us (f a) R) :
    Halts b ts (p >>= f) R := by
  rintro ahead s rfl
  obtain ⟨between, done⟩ := first ahead s rfl
  exact next _ _ done between _ rfl

theorem weaken {Q' : α → List Token → Prop} (halts : Halts b ts p Q)
    (weaker : ∀ a us, Q a us → Q' a us) : Halts b ts p Q' :=
  fun ahead s here => (halts ahead s here).imp_right (weaker _ _)

/-- After a parser that stays the same tokens are ahead. -/
theorem after (stays : Stays p Q) (next : ∀ a, Q a ts → Halts b ts (f a) R) :
    Halts b ts (p >>= f) R := by
  rintro ahead s rfl
  obtain ⟨agrees, fits⟩ := stays s
  exact next _ fits ahead _ agrees.rest

/-- That the word is ahead may be used. -/
theorem knowing (halts : b.Ahead ts → Halts b ts p Q) : Halts b ts p Q :=
  fun ahead => halts ahead ahead

/-- A token before the word is ahead where one has been found that begins no declaration. -/
theorem asking {ask : Parser Bool} {f : Bool → Parser β} (passes : Passes ask)
    (next : ∀ found, (found = true → b.Before ts) → Halts b ts (f found) R) :
    Halts b ts (ask >>= f) R :=
  .after passes fun found other => .knowing fun ahead =>
    next found fun yes => ahead.before (other yes)

theorem within {body : Parser Unit} {Q : Unit → List Token → Prop} (halts : Halts b ts body Q) :
    Halts b ts (within r body) Q := by
  rintro ahead s rfl
  have inside := halts ahead (s.start r) (s.start_agrees r).rest
  rwa [← ParserState.finish_rest] at inside

theorem wrapping {body : Parser Unit} {Q : Unit → List Token → Prop} (halts : Halts b ts body Q) :
    Halts b ts (wrapping r body) Q := by
  rintro ahead s rfl
  obtain ⟨u, wrapped, same, -⟩ := s.wrap_eq_note r
  have rest : (s.wrap r).rest = s.rest := by rw [wrapped, (u.note_agrees [] []).rest, same.rest]
  have inside := halts ahead (s.wrap r) rest
  rwa [← ParserState.finish_rest] at inside

theorem overrun {Q : Unit → List Token → Prop} (done : Q () ts) : Halts b ts overrun Q := by
  rintro ahead s rfl
  exact ⟨ahead, done⟩

theorem bump (before : b.Before ts) : Halts b ts bump fun _ us => us = ts.tail := by
  rintro - s rfl
  obtain ⟨t, rest, here, inside⟩ := exists_cons_of_kindAhead before.kindAhead_ne
  have read := (ParserState.bump_of_cons here).rest
  rw [if_neg inside] at read
  have run : ((Parser.bump).run s).2.rest = s.rest.tail := by rw [here]; exact read
  exact ⟨run ▸ before.tail, run⟩

/-- What every step keeps, a repetition keeps. -/
theorem repeated {step : Parser Bool} {I : List Token → Prop}
    (steps : ∀ us, I us → Halts b us step fun _ => I) (start : I ts) :
    Halts b ts (repeatWhile step) fun _ => I := by
  have bounded (n : Nat) : ∀ us, I us → Halts b us (repeatUpTo n step) fun _ => I := by
    induction n with
    | zero => exact fun us holds => .overrun holds
    | succ n ih =>
      refine fun us holds => (steps us holds).andThen fun yes vs kept => ?_
      cases yes with
      | true => exact ih vs kept
      | false => exact .answer kept
  rintro ahead s rfl
  exact bounded _ _ start ahead s rfl

end Halts

namespace Heeds

theorem answer (a : α) : Heeds b (pure a : Parser α) := fun _ => .answer trivial

theorem overrun : Heeds b overrun := fun _ => .overrun trivial

theorem andThen (first : Heeds b p) (next : ∀ a, Heeds b (f a)) : Heeds b (p >>= f) :=
  fun ts => (first ts).andThen fun a us _ => next a us

theorem after (stays : Stays p Q) (next : ∀ a, Heeds b (f a)) : Heeds b (p >>= f) :=
  fun ts => .after stays fun a _ => next a ts

theorem of_stays (stays : Stays p Q) : Heeds b p := by
  rintro ts ahead s rfl
  exact ⟨(stays s).1.rest ▸ ahead, trivial⟩

theorem within {body : Parser Unit} (heeds : Heeds b body) : Heeds b (within r body) :=
  fun ts => .within (heeds ts)

theorem wrapping {body : Parser Unit} (heeds : Heeds b body) : Heeds b (wrapping r body) :=
  fun ts => .wrapping (heeds ts)

theorem either {c : Bool} {p q : Parser α} (yes : Heeds b p) (no : Heeds b q) :
    Heeds b (if c then p else q) := by
  cases c
  · exact no
  · exact yes

/-- A parser that may be left out before the others. -/
theorem eitherThen {c : Bool} {p : Parser Unit} {q : Unit → Parser β} (yes : Heeds b p)
    (rest : Heeds b (q ())) : Heeds b (if c then p >>= q else q ()) :=
  .either (yes.andThen fun _ => rest) rest

/-- One of two parsers, of which the first begins with what begins no declaration. -/
theorem ifPassed {ask : Parser Bool} {p q : Parser α} (passes : Passes ask)
    (yes : HeedsBefore b p) (no : Heeds b q) :
    Heeds b (ask >>= fun ahead => if ahead then p else q) := by
  refine fun ts => .asking passes fun found before => ?_
  cases found with
  | false => exact no ts
  | true => exact yes ts (before rfl)

theorem repeated {step : Parser Bool} (heeds : Heeds b step) : Heeds b (repeatWhile step) :=
  fun _ => .repeated (I := fun _ => True) (fun us _ => heeds us) trivial

end Heeds

namespace HeedsBefore

theorem andThen (first : HeedsBefore b p) (next : ∀ a, Heeds b (f a)) : HeedsBefore b (p >>= f) :=
  fun ts before => (first ts before).andThen fun a us _ => next a us

theorem within {body : Parser Unit} (heeds : HeedsBefore b body) :
    HeedsBefore b (within r body) :=
  fun ts inside => .within (heeds ts inside)

theorem wrapping {body : Parser Unit} (heeds : HeedsBefore b body) :
    HeedsBefore b (wrapping r body) :=
  fun ts inside => .wrapping (heeds ts inside)

end HeedsBefore

theorem Heeds.ifPassedThen {ask : Parser Bool} {p : Parser Unit} {q : Unit → Parser β}
    (passes : Passes ask) (yes : HeedsBefore b p) (rest : Heeds b (q ())) :
    Heeds b (ask >>= fun ahead => if ahead then p >>= q else q ()) :=
  .ifPassed passes (yes.andThen fun _ => rest) rest

end Composition

/-! ## Reading -/

section Reading

theorem halts_leafOf (before : b.Before ts) : Halts b ts (leafOf r) fun _ us => us = ts.tail :=
  .within (.bump before)

theorem heeds_bump : HeedsBefore b bump :=
  fun _ before => (Halts.bump before).weaken fun _ _ _ => trivial

theorem heeds_leafOf : HeedsBefore b (leafOf r) := heeds_bump.within

/-- Behind what calls for a name, there is one before the word. -/
theorem HeedsBefore.joined {p : Parser α} (heeds : HeedsBefore b p)
    (joins : kindAhead ts 0 ∈ joiners) (before : b.Before ts) :
    Halts b ts (bump >>= fun _ => p) fun _ _ => True := by
  refine (Halts.bump before).andThen fun _ us tail => ?_
  exact heeds us (tail ▸ before.tail_before joins)

theorem HeedsBefore.joinedBy {p : Parser α} {k : TokenKind} (heeds : HeedsBefore b p)
    (here : kindAhead ts 0 = k) (joins : k ∈ joiners) (other : k ∉ declarationStarts) :
    Halts b ts (bump >>= fun _ => p) fun _ _ => True :=
  .knowing fun ahead => heeds.joined (here ▸ joins) (ahead.before (here ▸ other))

/-- Two tokens may be read where the second begins no declaration. -/
theorem HeedsBefore.behind {p : Parser α} (heeds : HeedsBefore b p)
    (second : kindAhead ts 1 ∉ declarationStarts) (before : b.Before ts) :
    Halts b ts (bump >>= fun _ => p) fun _ _ => True := by
  refine (Halts.bump before).andThen fun _ us tail => .knowing fun ahead => ?_
  refine heeds us (ahead.before ?_)
  rwa [tail, kindAhead_tail]

theorem halts_eat {k : TokenKind} (other : k ∉ declarationStarts) :
    Halts b ts (eat k) fun yes us =>
      if yes then b.Before ts ∧ kindAhead ts 0 = k ∧ us = ts.tail else us = ts := by
  refine .after (stays_sees k) fun spotted here => .knowing fun ahead => ?_
  cases spotted with
  | false => exact .answer rfl
  | true =>
    have first : kindAhead ts 0 = k := by simpa using here.symm
    have before : b.Before ts := ahead.before (first ▸ other)
    exact (Halts.bump before).andThen fun _ us tail => .answer ⟨before, first, tail⟩

theorem heeds_eat {k : TokenKind} (other : k ∉ declarationStarts) : Heeds b (eat k) :=
  fun _ => (halts_eat other).weaken fun _ _ _ => trivial

/-- What calls for a name is not the last before the word. -/
theorem halts_eat_joiner {k : TokenKind} (other : k ∉ declarationStarts) (joins : k ∈ joiners) :
    Halts b ts (eat k) fun yes us => if yes then b.Before us else us = ts := by
  refine (halts_eat other).weaken fun yes us read => ?_
  cases yes with
  | false => exact read
  | true =>
    obtain ⟨before, first, tail⟩ := read
    exact tail ▸ before.tail_before (first ▸ joins)

theorem heeds_complainWanted (w : Wanted) : Heeds b (complainWanted w) :=
  .of_stays (stays_complainWanted w)

theorem heeds_expect {k : TokenKind} (other : k ∉ declarationStarts) : Heeds b (expect k) :=
  (heeds_eat other).andThen fun _ => .eitherThen (heeds_complainWanted _) (.answer _)

theorem heeds_expecting {k : TokenKind} (other : k ∉ declarationStarts) :
    Heeds b (do let _ ← expect k) :=
  (heeds_expect other).andThen fun _ => .answer ()

theorem heeds_require {k : TokenKind} (w : Wanted) (other : k ∉ declarationStarts) :
    Heeds b (require k w) :=
  .ifPassed (finds_sees other) heeds_bump (heeds_complainWanted w)

/-- The word itself would be read as a name. -/
theorem heeds_requireName (w : Wanted) : HeedsBefore b (requireName w) := by
  refine fun ts before => .after spots_seesName fun named _ => ?_
  cases named with
  | true => exact heeds_bump ts before
  | false => exact heeds_complainWanted w ts

theorem heeds_commaSeparated {item : Parser Unit} (heeds : Heeds b item) :
    Heeds b (commaSeparated item) :=
  .repeated (heeds.andThen fun _ => heeds_eat (by decide))

/-- A step that runs a parser if it is asked for. -/
theorem Heeds.step {ask : Parser Bool} {item : Parser Unit} (passes : Passes ask)
    (heeds : HeedsBefore b item) : Heeds b (do
      let ahead ← ask
      if ahead then item
      return ahead) := by
  refine fun ts => .asking passes fun found before => ?_
  cases found with
  | false => exact .answer trivial
  | true => exact (heeds.andThen fun _ => .answer true) ts (before rfl)

/-- Skipping stops at every word that begins a declaration. -/
theorem heeds_skipTo : Heeds b (skipTo declarationStarts) := by
  refine .within (.repeated fun ts => .after stays_kind fun k here => .knowing fun ahead => ?_)
  split
  case isTrue => exact .answer trivial
  case isFalse on =>
    have other : kindAhead ts 0 ∉ declarationStarts := by
      rw [← here]
      intro declares
      exact on (by simp [declares])
    exact (heeds_bump.andThen fun _ => .answer true) ts (ahead.before other)

end Reading

end Parser

end XuleLang
