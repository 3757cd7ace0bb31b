import XuleLang.Parser.Block
import XuleLang.Proofs.Parser.Building

/-!
How parsers behave.

`Parser.Does` judges a parser by the tokens ahead of it: it grows the innermost open node by what
the region admits, reaches no bound, and leaves an answer and tokens that satisfy a condition. The
rules of this module follow the ways in which parsers are put together. From them the judgments on
the parsers of the grammar are composed, which come in five kinds:

* `Stays`: it may be run wherever it is, and only notes and complains. `Finds` adds that it says
  yes only where a token of a certain kind is ahead.
* `Spots`: it stays, and says yes only where a token is ahead that is not the end.
* `Works`: it may be run wherever it is.
* `Reads`: it may be run wherever a token is ahead that is not the end, and reads it.
* `Advances`: it may be run wherever it is, and has read something if it says yes.

A repetition of a parser that advances comes to its own end, since the tokens ahead become fewer.
-/

namespace XuleLang.Parser

open ParserState (Builds Agrees)

/-- With the tokens `ts` ahead of it and a node open, the parser builds what the region admits, and
its answer and the tokens then ahead satisfy `Q`. -/
def Does (g : Region) (ts : List Token) (p : Parser α) (Q : α → List Token → Prop) : Prop :=
  ∀ s : ParserState, s.rest = ts → s.frames ≠ [] → EndsOnce ts →
    Builds g s (p.run s).2 ∧ Q (p.run s).1 (p.run s).2.rest

/-- The parser only notes and complains, and its answer fits the tokens ahead. -/
def Stays (p : Parser α) (Q : α → List Token → Prop) : Prop :=
  ∀ s : ParserState, Agrees s (p.run s).2 ∧ Q (p.run s).1 s.rest

/-- The parser stays, and says yes only where a token of such a kind is ahead. -/
def Finds (A : TokenKind → Prop) (p : Parser Bool) : Prop :=
  Stays p fun yes ts => yes = true → A (kindAhead ts 0)

/-- The parser stays, and says yes only where a token is ahead that is not the end. -/
def Spots (p : Parser Bool) : Prop :=
  Stays p fun yes ts => yes = true → kindAhead ts 0 ≠ .endOfInput

/-- The parser may be run wherever it is. -/
def Works (g : Region) (p : Parser α) : Prop := ∀ ts, Does g ts p fun _ _ => True

/-- The parser may be run where the end is not yet ahead, and reads. -/
def Reads (g : Region) (p : Parser α) : Prop :=
  ∀ ts, kindAhead ts 0 ≠ .endOfInput → Does g ts p fun _ us => us.length < ts.length

/-- The parser may be run wherever it is, and has read if it says yes. -/
def Advances (g : Region) (p : Parser Bool) : Prop :=
  ∀ ts, Does g ts p fun yes us => yes = true → us.length < ts.length

variable {α β : Type} {g : Region} {ts : List Token} {r : Rule} {p : Parser α} {f : α → Parser β}

/-! ## Parsers one after the other -/

section Composition

variable {Q : α → List Token → Prop} {R : β → List Token → Prop}

namespace Does

theorem answer {a : α} (done : Q a ts) : Does g ts (pure a) Q := by
  rintro s rfl opened -
  exact ⟨Agrees.builds ⟨rfl, rfl, rfl, rfl, rfl⟩ opened, done⟩

theorem andThen (first : Does g ts p Q)
    (next : ∀ a us, us <:+ ts → Q a us → Does g us (f a) R) : Does g ts (p >>= f) R := by
  rintro s rfl opened ends
  obtain ⟨builds, done⟩ := first s rfl opened ends
  obtain ⟨more, result⟩ := next _ _ builds.suffix done _ rfl builds.opened (builds.endsOnce ends)
  exact ⟨builds.trans more, result⟩

theorem weaken {Q' : α → List Token → Prop} (does : Does g ts p Q)
    (weaker : ∀ a us, us <:+ ts → Q a us → Q' a us) : Does g ts p Q' := by
  rintro s rfl opened ends
  obtain ⟨builds, done⟩ := does s rfl opened ends
  exact ⟨builds, weaker _ _ builds.suffix done⟩

/-- What is known of the end may be used. -/
theorem knowing (does : EndsOnce ts → Does g ts p Q) : Does g ts p Q :=
  fun s here opened ends => does ends s here opened ends

/-- After a parser that stays the same tokens are ahead. -/
theorem after (stays : Stays p Q) (next : ∀ a, Q a ts → Does g ts (f a) R) :
    Does g ts (p >>= f) R := by
  rintro s rfl opened ends
  obtain ⟨agrees, fits⟩ := stays s
  obtain ⟨more, result⟩ := next _ fits _ agrees.rest (agrees.frames ▸ opened) ends
  exact ⟨(agrees.builds opened).trans more, result⟩

theorem within {body : Parser Unit} {Q : Unit → List Token → Prop} (admitted : g.admits r)
    (does : Does (g.below r) ts body Q) : Does g ts (within r body) Q := by
  rintro s rfl opened ends
  have started := s.start_agrees r
  obtain ⟨builds, done⟩ := does (s.start r) started.rest (by simp [started.frames]) ends
  rw [← ParserState.finish_rest (body.run (s.start r)).2] at done
  exact ⟨builds.inside opened admitted, done⟩

theorem wrapping {body : Parser Unit} {Q : Unit → List Token → Prop} (wraps : r.wraps)
    (deep : g ≠ .file) (does : Does g ts body Q) : Does g ts (wrapping r body) Q := by
  rintro s rfl opened ends
  rw [← Region.below_of_wraps wraps deep] at does
  obtain ⟨rest, wrapped⟩ := s.wrap_rest opened r
  obtain ⟨builds, done⟩ := does (s.wrap r) rest wrapped ends
  rw [← ParserState.finish_rest (body.run (s.wrap r)).2] at done
  exact ⟨builds.around opened wraps deep, done⟩

end Does

namespace Stays

theorem answer {a : α} (fits : ∀ ts, Q a ts) : Stays (pure a) Q :=
  fun _ => ⟨⟨rfl, rfl, rfl, rfl, rfl⟩, fits _⟩

theorem andThen (first : Stays p Q) (next : ∀ a, Stays (f a) fun b ts => Q a ts → R b ts) :
    Stays (p >>= f) R := by
  intro s
  obtain ⟨agrees, fits⟩ := first s
  obtain ⟨more, result⟩ := next (p.run s).1 (p.run s).2
  exact ⟨agrees.trans more, agrees.rest ▸ result (agrees.rest ▸ fits)⟩

theorem weaken {Q' : α → List Token → Prop} (stays : Stays p Q)
    (weaker : ∀ a ts, Q a ts → Q' a ts) : Stays p Q' :=
  fun s => ⟨(stays s).1, weaker _ _ (stays s).2⟩

theorem does (stays : Stays p Q) : Does g ts p fun a us => us = ts ∧ Q a us := by
  rintro s rfl opened -
  obtain ⟨agrees, fits⟩ := stays s
  exact ⟨agrees.builds opened, agrees.rest, agrees.rest ▸ fits⟩

theorem works (stays : Stays p Q) : Works g p :=
  fun _ => stays.does.weaken fun _ _ _ _ => trivial

end Stays

namespace Works

theorem answer (a : α) : Works g (pure a : Parser α) := fun _ => .answer trivial

theorem andThen (first : Works g p) (next : ∀ a, Works g (f a)) : Works g (p >>= f) :=
  fun ts => (first ts).andThen fun a us _ _ => next a us

theorem within {body : Parser Unit} (admitted : g.admits r) (works : Works (g.below r) body) :
    Works g (within r body) :=
  fun ts => .within admitted (works ts)

theorem wrapping {body : Parser Unit} (wraps : r.wraps) (deep : g ≠ .file) (works : Works g body) :
    Works g (wrapping r body) :=
  fun ts => .wrapping wraps deep (works ts)

theorem either {c : Bool} {p q : Parser α} (yes : Works g p) (no : Works g q) :
    Works g (if c then p else q) := by
  cases c
  · exact no
  · exact yes

/-- One of two parsers, of which the first begins with what has been spotted. -/
theorem ifSpotted {ask : Parser Bool} {p q : Parser α} (spots : Spots ask) (yes : Reads g p)
    (no : Works g q) : Works g (ask >>= fun ahead => if ahead then p else q) := by
  refine fun ts => .after spots fun ahead spotted => ?_
  cases ahead with
  | false => exact no ts
  | true => exact (yes ts (spotted rfl)).weaken fun _ _ _ _ => trivial

/-- A parser that may be left out before the others. -/
theorem eitherThen {c : Bool} {p : Parser Unit} {q : Unit → Parser β} (yes : Works g p)
    (rest : Works g (q ())) : Works g (if c then p >>= q else q ()) :=
  .either (yes.andThen fun _ => rest) rest

end Works

namespace Reads

theorem working (reads : Reads g p) (ahead : kindAhead ts 0 ≠ .endOfInput) :
    Does g ts p fun _ _ => True :=
  (reads ts ahead).weaken fun _ _ _ _ => trivial

theorem advancing {p : Parser Bool} (reads : Reads g p) (ahead : kindAhead ts 0 ≠ .endOfInput) :
    Does g ts p fun yes us => yes = true → us.length < ts.length :=
  (reads ts ahead).weaken fun _ _ _ fewer _ => fewer

theorem andThen (first : Reads g p) (next : ∀ a, Works g (f a)) : Reads g (p >>= f) :=
  fun ts ahead => (first ts ahead).andThen fun a us _ fewer =>
    (next a us).weaken fun _ _ suffix _ => Nat.lt_of_le_of_lt suffix.length_le fewer

theorem within {body : Parser Unit} (admitted : g.admits r) (reads : Reads (g.below r) body) :
    Reads g (within r body) :=
  fun ts ahead => .within admitted (reads ts ahead)

theorem wrapping {body : Parser Unit} (wraps : r.wraps) (deep : g ≠ .file) (reads : Reads g body) :
    Reads g (wrapping r body) :=
  fun ts ahead => .wrapping wraps deep (reads ts ahead)

end Reads

/-- A parser that may be left out before the others, and begins with what has been spotted. -/
theorem Works.ifSpottedThen {ask : Parser Bool} {p : Parser Unit} {q : Unit → Parser β}
    (spots : Spots ask) (yes : Reads g p) (rest : Works g (q ())) :
    Works g (ask >>= fun ahead => if ahead then p >>= q else q ()) :=
  .ifSpotted spots (yes.andThen fun _ => rest) rest

namespace Advances

theorem stop : Advances g (pure false) := fun _ => .answer nofun

theorem after {p : Parser α} {q : α → Parser Bool} (first : Works g p)
    (next : ∀ a, Advances g (q a)) : Advances g (p >>= q) :=
  fun ts => (first ts).andThen fun a us suffix _ =>
    (next a us).weaken fun _ _ _ fewer yes => Nat.lt_of_lt_of_le (fewer yes) suffix.length_le

/-- One of two parsers, of which the first begins with what has been spotted. -/
theorem ifSpotted {ask : Parser Bool} {p q : Parser Bool} (spots : Spots ask) (yes : Reads g p)
    (no : Advances g q) : Advances g (ask >>= fun ahead => if ahead then p else q) := by
  refine fun ts => .after spots fun ahead spotted => ?_
  cases ahead with
  | false => exact no ts
  | true => exact (yes ts (spotted rfl)).weaken fun _ _ _ fewer _ => fewer

end Advances

end Composition

/-! ## Parsers that stay -/

section Staying

theorem stays_kind : Stays kind fun k ts => k = kindAhead ts 0 :=
  fun _ => ⟨⟨rfl, rfl, rfl, rfl, rfl⟩, rfl⟩

theorem stays_kindAt (n : Nat) : Stays (kindAt n) fun k ts => k = kindAhead ts n :=
  fun _ => ⟨⟨rfl, rfl, rfl, rfl, rfl⟩, rfl⟩

theorem stays_get : Stays (get : Parser ParserState) fun s ts => s.rest = ts :=
  fun _ => ⟨⟨rfl, rfl, rfl, rfl, rfl⟩, rfl⟩

theorem stays_predict (rules : List Rule) : Stays (predict rules) fun _ _ => True :=
  fun s => ⟨s.note_agrees _ _, trivial⟩

theorem stays_complain (c : Complaint) : Stays (complain c) fun _ _ => True :=
  fun s => ⟨s.complain_agrees c, trivial⟩

theorem stays_complainWanted (w : Wanted) : Stays (complainWanted w) fun _ _ => True :=
  stays_kind.andThen fun _ => (stays_complain _).weaken fun _ _ _ _ => trivial

theorem stays_sees (k : TokenKind) : Stays (sees k) fun yes ts => yes = (kindAhead ts 0 == k) := by
  intro s
  have noted := s.note_agrees (if k.isPunctuation then [] else [k]) []
  refine ⟨noted, ?_⟩
  rw [← noted.rest]
  rfl

theorem stays_seesAny (ks : List TokenKind) :
    Stays (seesAny ks) fun yes ts => yes = ks.contains (kindAhead ts 0) := by
  induction ks with
  | nil => exact .answer fun _ => rfl
  | cons k ks ih =>
    refine (stays_sees k).andThen fun first => ih.andThen fun others => .answer ?_
    rintro ts rfl rfl
    rw [List.contains_cons]

theorem stays_isWordAt (n : Nat) (word : String) :
    Stays (isWordAt n word) fun yes ts => yes = true → kindAhead ts n = .identifier := by
  refine fun s => ⟨⟨rfl, rfl, rfl, rfl, rfl⟩, fun yes => ?_⟩
  change (s.rest[n]?).any _ = true at yes
  unfold kindAhead
  cases there : s.rest[n]? with
  | none => simp [there] at yes
  | some t =>
    simp only [there, Option.any_some, Bool.and_eq_true, beq_iff_eq] at yes
    exact yes.1

theorem stays_seesNotIn :
    Stays seesNotIn fun yes ts =>
      yes = (kindAhead ts 0 == .keyword .notKw && kindAhead ts 1 == .keyword .inKw) := by
  refine stays_kind.andThen fun first => (stays_kindAt 1).andThen fun second => .answer ?_
  rintro ts rfl rfl
  rfl

/-! ### Questions for certain kinds -/

variable {A : TokenKind → Prop}

theorem finds_sees {k : TokenKind} (fits : A k) : Finds A (sees k) := by
  refine (stays_sees k).weaken fun yes ts answer ahead => ?_
  rw [answer, beq_iff_eq] at ahead
  rwa [ahead]

theorem finds_seesAny {ks : List TokenKind} (fits : ∀ k ∈ ks, A k) : Finds A (seesAny ks) := by
  refine (stays_seesAny ks).weaken fun yes ts answer ahead => ?_
  rw [answer, List.contains_iff_mem] at ahead
  exact fits _ ahead

theorem finds_seesWord (fits : A .identifier) (word : String) : Finds A (seesWord word) :=
  (stays_sees _).andThen fun _ =>
    (stays_isWordAt 0 word).weaken fun _ _ found _ ahead => found ahead ▸ fits

theorem finds_seesAnyWord (fits : A .identifier) (words : List String) :
    Finds A (seesAnyWord words) := by
  induction words with
  | nil => exact .answer fun _ => nofun
  | cons word words ih =>
    refine (finds_seesWord fits word).andThen fun first => ?_
    cases first with
    | true => exact .answer fun _ found _ => found rfl
    | false => exact ih.weaken fun _ _ found _ => found

theorem finds_seesNotIn (fits : A (.keyword .notKw)) : Finds A seesNotIn := by
  refine stays_seesNotIn.weaken fun yes ts answer ahead => ?_
  rw [answer, Bool.and_eq_true, beq_iff_eq, beq_iff_eq] at ahead
  exact ahead.1 ▸ fits

theorem spots_sees {k : TokenKind} (inside : k ≠ .endOfInput) : Spots (sees k) :=
  finds_sees (A := (· ≠ .endOfInput)) inside

theorem spots_seesAny {ks : List TokenKind} (inside : .endOfInput ∉ ks) : Spots (seesAny ks) :=
  finds_seesAny (A := (· ≠ .endOfInput)) fun _ member reached => inside (reached ▸ member)

theorem spots_seesName : Spots seesName := by
  refine (stays_sees _).andThen fun identifier => stays_kind.andThen fun k => .answer ?_
  rintro ts rfl rfl yes reached
  rw [reached] at yes
  exact absurd yes (by decide)

theorem spots_seesAnyWord (words : List String) : Spots (seesAnyWord words) :=
  finds_seesAnyWord (A := (· ≠ .endOfInput)) nofun words

theorem spots_seesNotIn : Spots seesNotIn := finds_seesNotIn (A := (· ≠ .endOfInput)) nofun

end Staying

/-! ## Parsers that read -/

section Reading

theorem does_bump (ahead : kindAhead ts 0 ≠ .endOfInput) :
    Does g ts bump fun _ us => us = ts.tail := by
  rintro s rfl opened -
  exact ParserState.bump_builds opened ahead

theorem does_leafOf (admitted : g.admits r) (ahead : kindAhead ts 0 ≠ .endOfInput) :
    Does g ts (leafOf r) fun _ us => us = ts.tail :=
  .within admitted (does_bump ahead)

theorem reads_bump : Reads g bump := by
  refine fun ts ahead => (does_bump ahead).weaken fun _ us _ tail => ?_
  obtain ⟨t, rest, rfl, -⟩ := exists_cons_of_kindAhead ahead
  simp [tail]

theorem reads_leafOf (admitted : g.admits r) : Reads g (leafOf r) := reads_bump.within admitted

/-- Two tokens may be read where neither is the end. -/
theorem Reads.behind {p : Parser α} (reads : Reads g p) (ahead : kindAhead ts 0 ≠ .endOfInput)
    (second : kindAhead ts 1 ≠ .endOfInput) :
    Does g ts (bump >>= fun _ => p) fun _ us => us.length < ts.length := by
  refine (does_bump ahead).andThen fun _ us suffix tail => ?_
  have here : kindAhead us 0 ≠ .endOfInput := by rwa [tail, kindAhead_tail]
  exact (reads us here).weaken fun _ _ _ fewer => Nat.lt_of_lt_of_le fewer suffix.length_le

theorem advances_eat {k : TokenKind} (inside : k ≠ .endOfInput) : Advances g (eat k) :=
  .ifSpotted (spots_sees inside) (reads_bump.andThen fun _ => .answer true) .stop

theorem Advances.works {p : Parser Bool} (advances : Advances g p) : Works g p :=
  fun ts => (advances ts).weaken fun _ _ _ _ => trivial

theorem works_eat {k : TokenKind} (inside : k ≠ .endOfInput) : Works g (eat k) :=
  (advances_eat inside).works

theorem works_expect {k : TokenKind} (inside : k ≠ .endOfInput) : Works g (expect k) :=
  (works_eat inside).andThen fun _ =>
    .either ((stays_complainWanted _).works.andThen fun _ => .answer _) (.answer _)

theorem works_require {k : TokenKind} (w : Wanted) (inside : k ≠ .endOfInput) :
    Works g (require k w) :=
  .ifSpotted (spots_sees inside) reads_bump (stays_complainWanted w).works

theorem works_requireName (w : Wanted) : Works g (requireName w) :=
  .ifSpotted spots_seesName reads_bump (stays_complainWanted w).works

end Reading

/-! ## Repetition -/

section Repetition

/-- A repetition whose steps read whenever they say yes ends as a step that says no. -/
theorem Does.repeatedUpTo {step : Parser Bool} {Q : List Token → Prop} {bound : Nat}
    (steps : ∀ us, us <:+ ts → Does g us step fun yes vs =>
      if yes then vs.length < us.length else Q vs)
    (enough : ts.length < bound) : Does g ts (repeatUpTo bound step) fun _ => Q := by
  -- A step that says yes leaves fewer tokens ahead, so the bound stays above their number.
  induction bound generalizing ts with
  | zero => exact absurd enough (Nat.not_lt_zero _)
  | succ bound ih =>
    refine (steps ts (List.suffix_refl _)).andThen fun yes us suffix done => ?_
    cases yes with
    | false => exact .answer done
    | true =>
      have fewer : us.length < bound := Nat.lt_of_lt_of_le done (Nat.le_of_lt_succ enough)
      exact ih (fun vs inner => steps vs (inner.trans suffix)) fewer

theorem Does.repeated {step : Parser Bool} {Q : List Token → Prop}
    (steps : ∀ us, us <:+ ts → Does g us step fun yes vs =>
      if yes then vs.length < us.length else Q vs) :
    Does g ts (repeatWhile step) fun _ => Q := by
  rintro s rfl
  exact Does.repeatedUpTo steps (Nat.lt_succ_self _) s rfl

theorem Does.upToNo {step : Parser Bool}
    (advances : Does g ts step fun yes us => yes = true → us.length < ts.length) :
    Does g ts step fun yes us => if yes then us.length < ts.length else True :=
  advances.weaken fun yes us _ fewer => by
    cases yes with
    | false => trivial
    | true => exact fewer rfl

theorem Does.repeatAdvancing {step : Parser Bool}
    (steps : ∀ us, us <:+ ts → Does g us step fun yes vs => yes = true → vs.length < us.length) :
    Does g ts (repeatWhile step) fun _ _ => True :=
  .repeated fun us suffix => (steps us suffix).upToNo

theorem Advances.repeated {step : Parser Bool} (advances : Advances g step) :
    Works g (repeatWhile step) :=
  fun _ => .repeatAdvancing fun us _ => advances us

/-- A step that runs a parser if it is asked for. -/
theorem Does.step {ask : Parser Bool} {item : Parser Unit} {Q : Bool → List Token → Prop}
    (stays : Stays ask Q)
    (reads : Q true ts → Does g ts item fun _ us => us.length < ts.length) :
    Does g ts (do
      let ahead ← ask
      if ahead then item
      return ahead) fun yes us => yes = true → us.length < ts.length := by
  refine .after stays fun ahead found => ?_
  cases ahead with
  | false => exact .answer nofun
  | true => exact (reads found).andThen fun _ _ _ fewer => .answer fun _ => fewer

theorem Advances.step {ask : Parser Bool} {item : Parser Unit} (spots : Spots ask)
    (reads : Reads g item) : Advances g (do
      let ahead ← ask
      if ahead then item
      return ahead) :=
  fun ts => .step spots fun spotted => reads ts (spotted rfl)

theorem works_commaSeparated {item : Parser Unit} (works : Works g item) :
    Works g (commaSeparated item) :=
  Advances.repeated (.after works fun _ => advances_eat nofun)

/-- A repetition reads if its first step does. -/
theorem Does.repeatedReading {step : Parser Bool} (advances : Advances g step)
    (first : Does g ts step fun _ us => us.length < ts.length) :
    Does g ts (repeatWhile step) fun _ us => us.length < ts.length := by
  -- The first step stands apart: it reads whatever it says, the others only if they say yes.
  have opened : Does g ts (Parser.repeatUpTo (ts.length + 1) step) fun _ us =>
      us.length < ts.length := by
    refine first.andThen fun yes us _ fewer => ?_
    cases yes with
    | false => exact .answer fewer
    | true =>
      have others : Does g us (Parser.repeatUpTo ts.length step) fun _ _ => True :=
        .repeatedUpTo (fun vs _ => (advances vs).upToNo) fewer
      exact others.weaken fun _ vs suffix _ => Nat.lt_of_le_of_lt suffix.length_le fewer
  rintro s rfl
  exact opened s rfl

/-- Skipping reads what is neither one of the kinds nor the end. -/
theorem does_skipTo {kinds : List TokenKind} (admitted : g.admits .skipped)
    (ahead : kindAhead ts 0 ≠ .endOfInput) (others : kindAhead ts 0 ∉ kinds) :
    Does g ts (skipTo kinds) fun _ us => us.length < ts.length := by
  refine .within admitted (.repeatedReading (fun us => .after stays_kind fun k here => ?_) ?_)
  · split
    case isTrue => exact .answer nofun
    case isFalse on =>
      have inside : kindAhead us 0 ≠ .endOfInput := by
        rintro reached
        simp [here, reached] at on
      exact (reads_bump.andThen fun _ => .answer true).advancing inside
  · refine .after stays_kind fun k here => ?_
    rw [if_neg (by simp [here, ahead, others])]
    exact (reads_bump.andThen fun _ => .answer true) ts ahead

end Repetition

end XuleLang.Parser
