import XuleLang.Proofs.Parser.Conduct
import XuleLang.Proofs.Syntax.Precedence

/-!
What parsers derive while they have nothing to complain of.

A complaint is never taken back, and neither is a bound that was reached. So a run that ends clean
was clean throughout, and of each step only what it does without a complaint has to be known.
`Parser.Derives ts A p B` says this of a parser with the tokens `ts` ahead: if it ends clean and the
latest children of the innermost open node were a phrase of `A` before, then they are one of `B`
after, with the children before them and the nodes around as they were. It is a triple with
languages for its assertions. A loop keeps an invariant language; a node around the latest child
takes that child away from the phrase and gives one back.

Most parsers only append: `Yields` says what.
-/

namespace XuleLang

open Computability Grammar

/-- Nothing was complained of, and no bound was reached. -/
def ParserState.Clean (s : ParserState) : Prop := s.errors = [] ∧ s.overran = false

/-- A place among the children of the innermost open node. -/
structure Mark where
  id : Nat
  rule : Rule
  before : List Tree
  around : List Frame

/-- The children behind the mark are grouped derivations and a phrase of the language. -/
def ParserState.Holds (s : ParserState) (m : Mark) (A : Language Tree) : Prop :=
  ∃ ts, s.frames = ⟨m.id, m.rule, ts.reverse ++ m.before⟩ :: m.around ∧ ts ∈ A ∧
    ∀ t ∈ ts, t.IsGrouped

namespace Tree

variable {t u : Tree} {ts us : List Tree}

theorem isGrouped_leaf (l : Leaf) : (leaf l).IsGrouped := by
  intro u member r rule
  simp only [subtrees, List.mem_singleton] at member
  subst member
  cases rule

theorem isGrouped_node {i : Nat} {r : Rule} {s : Option Span}
    (matching : ts ∈ r.grouping) (below : ∀ t ∈ ts, t.IsGrouped) :
    (node i r s ts).IsGrouped := by
  intro u member
  rw [subtrees, List.mem_cons, mem_subtreesOfAll] at member
  rcases member with rfl | ⟨t, child, inside⟩
  · rintro r' ⟨⟩
    exact matching
  · exact below t child u inside

theorem isDerivation_node {i : Nat} {r : Rule} {s : Option Span}
    (matching : ts ∈ r.production) (below : ∀ t ∈ ts, t.IsDerivation) :
    (node i r s ts).IsDerivation := by
  intro u member
  rw [subtrees, List.mem_cons, mem_subtreesOfAll] at member
  rcases member with rfl | ⟨t, child, inside⟩
  · rintro r' ⟨⟩
    exact matching
  · exact below t child u inside

end Tree

namespace ParserState

variable {s s' : ParserState} {m : Mark} {A B L : Language Tree}

theorem Holds.le (holds : s.Holds m A) (fits : A ≤ B) : s.Holds m B := by
  obtain ⟨ts, frames, phrase, derived⟩ := holds
  exact ⟨ts, frames, fits phrase, derived⟩

theorem Holds.of_frames (holds : s.Holds m A) (same : s'.frames = s.frames) : s'.Holds m A := by
  obtain ⟨ts, frames, phrase⟩ := holds
  exact ⟨ts, same.trans frames, phrase⟩

/-- A tree that is attached ends the phrase. -/
theorem Holds.attach (holds : s.Holds m A) {t : Tree} (fits : [t] ∈ L)
    (derived : t.IsGrouped) : (s.attach t).Holds m (A * L) := by
  obtain ⟨ts, frames, phrase, others⟩ := holds
  refine ⟨ts ++ [t], ?_, Language.append_mem_mul phrase fits, ?_⟩
  · simp [attach_of_cons frames]
  · simpa [or_imp, forall_and] using ⟨others, derived⟩

theorem complain_not_clean (s : ParserState) (c : Complaint) : ¬ (s.complain c).Clean := by
  rintro ⟨nothing, -⟩
  unfold complain at nothing
  dsimp only at nothing
  split at nothing
  case isTrue repeated => simp [nothing] at repeated
  case isFalse => cases nothing

theorem attach_clean {t : Tree} (clean : (s.attach t).Clean) : s.Clean := by
  unfold attach at clean
  split at clean <;> exact clean

theorem settle_clean (clean : s.settle.Clean) : s.Clean :=
  ⟨s.settle_errors.symm.trans clean.1, s.settle_agrees.overran.symm.trans clean.2⟩

theorem note_clean {ks : List TokenKind} {rs : List Rule} (clean : (s.note ks rs).Clean) :
    s.Clean :=
  ⟨(s.note_errors ks rs).symm.trans clean.1, (s.note_agrees ks rs).overran.symm.trans clean.2⟩

theorem bump_clean (clean : s.bump.Clean) : s.Clean := by
  cases here : s.rest with
  | nil => simpa only [bump, here] using clean
  | cons t rest =>
    have settled : Clean { s.attach (.leaf ⟨s.nextId, t⟩) with nextId := s.nextId + 1 } := by
      simp only [bump, here] at clean
      split at clean <;> exact settle_clean clean
    exact attach_clean settled

theorem start_clean {r : Rule} (clean : (s.start r).Clean) : s.Clean :=
  (note_clean clean :)

theorem wrap_clean {r : Rule} (clean : (s.wrap r).Clean) : s.Clean := by
  unfold wrap at clean
  split at clean
  · exact start_clean clean
  · split at clean
    · exact start_clean clean
    · exact (note_clean clean :)

theorem finish_clean (clean : s.finish.Clean) : s.Clean := by
  unfold finish at clean
  split at clean
  · exact clean
  · exact (attach_clean clean :)

end ParserState

namespace Parser

open ParserState (Clean Holds)

/-- If the parser ends clean, it began so, and turned a phrase of `A` into one of `B`. -/
def Derives (ts : List Token) (A : Language Tree) (p : Parser α) (B : α → Language Tree) : Prop :=
  ∀ s : ParserState, s.rest = ts → Clean (p.run s).2 →
    Clean s ∧ ∀ m, s.Holds m A → (p.run s).2.Holds m (B (p.run s).1)

/-- The parser appends what its answer tells. -/
def Yields (ts : List Token) (p : Parser α) (L : α → Language Tree) : Prop :=
  ∀ A, Derives ts A p fun a => A * L a

/-- The parser stays and complains of nothing. -/
def Asks (p : Parser α) (Q : α → List Token → Prop) : Prop :=
  Stays p Q ∧ ∀ s : ParserState, (p.run s).2.errors = s.errors

/-- From the tokens `ts` the parser comes to `us`. -/
def Moves (ts us : List Token) (p : Parser α) : Prop :=
  ∀ s : ParserState, s.rest = ts → (p.run s).2.rest = us

variable {α β : Type} {ts us : List Token} {p : Parser α} {f : α → Parser β} {r : Rule}
  {A B C L M : Language Tree}

/-! ## Questions -/

namespace Asks

variable {Q : α → List Token → Prop} {R : β → List Token → Prop}

theorem answer {a : α} (fits : ∀ ts, Q a ts) : Asks (pure a) Q :=
  ⟨.answer fits, fun _ => rfl⟩

theorem andThen (first : Asks p Q) (next : ∀ a, Asks (f a) fun b ts => Q a ts → R b ts) :
    Asks (p >>= f) R :=
  ⟨first.1.andThen fun a => (next a).1, fun s => ((next _).2 _).trans (first.2 s)⟩

theorem weaken {Q' : α → List Token → Prop} (asks : Asks p Q)
    (weaker : ∀ a ts, Q a ts → Q' a ts) : Asks p Q' :=
  ⟨asks.1.weaken weaker, asks.2⟩

theorem clean (asks : Asks p Q) {s : ParserState} (clean : Clean (p.run s).2) : s.Clean :=
  ⟨(asks.2 s).symm.trans clean.1, (asks.1 s).1.overran.symm.trans clean.2⟩

end Asks

section Questions

theorem asks_kind : Asks kind fun k ts => k = kindAhead ts 0 := ⟨stays_kind, fun _ => rfl⟩

theorem asks_kindAt (n : Nat) : Asks (kindAt n) fun k ts => k = kindAhead ts n :=
  ⟨stays_kindAt n, fun _ => rfl⟩

theorem asks_get : Asks (get : Parser ParserState) fun s ts => s.rest = ts :=
  ⟨stays_get, fun _ => rfl⟩

theorem asks_predict (rules : List Rule) : Asks (predict rules) fun _ _ => True :=
  ⟨stays_predict rules, fun s => s.note_errors _ _⟩

theorem asks_sees (k : TokenKind) : Asks (sees k) fun yes ts => yes = (kindAhead ts 0 == k) :=
  ⟨stays_sees k, fun s => s.note_errors _ _⟩

theorem asks_seesAny (ks : List TokenKind) :
    Asks (seesAny ks) fun yes ts => yes = ks.contains (kindAhead ts 0) := by
  refine ⟨stays_seesAny ks, ?_⟩
  induction ks with
  | nil => exact fun _ => rfl
  | cons k ks ih => exact fun s => (ih _).trans ((asks_sees k).2 s)

theorem asks_seesName :
    Asks seesName fun yes ts =>
      yes = (kindAhead ts 0 == .identifier || (kindAhead ts 0).isKeyword) :=
  (asks_sees _).andThen fun _ => asks_kind.andThen fun _ => .answer fun _ k i => by rw [i, k]

theorem asks_isWordAt (n : Nat) (word : String) :
    Asks (isWordAt n word) fun yes ts =>
      yes = (ts[n]?).any fun t => t.kind == .identifier && t.text == word :=
  ⟨fun _ => ⟨⟨rfl, rfl, rfl, rfl, rfl⟩, rfl⟩, fun _ => rfl⟩

theorem asks_seesAnyWord (words : List String) :
    Asks (seesAnyWord words) fun yes ts =>
      yes = true → (ts[0]?).any fun t => t.kind == .identifier && words.contains t.text := by
  induction words with
  | nil => exact .answer fun _ => nofun
  | cons word words ih =>
    refine .andThen ((asks_sees _).andThen fun _ =>
      (asks_isWordAt 0 word).weaken fun yes ts found _ => found) fun first => ?_
    cases first with
    | true =>
      refine .answer fun ts found _ => ?_
      cases here : ts[0]? with
      | none => simp [here] at found
      | some t =>
        simp only [here, Option.any_some, Bool.true_eq, Bool.and_eq_true, beq_iff_eq] at found
        simp [found]
    | false =>
      refine ih.weaken fun yes ts found _ answer => ?_
      cases here : ts[0]? with
      | none => simp [here, answer] at found
      | some t =>
        have later := found answer
        simp only [here, Option.any_some, Bool.and_eq_true] at later
        simp [later.1, List.contains_iff_mem.mp later.2]

theorem asks_seesNotIn :
    Asks seesNotIn fun yes ts =>
      yes = (kindAhead ts 0 == .keyword .notKw && kindAhead ts 1 == .keyword .inKw) :=
  asks_kind.andThen fun _ => (asks_kindAt 1).andThen fun _ => .answer fun _ k i => by rw [k, i]

end Questions

/-! ## Parsers one after the other -/

namespace Derives

variable {B : α → Language Tree} {C : β → Language Tree}

theorem answer {a : α} (fits : A ≤ B a) : Derives ts A (pure a) B :=
  fun _ _ clean => ⟨clean, fun _ holds => holds.le fits⟩

theorem andThen (first : Derives ts A p B) (next : ∀ a us, Derives us (B a) (f a) C) :
    Derives ts A (p >>= f) C := by
  intro s here clean
  obtain ⟨between, later⟩ := next (p.run s).1 (p.run s).2.rest (p.run s).2 rfl clean
  obtain ⟨before, earlier⟩ := first s here between
  exact ⟨before, fun m holds => later m (earlier m holds)⟩

/-- Where it is known which tokens the first parser leaves. -/
theorem andThenAt (moves : Moves ts us p) (first : Derives ts A p B)
    (next : ∀ a, Derives us (B a) (f a) C) : Derives ts A (p >>= f) C := by
  intro s here clean
  obtain ⟨between, later⟩ := next (p.run s).1 (p.run s).2 (moves s here) clean
  obtain ⟨before, earlier⟩ := first s here between
  exact ⟨before, fun m holds => later m (earlier m holds)⟩

theorem after {Q : α → List Token → Prop} (asks : Asks p Q)
    (next : ∀ a, Q a ts → Derives ts A (f a) C) : Derives ts A (p >>= f) C := by
  rintro s rfl clean
  obtain ⟨agrees, fits⟩ := asks.1 s
  obtain ⟨between, later⟩ := next (p.run s).1 fits (p.run s).2 agrees.rest clean
  exact ⟨asks.clean between, fun m holds => later m (holds.of_frames agrees.frames)⟩

theorem weaken {B' : α → Language Tree} (derives : Derives ts A p B) (fits : ∀ a, B a ≤ B' a) :
    Derives ts A p B' := by
  intro s here clean
  obtain ⟨before, does⟩ := derives s here clean
  exact ⟨before, fun m holds => (does m holds).le (fits _)⟩

theorem strengthen {A' : Language Tree} (derives : Derives ts A p B) (fits : A' ≤ A) :
    Derives ts A' p B := by
  intro s here clean
  obtain ⟨before, does⟩ := derives s here clean
  exact ⟨before, fun m holds => does m (holds.le fits)⟩

/-- What ends with a complaint is never clean. -/
theorem complaining {B : Unit → Language Tree} (c : Complaint) : Derives ts A (complain c) B :=
  fun s _ clean => absurd clean (s.complain_not_clean c)

theorem complainingWanted {B : Unit → Language Tree} (w : Wanted) :
    Derives ts A (complainWanted w) B :=
  .after asks_kind fun _ _ => .complaining _

/-- Nothing that follows a complaint makes up for it. -/
theorem complainingFirst {f : Unit → Parser β} (c : Complaint)
    (keeps : ∀ us, Derives us 0 (f ()) C) : Derives ts A (complain c >>= f) C :=
  .andThen (.complaining c) fun _ => keeps

/-- A run that reaches a bound is never clean. -/
theorem overrunning {B : Unit → Language Tree} : Derives ts A overrun B := by
  rintro s - ⟨-, reached⟩
  cases reached

end Derives

namespace Yields

variable {L : α → Language Tree} {C : β → Language Tree}

/-- Appending is told by what is appended to nothing. -/
theorem of_derives (derives : Derives ts 1 p L) : Yields ts p L := by
  intro A s here clean
  obtain ⟨before, does⟩ := derives s here clean
  refine ⟨before, ?_⟩
  rintro m ⟨old, frames, phrase, derived⟩
  obtain ⟨new, frames', fits, derivedNew⟩ :=
    does ⟨m.id, m.rule, old.reverse ++ m.before, m.around⟩
      ⟨[], frames, Language.nil_mem_one, by simp⟩
  refine ⟨old ++ new, by simp [frames'], Language.append_mem_mul phrase fits, ?_⟩
  simpa [or_imp, forall_and] using ⟨derived, derivedNew⟩

theorem weaken {L' : α → Language Tree} (yields : Yields ts p L) (fits : ∀ a, L a ≤ L' a) :
    Yields ts p L' :=
  fun A => (yields A).weaken fun a => mul_le_mul_right (fits a) A

/-- The first of the parsers inside a node. -/
theorem begin (first : Yields ts p L) (next : ∀ a us, Derives us (L a) (f a) C) :
    Derives ts 1 (p >>= f) C :=
  (first 1).andThen fun a us => (next a us).strengthen (one_mul _).le

theorem andThen (first : Yields ts p L) (next : ∀ a us, Derives us (A * L a) (f a) C) :
    Derives ts A (p >>= f) C :=
  (first A).andThen next

end Yields

/-! ## Nodes -/

section Nodes

variable {body : Parser Unit}

/-- A node knows what its children are. -/
theorem Yields.withinOf (fits : L ≤ r.grouping) (inside : Derives ts 1 body fun _ => L) :
    Yields ts (Parser.within r body) fun _ => nodeWith r L := by
  intro A s here clean
  have started := s.start_agrees r
  obtain ⟨between, does⟩ :=
    inside (s.start r) (started.rest.trans here) (ParserState.finish_clean clean)
  refine ⟨ParserState.start_clean between, fun m holds => ?_⟩
  obtain ⟨cs, frames, phrase, derived⟩ :=
    does ⟨s.nextId, r, [], s.frames⟩ ⟨[], started.frames, Language.nil_mem_one, by simp⟩
  have closed : (Parser.within r body).run s = ((), (body.run (s.start r)).2.finish) := rfl
  rw [closed]
  simp only [ParserState.finish, frames, List.append_nil, List.reverse_reverse]
  have around : { (body.run (s.start r)).2 with frames := s.frames }.Holds m A :=
    holds.of_frames rfl
  exact around.attach ⟨_, rfl, rfl, phrase⟩ (Tree.isGrouped_node (fits phrase) derived)

theorem Yields.within (inside : Derives ts 1 body fun _ => r.grouping) :
    Yields ts (within r body) fun _ => node r :=
  (Yields.withinOf le_rfl inside).weaken fun _ => nodeWith_le_node

/-- A node without a production. -/
theorem Derives.withinVacuous {D : Unit → Language Tree}
    (inside : Derives ts A body fun _ => B) : Derives ts 0 (Parser.within r body) D := by
  intro s here clean
  have started := s.start_agrees r
  obtain ⟨between, -⟩ :=
    inside (s.start r) (started.rest.trans here) (ParserState.finish_clean clean)
  refine ⟨ParserState.start_clean between, ?_⟩
  rintro m ⟨_, _, nothing, _⟩
  exact absurd nothing (Language.notMem_zero _)

/-- A node around the latest child takes its place. -/
theorem Derives.wrappingOf {wanted : Tree → Prop} (fits : L ≤ r.grouping)
    (inside : Derives ts (single wanted) body fun _ => L) :
    Derives ts (A * single wanted) (Parser.wrapping r body) fun _ => A * nodeWith r L := by
  intro s here clean
  have closed : (Parser.wrapping r body).run s = ((), (body.run (s.wrap r)).2.finish) := rfl
  rw [closed] at clean ⊢
  have rest : (s.wrap r).rest = s.rest := by
    cases frames : s.frames with
    | nil =>
      have opened : s.wrap r = s.start r := by simp only [ParserState.wrap, frames]
      rw [opened, (s.start_agrees r).rest]
    | cons f outer => exact (ParserState.wrap_rest (by simp [frames]) r).1
  obtain ⟨between, does⟩ :=
    inside (s.wrap r) (rest.trans here) (ParserState.finish_clean clean)
  refine ⟨ParserState.wrap_clean between, ?_⟩
  rintro m ⟨old, frames, phrase, derived⟩
  obtain ⟨earlier, first, _, ⟨c, rfl, wants⟩, rfl⟩ := Language.mem_mul.mp phrase
  have latest : (earlier ++ [c]).reverse ++ m.before = c :: (earlier.reverse ++ m.before) := by simp
  have wrapped := ParserState.wrap_of_child (s := s) frames latest r
  obtain ⟨cs, frames', children, below⟩ :=
    does ⟨s.nextId, r, [], ⟨m.id, m.rule, earlier.reverse ++ m.before⟩ :: m.around⟩
      ⟨[c], by simpa using wrapped.frames, ⟨c, rfl, wants⟩, by simpa using derived c (by simp)⟩
  simp only [ParserState.finish, frames', List.append_nil, List.reverse_reverse]
  refine Holds.attach (A := A) ⟨earlier, rfl, first, fun t member => derived t (by simp [member])⟩
    ⟨_, rfl, rfl, children⟩ (Tree.isGrouped_node (fits children) below)

theorem Derives.wrapping {wanted : Tree → Prop}
    (inside : Derives ts (single wanted) body fun _ => r.grouping) :
    Derives ts (A * single wanted) (wrapping r body) fun _ => A * node r :=
  (Derives.wrappingOf le_rfl inside).weaken fun _ => mul_le_mul_right nodeWith_le_node A

end Nodes

/-! ## Reading -/

section Reading

variable {wanted : Token → Prop}

theorem moves_bump (inside : kindAhead ts 0 ≠ .endOfInput) : Moves ts ts.tail bump := by
  rintro s rfl
  obtain ⟨t, rest, here, other⟩ := exists_cons_of_kindAhead inside
  rw [here, List.tail_cons]
  exact (ParserState.bump_of_cons here).rest.trans (if_neg other)

theorem moves_leafOf (inside : kindAhead ts 0 ≠ .endOfInput) : Moves ts ts.tail (leafOf r) := by
  rintro s rfl
  have started := (s.start_agrees r).rest
  refine (ParserState.finish_rest _).trans (moves_bump inside _ started)

/-- The token ahead becomes a leaf. -/
theorem yields_bump {t : Token} {rest : List Token} (ahead : ts = t :: rest) (fits : wanted t) :
    Yields ts bump fun _ => leafWith wanted := by
  subst ahead
  refine fun A s here clean => ⟨ParserState.bump_clean clean, fun m holds => ?_⟩
  have last : (s.attach (.leaf ⟨s.nextId, t⟩)).Holds m (A * leafWith wanted) :=
    holds.attach ⟨_, rfl, _, rfl, fits⟩ (Tree.isGrouped_leaf _)
  exact last.of_frames (ParserState.bump_of_cons here).frames

theorem yields_token {k : TokenKind} (ahead : kindAhead ts 0 = k) (inside : k ≠ .endOfInput) :
    Yields ts bump fun _ => token k := by
  subst ahead
  obtain ⟨t, rest, rfl, -⟩ := exists_cons_of_kindAhead inside
  exact yields_bump rfl rfl

theorem yields_oneOf {ks : List TokenKind} (ahead : kindAhead ts 0 ∈ ks)
    (inside : .endOfInput ∉ ks) : Yields ts bump fun _ => oneOf ks :=
  (yields_token rfl fun reached => inside (reached ▸ ahead)).weaken fun _ => token_le_oneOf ahead

theorem yields_name (ahead : (kindAhead ts 0 == .identifier || (kindAhead ts 0).isKeyword) = true) :
    Yields ts bump fun _ => name := by
  cases ts with
  | nil => cases ahead
  | cons t ts => exact yields_bump rfl (by simpa [kindAhead] using ahead)

theorem yields_word {words : List String}
    (ahead : (ts[0]?).any fun t => t.kind == .identifier && words.contains t.text) :
    Yields ts bump fun _ => wordOf words := by
  cases ts with
  | nil => cases ahead
  | cons t ts => exact yields_bump rfl (by simpa using ahead)

end Reading

/-! ## Repetition -/

/-- Every step that says yes keeps the invariant; the one that says no ends the repetition. -/
theorem Derives.repeated {step : Parser Bool}
    (steps : ∀ us, Derives us A step fun yes => if yes then A else B) :
    Derives ts A (repeatWhile step) fun _ => B := by
  have bounded (n : Nat) : ∀ us, Derives us A (repeatUpTo n step) fun _ => B := by
    induction n with
    | zero => exact fun _ => .overrunning
    | succ n ih =>
      refine fun us => (steps us).andThen fun yes vs => ?_
      cases yes with
      | true => exact ih vs
      | false => exact .answer le_rfl
  exact fun s here clean => bounded (s.rest.length + 1) ts s here clean

/-- Items as long as they are asked for. -/
theorem Yields.repeated {step : Parser Bool}
    (steps : ∀ us, Yields us step fun yes => if yes then L else 1) :
    Yields ts (repeatWhile step) fun _ => L∗ := by
  refine .of_derives ?_
  refine Derives.strengthen (Derives.repeated (A := L∗) fun us => ?_) one_le_kstar
  refine (steps us _).weaken fun yes => ?_
  cases yes with
  | true => exact kstar_mul_le_kstar
  | false => exact (mul_one _).le

end Parser

end XuleLang
