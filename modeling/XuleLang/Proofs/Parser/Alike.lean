import XuleLang.Proofs.Parser.Operation

/-!
Two parsers that are put together alike.

`Parser.Alike` compares two parsers by how they are made: from the same operations, in the same
order, with the same questions in between. They may differ in the bounds of their repetitions, and
either may leave off with the record that it has gone too far. What a parser asks for is the kind
and the text of the next two tokens at most, what it complains of is what the grammar wants or what
it cannot follow, and a node around the latest child is only opened inside a node of its own.

From this one comparison everything is drawn that concerns two runs side by side, and what a single
run keeps. `Alike.keeps` takes along what every operation keeps. `Alike.coupled` takes along a
relation between two states, until the runs are parted by something that both keep ever after.
-/

namespace XuleLang

/-- What a parser may tell a token by. -/
def Token.look (t : Token) : TokenKind × String := (t.kind, t.text)

namespace ParserState

/-- What a parser may ask for. -/
def ahead (s : ParserState) : List (TokenKind × String) := (s.rest.take 2).map Token.look

variable {s t : ParserState}

theorem ahead_getElem? (s : ParserState) {n : Nat} (near : n < 2) :
    s.ahead[n]? = (s.rest[n]?).map Token.look := by
  rw [ahead, List.getElem?_map, List.getElem?_take_of_lt near]

theorem kindAt_eq_of_ahead (same : s.ahead = t.ahead) {n : Nat} (near : n < 2) :
    s.kindAt n = t.kindAt n := by
  have there := congrArg (·[n]?) same
  simp only [ahead_getElem? _ near] at there
  simpa [kindAt, Function.comp_def, Token.look] using
    congrArg (fun o : Option (TokenKind × String) => (o.map (·.1)).getD .endOfInput) there

theorem isWordAt_eq_of_ahead (same : s.ahead = t.ahead) {n : Nat} (near : n < 2) (word : String) :
    s.isWordAt n word = t.isWordAt n word := by
  have there := congrArg (·[n]?) same
  simp only [ahead_getElem? _ near] at there
  simpa only [isWordAt, Option.any_map, Function.comp_def, Token.look] using congrArg
    (fun o : Option (TokenKind × String) => o.any fun t => t.1 == .identifier && t.2 == word) there

end ParserState

/-- Whether a complaint is one of a parser: what the grammar wants, or what cannot be followed. -/
def Complaint.isOfGrammar : Complaint → Bool
  | expected _ _ | unterminatedString | tooDeepExpression => true
  | unterminatedComment | unrecognized _ | extraneousBrace | unreadable _ => false

namespace Parser

open ParserState (Kept)

/-- The parsers are put together alike, inside a node of their own if `deep`. -/
inductive Alike : Bool → {α : Type} → Parser α → Parser α → Prop where
  | answer {α : Type} {deep : Bool} (a : α) : Alike deep (pure a) (pure a)
  | andThen {α β : Type} {deep : Bool} {p q : Parser α} {f g : α → Parser β}
    (first : Alike deep p q) (next : ∀ a, Alike deep (f a) (g a)) :
    Alike deep (p >>= f) (q >>= g)
  | ask {α : Type} {deep : Bool} {f g : ParserState → Parser α}
    (next : ∀ s t : ParserState, s.ahead = t.ahead → Alike deep (f s) (g t)) :
    Alike deep (get >>= f) (get >>= g)
  | note {deep : Bool} (kinds : List TokenKind) (rules : List Rule) :
    Alike deep (modify (·.note kinds rules)) (modify (·.note kinds rules))
  | bump {deep : Bool} : Alike deep bump bump
  | complain {deep : Bool} (c : Complaint) (own : c.isOfGrammar = true) :
    Alike deep (complain c) (complain c)
  | within {deep : Bool} {p q : Parser Unit} (r : Rule) (body : Alike true p q) :
    Alike deep (within r p) (within r q)
  | wrapping {p q : Parser Unit} (r : Rule) (body : Alike true p q) :
    Alike true (wrapping r p) (wrapping r q)
  | overrun {deep : Bool} : Alike deep overrun overrun
  | overrunFirst {deep : Bool} {p q : Parser Unit} (other : Alike deep p q) : Alike deep overrun q
  | overrunSecond {deep : Bool} {p q : Parser Unit} (other : Alike deep p q) : Alike deep p overrun

/-- Every operation, done on both sides, keeps the states `Near` unless they come to be `Apart`.
The number is that of the nodes which the parsers have opened themselves. -/
structure Coupled (Near : Nat → ParserState → ParserState → Prop)
    (Apart : ParserState → ParserState → Prop) : Prop where
  ahead : ∀ {n s t}, Near n s t → s.ahead = t.ahead
  note : ∀ {n s t} kinds rules, Near n s t → Near n (s.note kinds rules) (t.note kinds rules)
  bump : ∀ {n s t}, Near n s t → Near n s.bump t.bump ∨ Apart s.bump t.bump
  complain : ∀ {n s t} c, Near n s t →
    Near n (s.complain c) (t.complain c) ∨ Apart (s.complain c) (t.complain c)
  start : ∀ {n s t} r, Near n s t → Near (n + 1) (s.start r) (t.start r)
  wrap : ∀ {n s t} r, Near (n + 1) s t → Near (n + 2) (s.wrap r) (t.wrap r)
  finish : ∀ {n s t}, Near (n + 1) s t → Near n s.finish t.finish
  overrunFirst : ∀ {n s t}, Near n s t → Apart s.overrun t
  overrunSecond : ∀ {n s t}, Near n s t → Apart s t.overrun
  keptFirst : ∀ t, Kept (Apart · t)
  keptSecond : ∀ s, Kept (Apart s)

/-- Every operation, done on both sides, keeps the states `Near`. -/
structure InStep (Near : Nat → ParserState → ParserState → Prop) : Prop where
  ahead : ∀ {n s t}, Near n s t → s.ahead = t.ahead
  note : ∀ {n s t} kinds rules, Near n s t → Near n (s.note kinds rules) (t.note kinds rules)
  bump : ∀ {n s t}, Near n s t → Near n s.bump t.bump
  complain : ∀ {n s t} c, Near n s t → Near n (s.complain c) (t.complain c)
  start : ∀ {n s t} r, Near n s t → Near (n + 1) (s.start r) (t.start r)
  wrap : ∀ {n s t} r, Near (n + 1) s t → Near (n + 2) (s.wrap r) (t.wrap r)
  finish : ∀ {n s t}, Near (n + 1) s t → Near n s.finish t.finish

/-- States that keep in step come apart only where a bound is reached. -/
theorem InStep.coupled {Near : Nat → ParserState → ParserState → Prop} (inStep : InStep Near) :
    Coupled Near fun s t => s.overran = true ∨ t.overran = true where
  ahead := inStep.ahead
  note := inStep.note
  bump near := .inl (inStep.bump near)
  complain c near := .inl (inStep.complain c near)
  start := inStep.start
  wrap := inStep.wrap
  finish := inStep.finish
  overrunFirst _ := .inl rfl
  overrunSecond _ := .inr rfl
  keptFirst _ := ParserState.kept_overran.or Kept.always
  keptSecond _ := Kept.always.or ParserState.kept_overran

namespace Alike

variable {α : Type} {deep : Bool} {p q : Parser α}

/-- What every operation keeps, each of the parsers keeps. -/
theorem keeps {I : ParserState → Prop} (kept : Kept I) (alike : Alike deep p q) :
    (∀ s, I s → I (p.run s).2) ∧ ∀ s, I s → I (q.run s).2 := by
  induction alike with
  | answer a => exact ⟨fun _ => id, fun _ => id⟩
  | andThen first next ihFirst ihNext =>
    exact ⟨fun s holds => (ihNext _).1 _ (ihFirst.1 s holds),
      fun s holds => (ihNext _).2 _ (ihFirst.2 s holds)⟩
  | ask next ih => exact ⟨fun s => (ih s s rfl).1 s, fun s => (ih s s rfl).2 s⟩
  | note kinds rules =>
    exact ⟨fun _ => kept _ (.note kinds rules) _, fun _ => kept _ (.note kinds rules) _⟩
  | bump => exact ⟨fun _ => kept _ .bump _, fun _ => kept _ .bump _⟩
  | complain c own => exact ⟨fun _ => kept _ (.complain c) _, fun _ => kept _ (.complain c) _⟩
  | within r body ih =>
    exact ⟨fun s holds => kept _ .finish _ (ih.1 _ (kept _ (.start r) _ holds)),
      fun s holds => kept _ .finish _ (ih.2 _ (kept _ (.start r) _ holds))⟩
  | wrapping r body ih =>
    exact ⟨fun s holds => kept _ .finish _ (ih.1 _ (kept _ (.wrap r) _ holds)),
      fun s holds => kept _ .finish _ (ih.2 _ (kept _ (.wrap r) _ holds))⟩
  | overrun => exact ⟨fun _ => kept _ .overrun _, fun _ => kept _ .overrun _⟩
  | overrunFirst other ih => exact ⟨fun _ => kept _ .overrun _, ih.2⟩
  | overrunSecond other ih => exact ⟨ih.1, fun _ => kept _ .overrun _⟩

/-- Where no bound has been reached in the end, none was before. -/
theorem overran_of_run (alike : Alike deep p q) {s : ParserState}
    (never : (p.run s).2.overran = false) : s.overran = false :=
  Bool.eq_false_iff.mpr fun reached =>
    Bool.eq_false_iff.mp never ((alike.keeps ParserState.kept_overran).1 s reached)

variable {Near : Nat → ParserState → ParserState → Prop} {Apart : ParserState → ParserState → Prop}

/-- Parsers that are put together alike keep their states near, and then give the same answer,
unless the states come apart. -/
theorem coupled (couples : Coupled Near Apart) (alike : Alike deep p q) :
    ∀ {n s t}, (deep = true → n ≠ 0) → Near n s t →
      ((p.run s).1 = (q.run t).1 ∧ Near n (p.run s).2 (q.run t).2) ∨
        Apart (p.run s).2 (q.run t).2 := by
  induction alike with
  | answer a => exact fun _ near => .inl ⟨rfl, near⟩
  | andThen first next ihFirst ihNext =>
    rename_i p q f g
    intro n s t inside near
    have run_first : (p >>= f).run s = (f (p.run s).1).run (p.run s).2 := rfl
    have run_second : (q >>= g).run t = (g (q.run t).1).run (q.run t).2 := rfl
    rw [run_first, run_second]
    rcases ihFirst inside near with ⟨same, near⟩ | parted
    · rw [← same]
      exact ihNext _ inside near
    -- From here on the parsers may go different ways, since their answers may differ.
    · have firstOn := ((next (p.run s).1).keeps (couples.keptFirst _)).1 _ parted
      exact .inr (((next (q.run t).1).keeps (couples.keptSecond _)).2 _ firstOn)
  | ask next ih => exact fun inside near => ih _ _ (couples.ahead near) inside near
  | note kinds rules => exact fun _ near => .inl ⟨rfl, couples.note kinds rules near⟩
  | bump => exact fun _ near => (couples.bump near).imp_left fun near => ⟨rfl, near⟩
  | complain c own => exact fun _ near => (couples.complain c near).imp_left fun near => ⟨rfl, near⟩
  | within r body ih =>
    intro n s t inside near
    rcases ih (fun _ => n.succ_ne_zero) (couples.start r near) with ⟨-, near⟩ | parted
    · exact .inl ⟨rfl, couples.finish near⟩
    · exact .inr (couples.keptSecond _ _ .finish _ (couples.keptFirst _ _ .finish _ parted))
  | wrapping r body ih =>
    intro n s t inside near
    obtain ⟨m, rfl⟩ := Nat.exists_eq_succ_of_ne_zero (inside rfl)
    rcases ih (fun _ => (m + 1).succ_ne_zero) (couples.wrap r near) with ⟨-, near⟩ | parted
    · exact .inl ⟨rfl, couples.finish near⟩
    · exact .inr (couples.keptSecond _ _ .finish _ (couples.keptFirst _ _ .finish _ parted))
  | overrun =>
    exact fun _ near => .inr (couples.keptSecond _ _ .overrun _ (couples.overrunFirst near))
  | overrunFirst other ih =>
    exact fun _ near => .inr ((other.keeps (couples.keptSecond _)).2 _ (couples.overrunFirst near))
  | overrunSecond other ih =>
    exact fun _ near => .inr ((other.keeps (couples.keptFirst _)).1 _ (couples.overrunSecond near))

/-- Parsers that are put together alike do the same unless a bound is reached. -/
theorem run_eq (alike : Alike deep p q) (s : ParserState) :
    p.run s = q.run s ∨ (p.run s).2.overran = true ∨ (q.run s).2.overran = true := by
  have inStep : InStep fun _ => Eq :=
    { ahead := congrArg _
      note := fun ks rs => congrArg (ParserState.note · ks rs)
      bump := congrArg _
      complain := fun c => congrArg (ParserState.complain · c)
      start := fun r => congrArg (ParserState.start · r)
      wrap := fun r => congrArg (ParserState.wrap · r)
      finish := congrArg _ }
  rcases alike.coupled inStep.coupled (n := 1) (fun _ => Nat.one_ne_zero) rfl with same | parted
  · exact .inl (Prod.ext same.1 same.2)
  · exact .inr parted

end Alike

end Parser

end XuleLang
