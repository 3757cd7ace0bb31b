import XuleLang.Proofs.Parser.Fork

/-!
How parsers behave at a fork.

`Fork.Meets` judges a parser by what it does on both sides of a fork: side by side it gives the same
answer and stays side by side, or else it is settled how the prediction has done. The rules of this
module follow the ways in which parsers are put together. What cannot be told from the parts of a
parser alone are the questions at the caret. `Fork.Inquires` says which words a question tells the
probe of, and `Fork.Takes` that the second parser reads the word if the question was for it.

Inside a node the word may also have been read where nobody had asked for it. That is settled only
once the node is closed; until then the node must not lose what it has read.
-/

namespace XuleLang

open ParserState (Kept Told Agrees)

namespace Parser

variable {α β : Type} {deep : Bool} {p q : Parser α} {f : α → Parser β}

/-- What every operation keeps, the parser keeps. -/
def Steady (p : Parser α) : Prop := ∀ I, Kept I → ∀ s, I s → I (p.run s).2

theorem Alike.steady (alike : Alike false p q) : Steady p := fun _ kept => (alike.keeps kept).1

namespace Steady

theorem answer (a : α) : Steady (pure a) := fun _ _ _ => id

theorem andThen (first : Steady p) (next : ∀ a, Steady (f a)) : Steady (p >>= f) :=
  fun I kept s holds => next _ I kept _ (first I kept s holds)

theorem within {body : Parser Unit} (steady : Steady body) (r : Rule) : Steady (within r body) :=
  fun I kept s holds => kept _ .finish _ (steady I kept _ (kept _ (.start r) s holds))

theorem wrapping {body : Parser Unit} (steady : Steady body) (r : Rule) :
    Steady (wrapping r body) :=
  fun I kept s holds => kept _ .finish _ (steady I kept _ (kept _ (.wrap r) s holds))

theorem either {c : Bool} {q : Parser α} (yes : Steady p) (no : Steady q) :
    Steady (if c then p else q) := by
  cases c
  · exact no
  · exact yes

theorem bump : Steady bump := fun _ kept => kept _ .bump

theorem leafOf (r : Rule) : Steady (leafOf r) := bump.within r

theorem complain (c : Complaint) : Steady (complain c) := fun _ kept => kept _ (.complain c)

theorem overrun : Steady overrun := fun _ kept => kept _ .overrun

theorem repeatUpTo {step : Parser Bool} (steady : Steady step) (n : Nat) :
    Steady (repeatUpTo n step) := by
  induction n with
  | zero => exact overrun
  | succ n ih => exact steady.andThen fun _ => .either ih (.answer ())

theorem repeated {step : Parser Bool} (steady : Steady step) : Steady (repeatWhile step) :=
  fun I kept s => steady.repeatUpTo _ I kept s

end Steady

theorem Steady.clean {s : ParserState} (steady : Steady p) (clean : (p.run s).2.Clean) :
    s.Clean := by
  constructor
  · apply List.eq_nil_iff_forall_not_mem.mpr
    intro e member
    have told := steady _ (ParserState.kept_complaint e) s member
    rw [clean.1] at told
    cases told
  · apply Bool.eq_false_iff.mpr
    intro reached
    exact Bool.eq_false_iff.mp clean.2 (steady _ ParserState.kept_overran s reached)

/-- If it ends clean, the parser has only appended to the innermost open node. -/
structure Appends (p : Parser α) : Prop where
  steady : Steady p
  run : ∀ s, (p.run s).2.Clean → ∀ f outer, s.frames = f :: outer →
    ∃ new, (p.run s).2.frames = ⟨f.id, f.rule, new ++ f.children⟩ :: outer

namespace Appends

theorem of_yields {L : α → Language Tree} (steady : Steady p) (yields : ∀ ts, Yields ts p L) :
    Appends p where
  steady := steady
  run s clean f outer frames := by
    obtain ⟨new, frames', -⟩ := ((yields s.rest 1) s rfl clean).2
      ⟨f.id, f.rule, f.children, outer⟩ ⟨[], frames, Language.nil_mem_one, by simp⟩
    exact ⟨_, frames'⟩

theorem of_stays {Q : α → List Token → Prop} (steady : Steady p) (stays : Stays p Q) :
    Appends p where
  steady := steady
  run s _ _ _ frames := ⟨[], (stays s).1.frames.trans frames⟩

theorem answer (a : α) : Appends (pure a) := ⟨.answer a, fun _ _ _ _ frames => ⟨[], frames⟩⟩

theorem andThen (first : Appends p) (next : ∀ a, Appends (f a)) : Appends (p >>= f) where
  steady := first.steady.andThen fun a => (next a).steady
  run s clean fr outer frames := by
    have between : (p.run s).2.Clean := (next (p.run s).1).steady.clean clean
    obtain ⟨new, frames'⟩ := first.run s between fr outer frames
    obtain ⟨more, frames''⟩ := (next (p.run s).1).run _ clean _ outer frames'
    exact ⟨more ++ new, by rw [List.append_assoc]; exact frames''⟩

theorem ite {c : Bool} {q : Parser α} (yes : Appends p) (no : Appends q) :
    Appends (if c then p else q) := by
  cases c
  · exact no
  · exact yes

theorem bump : Appends bump where
  steady := .bump
  run s _ f outer frames := by
    change ∃ new, s.bump.frames = ⟨f.id, f.rule, new ++ f.children⟩ :: outer
    cases here : s.rest with
    | nil =>
      have still : s.bump = s := by simp only [ParserState.bump, here]
      exact ⟨[], by rw [still]; exact frames⟩
    | cons x xs =>
      have read := (ParserState.bump_of_cons here).frames
      rw [ParserState.attach_of_cons frames] at read
      exact ⟨[_], read⟩

theorem within {body : Parser Unit} (appends : Appends body) (r : Rule) :
    Appends (within r body) where
  steady := appends.steady.within r
  run s clean f outer frames := by
    have started := (s.start_agrees r).frames
    obtain ⟨new, frames'⟩ := appends.run (s.start r) (ParserState.finish_clean clean) _ _ started
    refine ⟨[Tree.ofChildren s.nextId r new.reverse], ?_⟩
    change (body.run (s.start r)).2.finish.frames = _
    simp only [ParserState.finish, frames', frames, ParserState.attach, List.append_nil,
      List.singleton_append]

end Appends

end Parser

open XuleLang.Parser

namespace Fork

variable (k : Fork)

/-! ## The second parser alone -/

/-- The parser comes to the word with nothing to complain of. -/
structure Comes (t : ParserState) : Prop where
  rest : t.rest = k.word :: k.behind
  silent : t.errors = []
  unprobed : t.probe = none

/-- A parser that comes to the word takes it. -/
def Takes (q : Parser α) : Prop := ∀ t, k.Comes t → k.Took (q.run t).2

/-- A parser that comes to a token of the kind complains. -/
def Balks (c : TokenKind) (q : Parser α) : Prop :=
  ∀ t : ParserState, t.probe = none → t.errors = [] → kindAhead t.rest 0 = c →
    ∃ e, e ∈ (q.run t).2.errors

section Second

variable {k} {α β : Type} {q : Parser α} {g : α → Parser β} {t : ParserState}

theorem word_inside (k : Fork) : k.word.kind ≠ .endOfInput := by
  have reserved := k.reserved
  rintro ended
  rw [ended] at reserved
  cases reserved

theorem Comes.transfer {t' : ParserState} (comes : k.Comes t) (same : t.Reseen t') : k.Comes t' :=
  ⟨same.rest.trans comes.rest, same.errors.trans comes.silent, same.probe.trans comes.unprobed⟩

theorem Comes.start (comes : k.Comes t) (r : Rule) : k.Comes (t.start r) := by
  obtain ⟨u, started, same, -⟩ := t.start_eq_note r
  have near := comes.transfer same
  rwa [started, ParserState.note_of_unprobed near.unprobed]

theorem Comes.wrap (comes : k.Comes t) (r : Rule) : k.Comes (t.wrap r) := by
  obtain ⟨u, wrapped, same, -⟩ := t.wrap_eq_note r
  have near := comes.transfer same
  rwa [wrapped, ParserState.note_of_unprobed near.unprobed]

/-- The word is read. -/
theorem bump_word (here : t.rest = k.word :: k.behind) :
    t.bump.rest = k.behind ∧ t.bump.errors = t.errors := by
  obtain ⟨u, same, -, read⟩ := ParserState.bump_eq_settle here
  rw [if_neg k.word_inside] at read
  rw [read]
  exact ⟨rfl, u.settle_errors.trans same.errors⟩

theorem takes_bump : k.Takes bump := by
  intro t comes _
  obtain ⟨here, same⟩ := bump_word comes.rest
  refine ⟨here, ?_⟩
  intro e member
  rw [show (bump.run t).2.errors = [] from same.trans comes.silent] at member
  cases member

theorem Takes.andThen (first : k.Takes q) (next : ∀ a, Steady (g a)) : k.Takes (q >>= g) :=
  fun t comes => next _ _ k.kept_took _ (first t comes)

theorem Takes.within {body : Parser Unit} (takes : k.Takes body) (r : Rule) :
    k.Takes (within r body) :=
  fun _ comes => k.kept_took _ .finish _ (takes _ (comes.start r))

theorem Takes.wrapping {body : Parser Unit} (takes : k.Takes body) (r : Rule) :
    k.Takes (wrapping r body) :=
  fun _ comes => k.kept_took _ .finish _ (takes _ (comes.wrap r))

theorem takes_leafOf (r : Rule) : k.Takes (leafOf r) := takes_bump.within r

theorem balks_complain {kk : TokenKind} (c : Complaint) : Balks kk (complain c) :=
  fun _ _ silent _ => ⟨_, complaint_of_silent silent c⟩

theorem Balks.andThen {kk : TokenKind} (first : Balks kk q) (next : ∀ a, Steady (g a)) :
    Balks kk (q >>= g) :=
  fun t unprobed silent here =>
    next _ _ (Kept.anyOf ParserState.kept_complaint) _ (first t unprobed silent here)

end Second

/-! ## Questions -/

section Questions

/-- The question is answered by the tokens ahead. It tells a probe at the caret of the word if the
word is of one of the kinds, and otherwise tells it nothing that concerns the word. -/
structure Inquires (ask : Parser α) (ks : List TokenKind) (φ : List Token → α) : Prop where
  steady : Steady ask
  stays : Stays ask fun a ts => a = φ ts
  still : ∀ t, t.probe = none → (ask.run t).2 = t
  near : ∀ {rules left s t}, k.Beside rules left s t → (left = [] → k.word.kind ∉ ks) →
    k.Beside rules left (ask.run s).2 t
  told : ∀ {rules s t}, k.Beside rules [] s t → k.word.kind ∈ ks →
    Told k.word.kind (ask.run s).2.probe

variable {k} {α β : Type} {ask : Parser α} {f : α → Parser β} {ks : List TokenKind}
  {φ : List Token → α} {ψ : α → List Token → β}

theorem Inquires.answers (inquires : k.Inquires ask ks φ) {s : ParserState} {ts : List Token}
    (here : s.rest = ts) : (ask.run s).1 = φ ts :=
  here ▸ (inquires.stays s).2

/-- What follows the question is run with the answer. -/
theorem Inquires.run (inquires : k.Inquires ask ks φ) (f : α → Parser β) {s : ParserState}
    {ts : List Token} (here : s.rest = ts) :
    (ask >>= f).run s = (f (φ ts)).run (ask.run s).2 := by
  rw [← inquires.answers here]
  rfl

theorem Inquires.run_unprobed (inquires : k.Inquires ask ks φ) (f : α → Parser β)
    {t : ParserState} {ts : List Token} (here : t.rest = ts) (unprobed : t.probe = none) :
    (ask >>= f).run t = (f (φ ts)).run t := by
  rw [inquires.run f here, inquires.still t unprobed]

theorem Balks.asking {kk : TokenKind} (inquires : k.Inquires ask ks φ)
    (next : ∀ ts, kindAhead ts 0 = kk → Balks kk (f (φ ts))) : Balks kk (ask >>= f) := by
  intro t unprobed silent here
  rw [inquires.run_unprobed f rfl unprobed]
  exact next t.rest here t unprobed silent here

theorem Takes.asking (inquires : k.Inquires ask ks φ)
    (next : k.Takes (f (φ (k.word :: k.behind)))) : k.Takes (ask >>= f) := by
  intro t comes
  rw [inquires.run_unprobed f comes.rest comes.unprobed]
  exact next t comes

theorem inquires_answer (a : α) : k.Inquires (pure a) [] fun _ => a where
  steady := .answer a
  stays := .answer fun _ => rfl
  still _ _ := rfl
  near beside _ := beside
  told _ member := absurd member List.not_mem_nil

theorem Inquires.andThen {m : List TokenKind} (first : k.Inquires ask ks φ)
    (next : ∀ a, k.Inquires (f a) m (ψ a)) :
    k.Inquires (ask >>= f) (ks ++ m) fun ts => ψ (φ ts) ts where
  steady := first.steady.andThen fun a => (next a).steady
  stays := first.stays.andThen fun a => (next a).stays.weaken fun b ts here there => there ▸ here
  still t unprobed := by
    have run : ((ask >>= f).run t).2 = ((f (ask.run t).1).run (ask.run t).2).2 := rfl
    rw [run, first.still t unprobed, (next _).still t unprobed]
  near beside other :=
    (next _).near (first.near beside fun empty member => other empty (by simp [member]))
      fun empty member => other empty (by simp [member])
  told beside member := by
    by_cases already : k.word.kind ∈ ks
    · exact (next _).steady _ (ParserState.kept_told _) _ (first.told beside already)
    · refine (next _).told (first.near beside fun _ => already) ?_
      exact (List.mem_append.mp member).resolve_left already

theorem Inquires.weaken {ks' : List TokenKind} (inquires : k.Inquires ask ks φ)
    (same : k.word.kind ∈ ks ↔ k.word.kind ∈ ks') : k.Inquires ask ks' φ :=
  { inquires with
    near := fun beside other => inquires.near beside fun empty => same.not.mpr (other empty)
    told := fun beside member => inquires.told beside (same.mpr member) }

theorem Inquires.congr {φ' : List Token → α} (inquires : k.Inquires ask ks φ)
    (same : ∀ ts, φ ts = φ' ts) : k.Inquires ask ks φ' := by
  rwa [← funext same]

theorem inquires_note (kinds : List TokenKind) (noted : List Rule) :
    k.Inquires (modify (·.note kinds noted)) kinds fun _ => () where
  steady _ kept := kept _ (.note kinds noted)
  stays s := ⟨s.note_agrees kinds noted, rfl⟩
  still _ unprobed := ParserState.note_of_unprobed unprobed _ _
  near beside other := beside.note other noted
  told beside member := beside.told member noted

theorem inquires_kindAt (n : Nat) : k.Inquires (kindAt n) [] fun ts => kindAhead ts n where
  steady _ _ _ := id
  stays := stays_kindAt n
  still _ _ := rfl
  near beside _ := beside
  told _ member := absurd member List.not_mem_nil

theorem inquires_kind : k.Inquires kind [] fun ts => kindAhead ts 0 := inquires_kindAt 0

theorem inquires_isWordAt (n : Nat) (word : String) :
    k.Inquires (isWordAt n word) [] fun ts =>
      (ts[n]?).any fun t => t.kind == .identifier && t.text == word where
  steady _ _ _ := id
  stays _ := ⟨⟨rfl, rfl, rfl, rfl, rfl⟩, rfl⟩
  still _ _ := rfl
  near beside _ := beside
  told _ member := absurd member List.not_mem_nil

theorem inquires_predict (rules : List Rule) : k.Inquires (predict rules) [] fun _ => () :=
  inquires_note [] rules

theorem word_not_punctuation (k : Fork) : k.word.kind.isPunctuation = false := by
  have reserved := k.reserved
  cases here : k.word.kind with
  | keyword => rfl
  | _ => simp [here, TokenKind.isKeyword] at reserved

theorem inquires_sees (kk : TokenKind) :
    k.Inquires (sees kk) [kk] fun ts => [kk].contains (kindAhead ts 0) := by
  refine (((inquires_note _ []).andThen fun _ => inquires_kind.andThen fun c =>
    inquires_answer (c == kk)).weaken ?_).congr fun ts => by simp [Bool.beq_eq_decide_eq]
  -- Signs are not noted, but the word is none.
  cases sign : kk.isPunctuation with
  | false => simp
  | true =>
    have other : k.word.kind ≠ kk := by
      rintro rfl
      exact absurd (k.word_not_punctuation.symm.trans sign) nofun
    simp [other]

theorem inquires_seesAny (ks : List TokenKind) :
    k.Inquires (seesAny ks) ks fun ts => ks.contains (kindAhead ts 0) := by
  induction ks with
  | nil => exact (inquires_answer false).congr fun _ => rfl
  | cons kk ks ih =>
    refine (((inquires_sees kk).andThen fun first => ih.andThen fun others =>
      inquires_answer (first || others)).weaken (by simp)).congr fun ts => ?_
    simp

end Questions

/-! ## The first parser alone -/

/-- At the caret the parser comes to nothing: it complains of the end. The word has been noted if it
is of one of the kinds, and is not noted otherwise. -/
structure Ends (p : Parser α) (ks : List TokenKind) : Prop where
  told : ∀ s, s.rest = [k.last] → Told k.word.kind s.probe → Told k.word.kind (p.run s).2.probe
  run : ∀ {rules s t}, k.Beside rules [] s t →
    (k.word.kind ∈ ks → Told k.word.kind (p.run s).2.probe) ∧
      (k.word.kind ∉ ks → k.Missed (p.run s).2)

/-- At the end the parser notes and complains, and nothing more. -/
def Idles (p : Parser α) : Prop := ∀ s, s.rest = [k.last] → Agrees s (p.run s).2

section First

variable {k} {α β : Type} {p : Parser α} {f : α → Parser β} {ks ks' : List TokenKind}

theorem ends_complain (c : Complaint) : k.Ends (complain c) [] where
  told _ _ told := Steady.complain c _ (ParserState.kept_told _) _ told
  run beside := ⟨fun member => absurd member List.not_mem_nil, fun _ => beside.complain_missed c⟩

namespace Ends

theorem andThen (first : k.Ends p ks) (next : ∀ a, Steady (f a)) : k.Ends (p >>= f) ks where
  told s here told := next _ _ (ParserState.kept_told _) _ (first.told s here told)
  run beside :=
    ⟨fun member => next _ _ (ParserState.kept_told _) _ ((first.run beside).1 member),
      fun other => next _ _ k.kept_missed _ ((first.run beside).2 other)⟩

theorem asking {φ : List Token → α} {a : α} (inquires : k.Inquires p ks φ)
    (answer : φ [k.last] = a) (next : k.Ends (f a) ks') : k.Ends (p >>= f) (ks ++ ks') where
  told s here told := by
    rw [inquires.run f here, answer]
    exact next.told _ ((inquires.stays s).1.rest.trans here)
      (inquires.steady _ (ParserState.kept_told _) s told)
  run {rules s t} beside := by
    have here : s.rest = [k.last] := beside.rest
    rw [inquires.run f here, answer]
    by_cases asked : k.word.kind ∈ ks
    · have told := next.told _ ((inquires.stays s).1.rest.trans here) (inquires.told beside asked)
      exact ⟨fun _ => told, fun other => absurd (List.mem_append_left ks' asked) other⟩
    · have waiting := next.run (inquires.near beside fun _ => asked)
      rw [List.mem_append, or_iff_right asked]
      exact waiting

theorem weaken (ends : k.Ends p ks) (same : k.word.kind ∈ ks ↔ k.word.kind ∈ ks') :
    k.Ends p ks' where
  told := ends.told
  run beside :=
    ⟨fun member => (ends.run beside).1 (same.mpr member),
      fun other => (ends.run beside).2 (same.not.mpr other)⟩

theorem within {body : Parser Unit} (ends : k.Ends body ks) (r : Rule) :
    k.Ends (within r body) ks where
  told s here told :=
    ParserState.kept_told _ _ .finish _ (ends.told _ ((s.start_agrees r).rest.trans here)
      (ParserState.kept_told _ _ (.start r) _ told))
  run beside :=
    ⟨fun member => ParserState.kept_told _ _ .finish _ ((ends.run (beside.start r)).1 member),
      fun other => k.kept_missed _ .finish _ ((ends.run (beside.start r)).2 other)⟩

end Ends

namespace Idles

theorem andThen (first : k.Idles p) (next : ∀ a, k.Idles (f a)) : k.Idles (p >>= f) := by
  intro s here
  have before := first s here
  exact before.trans (next _ _ (before.rest.trans here))

theorem asking {Q : α → List Token → Prop} (stays : Stays p Q)
    (next : ∀ a, Q a [k.last] → k.Idles (f a)) : k.Idles (p >>= f) := by
  intro s here
  obtain ⟨before, answer⟩ := stays s
  exact before.trans (next _ (here ▸ answer) _ (before.rest.trans here))

theorem answer (a : α) : k.Idles (pure a) := fun _ _ => ⟨rfl, rfl, rfl, rfl, rfl⟩

theorem complain (c : Complaint) : k.Idles (complain c) := fun s _ => s.complain_agrees c

/-- A step that is not taken. -/
theorem repeated {step : Parser Bool} (stops : k.Idles step)
    (answer : ∀ s, s.rest = [k.last] → (step.run s).1 = false) : k.Idles (repeatWhile step) := by
  intro s here
  have run : (repeatWhile step).run s = (if (step.run s).1 then
      repeatUpTo s.rest.length step else pure ()).run (step.run s).2 := rfl
  rw [run, answer s here]
  exact stops s here

end Idles

end First

/-! ## Both parsers -/

/-- Wherever the parsers come to a fork. -/
def Anywhere (_ : List Token) : Prop := True

/-- In the innermost open node the word is read unasked, with more children to come perhaps. -/
def Opened (t : ParserState) : Prop :=
  ∃ f outer, t.frames = f :: outer ∧
    Tree.ReadsUnasked k.word (.node f.id f.rule none f.children.reverse)

/-- It is settled how the prediction has done, or will be once the open node is closed, if there is
one that the parsers are inside of. -/
def Apart (inside : Option Rule) (s t : ParserState) : Prop :=
  k.Settled s t ∨ inside.isSome = true ∧ k.Opened t ∧ k.Accepted s t

/-- At a fork with tokens ahead of which `I` holds, the parsers give the same answer and stay side
by side, or come apart. They may be parts of what is inside a node of their own. -/
structure Meets (inside : Option Rule) (I : List Token → Prop) (p q : Parser α) : Prop where
  steady : Steady p
  steady' : Steady q
  run : ∀ {rules left s t}, (∀ r ∈ inside, rules.head? = some r) → I left →
    k.Beside rules left s t →
    (p.run s).1 = (q.run t).1 ∧ (∃ rest, k.Beside rules rest (p.run s).2 (q.run t).2) ∨
      k.Apart inside (p.run s).2 (q.run t).2

/-- The parsers begin with the token ahead, whether it stands before the caret or is the word. -/
structure Begins (p q : Parser α) : Prop where
  meets : k.Meets none (· ≠ []) p q
  takes : k.Takes q

theorem ne_nil_of_mem {ks : List TokenKind} {left : List Token} (unended : .endOfInput ∉ ks)
    (spotted : kindAhead left 0 ∈ ks) : left ≠ [] := by
  rintro rfl
  exact unended spotted

section Together

variable {k} {α β : Type} {inside : Option Rule} {r : Rule} {I J : List Token → Prop}
  {p q : Parser α} {f g : α → Parser β} {f' g' : Unit → Parser β} {s t : ParserState}
  {rules : List Rule} {left : List Token}

theorem Settled.onwards {p : Parser α} {q : Parser β} (settled : k.Settled s t) (steady : Steady p)
    (steady' : Steady q) : k.Settled (p.run s).2 (q.run t).2 :=
  steady' _ (k.kept_settled_second _) _ (steady _ (k.kept_settled_first t) s settled)

theorem Settled.finish (settled : k.Settled s t) : k.Settled s.finish t.finish :=
  k.kept_settled_second _ _ .finish _ (k.kept_settled_first t _ .finish s settled)

theorem Accepted.onwards {p : Parser α} {q : Parser β} (accepted : k.Accepted s t)
    (steady : Steady p) (steady' : Steady q) : k.Accepted (p.run s).2 (q.run t).2 :=
  steady' _ (k.kept_accepted_second _) _ (steady _ (k.kept_accepted_first t) s accepted)

theorem Accepted.finish (accepted : k.Accepted s t) : k.Accepted s.finish t.finish :=
  k.kept_accepted_second _ _ .finish _ (k.kept_accepted_first t _ .finish s accepted)

/-- A node is closed in which the word was read unasked. -/
theorem Opened.finish (opened : k.Opened t) (accepted : k.Accepted s t.finish) :
    k.Settled s t.finish := by
  obtain ⟨f, outer, frames, reads⟩ := opened
  have made := ParserState.made_finish frames
  have closed : (Tree.ofChildren f.id f.rule f.children.reverse).ReadsUnasked k.word := by
    rw [Tree.ofChildren]
    simpa only [List.append_nil] using reads.append []
  exact .inr (.inr ⟨.inr (.inr ⟨_, made, closed⟩), accepted⟩)

theorem settled_of_not_clean (unclean : ¬ t.Clean) (accepted : k.Accepted s t) :
    k.Settled s t := by
  by_cases reached : t.overran = true
  · exact .inr (.inl reached)
  · have complained : t.errors ≠ [] := fun silent => unclean ⟨silent, by simpa using reached⟩
    exact .inr (.inr ⟨.inl (List.exists_mem_of_ne_nil _ complained), accepted⟩)

/-- Further children do not change what the node has read, unless something is complained of. -/
theorem Opened.onwards {s : ParserState} {q : Parser β} (opened : k.Opened t) (appends : Appends q)
    (accepted : k.Accepted s (q.run t).2) : k.Apart (some r) s (q.run t).2 := by
  by_cases clean : (q.run t).2.Clean
  · obtain ⟨f, outer, frames, reads⟩ := opened
    obtain ⟨new, frames'⟩ := appends.run t clean f outer frames
    refine .inr ⟨rfl, ⟨_, _, frames', ?_⟩, accepted⟩
    simpa using reads.append new.reverse
  · exact .inl (settled_of_not_clean clean accepted)

namespace Meets

theorem answer (a : α) : k.Meets inside I (pure a) (pure a) where
  steady := .answer a
  steady' := .answer a
  run _ _ beside := .inl ⟨rfl, _, beside⟩

theorem weaken (meets : k.Meets inside J p q) (fits : ∀ left, I left → J left) :
    k.Meets inside I p q :=
  { meets with run := fun here holds => meets.run here (fits _ holds) }

/-- Some places are looked at by themselves. -/
theorem except (C : List Token → Prop)
    (there : ∀ {rules left s t}, (∀ r ∈ inside, rules.head? = some r) → I left → C left →
      k.Beside rules left s t → k.Apart inside (p.run s).2 (q.run t).2)
    (elsewhere : k.Meets inside (fun left => I left ∧ ¬ C left) p q) : k.Meets inside I p q where
  steady := elsewhere.steady
  steady' := elsewhere.steady'
  run {_ left _ _} here holds beside := by
    by_cases at_place : C left
    · exact .inr (there here holds at_place beside)
    · exact elsewhere.run here ⟨holds, at_place⟩ beside

/-- What is done anywhere may be done inside a node. -/
theorem inner (meets : k.Meets none I p q) : k.Meets inside I p q where
  steady := meets.steady
  steady' := meets.steady'
  run _ holds beside := by
    rcases meets.run nofun holds beside with together | settled | ⟨⟨⟩, -⟩
    · exact .inl together
    · exact .inr (.inl settled)

theorem andThen (first : k.Meets none I p q)
    (next : ∀ a, k.Meets inside Anywhere (f a) (g a)) : k.Meets inside I (p >>= f) (q >>= g) where
  steady := first.steady.andThen fun a => (next a).steady
  steady' := first.steady'.andThen fun a => (next a).steady'
  run {rules left s t} here holds beside := by
    have run : (p >>= f).run s = (f (p.run s).1).run (p.run s).2 := rfl
    have run' : (q >>= g).run t = (g (q.run t).1).run (q.run t).2 := rfl
    rw [run, run']
    rcases first.run nofun holds beside with ⟨same, rest, near⟩ | settled | ⟨⟨⟩, -⟩
    · rw [← same]
      exact (next _).run here trivial near
    · exact .inr (.inl (settled.onwards (next _).steady (next _).steady'))

/-- Where the word has been read unasked, what comes then is appended. -/
theorem openThen (first : k.Meets (some r) I p q)
    (next : ∀ a, k.Meets (some r) Anywhere (f a) (g a)) (appends : ∀ a, Appends (g a)) :
    k.Meets (some r) I (p >>= f) (q >>= g) where
  steady := first.steady.andThen fun a => (next a).steady
  steady' := first.steady'.andThen fun a => (next a).steady'
  run {rules left s t} here holds beside := by
    have run : (p >>= f).run s = (f (p.run s).1).run (p.run s).2 := rfl
    have run' : (q >>= g).run t = (g (q.run t).1).run (q.run t).2 := rfl
    rw [run, run']
    rcases first.run here holds beside with ⟨same, rest, near⟩ | settled | ⟨-, opened, accepted⟩
    · rw [← same]
      exact (next _).run here trivial near
    · exact .inr (.inl (settled.onwards (next _).steady (next _).steady'))
    · exact .inr (opened.onwards (appends _) (accepted.onwards (next _).steady (next _).steady'))

theorem within {body body' : Parser Unit} (meets : k.Meets (some r) I body body') :
    k.Meets inside I (within r body) (within r body') where
  steady := meets.steady.within r
  steady' := meets.steady'.within r
  run {rules left s t} _ holds beside := by
    have run : (Parser.within r body).run s = ((), (body.run (s.start r)).2.finish) := rfl
    have run' : (Parser.within r body').run t = ((), (body'.run (t.start r)).2.finish) := rfl
    rw [run, run']
    rcases meets.run (by simp) holds (beside.start r) with
      ⟨-, rest, near⟩ | settled | ⟨-, opened, accepted⟩
    · exact .inl ⟨rfl, rest, near.finish⟩
    · exact .inr (.inl settled.finish)
    · exact .inr (.inl (opened.finish accepted.finish))

theorem wrapping {body body' : Parser Unit} (meets : k.Meets (some r) I body body') :
    k.Meets inside I (wrapping r body) (wrapping r body') where
  steady := meets.steady.wrapping r
  steady' := meets.steady'.wrapping r
  run {rules left s t} _ holds beside := by
    have run : (Parser.wrapping r body).run s = ((), (body.run (s.wrap r)).2.finish) := rfl
    have run' : (Parser.wrapping r body').run t = ((), (body'.run (t.wrap r)).2.finish) := rfl
    rw [run, run']
    rcases meets.run (by simp) holds (beside.wrap r) with
      ⟨-, rest, near⟩ | settled | ⟨-, opened, accepted⟩
    · exact .inl ⟨rfl, rest, near.finish⟩
    · exact .inr (.inl settled.finish)
    · exact .inr (.inl (opened.finish accepted.finish))

/-- Before the caret both read the same token. -/
theorem bumpThen (inner : k.Meets inside J (f' ()) (g' ()))
    (ahead : ∀ left, I left → left ≠ [] ∧ J left.tail) :
    k.Meets inside I (bump >>= f') (bump >>= g') where
  steady := Steady.bump.andThen fun _ => inner.steady
  steady' := Steady.bump.andThen fun _ => inner.steady'
  run {rules left s t} here holds beside := by
    obtain ⟨some_left, behind⟩ := ahead left holds
    cases left with
    | nil => exact absurd rfl some_left
    | cons x xs => exact inner.run here behind beside.bump

theorem leafThen (inner : k.Meets inside J (f' ()) (g' ()))
    (ahead : ∀ left, I left → left ≠ [] ∧ J left.tail) :
    k.Meets inside I (Parser.leafOf r >>= f') (Parser.leafOf r >>= g') where
  steady := (Steady.leafOf r).andThen fun _ => inner.steady
  steady' := (Steady.leafOf r).andThen fun _ => inner.steady'
  run {rules left s t} here holds beside := by
    obtain ⟨some_left, behind⟩ := ahead left holds
    cases left with
    | nil => exact absurd rfl some_left
    | cons x xs => exact inner.run here behind (beside.start r).bump.finish

theorem bump (ahead : ∀ left, I left → left ≠ []) : k.Meets inside I bump bump :=
  bumpThen (.answer (I := Anywhere) ()) fun left holds => ⟨ahead left holds, trivial⟩

theorem leafOf (ahead : ∀ left, I left → left ≠ []) : k.Meets inside I (leafOf r) (leafOf r) :=
  within (.bump ahead)

/-- The end and the word are complained of, or the token before them that is ahead. -/
theorem complain (c c' : Complaint) : k.Meets inside I (complain c) (complain c') where
  steady := .complain c
  steady' := .complain c'
  run _ _ beside := .inr (.inl (beside.complain c c'))

theorem complainThen (steady : Steady (f' ())) (steady' : Steady (g' ())) (c c' : Complaint) :
    k.Meets inside I (Parser.complain c >>= f') (Parser.complain c' >>= g') where
  steady := (Steady.complain c).andThen fun _ => steady
  steady' := (Steady.complain c').andThen fun _ => steady'
  run _ _ beside := .inr (.inl ((beside.complain c c').onwards steady steady'))

/-- The same choice on both sides. -/
theorem ite {c : Bool} {p' q' : Parser α} (yes : k.Meets inside I p q)
    (no : k.Meets inside I p' q') :
    k.Meets inside I (if c then p else p') (if c then q else q') := by
  cases c
  · exact no
  · exact yes

theorem iteThen {c : Bool} {p q : Parser Unit} (yes : k.Meets none I p q)
    (rest : ∀ {J}, k.Meets inside J (f' ()) (g' ())) :
    k.Meets inside I (if c then p >>= f' else f' ()) (if c then q >>= g' else g' ()) :=
  .ite (.andThen yes fun _ => rest) rest

/-- A question. At the caret the answers differ only if the probe is told of the word. -/
theorem asking {ask : Parser α} {ks : List TokenKind} {φ : List Token → α}
    (inquires : k.Inquires ask ks φ)
    (same : ∀ left, I left → (left = [] → k.word.kind ∉ ks) →
      φ (left ++ [k.last]) = φ (left ++ k.word :: k.behind))
    (takes : I [] → k.word.kind ∈ ks → k.Takes (g (φ (k.word :: k.behind))))
    (next : ∀ a, k.Meets inside (fun left => I left ∧ φ (left ++ [k.last]) = a ∧
      φ (left ++ k.word :: k.behind) = a ∧ (left = [] → k.word.kind ∉ ks)) (f a) (g a)) :
    k.Meets inside I (ask >>= f) (ask >>= g) where
  steady := inquires.steady.andThen fun a => (next a).steady
  steady' := inquires.steady.andThen fun a => (next a).steady'
  run {rules left s t} here holds beside := by
    rw [inquires.run f beside.rest, inquires.run_unprobed g beside.rest' beside.unprobed]
    by_cases asked : left = [] ∧ k.word.kind ∈ ks
    · obtain ⟨rfl, asked⟩ := asked
      have comes : k.Comes t := ⟨beside.rest', beside.silent', beside.unprobed⟩
      have told := (next (φ [k.last])).steady _ (ParserState.kept_told _) _
        (inquires.told beside asked)
      have took := takes holds asked t comes
      exact .inr (.inl (.inr (.inr ⟨.inr (.inl told), .inr (.inr (.inl took))⟩)))
    · have other : left = [] → k.word.kind ∉ ks := fun empty member => asked ⟨empty, member⟩
      rw [← same left holds other]
      exact (next _).run here ⟨holds, rfl, (same left holds other).symm, other⟩
        (inquires.near beside other)

/-- A question that does not concern the word and has the same answer on both sides. -/
theorem ask {ask : Parser α} {φ : List Token → α} (inquires : k.Inquires ask [] φ)
    (same : ∀ left, φ (left ++ [k.last]) = φ (left ++ k.word :: k.behind)) :
    k.Meets inside I ask ask where
  steady := inquires.steady
  steady' := inquires.steady
  run {rules left s t} _ _ beside := by
    rw [inquires.answers beside.rest, inquires.answers beside.rest',
      inquires.still t beside.unprobed]
    exact .inl ⟨same left, left, inquires.near beside fun _ => List.not_mem_nil⟩

/-- The same where something follows that depends on the answer. -/
theorem deciding {ask : Parser α} {φ : List Token → α} (inquires : k.Inquires ask [] φ)
    (same : ∀ left, φ (left ++ [k.last]) = φ (left ++ k.word :: k.behind))
    (next : ∀ a, k.Meets inside (fun left => I left ∧ φ (left ++ [k.last]) = a) (f a) (g a)) :
    k.Meets inside I (ask >>= f) (ask >>= g) := by
  refine asking inquires (fun left _ _ => same left)
    (fun _ member => absurd member List.not_mem_nil) fun a => (next a).weaken ?_
  rintro left ⟨holds, answer, -⟩
  exact ⟨holds, answer⟩

/-- A question before the caret. -/
theorem before {ask : Parser α} {ks : List TokenKind} {φ : List Token → α}
    (inquires : k.Inquires ask ks φ) (some_left : ∀ left, I left → left ≠ [])
    (same : ∀ x xs, φ (x :: xs ++ [k.last]) = φ (x :: xs ++ k.word :: k.behind))
    (next : ∀ a, k.Meets inside (fun left => I left ∧ φ (left ++ [k.last]) = a) (f a) (g a)) :
    k.Meets inside I (ask >>= f) (ask >>= g) := by
  refine asking inquires (fun left holds _ => ?_)
    (fun none_left => absurd rfl (some_left [] none_left)) fun a => (next a).weaken ?_
  · cases left with
    | nil => exact absurd rfl (some_left [] holds)
    | cons x xs => exact same x xs
  · rintro left ⟨holds, answer, -⟩
    exact ⟨holds, answer⟩

/-- The kind of the token ahead decides. At the caret it is the end's on one side and the word's on
the other. -/
theorem onKind {f g : TokenKind → Parser β}
    (at_caret : k.Meets inside (· = []) (f .endOfInput) (g k.word.kind))
    (before : ∀ a, k.Meets inside (fun left => I left ∧ left ≠ [] ∧ kindAhead left 0 = a)
      (f a) (g a)) :
    k.Meets inside I (kind >>= f) (kind >>= g) where
  steady := (inquires_kind (k := k)).steady.andThen fun a => (before a).steady
  steady' := (inquires_kind (k := k)).steady.andThen fun a => (before a).steady'
  run {rules left s t} here holds beside := by
    have run : (kind >>= f).run s = (f (kindAhead s.rest 0)).run s := rfl
    have run' : (kind >>= g).run t = (g (kindAhead t.rest 0)).run t := rfl
    rw [run, run', beside.rest, beside.rest']
    cases left with
    | nil =>
      have ended : kindAhead ([] ++ [k.last]) 0 = .endOfInput := k.ended
      rw [ended]
      exact at_caret.run here rfl beside
    | cons x xs => exact (before x.kind).run here ⟨holds, List.cons_ne_nil x xs, rfl⟩ beside

section Seeing

variable {ask : Parser Bool} {ks : List TokenKind}

/-- A question for a kind. The parser that follows if the token ahead is of such a kind reads it. -/
theorem seeing {f g : Bool → Parser β}
    (inquires : k.Inquires ask ks fun ts => ks.contains (kindAhead ts 0))
    (unended : .endOfInput ∉ ks) (takes : k.word.kind ∈ ks → k.Takes (g true))
    (yes : k.Meets inside (fun left => I left ∧ kindAhead left 0 ∈ ks) (f true) (g true))
    (no : k.Meets inside (fun left => I left ∧ (left = [] → k.word.kind ∉ ks))
      (f false) (g false)) :
    k.Meets inside I (ask >>= f) (ask >>= g) := by
  refine asking inquires ?_ ?_ fun a => ?_
  · intro left _ other
    cases left with
    | nil =>
      have first : ks.contains k.last.kind = false := by simpa [k.ended] using unended
      have second : ks.contains k.word.kind = false := by simpa using other rfl
      exact first.trans second.symm
    | cons x xs => rfl
  · intro _ member
    have spotted : ks.contains (kindAhead (k.word :: k.behind) 0) = true := by
      simpa [kindAhead] using member
    rw [spotted]
    exact takes member
  · cases a with
    | false =>
      apply no.weaken
      rintro left ⟨holds, -, -, other⟩
      exact ⟨holds, other⟩
    | true =>
      apply yes.weaken
      rintro left ⟨holds, spotted, -⟩
      refine ⟨holds, ?_⟩
      cases left with
      | nil =>
        have reached : kindAhead [k.last] 0 = .endOfInput := k.ended
        rw [List.nil_append, reached] at spotted
        exact absurd (List.contains_iff_mem.mp spotted) unended
      | cons x xs => exact List.contains_iff_mem.mp spotted

/-- One of two parsers, of which the first begins with the token ahead. -/
theorem ifSeen {p' q' : Parser α}
    (inquires : k.Inquires ask ks fun ts => ks.contains (kindAhead ts 0))
    (unended : .endOfInput ∉ ks) (yes : k.Begins p q)
    (no : k.Meets inside (fun left => I left ∧ (left = [] → k.word.kind ∉ ks)) p' q') :
    k.Meets inside I (ask >>= fun ahead => if ahead then p else p')
      (ask >>= fun ahead => if ahead then q else q') :=
  seeing inquires unended (fun _ => yes.takes)
    (yes.meets.inner.weaken fun _ spotted => ne_nil_of_mem unended spotted.2) no

/-- A parser that may be left out before the others. -/
theorem ifSeenThen {p q : Parser Unit}
    (inquires : k.Inquires ask ks fun ts => ks.contains (kindAhead ts 0))
    (unended : .endOfInput ∉ ks) (yes : k.Begins p q)
    (rest : ∀ {J}, k.Meets inside J (f' ()) (g' ())) :
    k.Meets inside I (ask >>= fun ahead => if ahead then p >>= f' else f' ())
      (ask >>= fun ahead => if ahead then q >>= g' else g' ()) := by
  refine seeing inquires unended (fun _ => ?_) ?_ rest
  · exact yes.takes.andThen fun _ => (rest (J := I)).steady'
  · refine .andThen (yes.meets.weaken fun _ spotted => ?_) fun _ => rest
    exact ne_nil_of_mem unended spotted.2

/-- A step that runs a parser if it is asked for. -/
theorem step {item item' : Parser Unit}
    (inquires : k.Inquires ask ks fun ts => ks.contains (kindAhead ts 0))
    (unended : .endOfInput ∉ ks) (yes : k.Begins item item') :
    k.Meets inside I (do
      let ahead ← ask
      if ahead then item
      return ahead) (do
      let ahead ← ask
      if ahead then item'
      return ahead) := by
  refine seeing inquires unended (fun _ => yes.takes.andThen fun _ => .answer _) ?_ (.answer _)
  refine .andThen (yes.meets.weaken fun _ spotted => ?_) fun _ => .answer _
  exact ne_nil_of_mem unended spotted.2

end Seeing

theorem overrunFirst {q : Parser Unit} (steady' : Steady q) : k.Meets inside I overrun q :=
  ⟨.overrun, steady', fun _ _ _ => .inr (.inl (.inl rfl))⟩

theorem overrunSecond {p : Parser Unit} (steady : Steady p) : k.Meets inside I p overrun :=
  ⟨steady, .overrun, fun _ _ _ => .inr (.inl (.inr (.inl rfl)))⟩

/-- Repetitions may have different bounds. -/
theorem repeatUpTo {step step' : Parser Bool} (steps : k.Meets none Anywhere step step')
    (a b : Nat) : k.Meets none Anywhere (repeatUpTo a step) (repeatUpTo b step') := by
  induction a generalizing b with
  | zero => exact .overrunFirst (steps.steady'.repeatUpTo b)
  | succ a ih =>
    cases b with
    | zero => exact .overrunSecond (steps.steady.repeatUpTo (a + 1))
    | succ b => exact steps.andThen fun _ => .ite (ih b) (.answer ())

theorem repeated {step step' : Parser Bool} (steps : k.Meets none Anywhere step step') :
    k.Meets inside I (repeatWhile step) (repeatWhile step') where
  steady := steps.steady.repeated
  steady' := steps.steady'.repeated
  run here _ beside := Meets.run (.inner (steps.repeatUpTo _ _)) here trivial beside

end Meets

namespace Begins

theorem bump : k.Begins bump bump := ⟨.bump fun _ => id, takes_bump⟩

theorem andThen (first : k.Begins p q) (next : ∀ a, k.Meets none Anywhere (f a) (g a)) :
    k.Begins (p >>= f) (q >>= g) :=
  ⟨first.meets.andThen next, first.takes.andThen fun a => (next a).steady'⟩

/-- A node that begins with the token ahead. -/
theorem node {f' g' : Parser Unit} (rest : k.Meets (some r) Anywhere f' g') :
    k.Begins (within r (Parser.bump >>= fun _ => f')) (within r (Parser.bump >>= fun _ => g')) where
  meets := .within (.bumpThen rest fun _ some_left => ⟨some_left, trivial⟩)
  takes := (takes_bump.andThen fun _ => rest.steady').within r

/-- A node around the latest child that begins with the token ahead. -/
theorem wrapped {f' g' : Parser Unit} (rest : k.Meets (some r) Anywhere f' g') :
    k.Begins (wrapping r (Parser.bump >>= fun _ => f'))
      (wrapping r (Parser.bump >>= fun _ => g')) where
  meets := .wrapping (.bumpThen rest fun _ some_left => ⟨some_left, trivial⟩)
  takes := (takes_bump.andThen fun _ => rest.steady').wrapping r

theorem leafOf : k.Begins (leafOf r) (leafOf r) := ⟨.leafOf fun _ => id, takes_leafOf r⟩

end Begins

end Together

end Fork

end XuleLang
