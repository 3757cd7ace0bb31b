import XuleLang.Proofs.Parser.Composition
import XuleLang.Proofs.Parser.Lossless

/-!
Prediction looks at most one token past the caret.

Two parsers with probes at the same place are run on tokens that look the same up to the one behind
the caret. Up to the caret they ask only for tokens that look the same, so they take the same steps
and note the same things. What they do with the token at the caret ends the probing on both sides:
from then on they may go different ways, but neither notes anything more. Before, no complaint and
no limit of nesting can part them, since these too depend only on what the tokens look like.

A parser with a probe and one without take the same steps throughout.
-/

namespace XuleLang

namespace ParserState

variable {s t : ParserState} {c : Nat}

/-! ## Probes side by side -/

theorem note_of_probe {p : Probe} (here : s.probe = some p) (ks : List TokenKind)
    (rs : List Rule) :
    s.note ks rs = if p.done || p.caret != s.consumed then s
      else { s with probe := some (p.note ks (s.rules ++ rs)) } := by
  simp only [note, here]

theorem settle_of_probe {p : Probe} (here : s.probe = some p) :
    s.settle = if p.caret ≤ s.consumed then { s with probe := some { p with done := true } }
      else s := by
  simp only [settle, here]

theorem complain_eq_settle (s : ParserState) (c : Complaint) :
    ∃ errors, s.complain c = { s.settle with errors := errors } := by
  unfold complain
  dsimp only
  split <;> exact ⟨_, rfl⟩

/-- Where the probes are not done, and the tokens look the same up to the one behind the caret. -/
structure Abreast (c : Nat) (s t : ParserState) : Prop where
  probe : ∃ p, s.probe = some p ∧ t.probe = some p ∧ p.done = false ∧ p.caret = c
  consumed : t.consumed = s.consumed
  before : s.consumed ≤ c
  rules : t.rules = s.rules
  looks : (t.rest.take (c + 2 - s.consumed)).map Token.look =
    (s.rest.take (c + 2 - s.consumed)).map Token.look

/-- Where a bound was reached, or the probes are done and have noted the same. -/
def Parted (s t : ParserState) : Prop :=
  s.overran = true ∨ t.overran = true ∨ ∃ p, p.done = true ∧ s.probe = some p ∧ t.probe = some p

namespace Abreast

theorem transfer {s' t' : ParserState} (abreast : Abreast c s t) (same : Reseen s s')
    (same' : Reseen t t') (rules : t'.rules = s'.rules) : Abreast c s' t' := by
  refine ⟨?_, ?_, ?_, rules, ?_⟩
  · rw [same.probe, same'.probe]
    exact abreast.probe
  · rw [same.consumed, same'.consumed, abreast.consumed]
  · rw [same.consumed]
    exact abreast.before
  · rw [same.consumed, same.rest, same'.rest]
    exact abreast.looks

theorem ahead (abreast : Abreast c s t) : s.ahead = t.ahead := by
  have near : 2 ≤ c + 2 - s.consumed := by
    have := abreast.before
    omega
  have shorter := congrArg (List.take 2) abreast.looks
  symm
  simpa only [ParserState.ahead, List.map_take, List.take_take, Nat.min_eq_left near] using shorter

theorem note (abreast : Abreast c s t) (ks : List TokenKind) (rs : List Rule) :
    Abreast c (s.note ks rs) (t.note ks rs) := by
  obtain ⟨p, here, there, waiting, caret⟩ := abreast.probe
  rw [note_of_probe here, note_of_probe there, abreast.consumed, abreast.rules]
  split
  · exact abreast
  · exact { abreast with probe := ⟨_, rfl, rfl, waiting, caret⟩, consumed := rfl }

/-- What is done at the caret ends the probing. -/
theorem settle (abreast : Abreast c s t) :
    Abreast c s.settle t.settle ∧ s.consumed < c ∨ Parted s.settle t.settle := by
  obtain ⟨p, here, there, waiting, caret⟩ := abreast.probe
  rw [settle_of_probe here, settle_of_probe there, abreast.consumed, caret]
  split
  case isTrue reached => exact .inr (.inr (.inr ⟨_, rfl, rfl, rfl⟩))
  case isFalse ahead => exact .inl ⟨abreast, Nat.lt_of_not_le ahead⟩

theorem complain (abreast : Abreast c s t) (w : Complaint) :
    Abreast c (s.complain w) (t.complain w) ∨ Parted (s.complain w) (t.complain w) := by
  obtain ⟨es, complained⟩ := s.complain_eq_settle w
  obtain ⟨es', complained'⟩ := t.complain_eq_settle w
  rw [complained, complained']
  rcases abreast.settle with ⟨on, -⟩ | parted
  · exact .inl { on with }
  · exact .inr parted

theorem bump (abreast : Abreast c s t) : Abreast c s.bump t.bump ∨ Parted s.bump t.bump := by
  have some_left : c + 2 - s.consumed = c + 1 - s.consumed + 1 := by
    have := abreast.before
    omega
  have looks := abreast.looks
  rw [some_left] at looks
  cases here : s.rest with
  | nil =>
    have there : t.rest = [] := by simpa [here] using looks
    simp only [ParserState.bump, here, there]
    exact .inl abreast
  | cons x xs =>
    obtain ⟨y, ys, there, look, behind⟩ : ∃ y ys, t.rest = y :: ys ∧ y.look = x.look ∧
        (ys.take (c + 1 - s.consumed)).map Token.look =
          (xs.take (c + 1 - s.consumed)).map Token.look := by
      cases there : t.rest with
      | nil => simp [here, there] at looks
      | cons y ys => exact ⟨y, ys, rfl, by simpa [here, there] using looks⟩
    obtain ⟨u, same, rules, read⟩ := bump_eq_settle here
    obtain ⟨v, same', rules', read'⟩ := bump_eq_settle there
    have attached : Abreast c u v :=
      abreast.transfer same same' (by rw [rules, rules', abreast.rules])
    have kind : y.kind = x.kind := congrArg Prod.fst look
    rw [read, read', kind]
    rcases attached.settle with ⟨on, before⟩ | parted
    · split
      · exact .inl on
      · rw [same.consumed] at before
        refine .inl ⟨on.probe, congrArg (· + 1) abreast.consumed, before, on.rules, ?_⟩
        rwa [show c + 2 - (s.consumed + 1) = c + 1 - s.consumed by omega]
    · split <;> exact .inr parted

theorem opened {s' t' u v : ParserState} (abreast : Abreast c s t) {r : Rule}
    (first : s' = u.note [] [] ∧ Reseen s u ∧ u.rules = r :: s.rules)
    (second : t' = v.note [] [] ∧ Reseen t v ∧ v.rules = r :: t.rules) : Abreast c s' t' := by
  obtain ⟨rfl, same, rules⟩ := first
  obtain ⟨rfl, same', rules'⟩ := second
  exact (abreast.transfer same same' (by rw [rules, rules', abreast.rules])).note [] []

theorem start (abreast : Abreast c s t) (r : Rule) : Abreast c (s.start r) (t.start r) := by
  obtain ⟨u, first⟩ := s.start_eq_note r
  obtain ⟨v, second⟩ := t.start_eq_note r
  exact abreast.opened first second

theorem wrap (abreast : Abreast c s t) (r : Rule) : Abreast c (s.wrap r) (t.wrap r) := by
  obtain ⟨u, first⟩ := s.wrap_eq_note r
  obtain ⟨v, second⟩ := t.wrap_eq_note r
  exact abreast.opened first second

theorem finish (abreast : Abreast c s t) : Abreast c s.finish t.finish := by
  refine abreast.transfer s.finish_reseen.1 t.finish_reseen.1 ?_
  rw [s.finish_reseen.2, t.finish_reseen.2, abreast.rules]

end Abreast

/-- What is kept of a probe by noting and by settling, is kept by every operation. -/
theorem kept_of_probe {I : Option Probe → Prop}
    (noted : ∀ (s : ParserState) ks rs, I s.probe → I (s.note ks rs).probe)
    (settled : ∀ s : ParserState, I s.probe → I s.settle.probe) : Kept fun s => I s.probe := by
  intro f op s here
  cases op with
  | note kinds rules => exact noted s kinds rules here
  | bump =>
    cases ahead : s.rest with
    | nil => simpa only [bump, ahead] using here
    | cons t rest =>
      obtain ⟨u, same, -, read⟩ := bump_eq_settle ahead
      have told := settled u (same.probe ▸ here)
      rw [read]
      split <;> exact told
  | complain c =>
    obtain ⟨errors, complained⟩ := s.complain_eq_settle c
    change I (s.complain c).probe
    rw [complained]
    exact settled s here
  | overrun => exact here
  | start r =>
    obtain ⟨u, started, same, -⟩ := s.start_eq_note r
    change I (s.start r).probe
    rw [started]
    exact noted u [] [] (same.probe ▸ here)
  | wrap r =>
    obtain ⟨u, wrapped, same, -⟩ := s.wrap_eq_note r
    change I (s.wrap r).probe
    rw [wrapped]
    exact noted u [] [] (same.probe ▸ here)
  | finish => exact s.finish_reseen.1.probe ▸ here

/-- A probe that is done notes nothing more. -/
theorem kept_done {p : Probe} (done : p.done = true) : Kept fun s => s.probe = some p := by
  refine kept_of_probe (I := (· = some p)) (fun s ks rs here => ?_) fun s here => ?_
  · simpa [note_of_probe here, done] using here
  · rw [settle_of_probe here]
    split
    · exact congrArg some (by rw [← done])
    · exact here

theorem coupled_abreast (c : Nat) : Parser.Coupled (fun _ => Abreast c) Parted where
  ahead := Abreast.ahead
  note ks rs abreast := abreast.note ks rs
  bump := Abreast.bump
  complain c abreast := abreast.complain c
  start r abreast := abreast.start r
  wrap r abreast := abreast.wrap r
  finish := Abreast.finish
  overrunFirst _ := .inl rfl
  overrunSecond _ := .inr (.inl rfl)
  keptFirst _ :=
    kept_overran.or <| Kept.always.or <| .anyOf fun _ f op s ⟨done, here, there⟩ =>
      ⟨done, kept_done done f op s here, there⟩
  keptSecond _ :=
    Kept.always.or <| kept_overran.or <| .anyOf fun _ f op t ⟨done, here, there⟩ =>
      ⟨done, here, kept_done done f op t there⟩

/-! ## With and without a probe -/

/-- Where the states differ in the probe at most. -/
def Unprobed (s t : ParserState) : Prop := ∃ probe, t = { s with probe := probe }

theorem note_unprobed (s : ParserState) (ks : List TokenKind) (rs : List Rule) :
    Unprobed s (s.note ks rs) := by
  fun_cases note s ks rs <;> exact ⟨_, rfl⟩

theorem settle_unprobed (s : ParserState) : Unprobed s s.settle := by
  fun_cases settle s <;> exact ⟨_, rfl⟩

namespace Unprobed

theorem trans {u : ParserState} (first : Unprobed s t) (second : Unprobed t u) : Unprobed s u := by
  obtain ⟨probe, rfl⟩ := first
  obtain ⟨probe', rfl⟩ := second
  exact ⟨probe', rfl⟩

theorem symm (same : Unprobed s t) : Unprobed t s := by
  obtain ⟨probe, rfl⟩ := same
  exact ⟨s.probe, rfl⟩

theorem note (same : Unprobed s t) (ks : List TokenKind) (rs : List Rule) :
    Unprobed (s.note ks rs) (t.note ks rs) :=
  (s.note_unprobed ks rs).symm.trans (same.trans (t.note_unprobed ks rs))

theorem settle (same : Unprobed s t) : Unprobed s.settle t.settle :=
  s.settle_unprobed.symm.trans (same.trans t.settle_unprobed)

theorem attach (same : Unprobed s t) (u : Tree) : Unprobed (s.attach u) (t.attach u) := by
  obtain ⟨probe, rfl⟩ := same
  cases frames : s.frames with
  | nil => exact ⟨probe, by simp only [ParserState.attach, frames]⟩
  | cons f outer => exact ⟨probe, by simp only [ParserState.attach, frames]⟩

theorem bump (same : Unprobed s t) : Unprobed s.bump t.bump := by
  cases here : s.rest with
  | nil =>
    obtain ⟨probe, rfl⟩ := same
    exact ⟨probe, by simp only [ParserState.bump, here]⟩
  | cons x xs =>
    have there : t.rest = x :: xs := by
      obtain ⟨probe, rfl⟩ := same
      exact here
    have number : t.nextId = s.nextId := by
      obtain ⟨probe, rfl⟩ := same
      rfl
    have read : Unprobed { s.attach (.leaf ⟨s.nextId, x⟩) with nextId := s.nextId + 1 }
        { t.attach (.leaf ⟨s.nextId, x⟩) with nextId := s.nextId + 1 } := by
      obtain ⟨probe, attached⟩ := same.attach (.leaf ⟨s.nextId, x⟩)
      exact ⟨probe, by rw [attached]⟩
    obtain ⟨probe, settled⟩ := read.settle
    simp only [ParserState.bump, here, there, number, settled]
    split <;> exact ⟨probe, rfl⟩

theorem complain (same : Unprobed s t) (c : Complaint) :
    Unprobed (s.complain c) (t.complain c) := by
  obtain ⟨probe, settled⟩ := same.settle
  by_cases repeated : s.settle.errors.head?.any fun e =>
      e.span.any fun span => span.start.offset == s.settle.span.start.offset
  · have first : s.complain c = s.settle := if_pos repeated
    have second : t.complain c = { s.settle with probe := probe } := by
      unfold ParserState.complain
      rw [settled]
      exact if_pos repeated
    exact ⟨probe, by rw [first, second]⟩
  · have first : s.complain c =
        { s.settle with errors := ⟨c, some s.settle.span⟩ :: s.settle.errors } := if_neg repeated
    have second : t.complain c =
        { s.settle with errors := ⟨c, some s.settle.span⟩ :: s.settle.errors, probe := probe } := by
      unfold ParserState.complain
      rw [settled]
      exact if_neg repeated
    exact ⟨probe, by rw [first, second]⟩

theorem start (same : Unprobed s t) (r : Rule) : Unprobed (s.start r) (t.start r) := by
  obtain ⟨probe, rfl⟩ := same
  exact note ⟨probe, rfl⟩ [] []

theorem wrap (same : Unprobed s t) (r : Rule) : Unprobed (s.wrap r) (t.wrap r) := by
  have opened : t.frames = s.frames := by
    obtain ⟨probe, rfl⟩ := same
    rfl
  cases frames : s.frames with
  | nil =>
    have first : s.wrap r = s.start r := by simp only [ParserState.wrap, frames]
    have second : t.wrap r = t.start r := by simp only [ParserState.wrap, opened, frames]
    rw [first, second]
    exact same.start r
  | cons f outer =>
    cases children : f.children with
    | nil =>
      rw [wrap_of_no_child frames children, wrap_of_no_child (opened.trans frames) children]
      exact same.start r
    | cons c cs =>
      simp only [ParserState.wrap, opened, frames, children]
      obtain ⟨probe, rfl⟩ := same
      exact note ⟨probe, rfl⟩ [] []

theorem finish (same : Unprobed s t) : Unprobed s.finish t.finish := by
  obtain ⟨probe, rfl⟩ := same
  cases frames : s.frames with
  | nil => exact ⟨probe, by simp only [ParserState.finish, frames]⟩
  | cons f outer =>
    simp only [ParserState.finish, frames]
    exact attach ⟨probe, rfl⟩ _

end Unprobed

theorem inStep_unprobed : Parser.InStep fun _ => Unprobed where
  ahead := by
    rintro - s - ⟨probe, rfl⟩
    rfl
  note ks rs same := same.note ks rs
  bump := Unprobed.bump
  complain c same := same.complain c
  start r same := same.start r
  wrap r same := same.wrap r
  finish := Unprobed.finish

end ParserState

open XuleLang.Parser

variable {tokens : List Token}

/-- Probing changes neither the tree nor the complaints. -/
theorem runFile_unprobed (ends : EndsOnce (visibleTokens tokens)) (probe : Option Probe) :
    (runFile tokens probe).finished = (runFile tokens none).finished ∧
      (runFile tokens probe).errors = (runFile tokens none).errors := by
  have begin : ParserState.Unprobed (.ofTokens (visibleTokens tokens) none)
      (.ofTokens (visibleTokens tokens) probe) := ⟨probe, rfl⟩
  have run : ParserState.Unprobed (runFile tokens none) (runFile tokens probe) := by
    rcases wholeFile_alike.coupled ParserState.inStep_unprobed.coupled (n := 0) nofun begin with
      ⟨-, same⟩ | parted
    · exact same
    · rcases parted with reached | reached
      · exact absurd ((runFile_builds ends none).1.symm.trans reached) nofun
      · exact absurd ((runFile_builds ends probe).1.symm.trans reached) nofun
  obtain ⟨probe', same⟩ := run
  rw [same]
  exact ⟨rfl, rfl⟩

/-- Probes at the same place of tokens that look the same up to the one behind it note the same. -/
theorem runFile_probe_eq {tokens' : List Token} {c : Nat} (ends : EndsOnce (visibleTokens tokens))
    (ends' : EndsOnce (visibleTokens tokens'))
    (same : ∀ i ≤ c + 1, ((visibleTokens tokens)[i]?).map Token.look =
      ((visibleTokens tokens')[i]?).map Token.look) :
    (runFile tokens (some ⟨c, false, [], []⟩)).probe =
      (runFile tokens' (some ⟨c, false, [], []⟩)).probe := by
  have looks : ((visibleTokens tokens').take (c + 2)).map Token.look =
      ((visibleTokens tokens).take (c + 2)).map Token.look := by
    refine List.ext_getElem? fun i => ?_
    simp only [List.getElem?_map, List.getElem?_take]
    split
    case isTrue near => exact (same i (by omega)).symm
    case isFalse => rfl
  have begin : ParserState.Abreast c
      (.ofTokens (visibleTokens tokens) (some ⟨c, false, [], []⟩))
      (.ofTokens (visibleTokens tokens') (some ⟨c, false, [], []⟩)) :=
    ⟨⟨_, rfl, rfl, rfl, rfl⟩, rfl, Nat.zero_le c, rfl, looks⟩
  have run := wholeFile_alike.coupled (ParserState.coupled_abreast c) (n := 0) nofun begin
  rcases run with ⟨-, abreast⟩ | parted
  · obtain ⟨p, first, second, -⟩ := abreast.probe
    exact first.trans second.symm
  · rcases parted with reached | reached | ⟨p, -, first, second⟩
    · exact absurd ((runFile_builds ends _).1.symm.trans reached) nofun
    · exact absurd ((runFile_builds ends' _).1.symm.trans reached) nofun
    · exact first.trans second.symm

/-- **Prediction looks at most one token past the caret.** If two carets stand at the same place
among the visible tokens, and these have the same kinds and texts up to the one behind the caret,
then the same could stand there. Probing changes neither the tree nor the complaints. -/
theorem prediction_stops_behind_the_caret {tokens' : List Token} {index index' c : Nat}
    (ends : EndsOnce (visibleTokens tokens)) (ends' : EndsOnce (visibleTokens tokens'))
    (here : caretOf tokens index = c) (there : caretOf tokens' index' = c)
    (same : ∀ i ≤ c + 1, ((visibleTokens tokens)[i]?).map Token.look =
      ((visibleTokens tokens')[i]?).map Token.look) :
    candidatesAt tokens index = candidatesAt tokens' index' ∧
    ∀ probe, (runFile tokens probe).finished = (runFile tokens none).finished ∧
      (runFile tokens probe).errors = (runFile tokens none).errors := by
  refine ⟨?_, runFile_unprobed ends⟩
  unfold candidatesAt
  rw [here, there, runFile_probe_eq ends ends' same]

/-- A call that is closed, with another declaration behind it. -/
def closedCall : List Token := tokensOf "constant $a = f(1) constant $b = 3"

/-- The same call in other whitespace, with a comment in it and stray tokens behind it. -/
def strayCall : List Token := tokensOf "constant $a = f( 1 // first\n) ) assert x"

/-- What could stand in the place of the argument depends on nothing behind the parenthesis. -/
theorem argument_is_predicted_before_stray_tokens :
    (visibleTokens closedCall).length = 12 ∧ (visibleTokens strayCall).length = 11 ∧
    candidatesAt closedCall 8 = candidatesAt strayCall 8 ∧
    ∀ probe, (runFile closedCall probe).finished = (runFile closedCall none).finished ∧
      (runFile closedCall probe).errors = (runFile closedCall none).errors := by
  have ends : EndsOnce (visibleTokens closedCall) := by decide +kernel
  have ends' : EndsOnce (visibleTokens strayCall) := by decide +kernel
  have here : caretOf closedCall 8 = 5 := by decide +kernel
  have there : caretOf strayCall 8 = 5 := by decide +kernel
  have same : ∀ i ≤ 5 + 1, ((visibleTokens closedCall)[i]?).map Token.look =
      ((visibleTokens strayCall)[i]?).map Token.look := by decide +kernel
  exact ⟨by decide +kernel, by decide +kernel,
    prediction_stops_behind_the_caret ends ends' here there same⟩

end XuleLang
