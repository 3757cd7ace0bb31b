import XuleLang.Proofs.Parser.Building

/-!
What the operations of a parser's state keep.

There are seven operations, and everything that a parser does is made of them. A property that each
of them keeps is kept by every parser. Opening and closing nodes changes the tree and what is noted,
and nothing else.
-/

namespace XuleLang.ParserState

/-- What a parser can do to its state. -/
inductive Operation : (ParserState → ParserState) → Prop where
  | note (kinds : List TokenKind) (rules : List Rule) : Operation (·.note kinds rules)
  | bump : Operation bump
  | complain (c : Complaint) : Operation (·.complain c)
  | overrun : Operation overrun
  | start (r : Rule) : Operation (·.start r)
  | wrap (r : Rule) : Operation (·.wrap r)
  | finish : Operation finish

/-- Every operation keeps the property. -/
def Kept (I : ParserState → Prop) : Prop := ∀ f, Operation f → ∀ s, I s → I (f s)

namespace Kept

variable {I J : ParserState → Prop}

theorem always {a : Prop} : Kept fun _ => a := fun _ _ _ => id

theorem or (first : Kept I) (second : Kept J) : Kept fun s => I s ∨ J s :=
  fun f op s => Or.imp (first f op s) (second f op s)

theorem anyOf {ι : Type} {I : ι → ParserState → Prop} (each : ∀ i, Kept (I i)) :
    Kept fun s => ∃ i, I i s :=
  fun f op s => Exists.imp fun i => each i f op s

end Kept

/-- The states differ in the tree at most. -/
structure Reseen (s t : ParserState) : Prop where
  rest : t.rest = s.rest
  consumed : t.consumed = s.consumed
  errors : t.errors = s.errors
  overran : t.overran = s.overran
  probe : t.probe = s.probe

section Nodes

variable (s : ParserState)

theorem attach_reseen (t : Tree) : Reseen s (s.attach t) := by
  unfold attach
  split <;> exact ⟨rfl, rfl, rfl, rfl, rfl⟩

@[simp] theorem attach_rules (t : Tree) : (s.attach t).rules = s.rules := by
  unfold attach
  split
  case h_1 => rfl
  case h_2 f outer frames => simp [rules, frames]

/-- A node that is opened has its rule noted. -/
theorem start_eq_note (r : Rule) :
    ∃ u : ParserState, s.start r = u.note [] [] ∧ Reseen s u ∧ u.rules = r :: s.rules :=
  ⟨_, rfl, ⟨rfl, rfl, rfl, rfl, rfl⟩, rfl⟩

theorem wrap_eq_note (r : Rule) :
    ∃ u : ParserState, s.wrap r = u.note [] [] ∧ Reseen s u ∧ u.rules = r :: s.rules := by
  unfold wrap
  split
  case h_1 => exact s.start_eq_note r
  case h_2 f outer frames =>
    split
    · exact s.start_eq_note r
    · exact ⟨_, rfl, ⟨rfl, rfl, rfl, rfl, rfl⟩, by simp [rules, frames]⟩

theorem finish_reseen : Reseen s s.finish ∧ s.finish.rules = s.rules.tail := by
  unfold finish
  split
  case h_1 frames => exact ⟨⟨rfl, rfl, rfl, rfl, rfl⟩, by simp [rules, frames]⟩
  case h_2 f outer frames =>
    obtain ⟨rest, consumed, errors, overran, probe⟩ := attach_reseen { s with frames := outer }
      (Tree.ofChildren f.id f.rule f.children.reverse)
    refine ⟨⟨rest, consumed, errors, overran, probe⟩, (attach_rules _ _).trans ?_⟩
    simp [rules, frames]

@[simp] theorem note_rules (ks : List TokenKind) (rs : List Rule) :
    (s.note ks rs).rules = s.rules :=
  congrArg (List.map _) (s.note_agrees ks rs).frames

@[simp] theorem note_consumed (ks : List TokenKind) (rs : List Rule) :
    (s.note ks rs).consumed = s.consumed := by
  fun_cases note s ks rs <;> rfl

@[simp] theorem start_consumed (r : Rule) : (s.start r).consumed = s.consumed :=
  note_consumed _ _ _

@[simp] theorem complain_rules (c : Complaint) : (s.complain c).rules = s.rules :=
  congrArg (List.map _) (s.complain_agrees c).frames

@[simp] theorem start_rules (r : Rule) : (s.start r).rules = r :: s.rules := by
  obtain ⟨u, started, -, opened⟩ := s.start_eq_note r
  rw [started, note_rules, opened]

@[simp] theorem wrap_rules (r : Rule) : (s.wrap r).rules = r :: s.rules := by
  obtain ⟨u, wrapped, -, opened⟩ := s.wrap_eq_note r
  rw [wrapped, note_rules, opened]

@[simp] theorem bump_rules : s.bump.rules = s.rules := by
  cases here : s.rest with
  | nil => simp only [bump, here]
  | cons t rest => exact (congrArg (List.map _) (bump_of_cons here).frames).trans (s.attach_rules _)

end Nodes

@[simp] theorem settle_consumed (s : ParserState) : s.settle.consumed = s.consumed := by
  fun_cases settle s <;> rfl

@[simp] theorem complain_consumed (s : ParserState) (c : Complaint) :
    (s.complain c).consumed = s.consumed := by
  simp only [complain]
  split <;> exact settle_consumed s

/-- What is read becomes a leaf before the probe learns of it. -/
theorem bump_eq_settle {s : ParserState} {t : Token} {ts : List Token} (here : s.rest = t :: ts) :
    ∃ u : ParserState, Reseen s u ∧ u.rules = s.rules ∧
      s.bump = if t.kind = .endOfInput then u.settle
        else { u.settle with rest := ts, consumed := s.consumed + 1 } := by
  obtain ⟨rest, consumed, errors, overran, probe⟩ := s.attach_reseen (.leaf ⟨s.nextId, t⟩)
  refine ⟨{ s.attach (.leaf ⟨s.nextId, t⟩) with nextId := s.nextId + 1 },
    ⟨rest, consumed, errors, overran, probe⟩, s.attach_rules _, ?_⟩
  simp only [bump, here, settle_consumed, consumed]

/-- A bound that was reached stays reached. -/
theorem kept_overran : Kept fun s => s.overran = true := by
  intro f op s reached
  cases op with
  | note kinds rules => exact (s.note_agrees kinds rules).overran.trans reached
  | bump =>
    cases here : s.rest with
    | nil => simpa only [bump, here] using reached
    | cons t rest =>
      exact (bump_of_cons here).overran.trans ((s.attach_reseen _).overran.trans reached)
  | complain c => exact (s.complain_agrees c).overran.trans reached
  | overrun => rfl
  | start r => exact (s.start_agrees r).overran.trans reached
  | wrap r =>
    obtain ⟨u, wrapped, same, -⟩ := s.wrap_eq_note r
    change (s.wrap r).overran = true
    rw [wrapped, (u.note_agrees [] []).overran, same.overran, reached]
  | finish => exact s.finish_reseen.1.overran.trans reached

theorem Operation.overran_of {f : ParserState → ParserState} (op : Operation f) {s : ParserState}
    (never : (f s).overran = false) : s.overran = false :=
  Bool.eq_false_iff.mpr fun reached => Bool.eq_false_iff.mp never (kept_overran f op s reached)

end XuleLang.ParserState
