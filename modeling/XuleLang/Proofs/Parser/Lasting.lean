import XuleLang.Proofs.Parser.Prediction
import XuleLang.Proofs.Parser.Derivation

/-!
What lasts, whatever a parser does next.

A node that has been made stays part of what is being made, a complaint is not taken back, and a
probe does not forget what it has been told.
-/

namespace XuleLang

namespace ParserState

theorem Kept.and {I J : ParserState → Prop} (first : Kept I) (second : Kept J) :
    Kept fun s => I s ∧ J s :=
  fun f op s holds => ⟨first f op s holds.1, second f op s holds.2⟩

/-- The tree has been made, or is part of one that has been. -/
def Made (s : ParserState) (u : Tree) : Prop :=
  ∃ t, (t ∈ s.finished ∨ ∃ f ∈ s.frames, t ∈ f.children) ∧ u ∈ t.subtrees

variable {s s' : ParserState} {t u : Tree} {r : Rule}

theorem Made.congr (made : s.Made u) (frames : s'.frames = s.frames)
    (finished : s'.finished = s.finished) : s'.Made u := by
  obtain ⟨t, here, below⟩ := made
  exact ⟨t, by rwa [frames, finished], below⟩

theorem Made.attach (made : s.Made u) (t : Tree) : (s.attach t).Made u := by
  obtain ⟨v, here, below⟩ := made
  refine ⟨v, ?_, below⟩
  unfold ParserState.attach
  split
  case h_1 frames =>
    rcases here with done | ⟨f, open_, child⟩
    · exact .inl (List.mem_cons_of_mem t done)
    · simp [frames] at open_
  case h_2 f outer frames =>
    rcases here with done | ⟨g, open_, child⟩
    · exact .inl done
    · rw [frames] at open_
      rcases List.mem_cons.mp open_ with rfl | around
      · exact .inr ⟨_, .head _, List.mem_cons_of_mem t child⟩
      · exact .inr ⟨g, .tail _ around, child⟩

theorem made_attach (s : ParserState) (below : u ∈ t.subtrees) : (s.attach t).Made u := by
  refine ⟨t, ?_, below⟩
  unfold ParserState.attach
  split
  · exact .inl (.head _)
  · exact .inr ⟨_, .head _, .head _⟩

theorem Made.start (made : s.Made u) (r : Rule) : (s.start r).Made u := by
  have started := s.start_agrees r
  obtain ⟨t, here, below⟩ := made
  refine ⟨t, ?_, below⟩
  rw [started.frames, started.finished]
  rcases here with done | ⟨f, open_, child⟩
  · exact .inl done
  · exact .inr ⟨f, .tail _ open_, child⟩

theorem Made.wrap (made : s.Made u) (r : Rule) : (s.wrap r).Made u := by
  cases frames : s.frames with
  | nil =>
    have opened : s.wrap r = s.start r := by simp only [ParserState.wrap, frames]
    exact opened ▸ made.start r
  | cons f outer =>
    cases children : f.children with
    | nil => exact wrap_of_no_child frames children r ▸ made.start r
    | cons c cs =>
      have wrapped := wrap_of_child frames children r
      obtain ⟨t, here, below⟩ := made
      refine ⟨t, ?_, below⟩
      rw [wrapped.frames, wrapped.finished]
      rcases here with done | ⟨g, open_, child⟩
      · exact .inl done
      rw [frames] at open_
      rcases List.mem_cons.mp open_ with rfl | around
      · rw [children] at child
        rcases List.mem_cons.mp child with rfl | earlier
        · exact .inr ⟨_, .head _, .head _⟩
        · exact .inr ⟨_, .tail _ (.head _), earlier⟩
      · exact .inr ⟨g, .tail _ (.tail _ around), child⟩

theorem Made.finish (made : s.Made u) : s.finish.Made u := by
  unfold ParserState.finish
  split
  case h_1 => exact made
  case h_2 f outer frames =>
    obtain ⟨t, here, below⟩ := made
    have closed (child : t ∈ f.children) :
        u ∈ (Tree.ofChildren f.id f.rule f.children.reverse).subtrees := by
      rw [Tree.ofChildren, Tree.subtrees]
      exact .tail _ (Tree.mem_subtreesOfAll.mpr ⟨t, List.mem_reverse.mpr child, below⟩)
    rcases here with done | ⟨g, open_, child⟩
    · have still : { s with frames := outer }.Made u := ⟨t, .inl done, below⟩
      exact still.attach _
    · rw [frames] at open_
      rcases List.mem_cons.mp open_ with rfl | around
      · exact made_attach _ (closed child)
      · have still : { s with frames := outer }.Made u := ⟨t, .inr ⟨g, around, child⟩, below⟩
        exact still.attach _

/-- What has been made is never taken apart. -/
theorem kept_made (P : Tree → Prop) : Kept fun s => ∃ t, s.Made t ∧ P t := by
  rintro f op s ⟨t, made, holds⟩
  refine ⟨t, ?_, holds⟩
  cases op with
  | note kinds rules =>
    have noted := s.note_agrees kinds rules
    exact made.congr noted.frames noted.finished
  | bump =>
    cases here : s.rest with
    | nil => simpa only [bump, here] using made
    | cons x rest =>
      have read := bump_of_cons here
      exact (made.attach _).congr read.frames read.finished
  | complain c =>
    have complained := s.complain_agrees c
    exact made.congr complained.frames complained.finished
  | overrun => exact made.congr rfl rfl
  | start r => exact made.start r
  | wrap r => exact made.wrap r
  | finish => exact made.finish

/-! ### What is made by one operation -/

theorem Made.of_attach (made : (s.attach t).Made u) : s.Made u ∨ u ∈ t.subtrees := by
  obtain ⟨v, here, below⟩ := made
  unfold ParserState.attach at here
  split at here
  case h_1 frames =>
    rcases here with done | ⟨f, opened, -⟩
    · rcases List.mem_cons.mp done with rfl | earlier
      · exact .inr below
      · exact .inl ⟨v, .inl earlier, below⟩
    · simp [frames] at opened
  case h_2 f outer frames =>
    rcases here with done | ⟨g, opened, child⟩
    · exact .inl ⟨v, .inl done, below⟩
    · rcases List.mem_cons.mp opened with rfl | around
      · rcases List.mem_cons.mp child with rfl | earlier
        · exact .inr below
        · exact .inl ⟨v, .inr ⟨f, frames ▸ .head _, earlier⟩, below⟩
      · exact .inl ⟨v, .inr ⟨g, frames ▸ .tail _ around, child⟩, below⟩

/-- Opening a node makes nothing. -/
theorem Made.of_start (made : (s.start r).Made u) : s.Made u := by
  have started := s.start_agrees r
  obtain ⟨v, here, below⟩ := made
  rw [started.frames, started.finished] at here
  refine ⟨v, here.imp_right ?_, below⟩
  rintro ⟨f, opened, child⟩
  rcases List.mem_cons.mp opened with rfl | around
  · cases child
  · exact ⟨f, around, child⟩

theorem Made.of_wrap (made : (s.wrap r).Made u) : s.Made u := by
  cases frames : s.frames with
  | nil =>
    have opened : s.wrap r = s.start r := by simp only [ParserState.wrap, frames]
    exact (opened ▸ made).of_start
  | cons f outer =>
    cases children : f.children with
    | nil => exact (wrap_of_no_child frames children r ▸ made).of_start
    | cons c cs =>
      have wrapped := wrap_of_child frames children r
      obtain ⟨v, here, below⟩ := made
      rw [wrapped.frames, wrapped.finished] at here
      refine ⟨v, here.imp_right ?_, below⟩
      rw [frames]
      rintro ⟨g, opened, child⟩
      rcases List.mem_cons.mp opened with rfl | opened
      · rw [List.mem_singleton.mp child]
        exact ⟨f, .head _, children ▸ .head _⟩
      · rcases List.mem_cons.mp opened with rfl | around
        · exact ⟨f, .head _, children ▸ .tail _ child⟩
        · exact ⟨g, .tail _ around, child⟩

/-- Reading makes a leaf. -/
theorem Made.of_bump (made : s.bump.Made u) : s.Made u ∨ u.isLeaf = true := by
  cases here : s.rest with
  | nil => exact .inl (by simpa only [bump, here] using made)
  | cons x rest =>
    have read := bump_of_cons here
    have attached : (s.attach (.leaf ⟨s.nextId, x⟩)).Made u :=
      made.congr read.frames.symm read.finished.symm
    refine attached.of_attach.imp_right fun leaf => ?_
    rw [List.mem_singleton.mp leaf]
    rfl

/-- Closing a node makes just that node. -/
theorem Made.of_finish (made : s.finish.Made u) : s.Made u ∨ ∃ f outer, s.frames = f :: outer ∧
    u = .ofChildren f.id f.rule f.children.reverse := by
  unfold ParserState.finish at made
  split at made
  case h_1 => exact .inl made
  case h_2 f outer frames =>
    rcases made.of_attach with ⟨v, here, below⟩ | new
    · refine .inl ⟨v, here.imp_right ?_, below⟩
      rintro ⟨g, around, child⟩
      exact ⟨g, frames ▸ .tail _ around, child⟩
    · rw [Tree.ofChildren, Tree.subtrees] at new
      rcases List.mem_cons.mp new with rfl | inner
      · exact .inr ⟨f, outer, frames, rfl⟩
      · obtain ⟨v, child, below⟩ := Tree.mem_subtreesOfAll.mp inner
        exact .inl ⟨v, .inr ⟨f, frames ▸ .head _, List.mem_reverse.mp child⟩, below⟩

/-- The node that is closed has been made. -/
theorem made_finish {f : Frame} {outer : List Frame} (opened : s.frames = f :: outer) :
    s.finish.Made (.ofChildren f.id f.rule f.children.reverse) := by
  simp only [finish, opened]
  exact made_attach _ (by rw [Tree.ofChildren, Tree.subtrees]; exact .head _)

/-- A complaint is never taken back. -/
theorem kept_complaint (e : SyntaxError) : Kept fun s => e ∈ s.errors := by
  intro f op s member
  cases op with
  | note kinds rules => exact (s.note_errors kinds rules).symm ▸ member
  | bump =>
    cases here : s.rest with
    | nil => simpa only [bump, here] using member
    | cons x rest =>
      obtain ⟨u, same, -, read⟩ := bump_eq_settle here
      have settled : u.settle.errors = s.errors := u.settle_errors.trans same.errors
      simp only [read]
      split <;> simpa only [settled] using member
  | complain c =>
    have settled := s.settle_errors
    unfold complain
    dsimp only
    split
    · rwa [settled]
    · exact .tail _ (settled.symm ▸ member)
  | overrun => exact member
  | start r =>
    obtain ⟨u, started, same, -⟩ := s.start_eq_note r
    change e ∈ (s.start r).errors
    rwa [started, note_errors, same.errors]
  | wrap r =>
    obtain ⟨u, wrapped, same, -⟩ := s.wrap_eq_note r
    change e ∈ (s.wrap r).errors
    rwa [wrapped, note_errors, same.errors]
  | finish => exact s.finish_reseen.1.errors.symm ▸ member

/-- Whatever has been put into a list, is in it with what was there. -/
theorem mem_foldl_insert {α : Type} [BEq α] [LawfulBEq α] {a : α} {new : List α} (old : List α) :
    a ∈ new.foldl (fun as b => as.insert b) old ↔ a ∈ new ∨ a ∈ old := by
  induction new generalizing old with
  | nil => simp
  | cons b new ih => simp only [List.foldl_cons, ih, List.mem_insert_iff, List.mem_cons]; tauto

theorem mem_kinds_note {p : Probe} {kinds : List TokenKind} {rules : List Rule} {k : TokenKind} :
    k ∈ (p.note kinds rules).kinds ↔ k ∈ kinds ∨ k ∈ p.kinds :=
  mem_foldl_insert p.kinds

theorem mem_rules_note {p : Probe} {kinds : List TokenKind} {rules : List Rule} {r : Rule} :
    r ∈ (p.note kinds rules).rules ↔ r ∈ rules ∨ r ∈ p.rules :=
  mem_foldl_insert p.rules

/-- The probe has been told of the kind. -/
def Told (k : TokenKind) (probe : Option Probe) : Prop := ∃ p, probe = some p ∧ k ∈ p.kinds

/-- What a probe has been told, it is told for good. -/
theorem kept_told (k : TokenKind) : Kept fun s => Told k s.probe := by
  refine kept_of_probe (I := Told k) (fun s ks rs told => ?_) fun s told => ?_
  · obtain ⟨p, here, member⟩ := told
    rw [note_of_probe here]
    split
    · exact ⟨p, here, member⟩
    · exact ⟨_, rfl, mem_kinds_note.mpr (.inr member)⟩
  · obtain ⟨p, here, member⟩ := told
    rw [settle_of_probe here]
    split
    · exact ⟨_, rfl, member⟩
    · exact ⟨p, here, member⟩

/-- The tokens ahead are those behind the ones that were read, and a probe looks at a caret. -/
structure Probing (vs : List Token) (k : Nat) (s : ParserState) : Prop where
  ends : EndsOnce s.rest
  rest : s.rest = vs.drop s.consumed
  caret : ∃ p, s.probe = some p ∧ p.caret = k

namespace Probing

variable {vs : List Token} {k : Nat}

theorem reseen (probing : Probing vs k s) (same : Reseen s s') : Probing vs k s' :=
  ⟨same.rest.symm ▸ probing.ends, by rw [same.rest, same.consumed, probing.rest],
    same.probe.symm ▸ probing.caret⟩

theorem note (probing : Probing vs k s) (ks : List TokenKind) (rs : List Rule) :
    Probing vs k (s.note ks rs) := by
  obtain ⟨p, here, caret⟩ := probing.caret
  rw [note_of_probe here]
  split
  · exact probing
  · exact ⟨probing.ends, probing.rest, _, rfl, caret⟩

theorem settle (probing : Probing vs k s) : Probing vs k s.settle := by
  obtain ⟨p, here, caret⟩ := probing.caret
  rw [settle_of_probe here]
  split
  · exact ⟨probing.ends, probing.rest, _, rfl, caret⟩
  · exact probing

/-- There is always a token ahead. -/
theorem exists_cons (probing : Probing vs k s) : ∃ t ts, s.rest = t :: ts := by
  obtain ⟨front, last, rest, -⟩ := probing.ends
  exact List.exists_cons_of_ne_nil (by simp [rest])

end Probing

theorem kept_probing (vs : List Token) (k : Nat) : Kept (Probing vs k) := by
  intro f op s probing
  cases op with
  | note kinds rules => exact probing.note kinds rules
  | bump =>
    obtain ⟨t, ts, here⟩ := probing.exists_cons
    obtain ⟨u, same, -, read⟩ := bump_eq_settle here
    have settled := (probing.reseen same).settle
    rw [read]
    split
    case isTrue => exact settled
    case isFalse inside =>
      refine ⟨(here ▸ probing.ends).tail inside, ?_, settled.caret⟩
      rw [← List.tail_drop, ← probing.rest, here, List.tail_cons]
  | complain c =>
    obtain ⟨errors, complained⟩ := s.complain_eq_settle c
    have settled := probing.settle
    change Probing vs k (s.complain c)
    rw [complained]
    exact ⟨settled.ends, settled.rest, settled.caret⟩
  | overrun => exact ⟨probing.ends, probing.rest, probing.caret⟩
  | start r =>
    obtain ⟨u, started, same, -⟩ := s.start_eq_note r
    change Probing vs k (s.start r)
    exact started ▸ (probing.reseen same).note [] []
  | wrap r =>
    obtain ⟨u, wrapped, same, -⟩ := s.wrap_eq_note r
    change Probing vs k (s.wrap r)
    exact wrapped ▸ (probing.reseen same).note [] []
  | finish => exact probing.reseen s.finish_reseen.1

end ParserState

theorem Rule.mem_all (r : Rule) : r ∈ Rule.all := by
  cases r <;> decide

/-- A rule is a candidate if the probe has been told of it. -/
theorem mem_rules_candidatesAt {tokens : List Token} {index : Nat} {r : Rule} :
    r ∈ (candidatesAt tokens index).rules ↔
      ∃ p, (runFile tokens (some ⟨caretOf tokens index, false, [], []⟩)).probe = some p ∧
        r ∈ p.rules := by
  unfold candidatesAt
  cases (runFile tokens (some ⟨caretOf tokens index, false, [], []⟩)).probe with
  | none => simp
  | some p => simp [r.mem_all]

end XuleLang
