import XuleLang.Proofs.Parser.Growth

/-!
What the operations of a parser's state build.

`ParserState.Builds` says that the innermost open node has grown and that nothing around it has
changed. Reading does so off the end, and so does everything that is done between opening a node
and closing it again.

The parser depends on there being one token for the end, behind all others: it is never read over,
and what stands behind it would be lost.
-/

namespace XuleLang

/-- The end stands behind all tokens and nowhere else. -/
def EndsOnce (ts : List Token) : Prop :=
  ∃ front last, ts = front ++ [last] ∧ last.kind = .endOfInput ∧ ∀ t ∈ front, t.kind ≠ .endOfInput

theorem endsOnce_iff {ts : List Token} : EndsOnce ts ↔
    ts.getLast?.map (·.kind) = some .endOfInput ∧ ∀ t ∈ ts.dropLast, t.kind ≠ .endOfInput := by
  constructor
  · rintro ⟨front, last, rfl, last_ends, others⟩
    simpa [last_ends] using others
  · rintro ⟨ended, others⟩
    obtain ⟨last, there, last_ends⟩ := Option.map_eq_some_iff.mp ended
    obtain ⟨front, rfl⟩ := List.getLast?_eq_some_iff.mp there
    exact ⟨front, last, rfl, last_ends, by simpa using others⟩

instance (ts : List Token) : Decidable (EndsOnce ts) := decidable_of_iff _ endsOnce_iff.symm

/-- The kind of the token `n` places ahead. -/
def kindAhead (ts : List Token) (n : Nat) : TokenKind := ((ts[n]?).map (·.kind)).getD .endOfInput

theorem EndsOnce.tail {t : Token} {ts : List Token} (ends : EndsOnce (t :: ts))
    (inside : t.kind ≠ .endOfInput) : EndsOnce ts := by
  obtain ⟨front, last, ts_eq, last_ends, others⟩ := ends
  cases front with
  | nil =>
    obtain ⟨rfl, rfl⟩ := List.cons.inj ts_eq
    exact absurd last_ends inside
  | cons f front =>
    obtain ⟨rfl, rfl⟩ := List.cons.inj ts_eq
    exact ⟨front, last, rfl, last_ends, fun u member => others u (.tail _ member)⟩

theorem EndsOnce.of_append {read ts : List Token} (ends : EndsOnce (read ++ ts))
    (inside : ∀ t ∈ read, t.kind ≠ .endOfInput) : EndsOnce ts := by
  induction read with
  | nil => exact ends
  | cons t read ih =>
    exact ih (ends.tail (inside t (.head _))) fun u member => inside u (.tail _ member)

theorem EndsOnce.append {read ts : List Token} (ends : EndsOnce ts)
    (inside : ∀ t ∈ read, t.kind ≠ .endOfInput) : EndsOnce (read ++ ts) := by
  obtain ⟨front, last, rfl, last_ends, others⟩ := ends
  refine ⟨read ++ front, last, (List.append_assoc ..).symm, last_ends, fun t member => ?_⟩
  exact (List.mem_append.mp member).elim (inside t) (others t)

/-- Where the end is not yet ahead, a token is. -/
theorem exists_cons_of_kindAhead {ts : List Token} (ahead : kindAhead ts 0 ≠ .endOfInput) :
    ∃ t rest, ts = t :: rest ∧ t.kind ≠ .endOfInput := by
  cases ts with
  | nil => exact absurd rfl ahead
  | cons t rest => exact ⟨t, rest, rfl, ahead⟩

@[simp] theorem kindAhead_tail (ts : List Token) (n : Nat) :
    kindAhead ts.tail n = kindAhead ts (n + 1) := by
  simp [kindAhead]

/-- Nothing stands behind the end. -/
theorem EndsOnce.kindAhead_zero {ts : List Token} (ends : EndsOnce ts)
    (ahead : kindAhead ts 1 ≠ .endOfInput) : kindAhead ts 0 ≠ .endOfInput := by
  obtain ⟨front, last, rfl, -, others⟩ := ends
  cases front with
  | nil => exact absurd rfl ahead
  | cons t front => exact others t (.head _)

/-- Once the end is ahead, nothing else is. -/
theorem EndsOnce.eq_singleton {ts : List Token} (ends : EndsOnce ts)
    (reached : kindAhead ts 0 = .endOfInput) : ∃ last, ts = [last] ∧ last.kind = .endOfInput := by
  obtain ⟨front, last, rfl, last_ends, others⟩ := ends
  cases front with
  | nil => exact ⟨last, rfl, last_ends⟩
  | cons t front => exact absurd reached (others t (.head _))

/-- The innermost open node grows by what the region admits, and nothing around it changes. -/
structure ParserState.Builds (g : Region) (s s' : ParserState) : Prop where
  finished : s'.finished = s.finished
  overran : s'.overran = s.overran
  grown : ∃ f outer trees, s.frames = f :: outer ∧
    s'.frames = { f with children := trees } :: outer ∧
    Grows g ⟨s.rest, s.nextId, f.children⟩ ⟨s'.rest, s'.nextId, trees⟩

namespace ParserState

variable {g : Region} {s s' t u : ParserState}

namespace Builds

theorem trans (first : Builds g s t) (second : Builds g t u) : Builds g s u := by
  obtain ⟨finished, overran, f, outer, trees, opened, frames, grows⟩ := first
  obtain ⟨finished', overran', f', outer', trees', opened', frames', grows'⟩ := second
  rw [frames] at opened'
  obtain ⟨rfl, rfl⟩ := List.cons.inj opened'
  exact ⟨finished'.trans finished, overran'.trans overran, f, outer, trees', opened, frames',
    grows.next grows'⟩

theorem opened (builds : Builds g s s') : s'.frames ≠ [] := by
  obtain ⟨f, outer, trees, -, frames, -⟩ := builds.grown
  simp [frames]

theorem suffix (builds : Builds g s s') : s'.rest <:+ s.rest := by
  obtain ⟨f, outer, trees, -, -, grows⟩ := builds.grown
  exact grows.suffix

theorem endsOnce (builds : Builds g s s') (ends : EndsOnce s.rest) : EndsOnce s'.rest := by
  obtain ⟨f, outer, trees, -, -, grows⟩ := builds.grown
  obtain ⟨read, rest_eq, -, inside⟩ := grows.reads
  exact .of_append (by rwa [← rest_eq]) inside

end Builds

/-- The two states differ in what has been noted and complained of at most. -/
structure Agrees (s s' : ParserState) : Prop where
  rest : s'.rest = s.rest
  frames : s'.frames = s.frames
  finished : s'.finished = s.finished
  nextId : s'.nextId = s.nextId
  overran : s'.overran = s.overran

theorem Agrees.trans (first : Agrees s t) (second : Agrees t u) : Agrees s u :=
  ⟨second.rest.trans first.rest, second.frames.trans first.frames,
    second.finished.trans first.finished, second.nextId.trans first.nextId,
    second.overran.trans first.overran⟩

theorem settle_agrees (s : ParserState) : Agrees s s.settle := by
  fun_cases settle s <;> exact ⟨rfl, rfl, rfl, rfl, rfl⟩

theorem note_agrees (s : ParserState) (ks : List TokenKind) (rs : List Rule) :
    Agrees s (s.note ks rs) := by
  fun_cases note s ks rs <;> exact ⟨rfl, rfl, rfl, rfl, rfl⟩

theorem settle_errors (s : ParserState) : s.settle.errors = s.errors := by
  fun_cases settle s <;> rfl

theorem note_errors (s : ParserState) (ks : List TokenKind) (rs : List Rule) :
    (s.note ks rs).errors = s.errors := by
  fun_cases note s ks rs <;> rfl

theorem complain_agrees (s : ParserState) (c : Complaint) : Agrees s (s.complain c) := by
  obtain ⟨rest, frames, finished, nextId, overran⟩ := s.settle_agrees
  unfold complain
  dsimp only
  split <;> exact ⟨rest, frames, finished, nextId, overran⟩

theorem Agrees.builds (agrees : Agrees s s') (opened : s.frames ≠ []) : Builds g s s' := by
  obtain ⟨rest, frames, finished, nextId, overran⟩ := agrees
  obtain ⟨f, outer, opened⟩ := List.exists_cons_of_ne_nil opened
  refine ⟨finished, overran, f, outer, f.children, opened, frames.trans opened, ?_⟩
  rw [rest, nextId]
  exact .still _

theorem start_agrees (s : ParserState) (r : Rule) :
    Agrees { s with frames := ⟨s.nextId, r, []⟩ :: s.frames, nextId := s.nextId + 1 } (s.start r) :=
  note_agrees _ _ _

theorem wrap_of_child {f : Frame} {outer : List Frame} {c : Tree} {cs : List Tree}
    (opened : s.frames = f :: outer) (children : f.children = c :: cs) (r : Rule) :
    Agrees { s with frames := ⟨s.nextId, r, [c]⟩ :: { f with children := cs } :: outer,
                    nextId := s.nextId + 1 } (s.wrap r) := by
  simp only [wrap, opened, children]
  exact note_agrees _ _ _

theorem wrap_of_no_child {f : Frame} {outer : List Frame} (opened : s.frames = f :: outer)
    (children : f.children = []) (r : Rule) : s.wrap r = s.start r := by
  simp only [wrap, opened, children]

theorem wrap_rest (opened : s.frames ≠ []) (r : Rule) :
    (s.wrap r).rest = s.rest ∧ (s.wrap r).frames ≠ [] := by
  obtain ⟨f, outer, frames⟩ := List.exists_cons_of_ne_nil opened
  cases children : f.children with
  | nil =>
    rw [wrap_of_no_child frames children]
    exact ⟨(s.start_agrees r).rest, by simp [(s.start_agrees r).frames]⟩
  | cons c cs =>
    have wrapped := wrap_of_child frames children r
    exact ⟨wrapped.rest, by simp [wrapped.frames]⟩

theorem attach_rest (s : ParserState) (t : Tree) : (s.attach t).rest = s.rest := by
  unfold attach
  split <;> rfl

theorem finish_rest (s : ParserState) : s.finish.rest = s.rest := by
  unfold finish
  split
  · rfl
  · exact attach_rest _ _

theorem attach_of_cons {f : Frame} {outer : List Frame} (opened : s.frames = f :: outer)
    (t : Tree) :
    s.attach t = { s with frames := { f with children := t :: f.children } :: outer } := by
  simp only [attach, opened]

/-- Reading makes a leaf of the token ahead, and leaves the end where it is. -/
theorem bump_of_cons {t : Token} {rest : List Token} (here : s.rest = t :: rest) :
    Agrees { s.attach (.leaf ⟨s.nextId, t⟩) with
               rest := if t.kind = .endOfInput then s.rest else rest
               nextId := s.nextId + 1 } s.bump := by
  have settled := settle_agrees { s.attach (.leaf ⟨s.nextId, t⟩) with nextId := s.nextId + 1 }
  obtain ⟨same, frames, finished, nextId, overran⟩ := settled
  simp only [bump, here]
  split
  · exact ⟨by rw [same]; exact (s.attach_rest _).trans here, frames, finished, nextId, overran⟩
  · exact ⟨rfl, frames, finished, nextId, overran⟩

theorem bump_builds (opened : s.frames ≠ []) (ahead : kindAhead s.rest 0 ≠ .endOfInput) :
    Builds g s s.bump ∧ s.bump.rest = s.rest.tail := by
  obtain ⟨f, outer, opened⟩ := List.exists_cons_of_ne_nil opened
  obtain ⟨t, rest, here, inside⟩ := exists_cons_of_kindAhead ahead
  have read := bump_of_cons here
  rw [attach_of_cons opened] at read
  obtain ⟨same, frames, finished, nextId, overran⟩ := read
  rw [if_neg inside] at same
  refine ⟨⟨finished, overran, f, outer, _, opened, frames, ?_⟩, by rw [same, here, List.tail_cons]⟩
  rw [same, nextId, here]
  exact .leaf inside rest s.nextId f.children

/-- What is built inside a new node builds the node. -/
theorem Builds.inside (opened : s.frames ≠ []) (admitted : g.admits r)
    (body : Builds (g.below r) (s.start r) t) : Builds g s t.finish := by
  obtain ⟨f, outer, opened⟩ := List.exists_cons_of_ne_nil opened
  obtain ⟨rest, frames, finished, nextId, overran⟩ := s.start_agrees r
  obtain ⟨finished', overran', node, around, cs, started, built, grows⟩ := body
  obtain ⟨rfl, rfl⟩ := List.cons.inj (frames.symm.trans started)
  simp only [finish, built, attach, opened]
  refine ⟨finished'.trans finished, overran'.trans overran, f, outer, _, opened, rfl, ?_⟩
  rw [rest, nextId] at grows
  exact .node admitted f.children grows

/-- What is built inside a node around the latest child builds the node. -/
theorem Builds.around (opened : s.frames ≠ []) (wraps : r.wraps) (deep : g ≠ .file)
    (body : Builds (g.below r) (s.wrap r) t) : Builds g s t.finish := by
  have admitted := Region.admits_of_wraps wraps deep
  obtain ⟨f, outer, frames⟩ := List.exists_cons_of_ne_nil opened
  cases children : f.children with
  -- With no child to stand around, the node opens like any other.
  | nil => exact .inside opened admitted (wrap_of_no_child frames children r ▸ body)
  | cons c ts =>
    obtain ⟨rest, frames', finished, nextId, overran⟩ := wrap_of_child frames children r
    rw [Region.below_of_wraps wraps deep] at body
    obtain ⟨finished', overran', node, around, cs, started, built, grows⟩ := body
    obtain ⟨rfl, rfl⟩ := List.cons.inj (frames'.symm.trans started)
    simp only [finish, built, attach]
    refine ⟨finished'.trans finished, overran'.trans overran, f, outer, _, frames, rfl, ?_⟩
    rw [rest, nextId] at grows
    rw [children]
    exact .around wraps deep ts grows

end ParserState

end XuleLang
