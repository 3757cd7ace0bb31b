import XuleLang.Proofs.Parser.Assembly
import XuleLang.Proofs.Parser.Lasting

/-!
What holds of all trees that are made.

`ParserState.Rebuilds` says that the children of the innermost open node have become others, and how
those that were there before and those that are there now are related. What a node is like may
depend on the complaints that there are in the end, and on what is known of the tokens ahead;
complaints only become more, and what is known stays so, which `ParserState.Turns` says in addition.

A property of trees that leaves have, and nodes whose children have it, is kept by all parsers that
are assembled of parsers that keep it (`Assembled.keeps`).
-/

namespace XuleLang

/-- The end stands behind all tokens and nowhere else, and this token is it. -/
structure EndsWith (ending : Token) (ts : List Token) : Prop where
  ends : ending.kind = .endOfInput
  behind : ∃ front, ts = front ++ [ending] ∧ ∀ t ∈ front, t.kind ≠ .endOfInput

theorem EndsOnce.exists_endsWith {ts : List Token} (ends : EndsOnce ts) :
    ∃ ending, EndsWith ending ts := by
  obtain ⟨front, last, rfl, last_ends, others⟩ := ends
  exact ⟨last, last_ends, front, rfl, others⟩

variable {ending t : Token} {ts rest : List Token}

/-- What holds of the tokens ahead holds of those behind the first, unless that is the end. -/
def Remains (Ahead : List Token → Prop) : Prop :=
  ∀ {t rest}, Ahead (t :: rest) → t.kind ≠ .endOfInput → Ahead rest

theorem EndsWith.tail (ends : EndsWith ending (t :: rest)) (inside : t.kind ≠ .endOfInput) :
    EndsWith ending rest := by
  obtain ⟨last_ends, front, same, others⟩ := ends
  cases front with
  | nil => cases same; exact absurd last_ends inside
  | cons u front =>
    cases same
    exact ⟨last_ends, front, rfl, fun v later => others v (.tail _ later)⟩

theorem EndsWith.exists_cons (ends : EndsWith ending ts) : ∃ t rest, ts = t :: rest := by
  obtain ⟨-, front, rfl, -⟩ := ends
  exact List.exists_cons_of_ne_nil (by simp)

theorem EndsWith.eq_of_endOfInput (ends : EndsWith ending (t :: rest))
    (reached : t.kind = .endOfInput) : t = ending := by
  obtain ⟨-, front, same, others⟩ := ends
  cases front with
  | nil => cases same; rfl
  | cons u front => cases same; exact absurd reached (others _ (.head _))

/-- A property of the children that are there now, which they have if those before have it. The
latest child is the first. -/
def Keeping (K : Tree → Prop) (ts us : List Tree) : Prop := (∀ t ∈ ts, K t) → ∀ u ∈ us, K u

namespace ParserState

variable {Ahead : List Token → Prop} {final : List SyntaxError}
  {R R' : List Tree → List Tree → Prop} {K : Tree → Prop} {s s' u : ParserState} {r : Rule}

/-! ## Other children -/

/-- The children of the innermost open node have become others. Nothing around the node has
changed. -/
structure Rebuilds (R : List Tree → List Tree → Prop) (s s' : ParserState) : Prop where
  finished : s'.finished = s.finished
  rebuilt : ∃ f outer us, s.frames = f :: outer ∧
    s'.frames = { f with children := us } :: outer ∧ R f.children us

namespace Rebuilds

theorem opened (rebuilds : Rebuilds R s s') : s'.frames ≠ [] := by
  obtain ⟨f, outer, us, -, frames, -⟩ := rebuilds.rebuilt
  simp [frames]

theorem weaken (rebuilds : Rebuilds R s s') (weaker : ∀ ts us, R ts us → R' ts us) :
    Rebuilds R' s s' := by
  obtain ⟨finished, f, outer, us, opened, frames, related⟩ := rebuilds
  exact ⟨finished, f, outer, us, opened, frames, weaker _ _ related⟩

theorem trans (first : Rebuilds R s s') (second : Rebuilds R' s' u) :
    Rebuilds (fun ts us => ∃ mid, R ts mid ∧ R' mid us) s u := by
  obtain ⟨finished, f, outer, mid, opened, frames, related⟩ := first
  obtain ⟨finished', f', outer', us, opened', frames', related'⟩ := second
  rw [frames] at opened'
  obtain ⟨rfl, rfl⟩ := List.cons.inj opened'
  exact ⟨finished'.trans finished, f, outer, us, opened, frames', mid, related, related'⟩

theorem and (first : Rebuilds R s s') (second : Rebuilds R' s s') :
    Rebuilds (fun ts us => R ts us ∧ R' ts us) s s' := by
  obtain ⟨finished, f, outer, us, opened, frames, related⟩ := first
  obtain ⟨-, f', outer', us', opened', frames', related'⟩ := second
  obtain ⟨rfl, rfl⟩ := List.cons.inj (opened.symm.trans opened')
  obtain rfl : us = us' := congrArg Frame.children (List.cons.inj (frames.symm.trans frames')).1
  exact ⟨finished, f, outer, us, opened, frames, related, related'⟩

/-- A node that is opened becomes a child when it is closed again. -/
theorem inside (opened : s.frames ≠ []) (body : Rebuilds R (s.start r) u) :
    Rebuilds (fun ts us => ∃ cs, R [] cs ∧ us = .ofChildren s.nextId r cs.reverse :: ts) s
      u.finish := by
  obtain ⟨f, outer, frames⟩ := List.exists_cons_of_ne_nil opened
  have started := s.start_agrees r
  obtain ⟨finished, node, around, cs, opened', built, related⟩ := body
  obtain ⟨rfl, rfl⟩ := List.cons.inj (started.frames.symm.trans opened')
  refine ⟨?_, f, outer, _, frames, ?_, cs, related, rfl⟩
  · simp only [finish, built, attach, frames]
    exact finished.trans started.finished
  · simp only [finish, built, attach, frames]

/-- A node outside all others is complete when it is closed. -/
theorem alone (outside : s.frames = []) (body : Rebuilds R (s.start r) u) :
    ∃ cs, R [] cs ∧ u.finish.finished = .ofChildren s.nextId r cs.reverse :: s.finished := by
  have started := s.start_agrees r
  obtain ⟨finished, node, around, cs, opened, built, related⟩ := body
  obtain ⟨rfl, rfl⟩ := List.cons.inj (started.frames.symm.trans opened)
  refine ⟨cs, related, ?_⟩
  simp only [finish, built, outside, attach, finished.trans started.finished]

/-- A node around the latest child takes its place; with no child it becomes one. -/
theorem around (opened : s.frames ≠ []) (body : Rebuilds R (s.wrap r) u) :
    Rebuilds (fun ts us => ∃ cs, R ts.head?.toList cs ∧
      us = .ofChildren s.nextId r cs.reverse :: ts.tail) s u.finish := by
  obtain ⟨f, outer, frames⟩ := List.exists_cons_of_ne_nil opened
  cases children : f.children with
  | nil =>
    rw [wrap_of_no_child frames children] at body
    obtain ⟨finished, f', outer', us, opened', built, cs, related, rfl⟩ := body.inside opened
    obtain ⟨rfl, rfl⟩ := List.cons.inj (frames.symm.trans opened')
    exact ⟨finished, f, outer, _, frames, built, cs, by simpa [children] using related,
      by simp [children]⟩
  | cons c cs =>
    have wrapped := wrap_of_child frames children r
    obtain ⟨finished, inner, around, trees, opened', built, related⟩ := body
    obtain ⟨rfl, rfl⟩ := List.cons.inj (wrapped.frames.symm.trans opened')
    refine ⟨?_, f, outer, _, frames, ?_, trees, by simpa [children] using related, rfl⟩
    · simp only [finish, built, attach]
      exact finished.trans wrapped.finished
    · simp only [finish, built, attach, children, List.tail_cons]

end Rebuilds

/-- Where only something is noted or complained of, all children stay. -/
theorem Agrees.rebuilds (agrees : Agrees s s') (opened : s.frames ≠ [])
    (related : ∀ ts, R ts ts) : Rebuilds R s s' := by
  obtain ⟨f, outer, frames⟩ := List.exists_cons_of_ne_nil opened
  exact ⟨agrees.finished, f, outer, f.children, frames, agrees.frames.trans frames, related _⟩

/-- The token ahead becomes a leaf. -/
theorem bump_rebuilds (opened : s.frames ≠ []) (here : s.rest = t :: rest) :
    Rebuilds (fun ts us => us = .leaf ⟨s.nextId, t⟩ :: ts) s s.bump := by
  obtain ⟨f, outer, frames⟩ := List.exists_cons_of_ne_nil opened
  have read := bump_of_cons here
  rw [attach_of_cons frames] at read
  exact ⟨read.finished, f, outer, _, frames, read.frames, rfl⟩

theorem errors_subset {f : ParserState → ParserState} (op : Operation f) (s : ParserState) :
    s.errors ⊆ (f s).errors :=
  fun e member => kept_complaint e f op s member

/-! ## Other children, up to the end -/

/-- The children of the innermost open node have become others. No complaint has been taken back,
and what was known of the tokens ahead is so still. How the children are related may depend on this
and on the complaints in the end. -/
structure Turns (Ahead : List Token → Prop) (final : List SyntaxError)
    (R : List Tree → List Tree → Prop) (s s' : ParserState) : Prop where
  errors : s.errors ⊆ s'.errors
  ahead : Ahead s.rest → Ahead s'.rest
  rebuilds : Rebuilds (fun ts us => Ahead s.rest → s'.errors ⊆ final → R ts us) s s'

namespace Turns

theorem opened (turns : Turns Ahead final R s s') : s'.frames ≠ [] := turns.rebuilds.opened

theorem weaken (turns : Turns Ahead final R s s') (weaker : ∀ ts us, R ts us → R' ts us) :
    Turns Ahead final R' s s' :=
  ⟨turns.errors, turns.ahead, turns.rebuilds.weaken fun ts us related here kept =>
    weaker ts us (related here kept)⟩

theorem trans (first : Turns Ahead final R s s') (second : Turns Ahead final R' s' u) :
    Turns Ahead final (fun ts us => ∃ mid, R ts mid ∧ R' mid us) s u := by
  refine ⟨List.Subset.trans first.errors second.errors, second.ahead ∘ first.ahead,
    (first.rebuilds.trans second.rebuilds).weaken ?_⟩
  rintro ts us ⟨mid, related, related'⟩ here kept
  exact ⟨mid, related here (List.Subset.trans second.errors kept), related' (first.ahead here) kept⟩

theorem and (first : Turns Ahead final R s s') (second : Turns Ahead final R' s s') :
    Turns Ahead final (fun ts us => R ts us ∧ R' ts us) s s' :=
  ⟨first.errors, first.ahead, (first.rebuilds.and second.rebuilds).weaken
    fun _ _ ⟨related, related'⟩ here kept => ⟨related here kept, related' here kept⟩⟩

/-- What was kept first and then kept again is kept. -/
theorem keep (first : Turns Ahead final (Keeping K) s s')
    (second : Turns Ahead final (Keeping K) s' u) : Turns Ahead final (Keeping K) s u :=
  (first.trans second).weaken fun _ _ ⟨_, before, after⟩ keeps => after (before keeps)

/-- A node that is opened becomes a child when it is closed again. -/
theorem inside (opened : s.frames ≠ []) (body : Turns Ahead final R (s.start r) u) :
    Turns Ahead final (fun ts us => ∃ n cs, R [] cs ∧ us = .ofChildren n r cs.reverse :: ts) s
      u.finish := by
  have started := s.start_agrees r
  obtain ⟨errors, ahead, rebuilds⟩ := body
  rw [started.rest] at ahead rebuilds
  have closed := u.finish_reseen.1
  refine ⟨List.Subset.trans (errors_subset (.start r) s) (closed.errors ▸ errors),
    fun here => closed.rest ▸ ahead here, (rebuilds.inside opened).weaken ?_⟩
  rintro ts us ⟨cs, related, rfl⟩ here kept
  exact ⟨s.nextId, cs, related here (closed.errors ▸ kept), rfl⟩

/-- A node outside all others is complete when it is closed. -/
theorem alone (outside : s.frames = []) (body : Turns Ahead final R (s.start r) u) :
    ∃ cs, u.finish.finished = .ofChildren s.nextId r cs.reverse :: s.finished ∧
      (Ahead s.rest → u.finish.errors ⊆ final → R [] cs) := by
  obtain ⟨-, -, rebuilds⟩ := body
  rw [(s.start_agrees r).rest] at rebuilds
  obtain ⟨cs, related, finished⟩ := rebuilds.alone outside
  exact ⟨cs, finished, fun here kept => related here (u.finish_reseen.1.errors ▸ kept)⟩

/-- A node around the latest child takes its place; with no child it becomes one. -/
theorem around (opened : s.frames ≠ []) (body : Turns Ahead final R (s.wrap r) u) :
    Turns Ahead final (fun ts us => ∃ n cs, R ts.head?.toList cs ∧
      us = .ofChildren n r cs.reverse :: ts.tail) s u.finish := by
  obtain ⟨errors, ahead, rebuilds⟩ := body
  rw [(s.wrap_rest opened r).1] at ahead rebuilds
  have closed := u.finish_reseen.1
  refine ⟨List.Subset.trans (errors_subset (.wrap r) s) (closed.errors ▸ errors),
    fun here => closed.rest ▸ ahead here, (rebuilds.around opened).weaken ?_⟩
  rintro ts us ⟨cs, related, rfl⟩ here kept
  exact ⟨s.nextId, cs, related here (closed.errors ▸ kept), rfl⟩

theorem refl (opened : s.frames ≠ []) (related : ∀ ts, R ts ts) : Turns Ahead final R s s :=
  ⟨List.Subset.refl _, id,
    Agrees.rebuilds ⟨rfl, rfl, rfl, rfl, rfl⟩ opened fun _ _ _ => related _⟩

end Turns

/-- Where only something is noted or complained of, all children stay. -/
theorem Agrees.turns (agrees : Agrees s s') (errors : s.errors ⊆ s'.errors)
    (opened : s.frames ≠ [])
    (related : Ahead s.rest → s'.errors ⊆ final → ∀ ts, R ts ts) :
    Turns Ahead final R s s' :=
  ⟨errors, fun ahead => agrees.rest ▸ ahead,
    agrees.rebuilds opened fun ts here kept => related here kept ts⟩

theorem overrun_turns (opened : s.frames ≠ []) (related : ∀ ts, R ts ts) :
    Turns Ahead final R s s.overrun := by
  obtain ⟨f, outer, frames⟩ := List.exists_cons_of_ne_nil opened
  exact ⟨List.Subset.refl _, id, rfl, f, outer, _, frames, frames, fun _ _ => related _⟩

/-- The token ahead becomes a leaf. -/
theorem bump_turns (remains : Remains Ahead) (opened : s.frames ≠ []) (here : s.rest = t :: rest) :
    Turns Ahead final (fun ts us => ∃ n, us = .leaf ⟨n, t⟩ :: ts) s s.bump := by
  refine ⟨errors_subset .bump s, fun ahead => ?_,
    (bump_rebuilds opened here).weaken fun ts us read _ _ => ⟨s.nextId, read⟩⟩
  rw [(bump_of_cons here).rest]
  dsimp only
  split
  next => exact ahead
  next inside => exact remains (here ▸ ahead) inside

end ParserState

namespace Parser

variable {α β : Type} {Ahead : List Token → Prop} {final : List SyntaxError}
  {R : List Tree → List Tree → Prop} {K K' : Tree → Prop} {p : Parser α} {f : α → Parser β}
  {r : Rule}

/-- Wherever a node is open, the parser turns its children into others. -/
def Turns (Ahead : List Token → Prop) (final : List SyntaxError)
    (R : List Tree → List Tree → Prop) (p : Parser α) : Prop :=
  ∀ s : ParserState, s.frames ≠ [] → ParserState.Turns Ahead final R s (p.run s).2

/-- The parser keeps a property of children. -/
abbrev Keeps (Ahead : List Token → Prop) (final : List SyntaxError) (K : Tree → Prop)
    (p : Parser α) : Prop :=
  Turns Ahead final (Keeping K) p

theorem Turns.andThen {R' : List Tree → List Tree → Prop} (first : Turns Ahead final R p)
    (next : ∀ a, Turns Ahead final R' (f a)) :
    Turns Ahead final (fun ts us => ∃ mid, R ts mid ∧ R' mid us) (p >>= f) :=
  fun s opened => (first s opened).trans (next _ _ (first s opened).opened)

theorem Turns.and {R' : List Tree → List Tree → Prop} (first : Turns Ahead final R p)
    (second : Turns Ahead final R' p) :
    Turns Ahead final (fun ts us => R ts us ∧ R' ts us) p :=
  fun s opened => (first s opened).and (second s opened)

/-- A parser that opens a node makes one child more. -/
theorem Turns.within {body : Parser Unit} (turns : Turns Ahead final R body) :
    Turns Ahead final (fun ts us => ∃ n cs, R [] cs ∧ us = .ofChildren n r cs.reverse :: ts)
      (within r body) := by
  intro s opened
  have started := s.start_agrees r
  exact (turns (s.start r) (by simp [started.frames])).inside opened

/-- A parser that opens a node around the latest child puts it in its place. -/
theorem Turns.wrapping {body : Parser Unit} (turns : Turns Ahead final R body) :
    Turns Ahead final (fun ts us => ∃ n cs, R ts.head?.toList cs ∧
      us = .ofChildren n r cs.reverse :: ts.tail) (wrapping r body) :=
  fun s opened => (turns _ (s.wrap_rest opened r).2).around opened

theorem Turns.answer (a : α) (related : ∀ ts, R ts ts) : Turns Ahead final R (pure a : Parser α) :=
  fun _ opened => ParserState.Turns.refl opened related

/-- The token ahead becomes a leaf, if there is one. -/
theorem Turns.bump (remains : Remains Ahead) (read : ∀ n t ts, R ts (.leaf ⟨n, t⟩ :: ts))
    (still : ∀ ts, R ts ts) : Turns Ahead final R bump := by
  intro s opened
  cases here : s.rest with
  | nil =>
    have run : ((Parser.bump).run s).2 = s := by
      change s.bump = s
      rw [ParserState.bump, here]
    rw [run]
    exact .refl opened still
  | cons t rest =>
    refine (ParserState.bump_turns remains opened here).weaken ?_
    rintro ts us ⟨n, rfl⟩
    exact read n t ts

theorem Turns.either {c : Bool} {p q : Parser α} (yes : Turns Ahead final R p)
    (no : Turns Ahead final R q) : Turns Ahead final R (if c then p else q) := by
  cases c
  · exact no
  · exact yes

theorem Turns.weaken {R' : List Tree → List Tree → Prop} (turns : Turns Ahead final R p)
    (weaker : ∀ ts us, R ts us → R' ts us) : Turns Ahead final R' p :=
  fun s opened => (turns s opened).weaken weaker

namespace Keeps

theorem andThen (first : Keeps Ahead final K p) (next : ∀ a, Keeps Ahead final K (f a)) :
    Keeps Ahead final K (p >>= f) :=
  fun s opened => (first s opened).keep (next _ _ (first s opened).opened)

theorem answer (a : α) : Keeps Ahead final K (pure a : Parser α) :=
  Turns.answer a fun _ => id

theorem ask : Keeps Ahead final K get :=
  fun _ opened => ParserState.Turns.refl opened fun _ => id

theorem note (kinds : List TokenKind) (rules : List Rule) :
    Keeps Ahead final K (modify (·.note kinds rules)) :=
  fun s opened => (s.note_agrees kinds rules).turns
    (ParserState.errors_subset (.note kinds rules) s) opened fun _ _ _ keeps => keeps

theorem overrun : Keeps Ahead final K overrun :=
  fun _ opened => ParserState.overrun_turns opened fun _ keeps => keeps

theorem either {c : Bool} {p q : Parser α} (yes : Keeps Ahead final K p)
    (no : Keeps Ahead final K q) : Keeps Ahead final K (if c then p else q) :=
  Turns.either yes no

theorem repeated {step : Parser Bool} (keeps : Keeps Ahead final K step) :
    Keeps Ahead final K (repeatWhile step) := by
  refine .andThen .ask fun s => ?_
  induction s.rest.length + 1 with
  | zero => exact .overrun
  | succ n ih => exact .andThen keeps fun _ => .either ih (.answer ())

/-- A node may have another property than its children. -/
theorem within {body : Parser Unit} (keeps : Keeps Ahead final K body)
    (node : ∀ n cs, (∀ c ∈ cs, K c) → K' (.ofChildren n r cs)) :
    Keeps Ahead final K' (within r body) := by
  refine (Turns.within keeps).weaken ?_
  rintro ts us ⟨n, cs, keeps, rfl⟩ before
  exact List.forall_mem_cons.mpr ⟨node n _ (by simpa using keeps nofun), before⟩

/-- A node around the latest child has what its parts have. -/
theorem wrapping {body : Parser Unit} (keeps : Keeps Ahead final K body)
    (node : ∀ n cs, (∀ c ∈ cs, K c) → K (.ofChildren n r cs)) :
    Keeps Ahead final K (wrapping r body) := by
  refine (Turns.wrapping keeps).weaken ?_
  rintro ts us ⟨n, cs, keeps, rfl⟩ before
  have parts := keeps fun t member => before t (List.mem_of_head? (Option.mem_toList.mp member))
  exact List.forall_mem_cons.mpr
    ⟨node n _ (by simpa using parts), fun t member => before t (List.mem_of_mem_tail member)⟩

end Keeps

/-- What leaves have, and nodes whose children have it, is kept by all that is assembled of parsers
that keep it. -/
theorem Assembled.keeps {own : Rule → Bool} {given : Parser Unit → Prop}
    (assembled : Assembled own given p) (remains : Remains Ahead) (leaf : ∀ x, K (.leaf x))
    (node : ∀ n r cs, own r = true → (∀ c ∈ cs, K c) → K (.ofChildren n r cs))
    (parts : ∀ q, given q → Keeps Ahead final K q) : Keeps Ahead final K p := by
  induction assembled with
  | answer a => exact .answer a
  | andThen first next ihFirst ihNext => exact .andThen ihFirst ihNext
  | ask => exact .ask
  | note kinds rules => exact .note kinds rules
  | complain c =>
    exact fun s opened => (s.complain_agrees c).turns (ParserState.errors_subset (.complain c) s)
      opened fun _ _ _ keeps => keeps
  | overrun => exact .overrun
  | bump =>
    exact Turns.bump remains (fun _ _ _ before => List.forall_mem_cons.mpr ⟨leaf _, before⟩)
      fun _ => id
  | within owned inside ih => exact .within ih fun n cs => node n _ cs owned
  | wrapping owned inside ih => exact .wrapping ih fun n cs => node n _ cs owned
  | part gives => exact parts _ gives

end Parser

end XuleLang
