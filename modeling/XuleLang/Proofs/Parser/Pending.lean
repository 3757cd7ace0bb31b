import XuleLang.Proofs.Parser.Program
import XuleLang.Proofs.Parser.Operation

/-!
What has been opened and not yet closed.

`Ledger.Opened` compares two moments of a run. Since the first, nodes of some rules have been opened
and some expressions entered, all of which are pending at the second (`Pending`). The nodes that
were open at the first are open still. All but the innermost of them are as they were, and that one
will only have gained children when what is pending is closed (`Stands`). What a single action does
to this is said once for each action.
-/

namespace XuleLang

/-! ## Children -/

/-- What becomes of the children of an open node, the latest first: further children come, and the
latest child comes to lie in a node around it, whose children it was the first of. -/
inductive Gains : List Tree → List Tree → Prop where
  | still (ts : List Tree) : Gains ts ts
  | append {ts us : List Tree} (gains : Gains ts us) (t : Tree) : Gains ts (t :: us)
  | wrap {ts us cs : List Tree} {c : Tree} (gains : Gains ts (c :: us)) (around : Gains [c] cs)
    (n : Nat) (r : Rule) : Gains ts (.ofChildren n r cs.reverse :: us)

theorem Gains.trans {ts us vs : List Tree} (first : Gains ts us) (second : Gains us vs) :
    Gains ts vs := by
  induction second with
  | still => exact first
  | append gains t ih => exact (ih first).append t
  | wrap gains around n r ih => exact (ih first).wrap around n r

/-- Of some open nodes only the innermost has changed, and it has only gained children. -/
def Widens : List Frame → List Frame → Prop
  | [], fs => fs = []
  | f :: outer, fs => ∃ cs, fs = { f with children := cs } :: outer ∧ Gains f.children cs

theorem Widens.refl : (fs : List Frame) → Widens fs fs
  | [] => rfl
  | f :: _ => ⟨f.children, rfl, .still _⟩

/-- Makes a tree the latest child of the innermost of some open nodes. -/
def attachTo (t : Tree) : List Frame → List Frame
  | [] => []
  | f :: outer => { f with children := t :: f.children } :: outer

theorem Widens.attachTo {base fs : List Frame} (widens : Widens base fs) (t : Tree) :
    Widens base (attachTo t fs) := by
  cases base with
  | nil =>
    cases widens
    rfl
  | cons f outer =>
    obtain ⟨cs, rfl, gains⟩ := widens
    exact ⟨t :: cs, rfl, gains.append t⟩

theorem Widens.trans {fs gs hs : List Frame} (first : Widens fs gs) (second : Widens gs hs) :
    Widens fs hs := by
  cases fs with
  | nil =>
    cases first
    exact second
  | cons f outer =>
    obtain ⟨cs, rfl, gains⟩ := first
    obtain ⟨ds, rfl, more⟩ := second
    exact ⟨ds, rfl, gains.trans more⟩

/-! ## Open nodes -/

/-- Behind some open nodes stand nodes of these rules, the innermost first. Each was opened empty,
or around a child of the node outside it, and would be given back to that node as its latest child
if it were closed. -/
def Stands (base : List Frame) : List Rule → List Frame → Prop
  | [], fs => Widens base fs
  | _ :: _, [] => False
  | r :: rs, f :: fs => f.rule = r ∧
    (Stands base rs fs ∨ ∃ c, Gains [c] f.children ∧ Stands base rs (attachTo c fs))

variable {base fs gs : List Frame} {rs : List Rule}

theorem Stands.attachTo (stands : Stands base rs fs) (t : Tree) :
    Stands base rs (attachTo t fs) := by
  cases rs with
  | nil => exact Widens.attachTo stands t
  | cons r rs =>
    cases fs with
    | nil => exact stands
    | cons f fs =>
      obtain ⟨rule, outer⟩ := stands
      exact ⟨rule, outer.imp_right fun ⟨c, gains, given⟩ => ⟨c, gains.append t, given⟩⟩

/-- The node around a child may come in its place. -/
theorem Stands.adopt {c : Tree} {cs : List Tree} (stands : Stands base rs (XuleLang.attachTo c fs))
    (around : Gains [c] cs) (n : Nat) (r : Rule) :
    Stands base rs (XuleLang.attachTo (.ofChildren n r cs.reverse) fs) := by
  cases fs with
  | nil => exact stands
  | cons f fs =>
    cases rs with
    | nil =>
      cases base with
      | nil => cases stands
      | cons b outer =>
        obtain ⟨us, same, gains⟩ := stands
        simp only [XuleLang.attachTo, List.cons.injEq, Frame.mk.injEq] at same
        obtain ⟨⟨id, rule, rfl⟩, rfl⟩ := same
        exact ⟨_, by simp only [XuleLang.attachTo, id, rule], gains.wrap around n r⟩
    | cons s rs =>
      obtain ⟨rule, outer⟩ := stands
      exact ⟨rule, outer.imp_right fun ⟨d, gains, given⟩ => ⟨d, gains.wrap around n r, given⟩⟩

theorem Stands.widen (stands : Stands base rs fs) (widens : Widens fs gs) : Stands base rs gs := by
  cases rs with
  | nil => exact Widens.trans stands widens
  | cons r rs =>
    cases fs with
    | nil => exact stands.elim
    | cons f fs =>
      obtain ⟨rule, outer⟩ := stands
      obtain ⟨cs, rfl, gains⟩ := widens
      exact ⟨rule, outer.imp_right fun ⟨c, before, given⟩ => ⟨c, before.trans gains, given⟩⟩

theorem Stands.rules (stands : Stands base rs fs) :
    fs.map (·.rule) = rs ++ base.map (·.rule) := by
  induction rs generalizing fs with
  | nil =>
    cases base with
    | nil =>
      cases stands
      rfl
    | cons f outer =>
      obtain ⟨cs, rfl, -⟩ := stands
      rfl
  | cons r rs ih =>
    cases fs with
    | nil => exact stands.elim
    | cons f fs =>
      have same (c : Tree) : (XuleLang.attachTo c fs).map (·.rule) = fs.map (·.rule) := by
        cases fs <;> rfl
      obtain ⟨rfl, empty | ⟨c, -, given⟩⟩ := stands
      · exact congrArg (f.rule :: ·) (ih empty)
      · exact congrArg (f.rule :: ·) ((same c).symm.trans (ih given))

/-- Closing the innermost node leaves the others standing. -/
theorem Stands.finish {s : ParserState} {r : Rule} (stands : Stands base (r :: rs) s.frames) :
    Stands base rs s.finish.frames := by
  cases opened : s.frames with
  | nil => exact (opened ▸ stands).elim
  | cons f fs =>
    have closed : s.finish.frames =
        XuleLang.attachTo (.ofChildren f.id f.rule f.children.reverse) fs := by
      simp only [ParserState.finish, opened, ParserState.attach]
      cases fs <;> rfl
    rw [opened] at stands
    obtain ⟨-, empty | ⟨c, gains, given⟩⟩ := stands
    · exact closed ▸ empty.attachTo _
    · exact closed ▸ given.adopt gains f.id f.rule

/-! ## Moments of a run -/

/-- What has been opened and not closed, and how many expressions entered and not left. -/
structure Pending where
  rules : List Rule
  levels : Nat

namespace Pending

/-- Nothing is pending. -/
def none : Pending := ⟨[], 0⟩

def openNode (a : Pending) (r : Rule) : Pending := ⟨r :: a.rules, a.levels⟩

def enter (a : Pending) : Pending := ⟨a.rules, a.levels + 1⟩

end Pending

/-- Whether the action opens and closes, enters and leaves nothing. -/
def Action.isPlain : Action → Bool
  | note .. | bump | complain _ | overrun => true
  | start _ | wrap _ | finish | enter | leave => false

/-- Only what is open changes in what is read, and only by a child. -/
theorem ParserState.bump_widens (s : ParserState) : Widens s.frames s.bump.frames := by
  cases here : s.rest with
  | nil =>
    have same : s.bump = s := by simp only [bump, here]
    rw [same]
    exact Widens.refl _
  | cons t ts =>
    have read : s.bump.frames = attachTo (.leaf ⟨s.nextId, t⟩) s.frames := by
      refine (bump_of_cons here).frames.trans ?_
      simp only [attach]
      split <;> simp [attachTo, *]
    exact read ▸ (Widens.refl _).attachTo _

namespace Ledger

/-- Since the first moment all this has been opened and entered, and is pending. -/
structure Opened (m : Ledger) (a : Pending) (m' : Ledger) : Prop where
  frames : Stands m.frames a.rules m'.frames
  ruleStack : m'.ruleStack = a.rules ++ m.ruleStack
  depth : m'.depth = m.depth + a.levels

variable {m m' : Ledger} {a : Pending} {r : Rule}

theorem Opened.refl (m : Ledger) : m.Opened .none m := ⟨Widens.refl _, rfl, rfl⟩

/-- The stack keeps the rules of the open nodes. -/
theorem Opened.kept (opened : m.Opened a m') (kept : m.ruleStack = m.rules) :
    m'.ruleStack = m'.rules := by
  rw [opened.ruleStack, kept]
  exact opened.frames.rules.symm

theorem Opened.start (opened : m.Opened a m') (r : Rule) :
    m.Opened (a.openNode r) ((Action.start r).perform m') :=
  ⟨⟨rfl, .inl opened.frames⟩, congrArg (r :: ·) opened.ruleStack, opened.depth⟩

theorem Opened.wrap (opened : m.Opened a m') (r : Rule) :
    m.Opened (a.openNode r) ((Action.wrap r).perform m') := by
  refine ⟨?_, congrArg (r :: ·) opened.ruleStack, opened.depth⟩
  change Stands m.frames (a.openNode r).rules (m'.wrapNode r).frames
  have plain : Stands m.frames (a.openNode r).rules (m'.openNode r).frames :=
    (opened.start r).frames
  rcases frames : m'.frames with _ | ⟨f, outer⟩
  · simpa only [ParserState.wrapNode, frames] using plain
  · rcases children : f.children with _ | ⟨c, cs⟩
    · simpa only [ParserState.wrapNode, frames, children] using plain
    · simp only [ParserState.wrapNode, frames, children]
      refine ⟨rfl, .inr ⟨c, .still _, ?_⟩⟩
      change Stands m.frames a.rules ({ f with children := c :: cs } :: outer)
      rw [← children, ← frames]
      exact opened.frames

theorem Opened.finish (opened : m.Opened (a.openNode r) m') :
    m.Opened a (Action.finish.perform m') :=
  ⟨opened.frames.finish, congrArg List.tail opened.ruleStack, opened.depth⟩

theorem Opened.enter (opened : m.Opened a m') : m.Opened a.enter (Action.enter.perform m') :=
  ⟨opened.frames, opened.ruleStack, congrArg (· + 1) opened.depth⟩

theorem Opened.leave (opened : m.Opened a.enter m') : m.Opened a (Action.leave.perform m') :=
  ⟨opened.frames, opened.ruleStack, congrArg (· - 1) opened.depth⟩

theorem Opened.plain {x : Action} (opened : m.Opened a m') (plain : x.isPlain = true) :
    m.Opened a (x.perform m') := by
  have unchanged {s : ParserState} (widens : Widens m'.frames s.frames) :
      m.Opened a { m' with toParserState := s } :=
    ⟨opened.frames.widen widens, opened.ruleStack, opened.depth⟩
  cases x with
  | note kinds rules =>
    simp only [Action.perform, note]
    split
    · exact unchanged (Widens.refl _)
    · exact opened
  | bump => exact unchanged m'.bump_widens
  | complain c => exact unchanged ((m'.complain_agrees c).frames ▸ Widens.refl _)
  | overrun => exact unchanged (Widens.refl _)
  | start | wrap | finish | enter | leave => cases plain

end Ledger

/-! ## Reading -/

namespace ParserState

/-- Tokens were read, and the end is not among them. -/
def ReadsOn (s s' : ParserState) : Prop :=
  ∃ read, s.rest = read ++ s'.rest ∧ s'.consumed = s.consumed + read.length ∧
    ∀ t ∈ read, t.kind ≠ .endOfInput

theorem ReadsOn.of_eq {s s' : ParserState} (rest : s'.rest = s.rest)
    (consumed : s'.consumed = s.consumed) : s.ReadsOn s' :=
  ⟨[], rest.symm, consumed, List.forall_mem_nil _⟩

theorem ReadsOn.trans {s t u : ParserState} (first : s.ReadsOn t)
    (second : t.ReadsOn u) : s.ReadsOn u := by
  obtain ⟨before, rest, consumed, inside⟩ := first
  obtain ⟨behind, rest', consumed', inside'⟩ := second
  refine ⟨before ++ behind, ?_, ?_, List.forall_mem_append.mpr ⟨inside, inside'⟩⟩
  · rw [rest, rest', List.append_assoc]
  · rw [consumed', consumed, List.length_append, Nat.add_assoc]

theorem bump_readsOn (s : ParserState) : s.ReadsOn s.bump := by
  cases here : s.rest with
  | nil => exact .of_eq (by simp only [bump, here]) (by simp only [bump, here])
  | cons t ts =>
    obtain ⟨u, same, -, read⟩ := bump_eq_settle here
    rw [read]
    split
    case isTrue =>
      exact .of_eq (u.settle_agrees.rest.trans same.rest)
        ((settle_consumed u).trans same.consumed)
    case isFalse inside => exact ⟨[t], here, rfl, by simpa using inside⟩

theorem wrapNode_readsOn (s : ParserState) (r : Rule) : s.ReadsOn (s.wrapNode r) := by
  fun_cases wrapNode s r <;> exact .of_eq rfl rfl

end ParserState

/-- No action goes back, and none goes behind the end. -/
theorem Action.perform_readsOn (x : Action) (m : Ledger) :
    m.ReadsOn (x.perform m).toParserState := by
  cases x with
  | note kinds rules =>
    simp only [perform, Ledger.note]
    split <;> exact .of_eq rfl rfl
  | bump => exact m.bump_readsOn
  | complain c => exact .of_eq (m.complain_agrees c).rest (m.complain_consumed c)
  | wrap r => exact m.wrapNode_readsOn r
  | finish => exact .of_eq (ParserState.finish_rest _) (ParserState.finish_reseen _).1.consumed
  | overrun | start | enter | leave => exact .of_eq rfl rfl

end XuleLang
