import XuleLang.Proofs.Parser.Alike

/-!
The same tokens, parsed behind others and on their own.

Two parsers stand before the same tokens, but one of them has already read others and made nodes of
them. Nothing that it has read or made reaches into what it does from now on: its nodes and leaves
have greater numbers, and their tokens stand further back in their stream, but they are put together
in the same way. What it has complained of before matters only to a complaint about the very first
of the tokens.
-/

namespace XuleLang

/-- The token `k` places further back in its stream. -/
def Token.moved (k : Nat) (t : Token) : Token := { t with index := t.index + k }

mutual

/-- The tree with its numbers greater by `n` and its tokens `k` places further back. -/
def Tree.shifted (k n : Nat) : Tree → Tree
  | leaf l => leaf ⟨l.id + n, l.token.moved k⟩
  | node i r span ts => node (i + n) r span (shiftedAll k n ts)

def Tree.shiftedAll (k n : Nat) : List Tree → List Tree
  | [] => []
  | t :: ts => shifted k n t :: shiftedAll k n ts

end

/-- About a place behind an offset. -/
def Located.isBehind (offset : Nat) (e : Located α) : Bool :=
  e.span.any fun span => offset < span.start.offset

section Trees

variable (k n : Nat)

theorem Tree.shiftedAll_eq_map (ts : List Tree) : shiftedAll k n ts = ts.map (·.shifted k n) := by
  induction ts with
  | nil => rfl
  | cons t ts ih => rw [shiftedAll, ih, List.map_cons]

@[simp] theorem Tree.shifted_span? (t : Tree) : (t.shifted k n).span? = t.span? := by
  cases t <;> rw [shifted] <;> rfl

theorem Tree.shifted_ofChildren (i : Nat) (r : Rule) (ts : List Tree) :
    (ofChildren i r ts).shifted k n = ofChildren (i + n) r (ts.map (·.shifted k n)) := by
  have spans : (ts.map (·.shifted k n)).filterMap span? = ts.filterMap span? := by
    rw [List.filterMap_map]
    exact congrArg (List.filterMap · ts) (funext (shifted_span? k n))
  rw [ofChildren, ofChildren, shifted, shiftedAll_eq_map, spans]

theorem Tree.shifted_leaf (l : Leaf) :
    (leaf l).shifted k n = leaf ⟨l.id + n, l.token.moved k⟩ := by rw [shifted]

/-- The node under construction with its numbers greater and its tokens further back. -/
def Frame.shifted (f : Frame) : Frame :=
  ⟨f.id + n, f.rule, f.children.map (·.shifted k n)⟩

end Trees

/-- The open nodes of a parser that has made the children `ts` of a file before, beside those of one
that begins the file. The number is that of the nodes inside the file. -/
inductive Frames.Shifted (k n : Nat) (ts : List Tree) : Nat → List Frame → List Frame → Prop where
  | file (us : List Tree) :
    Shifted k n ts 0 [⟨0, .file, us.map (·.shifted k n) ++ ts⟩] [⟨0, .file, us⟩]
  | inner (f : Frame) {depth : Nat} {fs gs : List Frame} (outer : Shifted k n ts depth fs gs) :
    Shifted k n ts (depth + 1) (f.shifted k n :: fs) (f :: gs)

namespace ParserState

variable {k n : Nat} {ts : List Token} {word : Token} {s t : ParserState}

theorem note_of_unprobed (here : s.probe = none) (ks : List TokenKind) (rs : List Rule) :
    s.note ks rs = s := by simp only [note, here]

theorem settle_of_unprobed (here : s.probe = none) : s.settle = s := by simp only [settle, here]

/-- The complaints with one more, unless the last was about the same place. -/
def withComplaint (c : Complaint) (span : Span) (es : List SyntaxError) : List SyntaxError :=
  if es.head?.any fun e => e.span.any fun other => other.start.offset == span.start.offset then es
  else ⟨c, some span⟩ :: es

theorem complain_of_unprobed (here : s.probe = none) (c : Complaint) :
    s.complain c = { s with errors := withComplaint c s.span s.errors } := by
  simp only [complain, settle_of_unprobed here, withComplaint]
  split <;> rfl

section Complaints

variable {c : Complaint} {span : Span} {offset : Nat} {late early : List SyntaxError}

theorem not_behind_of_withComplaint (here : span.start.offset ≤ offset)
    (before : ∀ e ∈ early, ¬ e.isBehind offset) {e : SyntaxError}
    (member : e ∈ withComplaint c span early) : ¬ e.isBehind offset := by
  unfold withComplaint at member
  split at member
  case isTrue => exact before e member
  case isFalse =>
    rcases List.mem_cons.mp member with rfl | old
    · simpa [Located.isBehind] using here
    · exact before e old

theorem behind_of_withComplaint (later : offset < span.start.offset)
    (behind : ∀ e ∈ late, e.isBehind offset) {e : SyntaxError}
    (member : e ∈ withComplaint c span late) : e.isBehind offset := by
  unfold withComplaint at member
  split at member
  case isTrue => exact behind e member
  case isFalse =>
    rcases List.mem_cons.mp member with rfl | old
    · simpa [Located.isBehind] using later
    · exact behind e old

/-- Whether a complaint behind an offset is left out, is decided by those behind it. -/
theorem withComplaint_append (later : offset < span.start.offset)
    (before : ∀ e ∈ early, ¬ e.isBehind offset) :
    withComplaint c span (late ++ early) = withComplaint c span late ++ early := by
  cases late with
  | cons e late =>
    cases same : e.span.any fun other => other.start.offset == span.start.offset <;>
      simp [withComplaint, same]
  | nil =>
    cases early with
    | nil => rfl
    | cons e early =>
      have other : e.span.any (fun there => there.start.offset == span.start.offset) = false := by
        cases here : e.span with
        | none => rfl
        | some there =>
          have old := before e (.head _)
          simp only [Located.isBehind, here, Option.any_some, decide_eq_true_eq] at old
          simp only [Option.any_some, beq_eq_false_iff_ne]
          omega
      simp [withComplaint, other]

end Complaints

/-- What becomes a child on both sides. -/
theorem attach_shifted {ts : List Tree} {depth : Nat}
    (frames : Frames.Shifted k n ts depth s.frames t.frames) (u : Tree) :
    ∃ fs gs, Frames.Shifted k n ts depth fs gs ∧
      s.attach (u.shifted k n) = { s with frames := fs } ∧
      t.attach u = { t with frames := gs } := by
  generalize first : s.frames = fs at frames
  generalize second : t.frames = gs at frames
  cases frames with
  | file us => exact ⟨_, _, .file (u :: us), attach_of_cons first _, attach_of_cons second _⟩
  | inner f outer =>
    exact ⟨_, _, .inner { f with children := u :: f.children } outer, attach_of_cons first _,
      attach_of_cons second _⟩

/-- The state `s` of a parser that has already been at work stands beside the state `t` of one that
began with the tokens `word :: ts`. -/
structure Resumes (k n : Nat) (word : Token) (ts : List Token) (made : List Tree) (depth : Nat)
    (s t : ParserState) : Prop where
  rest : s.rest = t.rest.map (·.moved k)
  suffix : t.rest <:+ word :: ts
  ends : EndsOnce t.rest
  nextId : s.nextId = t.nextId + n
  frames : Frames.Shifted k n made depth s.frames t.frames
  finished : s.finished = [] ∧ t.finished = []
  unprobed : s.probe = none ∧ t.probe = none
  /-- They have complained of the same behind the word, and of nothing there while it is ahead. -/
  errors : ∃ late early early', s.errors = late ++ early ∧ t.errors = late ++ early' ∧
    (∀ e ∈ late, e.isBehind word.span.start.offset) ∧
    (∀ e ∈ early ++ early', ¬ e.isBehind word.span.start.offset) ∧
    (t.rest = word :: ts → late = [])

namespace Resumes

variable {made : List Tree} {depth : Nat}

theorem ahead (resumes : Resumes k n word ts made depth s t) : s.ahead = t.ahead := by
  have look : Token.look ∘ Token.moved k = Token.look := rfl
  simp only [ParserState.ahead, resumes.rest, ← List.map_take, List.map_map, look]

theorem note (resumes : Resumes k n word ts made depth s t) (ks : List TokenKind)
    (rs : List Rule) : Resumes k n word ts made depth (s.note ks rs) (t.note ks rs) := by
  rwa [note_of_unprobed resumes.unprobed.1, note_of_unprobed resumes.unprobed.2]

theorem exists_cons (resumes : Resumes k n word ts made depth s t) :
    ∃ x xs, t.rest = x :: xs ∧ s.rest = x.moved k :: xs.map (·.moved k) := by
  obtain ⟨front, last, rest, -⟩ := resumes.ends
  obtain ⟨x, xs, here⟩ := List.exists_cons_of_ne_nil (show t.rest ≠ [] by simp [rest])
  exact ⟨x, xs, here, by rw [resumes.rest, here, List.map_cons]⟩

theorem bump (resumes : Resumes k n word ts made depth s t) :
    Resumes k n word ts made depth s.bump t.bump := by
  obtain ⟨x, xs, there, here⟩ := resumes.exists_cons
  obtain ⟨fs, gs, frames, first, second⟩ := attach_shifted resumes.frames (.leaf ⟨t.nextId, x⟩)
  rw [Tree.shifted_leaf, ← resumes.nextId] at first
  have kind : (x.moved k).kind = x.kind := rfl
  have number : s.nextId + 1 = t.nextId + 1 + n := by rw [resumes.nextId, Nat.add_right_comm]
  have suffix := resumes.suffix
  have ends := resumes.ends
  obtain ⟨late, early, early', complained, complained', behind, before, first_word⟩ :=
    resumes.errors
  rw [there] at suffix ends first_word
  simp only [ParserState.bump, here, there, first, second, kind]
  rw [settle_of_unprobed (by exact resumes.unprobed.1),
    settle_of_unprobed (by exact resumes.unprobed.2)]
  split
  case isTrue =>
    exact { resumes with
      rest := rfl
      suffix := suffix
      ends := ends
      nextId := number
      frames := frames
      errors := ⟨late, early, early', complained, complained', behind, before, first_word⟩ }
  case isFalse inside =>
    refine { resumes with
      rest := rfl
      suffix := (List.suffix_cons x xs).trans suffix
      ends := ends.tail inside
      nextId := number
      frames := frames
      errors := ⟨late, early, early', complained, complained', behind, before, ?_⟩ }
    -- The word is no longer ahead.
    rintro (again : xs = _)
    have := suffix.length_le
    simp only [again, List.length_cons] at this
    omega

/-- A complaint about the word itself may be left out on one side, one behind it only on both. -/
theorem complain (inOrder : ∀ x ∈ ts, word.span.start.offset < x.span.start.offset)
    (resumes : Resumes k n word ts made depth s t) (c : Complaint) :
    Resumes k n word ts made depth (s.complain c) (t.complain c) := by
  obtain ⟨x, xs, there, ahead⟩ := resumes.exists_cons
  have span : s.span = x.span := by simp [ParserState.span, ahead, Token.moved]
  have span' : t.span = x.span := by simp [ParserState.span, there]
  have suffix := resumes.suffix
  obtain ⟨late, early, early', complained, complained', behind, before, first⟩ := resumes.errors
  rw [complain_of_unprobed resumes.unprobed.1, complain_of_unprobed resumes.unprobed.2, span, span',
    complained, complained']
  rw [there] at suffix first
  refine { resumes with errors := ?_ }
  rcases List.suffix_cons_iff.mp suffix with whole | inside
  case inl =>
    obtain ⟨rfl, rfl⟩ := List.cons.inj whole
    obtain rfl := first rfl
    refine ⟨[], withComplaint c x.span early, withComplaint c x.span early', rfl, rfl, by simp,
      fun e member => ?_, fun _ => rfl⟩
    have here := Nat.le_refl x.span.start.offset
    rcases List.mem_append.mp member with told | told
    · exact not_behind_of_withComplaint here (fun e old => before e (by simp [old])) told
    · exact not_behind_of_withComplaint here (fun e old => before e (by simp [old])) told
  case inr =>
    have later := inOrder x (inside.mem (.head _))
    refine ⟨withComplaint c x.span late, early, early', ?_, ?_, ?_, before, ?_⟩
    · exact withComplaint_append later fun e old => before e (by simp [old])
    · exact withComplaint_append later fun e old => before e (by simp [old])
    · exact fun e => behind_of_withComplaint later behind
    · rintro (again : t.rest = _)
      have := inside.length_le
      simp only [← there, again, List.length_cons] at this
      omega

theorem start (resumes : Resumes k n word ts made depth s t) (r : Rule) :
    Resumes k n word ts made (depth + 1) (s.start r) (t.start r) := by
  have opened : Resumes k n word ts made (depth + 1)
      { s with frames := ⟨s.nextId, r, []⟩ :: s.frames, nextId := s.nextId + 1 }
      { t with frames := ⟨t.nextId, r, []⟩ :: t.frames, nextId := t.nextId + 1 } := by
    refine { resumes with nextId := ?_, frames := ?_ }
    · rw [resumes.nextId, Nat.add_right_comm]
    · rw [resumes.nextId]
      exact .inner ⟨t.nextId, r, []⟩ resumes.frames
  exact opened.note [] []

theorem wrap (resumes : Resumes k n word ts made (depth + 1) s t) (r : Rule) :
    Resumes k n word ts made (depth + 2) (s.wrap r) (t.wrap r) := by
  have frames := resumes.frames
  generalize first : s.frames = fs at frames
  generalize second : t.frames = gs at frames
  cases frames with
  | @inner f _ fs gs outer =>
  cases children : f.children with
  | nil =>
    have children' : (f.shifted k n).children = [] := by simp [Frame.shifted, children]
    rw [wrap_of_no_child second children, wrap_of_no_child first children']
    exact resumes.start r
  | cons c cs =>
    have opened : Resumes k n word ts made (depth + 2)
        { s with frames := ⟨s.nextId, r, [c.shifted k n]⟩ ::
                   ⟨f.id + n, f.rule, cs.map (·.shifted k n)⟩ :: fs, nextId := s.nextId + 1 }
        { t with frames := ⟨t.nextId, r, [c]⟩ :: ⟨f.id, f.rule, cs⟩ :: gs,
                 nextId := t.nextId + 1 } := by
      refine { resumes with nextId := ?_, frames := ?_ }
      · rw [resumes.nextId, Nat.add_right_comm]
      · rw [resumes.nextId]
        exact .inner ⟨t.nextId, r, [c]⟩ (.inner ⟨f.id, f.rule, cs⟩ outer)
    simp only [ParserState.wrap, first, second, Frame.shifted, children, List.map_cons]
    exact opened.note [] []

theorem finish (resumes : Resumes k n word ts made (depth + 1) s t) :
    Resumes k n word ts made depth s.finish t.finish := by
  have frames := resumes.frames
  generalize first : s.frames = fs at frames
  generalize second : t.frames = gs at frames
  cases frames with
  | @inner f _ fs gs outer =>
    have closed := Tree.shifted_ofChildren k n f.id f.rule f.children.reverse
    obtain ⟨fs', gs', around, attached, attached'⟩ :=
      attach_shifted (s := { s with frames := fs }) (t := { t with frames := gs }) outer
        (Tree.ofChildren f.id f.rule f.children.reverse)
    rw [closed, List.map_reverse] at attached
    simp only [ParserState.finish, first, second, Frame.shifted, attached, attached']
    exact { resumes with frames := around }

/-- The file is closed with the children made before in front of those made since. -/
theorem close (resumes : Resumes k n word ts made 0 s t) :
    ∃ us, s.finish.finished =
        [.ofChildren 0 .file (made.reverse ++ us.map (·.shifted k n))] ∧
      t.finish.finished = [.ofChildren 0 .file us] := by
  have frames := resumes.frames
  generalize first : s.frames = fs at frames
  generalize second : t.frames = gs at frames
  cases frames with
  | file us =>
    simp only [ParserState.finish, first, second, attach, resumes.finished]
    exact ⟨us.reverse, by simp⟩

theorem errors_behind (resumes : Resumes k n word ts made depth s t) :
    s.errors.filter (·.isBehind word.span.start.offset) =
      t.errors.filter (·.isBehind word.span.start.offset) := by
  obtain ⟨late, early, early', complained, complained', -, before, -⟩ := resumes.errors
  have none_early : early.filter (·.isBehind word.span.start.offset) = [] :=
    List.filter_eq_nil_iff.mpr fun e member => before e (by simp [member])
  have none_early' : early'.filter (·.isBehind word.span.start.offset) = [] :=
    List.filter_eq_nil_iff.mpr fun e member => before e (by simp [member])
  rw [complained, complained', List.filter_append, List.filter_append, none_early, none_early']

end Resumes

theorem inStep_resumes (made : List Tree)
    (inOrder : ∀ x ∈ ts, word.span.start.offset < x.span.start.offset) :
    Parser.InStep (Resumes k n word ts made) where
  ahead := Resumes.ahead
  note ks rs resumes := resumes.note ks rs
  bump := Resumes.bump
  complain c resumes := resumes.complain inOrder c
  start r resumes := resumes.start r
  wrap r resumes := resumes.wrap r
  finish := Resumes.finish

/-- As long as the word is ahead, nothing behind it has been complained of. -/
structure Quiet (word : Token) (s : ParserState) : Prop where
  unprobed : s.probe = none
  inOrder : s.rest.Pairwise fun x y => x.span.start.offset < y.span.start.offset
  early : word ∈ s.rest → ∀ e ∈ s.errors, ¬ e.isBehind word.span.start.offset

namespace Quiet

theorem transfer (quiet : Quiet word s) (same : Reseen s t) : Quiet word t :=
  ⟨same.probe.trans quiet.unprobed, same.rest ▸ quiet.inOrder,
    same.rest ▸ same.errors ▸ quiet.early⟩

theorem note (quiet : Quiet word s) (ks : List TokenKind) (rs : List Rule) :
    Quiet word (s.note ks rs) := by
  rwa [note_of_unprobed quiet.unprobed]

theorem bump (quiet : Quiet word s) : Quiet word s.bump := by
  cases here : s.rest with
  | nil => simpa only [ParserState.bump, here] using quiet
  | cons x xs =>
    obtain ⟨u, same, -, read⟩ := bump_eq_settle here
    have seen := quiet.transfer same
    rw [read, settle_of_unprobed seen.unprobed]
    split
    case isTrue => exact seen
    case isFalse =>
      obtain ⟨unprobed, inOrder, early⟩ := seen
      rw [same.rest, here] at inOrder early
      exact ⟨unprobed, inOrder.tail, fun behind => early (.tail _ behind)⟩

theorem complain (quiet : Quiet word s) (c : Complaint) : Quiet word (s.complain c) := by
  rw [complain_of_unprobed quiet.unprobed]
  refine ⟨quiet.unprobed, quiet.inOrder, fun ahead e member => ?_⟩
  refine not_behind_of_withComplaint ?_ (quiet.early ahead) member
  -- What is complained of is the token ahead, which is the word or stands before it.
  have inOrder := quiet.inOrder
  cases here : s.rest with
  | nil => simp [here] at ahead
  | cons x xs =>
    rw [here] at inOrder ahead
    have span : s.span = x.span := by simp [ParserState.span, here]
    rw [span]
    rcases List.mem_cons.mp ahead with rfl | behind
    · exact Nat.le_refl _
    · exact Nat.le_of_lt (List.rel_of_pairwise_cons inOrder behind)

end Quiet

theorem kept_quiet (word : Token) : Kept (Quiet word) := by
  intro f op s quiet
  cases op with
  | note kinds rules => exact quiet.note kinds rules
  | bump => exact quiet.bump
  | complain c => exact quiet.complain c
  | overrun => exact { quiet with }
  | start r =>
    obtain ⟨u, started, same, -⟩ := s.start_eq_note r
    change Quiet word (s.start r)
    rw [started]
    exact (quiet.transfer same).note [] []
  | wrap r =>
    obtain ⟨u, wrapped, same, -⟩ := s.wrap_eq_note r
    change Quiet word (s.wrap r)
    rw [wrapped]
    exact (quiet.transfer same).note [] []
  | finish => exact quiet.transfer s.finish_reseen.1

end ParserState

end XuleLang
