import XuleLang.Proofs.Parser.Composition
import XuleLang.Proofs.Parser.File
import XuleLang.Proofs.Token.Seams

/-!
The same tokens, parsed under other numbers.

No parser asks for the number of a token. So a parser that stands before the same tokens under other
numbers takes the same steps, and what it makes of them differs in those numbers only. Each
operation of the parser's state commutes with numbering the tokens anew.
-/

namespace XuleLang

/-- The leaf with another number for its token. -/
def Leaf.renumbered (place : Nat → Nat) (l : Leaf) : Leaf := ⟨l.id, l.token.renumbered place⟩

namespace Tree

mutual

/-- The tree with the numbers that `place` gives for those of its tokens. -/
def renumbered (place : Nat → Nat) : Tree → Tree
  | leaf l => leaf (l.renumbered place)
  | node i r span ts => node i r span (renumberedAll place ts)

def renumberedAll (place : Nat → Nat) : List Tree → List Tree
  | [] => []
  | t :: ts => renumbered place t :: renumberedAll place ts

end

variable (place : Nat → Nat)

theorem renumberedAll_eq_map (ts : List Tree) :
    renumberedAll place ts = ts.map (·.renumbered place) := by
  induction ts with
  | nil => rfl
  | cons t ts ih => rw [renumberedAll, ih, List.map_cons]

@[simp] theorem renumbered_leaf (l : Leaf) :
    (leaf l).renumbered place = leaf (l.renumbered place) := by rw [renumbered]

@[simp] theorem renumbered_node (i : Nat) (r : Rule) (span : Option Span) (ts : List Tree) :
    (node i r span ts).renumbered place = node i r span (ts.map (·.renumbered place)) := by
  rw [renumbered, renumberedAll_eq_map]

@[simp] theorem renumbered_span? (t : Tree) : (t.renumbered place).span? = t.span? := by
  cases t <;> rw [renumbered] <;> rfl

theorem renumbered_ofChildren (i : Nat) (r : Rule) (ts : List Tree) :
    (ofChildren i r ts).renumbered place = ofChildren i r (ts.map (·.renumbered place)) := by
  have spans : (ts.map (·.renumbered place)).filterMap span? = ts.filterMap span? := by
    rw [List.filterMap_map]
    exact congrArg (List.filterMap · ts) (funext (renumbered_span? place))
  rw [ofChildren, ofChildren, renumbered_node, spans]

theorem renumbered_withSpan (span : Option Span) (t : Tree) :
    (t.withSpan span).renumbered place = (t.renumbered place).withSpan span := by
  cases t <;> simp [withSpan]

end Tree

/-- The node under construction with other numbers for its tokens. -/
def Frame.renumbered (place : Nat → Nat) (f : Frame) : Frame :=
  { f with children := f.children.map (·.renumbered place) }

namespace ParserState

variable (place : Nat → Nat) (s : ParserState)

/-- The state of a parser of the same tokens under other numbers. -/
def renumbered : ParserState :=
  { s with
    rest := s.rest.map (·.renumbered place)
    frames := s.frames.map (·.renumbered place)
    finished := s.finished.map (·.renumbered place) }

theorem renumbered_ahead : (s.renumbered place).ahead = s.ahead := by
  have look : Token.look ∘ Token.renumbered place = Token.look := rfl
  simp only [ahead, renumbered, ← List.map_take, List.map_map, look]

theorem renumbered_span : (s.renumbered place).span = s.span := by
  cases here : s.rest <;> simp [span, renumbered, here, Token.renumbered]

theorem renumbered_note (ks : List TokenKind) (rs : List Rule) :
    (s.renumbered place).note ks rs = (s.note ks rs).renumbered place := by
  have same : (s.renumbered place).rules = s.rules := by
    simp [rules, renumbered, Frame.renumbered, Function.comp_def]
  unfold note
  rw [same]
  cases probe : s.probe with
  | none => simp [renumbered, probe]
  | some p =>
    simp only [renumbered, probe]
    split <;> simp [probe]

theorem renumbered_settle : (s.renumbered place).settle = s.settle.renumbered place := by
  unfold settle
  cases probe : s.probe with
  | none => simp [renumbered, probe]
  | some p =>
    simp only [renumbered, probe]
    split <;> simp [probe]

theorem renumbered_attach (t : Tree) :
    (s.renumbered place).attach (t.renumbered place) = (s.attach t).renumbered place := by
  cases frames : s.frames <;> simp [attach, renumbered, frames, Frame.renumbered]

theorem renumbered_bump : (s.renumbered place).bump = s.bump.renumbered place := by
  cases here : s.rest with
  | nil => simp [bump, renumbered, here]
  | cons t ts =>
    have there : (s.renumbered place).rest = t.renumbered place :: ts.map (·.renumbered place) := by
      simp [renumbered, here]
    have attached : (s.renumbered place).attach (.leaf ⟨s.nextId, t.renumbered place⟩) =
        (s.attach (.leaf ⟨s.nextId, t⟩)).renumbered place := by
      rw [← renumbered_attach, Tree.renumbered_leaf, Leaf.renumbered]
    have settled : { (s.renumbered place).attach (.leaf ⟨s.nextId, t.renumbered place⟩) with
          nextId := s.nextId + 1 }.settle =
        { s.attach (.leaf ⟨s.nextId, t⟩) with nextId := s.nextId + 1 }.settle.renumbered place := by
      rw [attached, ← renumbered_settle]
      rfl
    have number : (s.renumbered place).nextId = s.nextId := rfl
    have kind : (t.renumbered place).kind = t.kind := rfl
    simp only [bump, here, there, number, kind, settled]
    split <;> rfl

theorem renumbered_complain (c : Complaint) :
    (s.renumbered place).complain c = (s.complain c).renumbered place := by
  unfold complain
  dsimp only
  rw [renumbered_settle, renumbered_span]
  have same : (s.settle.renumbered place).errors = s.settle.errors := rfl
  rw [same]
  split <;> rfl

theorem renumbered_start (r : Rule) :
    (s.renumbered place).start r = (s.start r).renumbered place := by
  unfold start
  rw [← renumbered_note]
  rfl

theorem renumbered_wrap (r : Rule) : (s.renumbered place).wrap r = (s.wrap r).renumbered place := by
  cases frames : s.frames with
  | nil =>
    have there : (s.renumbered place).frames = [] := by simp [renumbered, frames]
    simp only [wrap, frames, there, renumbered_start]
  | cons f outer =>
    have there : (s.renumbered place).frames =
        f.renumbered place :: outer.map (·.renumbered place) := by simp [renumbered, frames]
    cases children : f.children with
    | nil =>
      have none : (f.renumbered place).children = [] := by simp [Frame.renumbered, children]
      rw [wrap_of_no_child frames children, wrap_of_no_child there none, renumbered_start]
    | cons c cs =>
      have some : (f.renumbered place).children =
          c.renumbered place :: cs.map (·.renumbered place) := by
        simp [Frame.renumbered, children]
      simp only [wrap, frames, there, children, some]
      rw [← renumbered_note]
      rfl

theorem renumbered_finish : (s.renumbered place).finish = s.finish.renumbered place := by
  cases frames : s.frames with
  | nil => simp [finish, renumbered, frames]
  | cons f outer =>
    have there : (s.renumbered place).frames =
        f.renumbered place :: outer.map (·.renumbered place) := by simp [renumbered, frames]
    have closed := Tree.renumbered_ofChildren place f.id f.rule f.children.reverse
    have attached := renumbered_attach place { s with frames := outer }
      (.ofChildren f.id f.rule f.children.reverse)
    rw [closed, List.map_reverse] at attached
    simp only [finish, frames, there]
    exact attached

/-- Parsers of the same tokens under other numbers keep in step. -/
theorem inStep_renumbered : Parser.InStep fun _ s t => s = t.renumbered place where
  ahead := by rintro - - t rfl; exact t.renumbered_ahead place
  note ks rs := by rintro rfl; exact renumbered_note ..
  bump := by rintro - - t rfl; exact t.renumbered_bump place
  complain c := by rintro rfl; exact renumbered_complain ..
  start r := by rintro rfl; exact renumbered_start ..
  wrap r := by rintro rfl; exact renumbered_wrap ..
  finish := by rintro - - t rfl; exact t.renumbered_finish place

end ParserState

open XuleLang.Parser

/-- **The parser does not see numbers.** The same tokens under other numbers are parsed to the same
tree under those numbers, with the same complaints. -/
theorem parse_renumbered {tokens others : List Token} {place : Nat → Nat}
    (ends : EndsOnce (visibleTokens tokens))
    (visible : visibleTokens others = (visibleTokens tokens).map (·.renumbered place))
    (whole : wholeSpan others = wholeSpan tokens) :
    (parse others).tree.root = (parse tokens).tree.root.renumbered place ∧
      (parse others).errors = (parse tokens).errors := by
  have ends' : EndsOnce (visibleTokens others) := by
    obtain ⟨front, last, visible_eq, last_ends, inside⟩ := ends
    exact ⟨front.map (·.renumbered place), last.renumbered place, by simp [visible, visible_eq],
      last_ends, by simpa [Token.renumbered] using inside⟩
  have begin : ParserState.ofTokens (visibleTokens others) none =
      (ParserState.ofTokens (visibleTokens tokens) none).renumbered place := by
    simp [ParserState.ofTokens, ParserState.renumbered, visible]
  have run : runFile others none = (runFile tokens none).renumbered place := by
    rcases wholeFile_alike.coupled (ParserState.inStep_renumbered place).coupled (n := 0)
        (fun deep => by cases deep) begin with
      ⟨-, same⟩ | reached | reached
    · exact same
    · cases (runFile_builds ends' none).1.symm.trans reached
    · cases (runFile_builds ends none).1.symm.trans reached
  obtain ⟨-, last, n, trees, -, -, finished⟩ := runFile_builds ends none
  refine ⟨?_, by simp only [parse, run, ParserState.renumbered]⟩
  simp only [parse, run, whole, ParserState.renumbered, finished]
  exact (Tree.renumbered_withSpan ..).symm

end XuleLang
