import XuleLang.Proofs.Parser.Growth
import XuleLang.Proofs.Syntax.Subtree
import XuleLang.Proofs.Token.Visible

/-!
The spans of nodes.

A node that the parser closes gets the smallest span that holds those of its children. So its span
is the hull of its tokens: it starts where one of them starts, stops where one of them stops, and
holds all of them. A node without tokens has no span.
-/

namespace XuleLang

variable {text : List Char} {ts us : List Token} {s q : Span}

/-- The smallest span that holds some tokens of a text. -/
structure Span.IsHull (s : Span) (text : List Char) (ts : List Token) : Prop where
  place : s.IsIn text
  holds : ∀ t ∈ ts, s.start.offset ≤ t.span.start.offset ∧ t.span.stop.offset ≤ s.stop.offset
  first : ∃ t ∈ ts, t.span.start.offset = s.start.offset
  last : ∃ t ∈ ts, t.span.stop.offset = s.stop.offset

namespace Span.IsHull

theorem single {t : Token} (place : t.span.IsIn text) : t.span.IsHull text [t] :=
  { place := place, holds := by simp, first := ⟨t, .head _, rfl⟩, last := ⟨t, .head _, rfl⟩ }

/-- What covers two hulls is the hull of all their tokens. -/
theorem cover (first : s.IsHull text ts) (second : q.IsHull text us) :
    (s.cover q).IsHull text (ts ++ us) := by
  have orderedFirst := first.place.ordered
  have orderedSecond := second.place.ordered
  have start : (s.cover q).start.offset = min s.start.offset q.start.offset := by
    unfold Span.cover
    dsimp only
    split <;> omega
  have stop : (s.cover q).stop.offset = max s.stop.offset q.stop.offset := by
    unfold Span.cover
    dsimp only
    split <;> omega
  refine { place := { start := ?_, stop := ?_, ordered := by omega, inside := ?_ }
           holds := ?_, first := ?_, last := ?_ }
  · unfold Span.cover
    dsimp only
    split
    · exact second.place.start
    · exact first.place.start
  · unfold Span.cover
    dsimp only
    split
    · exact second.place.stop
    · exact first.place.stop
  · have insideFirst := first.place.inside
    have insideSecond := second.place.inside
    omega
  · intro t member
    rcases List.mem_append.mp member with here | there
    · have := first.holds t here
      omega
    · have := second.holds t there
      omega
  · rw [start]
    obtain ⟨t, here, atStart⟩ := first.first
    obtain ⟨u, there, atStart'⟩ := second.first
    rcases Nat.le_total s.start.offset q.start.offset with le | le
    · exact ⟨t, List.mem_append_left _ here, by omega⟩
    · exact ⟨u, List.mem_append_right _ there, by omega⟩
  · rw [stop]
    obtain ⟨t, here, atStop⟩ := first.last
    obtain ⟨u, there, atStop'⟩ := second.last
    rcases Nat.le_total s.stop.offset q.stop.offset with le | le
    · exact ⟨u, List.mem_append_right _ there, by omega⟩
    · exact ⟨t, List.mem_append_left _ here, by omega⟩

end Span.IsHull

namespace Tree

/-- The tokens of a tree in the order of the text. -/
def tokens (t : Tree) : List Token := t.leaves.map (·.token)

/-- The tokens of some trees one after the other. -/
def tokensOfAll (ts : List Tree) : List Token := (leavesOfAll ts).map (·.token)

@[simp] theorem tokensOfAll_cons (t : Tree) (ts : List Tree) :
    tokensOfAll (t :: ts) = t.tokens ++ tokensOfAll ts := by
  simp [tokensOfAll, tokens, leavesOfAll]

/-- Every node has the span that its children give it. -/
inductive IsSpanned : Tree → Prop where
  | leaf (l : Leaf) : IsSpanned (.leaf l)
  | node (parts : ∀ c ∈ cs, IsSpanned c) : IsSpanned (.ofChildren n r cs)

/-- The span of a tree is the hull of its tokens, and without a token there is none. -/
def HasHull (text : List Char) (t : Tree) : Prop :=
  match t.span? with
  | some s => s.IsHull text t.tokens
  | none => t.tokens = []

theorem tokens_sublist_tokensOfAll {c : Tree} {cs : List Tree} (member : c ∈ cs) :
    c.tokens.Sublist (tokensOfAll cs) :=
  (leaves_sublist_leavesOfAll member).map _

theorem isHull_foldl {cs : List Tree} (hulls : ∀ c ∈ cs, c.HasHull text)
    (before : s.IsHull text ts) :
    ((cs.filterMap span?).foldl Span.cover s).IsHull text (ts ++ tokensOfAll cs) := by
  induction cs generalizing s ts with
  | nil => simpa [tokensOfAll, leavesOfAll] using before
  | cons c cs ih =>
    obtain ⟨here, others⟩ := List.forall_mem_cons.mp hulls
    unfold HasHull at here
    rw [tokensOfAll_cons, ← List.append_assoc, List.filterMap_cons]
    cases span : c.span? with
    | none =>
      rw [span] at here
      rw [here, List.append_nil]
      exact ih others before
    | some q =>
      rw [span] at here
      exact ih others (before.cover here)

/-- What covers the children of a node is the hull of their tokens. -/
theorem hasHull_ofChildren {cs : List Tree} (hulls : ∀ c ∈ cs, c.HasHull text) (n : Nat)
    (r : Rule) : (ofChildren n r cs).HasHull text := by
  -- The cover of the children starts with the first one that has a token.
  change match Span.coverAll (cs.filterMap span?) with
    | some s => s.IsHull text (tokensOfAll cs)
    | none => tokensOfAll cs = []
  induction cs with
  | nil => rfl
  | cons c cs ih =>
    obtain ⟨here, others⟩ := List.forall_mem_cons.mp hulls
    unfold HasHull at here
    rw [tokensOfAll_cons, List.filterMap_cons]
    cases span : c.span? with
    | none =>
      rw [span] at here
      rw [here, List.nil_append]
      exact ih others
    | some q =>
      rw [span] at here
      exact isHull_foldl others here

theorem IsSpanned.hasHull {t : Tree} (spanned : t.IsSpanned)
    (places : ∀ u ∈ t.tokens, u.span.IsIn text) : t.HasHull text := by
  induction spanned with
  | leaf l => exact .single (places l.token (.head _))
  | node parts ih =>
    exact hasHull_ofChildren (fun c member => ih c member fun u there =>
      places u ((tokens_sublist_tokensOfAll member).subset there)) _ _

end Tree

/-- The children of an open node have the spans that their own children give them. -/
theorem Grows.isSpanned {a b : Growth} (grows : Grows g a b)
    (before : ∀ t ∈ a.trees, t.IsSpanned) : ∀ t ∈ b.trees, t.IsSpanned := by
  induction grows with
  | still => exact before
  | next first second ihFirst ihSecond => exact ihSecond (ihFirst before)
  | leaf inside rest n ts => exact List.forall_mem_cons.mpr ⟨.leaf _, before⟩
  | node admitted ts body ih =>
    have parts := ih (by simp)
    exact List.forall_mem_cons.mpr ⟨.node (by simpa using parts), before⟩
  | around wraps deep ts body ih =>
    obtain ⟨child, others⟩ := List.forall_mem_cons.mp before
    have parts := ih (by simpa using child)
    exact List.forall_mem_cons.mpr ⟨.node (by simpa using parts), others⟩

end XuleLang
