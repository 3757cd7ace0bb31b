import XuleLang.Proofs.Parser.Conduct

/-!
Shapes of nodes.

What is read out of a tree is read at certain nodes, and relies on how they are made: a name that is
used is the only token of its node, a call has a callee and arguments, and a construct that binds
something unasked begins with a word or a bracket of its own. Such shapes are the same in every
tree, also where tokens are missing or stray, and where a node was put around the child completed
last.

`Parser.Forms` says of a parser that it leaves the children of the innermost open node in shape.
`Parser.Adds` says in addition that it only adds to them, and what.
-/

namespace XuleLang

/-- Kinds of tokens that name what is declared. -/
def TokenKind.names : List TokenKind := [.identifier, .variableName]

/-- What the children of a node are like. Most rules ask for nothing. -/
def Rule.IsMadeOf (r : Rule) (cs : List Tree) : Prop :=
  match r with
  | .functionRef => ∃ l, cs = [.leaf l] ∧ l.token.kind ∈ TokenKind.names
  | .variableRead => ∃ l, cs = [.leaf l] ∧ l.token.kind = .variableName
  | .outputAttributeName => ∃ l, cs = [.leaf l] ∧ l.token.kind = .identifier
  | .propertyRef =>
    cs = [] ∨ ∃ l, cs = [.leaf l] ∧ (l.token.kind = .identifier ∨ l.token.kind.isKeyword)
  | .qualifiedName => ∀ c ∈ cs, ∃ l, c = .leaf l ∧ l.token.kind ≠ .variableName
  | .callExpression => ∃ callee arguments, cs = [callee, arguments] ∧
    (callee.rule? = some .functionRef ∨ callee.rule? = some .qualifiedName) ∧
    arguments.rule? = some .argumentList
  | .navigation | .factset | .filterExpression | .assertDeclaration | .outputDeclaration =>
    ∃ l, (Tree.leavesOfAll cs).head? = some l ∧ l.token.kind ∉ TokenKind.names
  | _ => True

/-- Rules that ask for nothing. -/
def Rule.isPlain : Rule → Bool
  | .functionRef | .variableRead | .outputAttributeName | .propertyRef | .qualifiedName
  | .callExpression | .navigation | .factset | .filterExpression | .assertDeclaration
  | .outputDeclaration => false
  | _ => true

theorem Rule.isMadeOf_of_isPlain {r : Rule} (plain : r.isPlain) (cs : List Tree) :
    r.IsMadeOf cs := by
  cases r <;> trivial

/-- What binds something unasked asks for a first token that is no name. -/
theorem Rule.isMadeOf_of_begins {r : Rule} {cs : List Tree} {l : Leaf}
    (binds : r.implicitVariable?.isSome) (first : (Tree.leavesOfAll cs).head? = some l)
    (noName : l.token.kind ∉ TokenKind.names) : r.IsMadeOf cs := by
  cases r <;> first | exact ⟨l, first, noName⟩ | cases binds

namespace Tree

/-- Every node is in shape, and only calls have the names of functions for children. -/
inductive HasShape : Tree → Prop where
  | leaf (l : Leaf) : HasShape (.leaf l)
  | node (n : Nat) (span : Option Span) (made : r.IsMadeOf cs) (parts : ∀ c ∈ cs, HasShape c)
    (callees : ∀ c ∈ cs, c.rule? = some .functionRef → r = .callExpression) :
    HasShape (.node n r span cs)

theorem HasShape.isMadeOf {t : Tree} (shape : t.HasShape) (rule : t.rule? = some r) :
    r.IsMadeOf t.children := by
  cases shape with
  | leaf => cases rule
  | node n span made => cases rule; exact made

theorem HasShape.child {t : Tree} (shape : t.HasShape) : ∀ c ∈ t.children, c.HasShape := by
  cases shape with
  | leaf => exact nofun
  | node n span made parts => exact parts

theorem leaves_of_rule? {t : Tree} (rule : t.rule? = some r) :
    t.leaves = leavesOfAll t.children := by
  cases t with
  | leaf => cases rule
  | node => rfl

/-- A tree that may be a child of any node. -/
structure IsPart (t : Tree) : Prop where
  shape : t.HasShape
  free : t.rule? ≠ some .functionRef

theorem IsPart.leaf (l : Leaf) : (Tree.leaf l).IsPart := ⟨.leaf l, nofun⟩

theorem IsPart.node {n : Nat} {cs : List Tree} (other : r ≠ .functionRef) (made : r.IsMadeOf cs)
    (parts : ∀ c ∈ cs, c.IsPart) : (ofChildren n r cs).IsPart :=
  ⟨.node n _ made (fun c member => (parts c member).shape)
    fun c member callee => absurd callee (parts c member).free, by simpa [ofChildren, rule?]⟩

theorem IsPart.plain {n : Nat} {cs : List Tree} (plain : r.isPlain) (parts : ∀ c ∈ cs, c.IsPart) :
    (ofChildren n r cs).IsPart := by
  refine .node ?_ (Rule.isMadeOf_of_isPlain plain cs) parts
  rintro rfl
  cases plain

/-- Children, the latest first, have become others. Their leaves are still in front, and they are
parts if they were before. -/
structure Extends (ts us : List Tree) : Prop where
  leaves : leavesOfAll ts.reverse <+: leavesOfAll us.reverse
  parts : (∀ t ∈ ts, t.IsPart) → ∀ u ∈ us, u.IsPart

namespace Extends

variable {ts us vs : List Tree}

theorem refl (ts : List Tree) : Extends ts ts := ⟨List.prefix_refl _, fun parts => parts⟩

theorem trans (first : Extends ts us) (second : Extends us vs) : Extends ts vs :=
  ⟨first.leaves.trans second.leaves, second.parts ∘ first.parts⟩

/-- New children are the latest. -/
theorem append (added : ∀ t ∈ us, t.IsPart) : Extends ts (us.reverse ++ ts) := by
  refine ⟨?_, fun parts => ?_⟩
  · simp [leavesOfAll_append]
  · simpa [or_imp, forall_and] using ⟨added, parts⟩

/-- A node may be put around the latest child. -/
theorem wrap {c : Tree} {cs : List Tree} (body : Extends [c] cs)
    (node : (∀ d ∈ cs, d.IsPart) → (ofChildren n r cs.reverse).IsPart) :
    Extends (c :: ts) (ofChildren n r cs.reverse :: ts) := by
  refine ⟨?_, fun parts => ?_⟩
  · have leaves : c.leaves <+: leavesOfAll cs.reverse := by simpa [leavesOfAll] using body.leaves
    simpa [leavesOfAll_append, leavesOfAll, ofChildren, Tree.leaves] using leaves
  · obtain ⟨latest, others⟩ := List.forall_mem_cons.mp parts
    exact List.forall_mem_cons.mpr ⟨node (body.parts (by simpa using latest)), others⟩

end Extends

end Tree

namespace ParserState

variable {s s' t : ParserState}

/-- The innermost open node has got children like those before, and nothing around it has
changed. -/
structure Forms (s s' : ParserState) : Prop where
  finished : s'.finished = s.finished
  formed : ∃ f outer trees, s.frames = f :: outer ∧
    s'.frames = { f with children := trees } :: outer ∧ Tree.Extends f.children trees

/-- The innermost open node has got the further children `ds`, and nothing else has changed. -/
structure Adds (s s' : ParserState) (ds : List Tree) : Prop where
  finished : s'.finished = s.finished
  added : ∃ f outer, s.frames = f :: outer ∧
    s'.frames = { f with children := ds.reverse ++ f.children } :: outer
  shapes : ∀ d ∈ ds, d.HasShape

theorem Agrees.adds (agrees : Agrees s s') (opened : s.frames ≠ []) : Adds s s' [] := by
  obtain ⟨f, outer, opened⟩ := List.exists_cons_of_ne_nil opened
  exact ⟨agrees.finished, ⟨f, outer, opened, agrees.frames.trans opened⟩, nofun⟩

namespace Forms

theorem trans (first : Forms s s') (second : Forms s' t) : Forms s t := by
  obtain ⟨finished, f, outer, trees, opened, frames, further⟩ := first
  obtain ⟨finished', f', outer', trees', opened', frames', further'⟩ := second
  rw [frames] at opened'
  obtain ⟨rfl, rfl⟩ := List.cons.inj opened'
  exact ⟨finished'.trans finished, f, outer, trees', opened, frames', further.trans further'⟩

theorem opened (forms : Forms s s') : s'.frames ≠ [] := by
  obtain ⟨f, outer, trees, -, frames, -⟩ := forms.formed
  simp [frames]

end Forms

namespace Adds

variable {ds es : List Tree}

theorem trans (first : Adds s s' ds) (second : Adds s' t es) : Adds s t (ds ++ es) := by
  obtain ⟨finished, ⟨f, outer, opened, frames⟩, shapes⟩ := first
  obtain ⟨finished', ⟨f', outer', opened', frames'⟩, shapes'⟩ := second
  rw [frames] at opened'
  obtain ⟨rfl, rfl⟩ := List.cons.inj opened'
  refine ⟨finished'.trans finished, ⟨f, outer, opened, ?_⟩, ?_⟩
  · simp [frames']
  · simpa [or_imp, forall_and] using ⟨shapes, shapes'⟩

theorem forms (adds : Adds s s' ds) (free : ∀ d ∈ ds, d.rule? ≠ some .functionRef) :
    Forms s s' := by
  obtain ⟨finished, ⟨f, outer, opened, frames⟩, shapes⟩ := adds
  exact ⟨finished, f, outer, _, opened, frames,
    .append fun d member => ⟨shapes d member, free d member⟩⟩

theorem opened (adds : Adds s s' ds) : s'.frames ≠ [] := by
  obtain ⟨f, outer, -, frames⟩ := adds.added
  simp [frames]

end Adds

theorem bump_adds {t : Token} {rest : List Token} (opened : s.frames ≠ [])
    (here : s.rest = t :: rest) : ∃ n, Adds s s.bump [.leaf ⟨n, t⟩] := by
  obtain ⟨f, outer, opened⟩ := List.exists_cons_of_ne_nil opened
  have read := bump_of_cons here
  rw [attach_of_cons opened] at read
  exact ⟨s.nextId, read.finished, ⟨f, outer, opened, read.frames⟩, by simpa using .leaf _⟩

/-- A node that is opened becomes a child when it is closed again. -/
theorem finish_adds {cs : List Tree} (opened : s.frames ≠ [])
    (finished : t.finished = (s.start r).finished)
    (frames : t.frames = ⟨s.nextId, r, cs⟩ :: s.frames)
    (shape : (Tree.ofChildren s.nextId r cs.reverse).HasShape) :
    Adds s t.finish [.ofChildren s.nextId r cs.reverse] := by
  obtain ⟨f, outer, opened⟩ := List.exists_cons_of_ne_nil opened
  simp only [finish, frames, attach, opened]
  exact ⟨finished.trans (s.start_agrees r).finished, ⟨f, outer, opened, rfl⟩, by simpa using shape⟩

/-- A node around a child that has just been added takes its place. -/
theorem Adds.around {u : ParserState} {c d : Tree} (first : Adds s t [c])
    (second : Adds (t.wrap r) u [d])
    (shape : (Tree.ofChildren t.nextId r [c, d]).HasShape) :
    Adds s u.finish [.ofChildren t.nextId r [c, d]] := by
  obtain ⟨finished, ⟨f, outer, opened, frames⟩, -⟩ := first
  have wrapped := wrap_of_child frames rfl r
  obtain ⟨finished', ⟨g, around, opened', built⟩, -⟩ := second
  obtain ⟨rfl, rfl⟩ := List.cons.inj (wrapped.frames.symm.trans opened')
  simp only [finish, built, attach]
  exact ⟨finished'.trans (wrapped.finished.trans finished), ⟨f, outer, opened, rfl⟩,
    by simpa using shape⟩

/-- A node around the latest child takes its place. -/
theorem Forms.around (opened : s.frames ≠ []) (plain : r.isPlain) (body : Forms (s.wrap r) t) :
    Forms s t.finish := by
  obtain ⟨f, outer, frames⟩ := List.exists_cons_of_ne_nil opened
  obtain ⟨finished, node, around, cs, started, built, further⟩ := body
  have part : (∀ d ∈ cs, d.IsPart) → (Tree.ofChildren s.nextId r cs.reverse).IsPart :=
    fun parts => .plain plain (by simpa using parts)
  cases children : f.children with
  -- With no child to stand around, the node opens like any other.
  | nil =>
    rw [wrap_of_no_child frames children] at started finished
    obtain ⟨rfl, rfl⟩ := List.cons.inj ((s.start_agrees r).frames.symm.trans started)
    have shape := part (further.parts nofun)
    exact (finish_adds opened finished built shape.shape).forms (by simpa using shape.free)
  | cons c ts =>
    have wrapped := wrap_of_child frames children r
    obtain ⟨rfl, rfl⟩ := List.cons.inj (wrapped.frames.symm.trans started)
    simp only [finish, built, attach]
    refine ⟨finished.trans wrapped.finished, f, outer, _, frames, rfl, ?_⟩
    rw [children]
    exact further.wrap part

end ParserState

namespace Parser

variable {α β : Type} {ts : List Token} {r : Rule} {p : Parser α} {f : α → Parser β}

/-- With the tokens `ts` ahead of it and a node open, the parser leaves the children of the node in
shape. -/
def FormsAt (ts : List Token) (p : Parser α) : Prop :=
  ∀ s : ParserState, s.rest = ts → s.frames ≠ [] → ParserState.Forms s (p.run s).2

/-- The parser leaves children in shape wherever it is. -/
def Forms (p : Parser α) : Prop := ∀ ts, FormsAt ts p

/-- With the tokens `ts` ahead of it and a node open, the parser adds some children to the node. -/
def AddsAt (ts : List Token) (p : Parser α) (W : List Tree → Prop) : Prop :=
  ∀ s : ParserState, s.rest = ts → s.frames ≠ [] → ∃ ds, W ds ∧ ParserState.Adds s (p.run s).2 ds

/-- The parser adds one node of a rule wherever it is. -/
def AddsNode (r : Rule) (p : Parser α) : Prop :=
  ∀ ts, AddsAt ts p fun ds => ∃ t, ds = [t] ∧ t.rule? = some r

/-- With the tokens `ts` ahead of it, the parser makes the inside of a node of the rule. -/
def MakesAt (r : Rule) (ts : List Token) (body : Parser Unit) : Prop :=
  ∀ (s : ParserState) (f : Frame) outer, s.rest = ts → s.frames = f :: outer → f.children = [] →
    ∃ cs, (body.run s).2.finished = s.finished ∧
      (body.run s).2.frames = { f with children := cs } :: outer ∧
      ∀ n, (Tree.ofChildren n r cs.reverse).HasShape

/-! ## Adding children -/

namespace AddsAt

variable {V W X : List Tree → Prop}

theorem of_stays {Q : α → List Token → Prop} (stays : Stays p Q) (nothing : W []) :
    AddsAt ts p W :=
  fun s _ opened => ⟨[], nothing, (stays s).1.adds opened⟩

theorem answer (a : α) (nothing : W []) : AddsAt ts (pure a) W :=
  .of_stays (Q := fun _ _ => True) (Stays.answer fun _ => trivial) nothing

theorem andThen (first : AddsAt ts p V) (next : ∀ a us, AddsAt us (f a) X)
    (both : ∀ ds es, V ds → X es → W (ds ++ es)) : AddsAt ts (p >>= f) W := by
  intro s here opened
  obtain ⟨ds, fits, adds⟩ := first s here opened
  obtain ⟨es, fits', adds'⟩ := next (p.run s).1 _ (p.run s).2 rfl adds.opened
  exact ⟨ds ++ es, both ds es fits fits', adds.trans adds'⟩

/-- After a parser that stays the same tokens are ahead. -/
theorem after {Q : α → List Token → Prop} (stays : Stays p Q)
    (next : ∀ a, Q a ts → AddsAt ts (f a) W) : AddsAt ts (p >>= f) W := by
  rintro s rfl opened
  obtain ⟨agrees, fits⟩ := stays s
  obtain ⟨es, fits', adds⟩ := next _ fits _ agrees.rest (agrees.frames ▸ opened)
  exact ⟨es, fits', (agrees.adds opened).trans adds⟩

theorem bump (ahead : kindAhead ts 0 ≠ .endOfInput)
    (fits : ∀ l : Leaf, l.token.kind = kindAhead ts 0 → W [.leaf l]) : AddsAt ts bump W := by
  rintro s rfl opened
  obtain ⟨t, rest, here, -⟩ := exists_cons_of_kindAhead ahead
  obtain ⟨n, adds⟩ := ParserState.bump_adds opened here
  exact ⟨_, fits ⟨n, t⟩ (by simp [kindAhead, here]), adds⟩

theorem within {body : Parser Unit} (makes : MakesAt r ts body)
    (fits : ∀ t : Tree, t.rule? = some r → W [t]) : AddsAt ts (within r body) W := by
  rintro s rfl opened
  have started := s.start_agrees r
  obtain ⟨cs, finished, frames, shape⟩ :=
    makes (s.start r) _ _ started.rest started.frames rfl
  exact ⟨_, fits _ rfl, ParserState.finish_adds opened finished frames (shape _)⟩

theorem forms (adds : AddsAt ts p W) (free : ∀ ds, W ds → ∀ d ∈ ds, d.rule? ≠ some .functionRef) :
    FormsAt ts p := by
  intro s here opened
  obtain ⟨ds, fits, adds⟩ := adds s here opened
  exact adds.forms (free ds fits)

end AddsAt

theorem AddsNode.forms (adds : AddsNode r p) (other : r ≠ .functionRef) : Forms p := by
  refine fun ts => (adds ts).forms ?_
  rintro _ ⟨t, rfl, rule⟩
  simpa [rule] using other

/-! ## Leaving children in shape -/

namespace FormsAt

theorem of_stays {Q : α → List Token → Prop} (stays : Stays p Q) : FormsAt ts p :=
  fun s _ opened => ((stays s).1.adds opened).forms nofun

theorem andThen (first : FormsAt ts p) (next : ∀ a, Forms (f a)) : FormsAt ts (p >>= f) := by
  intro s here opened
  have forms := first s here opened
  exact forms.trans (next _ _ (p.run s).2 rfl forms.opened)

/-- After a parser that stays the same tokens are ahead. -/
theorem after {Q : α → List Token → Prop} (stays : Stays p Q)
    (next : ∀ a, Q a ts → FormsAt ts (f a)) : FormsAt ts (p >>= f) := by
  rintro s rfl opened
  obtain ⟨agrees, fits⟩ := stays s
  exact ((agrees.adds opened).forms nofun).trans
    (next _ fits _ agrees.rest (agrees.frames ▸ opened))

theorem within {body : Parser Unit} (other : r ≠ .functionRef) (makes : MakesAt r ts body) :
    FormsAt ts (within r body) := by
  refine AddsAt.forms (W := fun ds => ∃ t, ds = [t] ∧ t.rule? = some r)
    (.within makes fun t rule => ⟨t, rfl, rule⟩) ?_
  rintro _ ⟨t, rfl, rule⟩
  simpa [rule] using other

/-- The inside of a node that asks for nothing. -/
theorem makes {body : Parser Unit} (forms : FormsAt ts body) (plain : r.isPlain) :
    MakesAt r ts body := by
  intro s f outer here opened inside
  obtain ⟨finished, f', outer', trees, opened', frames, further⟩ :=
    forms s here (by simp [opened])
  obtain ⟨rfl, rfl⟩ := List.cons.inj (opened.symm.trans opened')
  have parts := further.parts (by simp [inside])
  have part (n : Nat) : (Tree.ofChildren n r trees.reverse).IsPart :=
    .plain plain (by simpa using parts)
  exact ⟨trees, finished, frames, fun n => (part n).shape⟩

end FormsAt

namespace Forms

theorem of_stays {Q : α → List Token → Prop} (stays : Stays p Q) : Forms p :=
  fun _ => .of_stays stays

theorem answer (a : α) : Forms (pure a : Parser α) :=
  .of_stays (Q := fun _ _ => True) (Stays.answer fun _ => trivial)

theorem andThen (first : Forms p) (next : ∀ a, Forms (f a)) : Forms (p >>= f) :=
  fun ts => (first ts).andThen next

theorem either {c : Bool} {p q : Parser α} (yes : Forms p) (no : Forms q) :
    Forms (if c then p else q) := by
  cases c
  · exact no
  · exact yes

/-- A parser that may be left out before the others. -/
theorem eitherThen {c : Bool} {p : Parser Unit} {q : Unit → Parser β} (yes : Forms p)
    (rest : Forms (q ())) : Forms (if c then p >>= q else q ()) :=
  .either (yes.andThen fun _ => rest) rest

theorem bump : Forms bump := by
  rintro ts s rfl opened
  cases here : s.rest with
  | nil =>
    have still : s.bump = s := by rw [ParserState.bump, here]
    have agrees : ParserState.Agrees s s.bump := by
      rw [still]
      exact ⟨rfl, rfl, rfl, rfl, rfl⟩
    exact (agrees.adds opened).forms fun _ member => absurd member List.not_mem_nil
  | cons t rest =>
    obtain ⟨n, adds⟩ := ParserState.bump_adds opened here
    exact adds.forms (by simp [Tree.rule?])

theorem overrun : Forms overrun := by
  rintro ts s - opened
  obtain ⟨f, outer, opened⟩ := List.exists_cons_of_ne_nil opened
  exact ⟨rfl, f, outer, _, opened, opened, .refl _⟩

theorem node {body : Parser Unit} (plain : r.isPlain) (forms : Forms body) :
    Forms (within r body) := by
  refine fun ts => .within ?_ ((forms ts).makes plain)
  rintro rfl
  cases plain

theorem wrapping {body : Parser Unit} (plain : r.isPlain) (forms : Forms body) :
    Forms (wrapping r body) := by
  intro ts s here opened
  exact .around opened plain (forms _ (s.wrap r) rfl (s.wrap_rest opened r).2)

end Forms

/-! ## Making nodes -/

namespace MakesAt

variable {body : Parser Unit}

/-- The inside of a node that is known to the last child. -/
theorem of_adds {W : List Tree → Prop} (adds : AddsAt ts body W) (made : ∀ ds, W ds → r.IsMadeOf ds)
    (callees : ∀ ds, W ds → ∀ d ∈ ds, d.rule? = some .functionRef → r = .callExpression) :
    MakesAt r ts body := by
  intro s f outer here opened inside
  obtain ⟨ds, fits, finished, ⟨f', outer', opened', frames⟩, shapes⟩ :=
    adds s here (by simp [opened])
  obtain ⟨rfl, rfl⟩ := List.cons.inj (opened.symm.trans opened')
  refine ⟨ds.reverse, finished, by simpa [inside] using frames, fun n => ?_⟩
  rw [List.reverse_reverse]
  exact .node n _ (made ds fits) shapes (callees ds fits)

theorem after {Q : α → List Token → Prop} {next : α → Parser Unit} (stays : Stays p Q)
    (makes : ∀ a, Q a ts → MakesAt r ts (next a)) : MakesAt r ts (p >>= next) := by
  rintro s f outer rfl opened inside
  obtain ⟨agrees, fits⟩ := stays s
  obtain ⟨cs, finished, frames, shape⟩ :=
    makes _ fits _ f outer agrees.rest (agrees.frames.trans opened) inside
  exact ⟨cs, finished.trans agrees.finished, frames, shape⟩

/-- A node around the token ahead. -/
theorem bump (ahead : kindAhead ts 0 ≠ .endOfInput)
    (made : ∀ l : Leaf, l.token.kind = kindAhead ts 0 → r.IsMadeOf [.leaf l]) :
    MakesAt r ts bump := by
  refine .of_adds (W := fun ds => ∃ l : Leaf, ds = [.leaf l] ∧ l.token.kind = kindAhead ts 0)
    (.bump ahead fun l here => ⟨l, rfl, here⟩) ?_ ?_
  · rintro _ ⟨l, rfl, here⟩
    exact made l here
  · rintro _ ⟨l, rfl, -⟩
    simp [Tree.rule?]

/-- A node that begins with the token ahead, which is no name. -/
theorem begins {rest : Unit → Parser Unit} (binds : r.implicitVariable?.isSome)
    (ahead : kindAhead ts 0 ≠ .endOfInput) (noName : kindAhead ts 0 ∉ TokenKind.names)
    (forms : Forms (rest ())) : MakesAt r ts (Parser.bump >>= rest) := by
  rintro s f outer rfl opened inside
  obtain ⟨t, tokens, here, -⟩ := exists_cons_of_kindAhead ahead
  obtain ⟨n, adds⟩ := ParserState.bump_adds (by simp [opened]) here
  obtain ⟨finished, ⟨f', outer', opened', frames⟩, -⟩ := adds
  obtain ⟨rfl, rfl⟩ := List.cons.inj (opened.symm.trans opened')
  obtain ⟨finished', f', outer', trees, opened', frames', further⟩ :=
    forms _ s.bump rfl (by simp [frames])
  obtain ⟨rfl, rfl⟩ := List.cons.inj (frames.symm.trans opened')
  simp only [inside, List.append_nil, List.reverse_singleton] at further
  have parts := further.parts (by simpa using Tree.IsPart.leaf _)
  have first : (Tree.leavesOfAll trees.reverse).head? = some ⟨n, t⟩ := by
    obtain ⟨others, leaves⟩ := further.leaves
    simp [← leaves, Tree.leaves]
  have other : r ≠ .functionRef := by
    rintro rfl
    cases binds
  have made : r.IsMadeOf trees.reverse :=
    Rule.isMadeOf_of_begins binds first (by simpa [kindAhead, here] using noName)
  have part (k : Nat) : (Tree.ofChildren k r trees.reverse).IsPart :=
    .node other made (by simpa using parts)
  exact ⟨trees, finished'.trans finished, frames', fun k => (part k).shape⟩

end MakesAt

end Parser

end XuleLang
