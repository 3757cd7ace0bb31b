import XuleLang.Parser.Declaration
import XuleLang.Proofs.Parser.Conduct
import XuleLang.Proofs.Parser.Operation

/-!
Where operands and property names begin.

A parser that is watched has a footing: it is firm right behind a token that was read, or behind a
complaint, and unsure behind a value. An operand begins on firm ground, for an operator, a bracket
or a word stands before it. Three nodes hold a value with another one right behind it, a
conditional, a loop and a fact set, and in them all ground is firm. A property name begins right
behind a point.

A `Watch` says what the footings mean, and what the operations do to them. It has to look at names
itself: a qualified name may end in two ways, and it is told of a property name only that a point
was read before it. `Runs` judges a parser by what holds before and behind it.
-/

namespace XuleLang

/-- Rules of nodes in which one value may stand right behind another. -/
def Rule.juxtaposes (r : Rule) : Bool := r == .ifExpression || r == .forExpression || r == .factset

/-- Rules of nodes that hold a name with a completion of its own. -/
def Rule.refers (r : Rule) : Bool := r == .qualifiedName || r == .propertyRef

/-- The rules of which one is announced where an operand begins. -/
def Parser.operandRules : List Rule :=
  [.variableRead, .qualifiedName, .booleanLiteral, .callExpression]

/-- Whether an operand may begin where a parser has come to. -/
inductive Footing where
  | unsure
  | firm
deriving DecidableEq

namespace Parser

/-- Where the first condition holds, the parser answers so that the second one does, and leaves the
same nodes open. -/
def Runs (P : ParserState → Prop) (p : Parser α) (Q : α → ParserState → Prop) : Prop :=
  ∀ s, P s → Q (p.run s).1 (p.run s).2 ∧ (p.run s).2.rules = s.rules

end Parser

/-- What the footings of a parser mean. -/
structure Watch where
  At : Footing → ParserState → Prop
  /-- A point has been read last. -/
  Pointed : ParserState → Prop
  unsure : ∀ {s}, At .firm s → At .unsure s
  note : ∀ {f s} ks {rs : List Rule}, (∀ r ∈ rs, r.refers = false) → At f s → At f (s.note ks rs)
  operand : ∀ {s}, At .firm s → At .firm (s.note [] Parser.operandRules)
  bump : ∀ {s}, At .unsure s → At .firm s.bump
  point : ∀ {s}, At .unsure s → s.kind = .punctuator .dot → Pointed s.bump
  complain : ∀ {s} c, At .unsure s → At .firm (s.complain c)
  overrun : ∀ {f s}, At f s → At f s.overrun
  start : ∀ {f s r}, r.refers = false → At f s → At f (s.start r)
  wrap : ∀ {f s r}, r.refers = false → At f s → At f (s.wrap r)
  close : ∀ {s}, At .unsure s → At .unsure s.finish
  /-- Behind a node without juxtaposed values the ground is as firm as in it. -/
  finish : ∀ {s r}, s.rules.head? = some r → r.juxtaposes = false → At .firm s → At .firm s.finish
  juxtaposed : ∀ {s}, At .unsure s → (∃ r ∈ s.rules, r.juxtaposes = true) → At .firm s
  qualifiedName : Parser.Runs (At .firm) Parser.qualifiedName fun _ => At .unsure
  propertyRef : Parser.Runs Pointed Parser.propertyRef fun _ => At .firm

/-- Inside of a node with juxtaposed values. -/
def Watch.Inside (w : Watch) (s : ParserState) : Prop :=
  w.At .unsure s ∧ ∃ r ∈ s.rules, r.juxtaposes = true

/-- A point is ahead. -/
def Watch.PointAhead (w : Watch) (s : ParserState) : Prop :=
  w.At .unsure s ∧ s.kind = .punctuator .dot

theorem Watch.wrap_pointAhead (w : Watch) {s : ParserState} {r : Rule} (other : r.refers = false)
    (ahead : w.PointAhead s) : w.PointAhead (s.wrap r) := by
  obtain ⟨u, wrapped, same, -⟩ := s.wrap_eq_note r
  have rest : (s.wrap r).rest = s.rest := by
    rw [wrapped, (u.note_agrees [] []).rest, same.rest]
  refine ⟨w.wrap other ahead.1, ?_⟩
  rw [ParserState.kind, ParserState.kindAt, rest]
  exact ahead.2

namespace Parser

/-- The parser comes from one footing to another. -/
abbrev Goes (w : Watch) (f : Footing) (p : Parser α) (g : Footing) : Prop :=
  Runs (w.At f) p fun _ => w.At g

/-- The parser may be run on any footing, and keeps it. -/
abbrev Stands (w : Watch) (p : Parser α) : Prop := ∀ f, Goes w f p f

end Parser

/-- The parsers of a level find the footing that they need. -/
structure Level.Watched (w : Watch) (l : Level) : Prop where
  expression : Parser.Goes w .firm l.expression .unsure
  negation : Parser.Goes w .unsure l.negation .unsure
  signed : Parser.Goes w .unsure l.signed .unsure

namespace Parser

variable {α β : Type} {w : Watch} {l : Level} {f g h : Footing} {p : Parser α} {q : α → Parser β}
  {r : Rule}

/-! ## Parsers one after the other -/

section Composition

variable {P : ParserState → Prop} {Q : α → ParserState → Prop} {R : β → ParserState → Prop}

namespace Runs

theorem answer {a : α} (done : ∀ s, P s → Q a s) : Runs P (pure a) Q :=
  fun s holds => ⟨done s holds, rfl⟩

theorem andThen (first : Runs P p Q) (next : ∀ a, Runs (Q a) (q a) R) : Runs P (p >>= q) R := by
  intro s holds
  obtain ⟨between, rules⟩ := first s holds
  obtain ⟨behind, rules'⟩ := next _ _ between
  exact ⟨behind, rules'.trans rules⟩

theorem weaken {P' : ParserState → Prop} {Q' : α → ParserState → Prop} (runs : Runs P p Q)
    (before : ∀ s, P' s → P s) (behind : ∀ a s, Q a s → Q' a s) : Runs P' p Q' :=
  fun s holds => (runs s (before s holds)).imp_left (behind _ _)

theorem either {c : Bool} {p q : Parser α} (yes : Runs P p Q) (no : Runs P q Q) :
    Runs P (if c then p else q) Q := by
  cases c
  · exact no
  · exact yes

/-- A parser that may be left out before the others. -/
theorem eitherThen {c : Bool} {p : Parser Unit} {q : Unit → Parser β} (yes : Runs P p fun _ => P)
    (rest : Runs P (q ()) R) : Runs P (if c then p >>= q else q ()) R :=
  .either (yes.andThen fun _ => rest) rest

/-- What every step keeps as long as it says yes, a repetition keeps up to a step that says no. -/
theorem repeatedUntil {step : Parser Bool} {J : ParserState → Prop}
    (steps : Runs P step fun yes => if yes then P else J)
    (gives : ∀ s, P s → J s.overrun) : Runs P (repeatWhile step) fun _ => J := by
  have bounded (n : Nat) : Runs P (repeatUpTo n step) fun _ => J := by
    induction n with
    | zero => exact fun s holds => ⟨gives s holds, rfl⟩
    | succ n ih =>
      refine steps.andThen fun yes => ?_
      cases yes with
      | true => exact ih
      | false => exact .answer fun _ => id
  exact fun s holds => bounded _ s holds

theorem withinOf {P' Q Q' : ParserState → Prop} {body : Parser Unit}
    (opened : ∀ s, P s → P' (s.start r)) (runs : Runs P' body fun _ => Q')
    (closed : ∀ s : ParserState, s.rules.head? = some r → Q' s → Q s.finish) :
    Runs P (Parser.within r body) fun _ => Q := by
  intro s here
  obtain ⟨behind, same⟩ := runs (s.start r) (opened s here)
  rw [ParserState.start_rules] at same
  refine ⟨closed _ (congrArg List.head? same) behind, ?_⟩
  exact (ParserState.finish_reseen _).2.trans (congrArg List.tail same)

theorem wrappingOf {P' Q Q' : ParserState → Prop} {body : Parser Unit}
    (opened : ∀ s, P s → P' (s.wrap r)) (runs : Runs P' body fun _ => Q')
    (closed : ∀ s : ParserState, s.rules.head? = some r → Q' s → Q s.finish) :
    Runs P (Parser.wrapping r body) fun _ => Q := by
  intro s here
  obtain ⟨behind, same⟩ := runs (s.wrap r) (opened s here)
  rw [ParserState.wrap_rules] at same
  refine ⟨closed _ (congrArg List.head? same) behind, ?_⟩
  exact (ParserState.finish_reseen _).2.trans (congrArg List.tail same)

/-! ### From one footing to another -/

theorem settled (goes : Runs P p fun _ => w.At .firm) : Runs P p fun _ => w.At .unsure :=
  goes.weaken (fun _ => id) fun _ _ => w.unsure

theorem firmly (goes : Goes w .unsure p g) : Goes w .firm p g :=
  goes.weaken (fun _ => w.unsure) fun _ _ => id

/-- Before a parser that may be run on any footing, a value may be left out. -/
theorem optionally {c : Bool} {p : Parser Unit} {q : Unit → Parser β} (yes : Goes w .firm p .unsure)
    (rest : Goes w .unsure (q ()) g) : Goes w .firm (if c then p >>= q else q ()) g :=
  .either (yes.andThen fun _ => rest) rest.firmly

/-- Behind a node the ground is as firm as at its end. -/
theorem closed (apart : r.juxtaposes = false) (s : ParserState) (open_ : s.rules.head? = some r)
    (here : w.At g s) : w.At g s.finish := by
  cases g with
  | unsure => exact w.close here
  | firm => exact w.finish open_ apart here

theorem within {body : Parser Unit} (other : r.refers = false) (apart : r.juxtaposes = false)
    (goes : Goes w f body g) : Goes w f (Parser.within r body) g :=
  .withinOf (fun _ => w.start other) goes (closed apart)

theorem wrapping {body : Parser Unit} (other : r.refers = false) (apart : r.juxtaposes = false)
    (goes : Goes w f body g) : Goes w f (Parser.wrapping r body) g :=
  .wrappingOf (fun _ => w.wrap other) goes (closed apart)

/-- In a node with juxtaposed values all ground is firm. -/
theorem inside (goes : Goes w .firm p g) : Runs w.Inside p fun _ => w.Inside := by
  intro s ⟨here, r, open_, juxtaposes⟩
  obtain ⟨behind, same⟩ := goes s (w.juxtaposed here ⟨r, open_, juxtaposes⟩)
  refine ⟨⟨?_, r, same ▸ open_, juxtaposes⟩, same⟩
  cases g with
  | unsure => exact behind
  | firm => exact w.unsure behind

/-- A node with juxtaposed values. -/
theorem within_juxtaposed {body : Parser Unit} (other : r.refers = false)
    (juxtaposes : r.juxtaposes = true) (runs : Runs w.Inside body fun _ => w.Inside) :
    Goes w .unsure (Parser.within r body) .unsure :=
  .withinOf (fun _ here => ⟨w.start other here, r, by simp, juxtaposes⟩) runs
    fun _ _ here => w.close here.1

theorem repeated {step : Parser Bool} (goes : Goes w f step f) : Goes w f (repeatWhile step) f :=
  .repeatedUntil (goes.weaken (fun _ => id) fun yes _ here => by cases yes <;> exact here)
    fun _ => w.overrun

end Runs

namespace Stands

theorem answer (a : α) : Stands w (pure a : Parser α) := fun _ => .answer fun _ => id

theorem andThen (first : Stands w p) (next : ∀ a, Stands w (q a)) : Stands w (p >>= q) :=
  fun f => (first f).andThen fun a => next a f

/-- What looks at the state and answers. -/
theorem asked (answer : ParserState → α) :
    Stands w (get >>= fun s => (pure (answer s) : Parser α)) :=
  fun _ _ here => ⟨here, rfl⟩

theorem either {c : Bool} {p q : Parser α} (yes : Stands w p) (no : Stands w q) :
    Stands w (if c then p else q) :=
  fun f => .either (yes f) (no f)

end Stands

end Composition

/-! ## Looking ahead -/

section Looking

theorem stands_kindAt (n : Nat) : Stands w (kindAt n) := .asked _

theorem stands_kind : Stands w kind := .asked _

theorem runs_kind {P : ParserState → Prop} : Runs P kind fun k s => P s ∧ s.kind = k :=
  fun _ here => ⟨⟨here, rfl⟩, rfl⟩

theorem stands_isWordAt (n : Nat) (word : String) : Stands w (isWordAt n word) := .asked _

theorem stands_predict {rules : List Rule} (others : ∀ r ∈ rules, r.refers = false) :
    Stands w (predict rules) :=
  fun _ s here => ⟨w.note [] others here, s.note_rules [] rules⟩

theorem stands_sees (k : TokenKind) : Stands w (sees k) := by
  refine Stands.andThen (fun f s here => ?_) fun _ => .andThen stands_kind fun _ => .answer _
  exact ⟨w.note _ nofun here, s.note_rules _ _⟩

/-- A point that is seen is ahead. -/
theorem runs_sees_point :
    Runs (w.At .unsure) (sees (.punctuator .dot)) fun yes =>
      if yes then w.PointAhead else w.At .unsure := by
  intro s here
  obtain ⟨noted, rules⟩ := stands_sees (w := w) (.punctuator .dot) .unsure s here
  refine ⟨?_, rules⟩
  cases yes : ((sees (.punctuator .dot)).run s).1 with
  | false => exact noted
  | true => exact ⟨noted, beq_iff_eq.mp yes⟩

theorem stands_seesAny (ks : List TokenKind) : Stands w (seesAny ks) := by
  induction ks with
  | nil => exact .answer false
  | cons k ks ih => exact .andThen (stands_sees k) fun _ => .andThen ih fun _ => .answer _

theorem stands_seesName : Stands w seesName :=
  .andThen (stands_sees _) fun _ => .andThen stands_kind fun _ => .answer _

theorem stands_seesAnyWord (words : List String) : Stands w (seesAnyWord words) := by
  induction words with
  | nil => exact .answer false
  | cons word words ih =>
    exact .andThen (.andThen (stands_sees _) fun _ => stands_isWordAt 0 word)
      fun _ => .either (.answer true) ih

theorem stands_seesNotIn : Stands w seesNotIn :=
  .andThen stands_kind fun _ => .andThen (stands_kindAt 1) fun _ => .answer _

theorem stands_seesAssignment : Stands w seesAssignment :=
  .andThen (stands_predict (by decide)) fun _ => .andThen (stands_sees _) fun _ =>
    .andThen (stands_kindAt 1) fun _ => .answer _

theorem stands_seesComparison : Stands w seesComparison :=
  .andThen stands_seesNotIn fun _ => .andThen (stands_seesAny _) fun _ => .answer _

end Looking

/-! ## Reading -/

section Reading

theorem goes_bump : Goes w .unsure bump .firm := fun s here => ⟨w.bump here, s.bump_rules⟩

theorem runs_point : Runs w.PointAhead bump fun _ => w.Pointed :=
  fun s here => ⟨w.point here.1 here.2, s.bump_rules⟩

theorem goes_complain (c : Complaint) : Goes w .unsure (complain c) .firm :=
  fun s here => ⟨w.complain c here, s.complain_rules c⟩

theorem goes_complainWanted (x : Wanted) : Goes w .unsure (complainWanted x) .firm :=
  (stands_kind _).andThen fun _ => goes_complain _

theorem goes_leafOf (other : r.refers = false) (apart : r.juxtaposes = false) :
    Goes w .unsure (leafOf r) .firm :=
  .within other apart goes_bump

/-- A name is asked for, and read or complained of. -/
theorem runs_requireName {P Q : ParserState → Prop} (x : Wanted)
    (noted : ∀ s, P s → P (s.note [.identifier] []))
    (read : ∀ s, P s → (s.kind == .identifier || s.kind.isKeyword) = true → Q s.bump)
    (complained : ∀ s c, P s → Q (s.complain c)) : Runs P (requireName x) fun _ => Q := by
  have seen : Runs P seesName fun yes s =>
      P s ∧ (yes = true → (s.kind == .identifier || s.kind.isKeyword) = true) :=
    fun s here => ⟨⟨noted s here, id⟩, s.note_rules _ _⟩
  refine seen.andThen fun named => ?_
  cases named with
  | true => exact fun s here => ⟨read s here.1 (here.2 rfl), s.bump_rules⟩
  | false => exact fun s here => ⟨complained s _ here.1, s.complain_rules _⟩

/-- A sign is asked for, and read if it is ahead. -/
theorem runs_eat_punctuator {P Q : ParserState → Prop} (sign : Punctuator)
    (noted : ∀ s, P s → P (s.note [] [])) (read : ∀ s, P s → Q s.bump) :
    Runs P (eat (.punctuator sign)) fun yes => if yes then Q else P := by
  refine Runs.andThen (Q := fun _ => P) (fun s here => ⟨noted s here, s.note_rules _ _⟩) ?_
  intro ahead
  cases ahead with
  | true => exact fun s here => ⟨read s here, s.bump_rules⟩
  | false => exact fun s here => ⟨here, rfl⟩

/-- Only what is read makes the ground firm. -/
theorem runs_eat (k : TokenKind) :
    Runs (w.At f) (eat k) fun yes => w.At (if yes then .firm else f) := by
  refine (stands_sees k f).andThen fun ahead => ?_
  cases ahead with
  | true =>
    refine Runs.andThen (Q := fun _ => w.At .firm) ?_ fun _ => .answer fun _ => id
    cases f with
    | unsure => exact goes_bump
    | firm => exact goes_bump.firmly
  | false => exact .answer fun _ => id

theorem goes_eat (k : TokenKind) : Goes w f (eat k) f :=
  (runs_eat k).weaken (fun _ => id) fun yes s here => by
    cases yes with
    | false => exact here
    | true =>
      cases f with
      | unsure => exact w.unsure here
      | firm => exact here

theorem goes_expect (k : TokenKind) : Goes w .unsure (expect k) .firm := by
  refine (runs_eat k).andThen fun found => ?_
  cases found with
  | true => exact .answer fun _ => id
  | false => exact (goes_complainWanted _).andThen fun _ => .answer fun _ => id

theorem goes_expecting (k : TokenKind) : Goes w .unsure (do let _ ← expect k) .firm :=
  (goes_expect k).andThen fun _ => .answer fun _ => id

theorem goes_require (k : TokenKind) (x : Wanted) : Goes w .unsure (require k x) .firm :=
  (stands_sees k _).andThen fun _ => .either goes_bump (goes_complainWanted x)

theorem goes_bumpOperator : Goes w .unsure bumpOperator .firm :=
  (stands_seesNotIn _).andThen fun _ =>
    .eitherThen goes_bump.settled goes_bump

theorem goes_commaSeparated {item : Parser Unit} (goes : Goes w .firm item .unsure) :
    Goes w .firm (commaSeparated item) .unsure := by
  refine .repeatedUntil (goes.andThen fun _ => (runs_eat _).weaken (fun _ => id) ?_)
    fun _ here => w.overrun (w.unsure here)
  intro yes s here
  cases yes <;> exact here

theorem goes_skipTo (kinds : List TokenKind) : Goes w .unsure (skipTo kinds) .unsure := by
  refine .within rfl rfl (.repeated ((stands_kind _).andThen fun k => ?_))
  exact .either (.answer fun _ => id) (goes_bump.settled.andThen fun _ => .answer fun _ => id)

end Reading

end Parser

end XuleLang
