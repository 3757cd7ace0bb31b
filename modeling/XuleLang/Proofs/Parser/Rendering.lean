import XuleLang.Proofs.Parser.Pending

/-!
Programs beside parsers.

`Program.Renders` judges a program where certain nodes and expressions are pending. What is pending
when the program is done follows from its text alone: an opening adds to it, a closing takes from
it, and two ways through a program have to leave the same. All the way what was open before stays
open, and a declaration only starts where one may.

A program is judged beside a parser whose work it does. The parser closes what it opens by
construction, and needs no books for that. What it does behind the part beside the program, as to
close the nodes around that part, is carried along, since the program spells it out. The two agree
where the stack is kept and the depth is the one that the level of the parser stands for.
-/

namespace XuleLang

/-- Whether the action may be done anywhere in a declaration. -/
def Action.isInner : Action → Bool
  | start r => !r.isDeclaration
  | _ => true

/-- A stack that keeps the rules of the open nodes tells a probe of what the parser tells it of. -/
theorem Ledger.note_toParserState {m : Ledger} (kept : m.ruleStack = m.rules)
    (kinds : List TokenKind) (rules : List Rule) :
    (m.note kinds rules).toParserState = m.toParserState.note kinds rules := by
  obtain ⟨s, stack, depth⟩ := m
  obtain rfl : stack = s.rules := kept
  obtain ⟨rest, consumed, frames, finished, nextId, errors, overran, probe⟩ := s
  rcases probe with _ | ⟨caret, _ | _, ks, rs⟩
  · rfl
  · by_cases here : caret = consumed <;> simp [note, isAtCaret, ParserState.note, here]
  · rfl

theorem ParserState.wrap_eq_wrapNode (s : ParserState) (r : Rule) :
    s.wrap r = (s.wrapNode r).note [] [] := by
  rcases frames : s.frames with _ | ⟨f, outer⟩
  · simp only [wrap, wrapNode, frames, start, openNode]
  · rcases children : f.children with _ | ⟨c, cs⟩ <;>
      simp only [wrap, wrapNode, frames, children, start, openNode]

namespace Program

variable {α β γ δ : Type} {d : Nat} {D : Pending → Prop} {a b : Pending} {r : Rule}

/-! ## One program after the other -/

theorem run_bind (p : Program α) (f : α → Program β) (m : Ledger) :
    (p >>= f).run m = (f (p.run m).1).run (p.run m).2 := by
  change (p.bind f).run m = _
  induction p generalizing m with
  | done x => rfl
  | look next ih => exact ih m m
  | act x next ih => exact ih (x.perform m)

theorem steps_bind (p : Program α) (f : α → Program β) (m : Ledger) :
    (p >>= f).steps m = p.steps m ++ (f (p.run m).1).steps (p.run m).2 := by
  change (p.bind f).steps m = _
  induction p generalizing m with
  | done x => rfl
  | look next ih => exact ih m m
  | act x next ih => exact congrArg ((x, m) :: ·) (ih (x.perform m))

/-! ## Programs beside parsers -/

/-- From where `a` is pending the program leads to where `b` is, and declarations are only started
where `D` holds of what is pending. On a stack that is kept, and `d` expressions deep, it does what
the parser and then `k` does. -/
def Renders (d : Nat) (D : Pending → Prop) (a : Pending) (p : Program α) (q : Parser γ)
    (k : γ → Parser α) (b : Pending) : Prop :=
  ∀ m n : Ledger, m.Opened a n →
    (∀ step ∈ p.steps n, ∃ c, m.Opened c step.2 ∧ (step.1.isInner = true ∨ D c)) ∧
    m.Opened b (p.run n).2 ∧
    (m.ruleStack = m.rules → n.depth = d →
      ((p.run n).1, (p.run n).2.toParserState) = (q >>= k).run n.toParserState)

/-- The program leaves pending what it finds, and does what the parser does. -/
def Follows (d : Nat) (D : Pending → Prop) (a : Pending) (p : Program α) (q : Parser α) : Prop :=
  Renders d D a p q pure a

namespace Renders

variable {p : Program α} {q : Parser γ} {k : γ → Parser α}

/-- An action that a parser has too. -/
theorem perform {x : Action} {f : ParserState → ParserState} (fits : x.isInner = true ∨ D a)
    (leads : ∀ {m n : Ledger}, m.Opened a n → m.Opened b (x.perform n))
    (same : ∀ n : Ledger, n.ruleStack = n.rules → (x.perform n).toParserState = f n.toParserState) :
    Renders d D a (perform x) (modify f) pure b := by
  intro m n opened
  refine ⟨List.forall_mem_singleton.mpr ⟨a, opened, fits⟩, leads opened, fun kept _ => ?_⟩
  exact congrArg ((), ·) (same n (opened.kept kept))

/-- What comes next begins where the first has led. -/
theorem sequence {p : Program β} {f : β → Program α} {q : Parser β} {g : β → Parser γ}
    {c : Pending} (first : Renders d D a p q pure b) (levels : b.levels = a.levels)
    (next : ∀ x, Renders d D b (f x) (g x) k c) : Renders d D a (p >>= f) (q >>= g) k c := by
  intro m n opened
  obtain ⟨steps, between, same⟩ := first m n opened
  obtain ⟨more, after, same'⟩ := next (p.run n).1 m _ between
  rw [run_bind, steps_bind]
  refine ⟨List.forall_mem_append.mpr ⟨steps, more⟩, after, fun kept depth => ?_⟩
  have deep : (p.run n).2.depth = d := by
    rw [between.depth, levels, ← opened.depth, depth]
  rw [same' kept deep]
  have here : ((p.run n).1, (p.run n).2.toParserState) = q.run n.toParserState := same kept depth
  change _ = (g (q.run n.toParserState).1 >>= k).run (q.run n.toParserState).2
  rw [← here]

/-- The parser goes on with what it does afterwards. -/
theorem regroup {q : Parser δ} {g : δ → Parser γ}
    (whole : Renders d D a p q (fun x => g x >>= k) b) : Renders d D a p (q >>= g) k b :=
  whole

theorem answer {x : α} {y : γ} (same : k y = pure x) : Renders d D a (pure x) (pure y) k a :=
  fun m n opened => ⟨List.forall_mem_nil _, opened, fun _ _ => by
    change _ = (k y).run _
    rw [same]
    rfl⟩

theorem either {p₁ p₂ : Program α} {q₁ q₂ : Parser γ} {c : Prop} [Decidable c]
    (first : Renders d D a p₁ q₁ k b) (second : Renders d D a p₂ q₂ k b) :
    Renders d D a (if c then p₁ else p₂) (if c then q₁ else q₂) k b := by
  split
  · exact first
  · exact second

end Renders

namespace Follows

variable {p : Program β} {f : β → Program α} {q : Parser β}

theorem andThen {g : β → Parser γ} {k : γ → Parser α} (first : Follows d D a p q)
    (next : ∀ x, Renders d D a (f x) (g x) k b) : Renders d D a (p >>= f) (q >>= g) k b :=
  Renders.sequence first rfl next

theorem last {k : β → Parser α} (first : Follows d D a p q)
    (next : ∀ x, Renders d D a (f x) (pure x) k b) : Renders d D a (p >>= f) q k b :=
  Renders.sequence first rfl next

end Follows

namespace Renders

variable {k : γ → Parser α}

theorem eitherThen {p : Program Unit} {f : Unit → Program α} {q : Parser Unit}
    {g : Unit → Parser γ} {c : Prop} [Decidable c] (first : Follows d D a p q)
    (next : Renders d D a (f ()) (g ()) k b) :
    Renders d D a (if c then p >>= f else f ()) (if c then q >>= g else g ()) k b :=
  either (first.andThen fun _ => next) next

theorem eitherLast {p : Program Unit} {f : Unit → Program α} {q : Parser Unit}
    {k : Unit → Parser α} {c : Prop} [Decidable c] (first : Follows d D a p q)
    (next : Renders d D a (f ()) (pure ()) k b) :
    Renders d D a (if c then p >>= f else f ()) (if c then q else pure ()) k b :=
  either (first.last fun _ => next) next

theorem asking {β : Type} (f : ParserState → β) {p : β → Program α} {q : ParserState → Parser γ}
    (next : ∀ s, Renders d D a (p (f s)) (q s) k b) :
    Renders d D a (asks (fun m => f m.toParserState) >>= p) (get >>= q) k b :=
  fun m n opened => next n.toParserState m n opened

end Renders

/-! ## Actions -/

theorem follows_note (kinds : List TokenKind) (rules : List Rule) :
    Follows d D a (perform (.note kinds rules)) (modify (·.note kinds rules)) :=
  .perform (.inl rfl) (·.plain rfl) fun _ kept => Ledger.note_toParserState kept kinds rules

theorem follows_predict (rules : List Rule) :
    Follows d D a (predict rules) (Parser.predict rules) :=
  follows_note [] rules

theorem follows_bump : Follows d D a bump Parser.bump :=
  .perform (.inl rfl) (·.plain rfl) fun _ _ => rfl

theorem follows_complain (c : Complaint) : Follows d D a (complain c) (Parser.complain c) :=
  .perform (f := (·.complain c)) (.inl rfl) (·.plain rfl) fun _ _ => rfl

theorem follows_overrun : Follows d D a overrun Parser.overrun :=
  .perform (.inl rfl) (·.plain rfl) fun _ _ => rfl

theorem renders_start (fits : r.isDeclaration = false ∨ D a) :
    Renders d D a (start r) (modify (·.start r)) pure (a.openNode r) := by
  have opened : Renders d D a (perform (.start r)) (modify (·.openNode r)) pure (a.openNode r) :=
    .perform (fits.imp_left fun inner => by simp [Action.isInner, inner]) (·.start r)
      fun _ _ => rfl
  exact opened.sequence rfl fun _ => follows_note [] []

theorem renders_wrap :
    Renders d D a (wrap r) (modify (·.wrap r)) pure (a.openNode r) := by
  have opened : Renders d D a (perform (.wrap r)) (modify (·.wrapNode r)) pure (a.openNode r) :=
    .perform (.inl rfl) (·.wrap r) fun _ _ => rfl
  simp only [ParserState.wrap_eq_wrapNode]
  exact opened.sequence rfl fun _ => follows_note [] []

theorem renders_finish :
    Renders d D (a.openNode r) finish (modify ParserState.finish) pure a :=
  .perform (.inl rfl) (·.finish) fun _ _ => rfl

theorem renders_leave : Renders (d + 1) D a.enter leave (pure ()) pure a :=
  .perform (f := id) (.inl rfl) (·.leave) fun _ _ => rfl

namespace Renders

variable {p : Program α} {body : Parser Unit} {k : Unit → Parser α}

theorem opens (fits : r.isDeclaration = false ∨ D a)
    (rest : Renders d D (a.openNode r) p body (fun _ => modify ParserState.finish >>= k) b) :
    Renders d D a (start r >>= fun _ => p) (Parser.within r body) k b :=
  (renders_start fits).sequence rfl fun _ => regroup rest

theorem opensAround
    (rest : Renders d D (a.openNode r) p body (fun _ => modify ParserState.finish >>= k) b) :
    Renders d D a (wrap r >>= fun _ => p) (Parser.wrapping r body) k b :=
  renders_wrap.sequence rfl fun _ => regroup rest

theorem closes {x : γ} :
    Renders d D (a.openNode r) finish (pure x) (fun _ => modify ParserState.finish >>= pure) a :=
  renders_finish

theorem closesThen {x : γ} (rest : Renders d D a p (pure ()) k b) :
    Renders d D (a.openNode r) (finish >>= fun _ => p) (pure x)
      (fun _ => modify ParserState.finish >>= k) b :=
  renders_finish.sequence (g := pure) rfl fun _ => rest

end Renders

/-! ## Questions -/

theorem follows_kindAt (n : Nat) : Follows d D a (kindAt n) (Parser.kindAt n) :=
  .asking (·.kindAt n) fun _ => .answer rfl

theorem follows_kind : Follows d D a kind Parser.kind := .asking (·.kind) fun _ => .answer rfl

theorem follows_isWordAt (n : Nat) (word : String) :
    Follows d D a (isWordAt n word) (Parser.isWordAt n word) :=
  .asking (·.isWordAt n word) fun _ => .answer rfl

theorem follows_sees (k : TokenKind) : Follows d D a (sees k) (Parser.sees k) :=
  (follows_note _ _).andThen fun _ => follows_kind.andThen fun _ => .answer rfl

theorem follows_seesAny :
    (ks : List TokenKind) → Follows d D a (seesAny ks) (Parser.seesAny ks)
  | [] => .answer rfl
  | k :: ks => (follows_sees k).andThen fun _ => (follows_seesAny ks).andThen fun _ => .answer rfl

theorem follows_seesName : Follows d D a seesName Parser.seesName :=
  (follows_sees _).andThen fun _ => follows_kind.andThen fun _ => .answer rfl

theorem follows_seesWord (word : String) :
    Follows d D a (seesWord word) (Parser.seesWord word) :=
  (follows_sees _).andThen fun _ => follows_isWordAt 0 word

theorem follows_seesAnyWord :
    (words : List String) → Follows d D a (seesAnyWord words) (Parser.seesAnyWord words)
  | [] => .answer rfl
  | word :: words => (follows_seesWord word).andThen fun _ =>
    .either (.answer rfl) (follows_seesAnyWord words)

theorem follows_eat (k : TokenKind) : Follows d D a (eat k) (Parser.eat k) :=
  (follows_sees k).andThen fun _ =>
    .either (follows_bump.andThen fun _ => .answer rfl) (.answer rfl)

theorem follows_complainWanted (w : Wanted) :
    Follows d D a (complainWanted w) (Parser.complainWanted w) :=
  follows_kind.andThen fun _ => follows_complain _

theorem follows_expect (k : TokenKind) : Follows d D a (expect k) (Parser.expect k) :=
  (follows_eat k).andThen fun _ => .eitherThen (follows_complainWanted _) (.answer rfl)

theorem follows_require (k : TokenKind) (w : Wanted) :
    Follows d D a (require k w) (Parser.require k w) :=
  (follows_sees k).andThen fun _ => .either follows_bump (follows_complainWanted w)

theorem follows_requireName (w : Wanted) :
    Follows d D a (requireName w) (Parser.requireName w) :=
  follows_seesName.andThen fun _ => .either follows_bump (follows_complainWanted w)

/-! ## Repetition -/

theorem follows_repeatUpTo {step : Program Bool} {step' : Parser Bool}
    (taken : Follows d D a step step') (n : Nat) :
    Follows d D a (repeatUpTo n step) (Parser.repeatUpTo n step') := by
  induction n with
  | zero => exact follows_overrun
  | succ n ih => exact taken.andThen fun _ => .either ih (.answer rfl)

theorem follows_repeatWhile {step : Program Bool} {step' : Parser Bool}
    (taken : Follows d D a step step') :
    Follows d D a (repeatWhile step) (Parser.repeatWhile step') :=
  .asking (·.rest.length) fun _ => follows_repeatUpTo taken _

theorem follows_commaSeparated {item : Program Unit} {item' : Parser Unit}
    (each : Follows d D a item item') :
    Follows d D a (commaSeparated item) (Parser.commaSeparated item') :=
  follows_repeatWhile (each.andThen fun _ => follows_eat _)

theorem follows_leafOf (fits : r.isDeclaration = false ∨ D a) :
    Follows d D a (leafOf r) (Parser.leafOf r) :=
  .opens fits (follows_bump.last fun _ => .closes)

theorem follows_skipTo (kinds : List TokenKind) :
    Follows d D a (skipTo kinds) (Parser.skipTo kinds) :=
  have skips := follows_repeatWhile <| follows_kind.andThen fun _ =>
    .either (.answer rfl) (follows_bump.andThen fun _ => .answer rfl)
  .opens (.inl rfl) (skips.last fun _ => .closes)

/-! ## Nesting -/

theorem follows_tooDeep : Follows d D a tooDeep Parser.tooDeep :=
  (follows_complain _).andThen fun _ => follows_kind.andThen fun _ =>
    .either (follows_leafOf (.inl rfl)) (.answer rfl)

theorem enter_refused {m : Ledger} (bound : Parser.maxDepth ≤ m.depth) :
    enter.run m = (false, (tooDeep.run m).2) ∧ enter.steps m = tooDeep.steps m := by
  let p : Program Bool := if Parser.maxDepth ≤ m.depth then tooDeep >>= fun _ => pure false
    else act .enter (pure true)
  have same : p = tooDeep >>= fun _ => pure false := if_pos bound
  change p.run m = _ ∧ p.steps m = _
  rw [same, run_bind, steps_bind]
  exact ⟨rfl, List.append_nil _⟩

theorem enter_entered {m : Ledger} (below : ¬Parser.maxDepth ≤ m.depth) :
    enter.run m = (true, Action.enter.perform m) ∧ enter.steps m = [(.enter, m)] := by
  let p : Program Bool := if Parser.maxDepth ≤ m.depth then tooDeep >>= fun _ => pure false
    else act .enter (pure true)
  have same : p = act .enter (pure true) := if_neg below
  change p.run m = _ ∧ p.steps m = _
  rw [same]
  exact ⟨rfl, rfl⟩

/-- Where nothing may be entered any more, nothing is left either. -/
theorem Renders.entering {p : Program Unit} {q : Parser Unit}
    (inside : Renders (d + 1) D a.enter p q pure a) :
    Follows d D a (enter >>= fun entered => if entered then p else pure ())
      (if Parser.maxDepth ≤ d then Parser.tooDeep else q) := by
  intro m n opened
  rw [run_bind, steps_bind]
  by_cases bound : Parser.maxDepth ≤ n.depth
  · obtain ⟨result, steps⟩ := enter_refused bound
    obtain ⟨fits, after, same⟩ := follows_tooDeep (d := d) (D := D) m n opened
    rw [result, steps]
    refine ⟨(List.append_nil (tooDeep.steps n)).symm ▸ fits, after, fun kept depth => ?_⟩
    rw [show (if Parser.maxDepth ≤ d then Parser.tooDeep else q) = Parser.tooDeep from
      if_pos (depth ▸ bound)]
    exact same kept depth
  · obtain ⟨result, steps⟩ := enter_entered bound
    obtain ⟨fits, after, same⟩ := inside m _ opened.enter
    rw [result, steps]
    refine ⟨List.forall_mem_cons.mpr ⟨⟨a, opened, .inl rfl⟩, fits⟩, after, fun kept depth => ?_⟩
    rw [show (if Parser.maxDepth ≤ d then Parser.tooDeep else q) = q from
      if_neg (depth ▸ bound)]
    exact same kept (congrArg (· + 1) depth)

end Program

end XuleLang
