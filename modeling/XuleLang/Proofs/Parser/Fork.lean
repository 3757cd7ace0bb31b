import XuleLang.Proofs.Parser.Lasting
import XuleLang.Proofs.Parser.Shift

/-!
Two lists of tokens that part at a caret.

In the first list the text ends at the caret. In the second a reserved word stands there, with more
behind it. Parsers of the two, the first with a probe at the caret, go side by side as long as a
token before the caret is ahead, and they ask the same questions there. What comes then settles how
the prediction has done. Either the word has been noted, and then the second parser reads it where
the first one asked for it; or the first parser complains of the end, after which nothing more is
noted, and the second one complains of the word or reads it all the same.

What may come true is named here one by one, and each of it stays true whatever a parser does next.
-/

namespace XuleLang

/-! ## Words that are read without being predicted -/

namespace Tree

/-- Rules of nodes in which reserved words may stand for names. -/
def nameRules : List Rule := [.propertyRef, .qualifiedName, .assertionName]

/-- The token stands for a name here. -/
def IsNameOf (w : Token) (t : Tree) : Prop :=
  (∃ r ∈ nameRules, t.rule? = some r) ∧ ∃ c ∈ t.children, c.token? = some w

/-- The token is one of the two words of a `not in` here. -/
def IsNotInOf (w : Token) (t : Tree) : Prop :=
  ∃ c ∈ t.children.zip t.children.tail, c.1.kind? = some (.keyword .notKw) ∧
    c.2.kind? = some (.keyword .inKw) ∧ (c.1.token? = some w ∨ c.2.token? = some w)

/-- The token begins the block of a fact set here. -/
def IsFactsetOver (w : Token) (t : Tree) : Prop :=
  t.rule? = some .factset ∧ ∃ b ∈ t.children, b.rule? = some .expressionBlock ∧
    b.firstLeaf?.map (·.token) = some w

/-- The token is read here, though the parser may not have asked for it as the word that it is. -/
def ReadsUnasked (w : Token) (t : Tree) : Prop :=
  t.IsNameOf w ∨ t.IsNotInOf w ∨ t.IsFactsetOver w

/-- The token is a sign here, or an operator whose right operand takes no `not`. -/
def BindsTightly (w : Token) (t : Tree) : Prop :=
  (t.rule? = some .binaryExpression ∨ t.rule? = some .unaryExpression) ∧
    (∃ c ∈ t.children, c.token? = some w) ∧
    w.kind ∉ [TokenKind.keyword .andKw, .keyword .orKw, .keyword .notKw]

instance (w : Token) (t : Tree) : Decidable (IsNameOf w t) :=
  inferInstanceAs (Decidable (_ ∧ _))

instance (w : Token) (t : Tree) : Decidable (IsNotInOf w t) :=
  inferInstanceAs (Decidable (∃ c ∈ _, _))

instance (w : Token) (t : Tree) : Decidable (IsFactsetOver w t) :=
  inferInstanceAs (Decidable (_ ∧ _))

instance (w : Token) (t : Tree) : Decidable (ReadsUnasked w t) :=
  inferInstanceAs (Decidable (_ ∨ _))

instance (w : Token) (t : Tree) : Decidable (BindsTightly w t) :=
  inferInstanceAs (Decidable (_ ∧ _))

/-- Neighbours in a list. -/
theorem mem_zip_tail {α : Type} {a b : α} {l : List α} : (a, b) ∈ l.zip l.tail ↔ [a, b] <:+: l := by
  induction l with
  | nil => simp
  | cons x xs ih =>
    cases xs with
    | nil => simp [List.infix_cons_iff]
    | cons y ys =>
      rw [List.infix_cons_iff, ← ih, List.cons_prefix_cons, List.cons_prefix_cons]
      simp

/-- Further children change nothing. -/
theorem ReadsUnasked.append {w : Token} {i j : Nat} {r : Rule} {s s' : Option Span}
    {cs : List Tree} (reads : ReadsUnasked w (node i r s cs)) (ds : List Tree) :
    ReadsUnasked w (node j r s' (cs ++ ds)) := by
  rcases reads with ⟨named, c, member, same⟩ | ⟨c, pair, notIn⟩ | ⟨rule, b, member, block⟩
  · exact .inl ⟨named, c, List.mem_append_left ds member, same⟩
  · refine .inr (.inl ⟨c, ?_, notIn⟩)
    exact mem_zip_tail.mpr ((mem_zip_tail.mp pair).trans (List.prefix_append cs ds).isInfix)
  · exact .inr (.inr ⟨rule, b, List.mem_append_left ds member, block⟩)

end Tree

/-! ## Forks -/

/-- The tokens before a caret, with the end behind them, and with a reserved word and more. -/
structure Fork where
  front : List Token
  last : Token
  word : Token
  behind : List Token
  ended : last.kind = .endOfInput
  reserved : word.kind.isKeyword = true
  unended : ∀ t ∈ front, t.kind ≠ .endOfInput
  ends : EndsOnce behind

namespace Fork

open ParserState (Told Kept kept_made kept_complaint kept_told kept_done kept_overran)

variable (k : Fork)

/-- The probe is not done, has the caret so many tokens ahead, and has not been told of the word. -/
def Waits (ahead : Nat) (s : ParserState) : Prop :=
  ∃ p, s.probe = some p ∧ p.done = false ∧ p.caret = s.consumed + ahead ∧
    k.word.kind ∉ p.kinds

/-- Inside nodes of the same rules, both parsers have the tokens `left` ahead, and then the one the
end and the other the word. Nothing has been complained of, and the word has not been noted. -/
structure Beside (rules : List Rule) (left : List Token) (s t : ParserState) : Prop where
  opened : s.rules = rules
  opened' : t.rules = rules
  suffix : left <:+ k.front
  rest : s.rest = left ++ [k.last]
  rest' : t.rest = left ++ k.word :: k.behind
  silent : s.errors = []
  silent' : t.errors = []
  waits : k.Waits left.length s
  unprobed : t.probe = none

/-- About what stands behind the word; about the word itself only if it is a `not` in too deep a
place. -/
def Late (e : SyntaxError) : Prop :=
  (∃ x ∈ k.behind, e.span = some x.span) ∨
    k.word.kind = .keyword .notKw ∧ e.what = .tooDeepExpression ∧ e.span = some k.word.span

/-- Where only the end stands behind the word, the word has been read, with no complaint up to
it. -/
def Took (t : ParserState) : Prop :=
  k.behind.length = 1 → t.rest = k.behind ∧ ∀ e ∈ t.errors, k.Late e

/-- Something before the caret has been complained of. -/
def Early (s : ParserState) : Prop := ∃ e, e ∈ s.errors ∧ ∃ x ∈ k.front, e.span = some x.span

/-- The probe is done without having been told of the word. -/
def Missed (s : ParserState) : Prop :=
  ∃ p : Probe, (p.done = true ∧ k.word.kind ∉ p.kinds) ∧ s.probe = some p

/-- The word is a `not`, and stands behind a sign or an operator that takes none. -/
def Strayed (s : ParserState) : Prop :=
  k.word.kind = .keyword .notKw ∧
    ∃ u, s.Made u ∧ ∃ op, k.front.getLast? = some op ∧ u.BindsTightly op

/-- The word was noted, unless the second parser complains or reads it unasked. -/
def Foreseen (s t : ParserState) : Prop :=
  (∃ e, e ∈ t.errors) ∨ Told k.word.kind s.probe ∨ ∃ u, t.Made u ∧ u.ReadsUnasked k.word

/-- The word is accepted, unless it was not noted, or is a `not` that has gone astray. -/
def Accepted (s t : ParserState) : Prop := k.Early s ∨ k.Missed s ∨ k.Took t ∨ k.Strayed s

/-- It is settled how the prediction has done. -/
def Settled (s t : ParserState) : Prop :=
  s.overran = true ∨ t.overran = true ∨ k.Foreseen s t ∧ k.Accepted s t

theorem single_behind (single : k.behind.length = 1) :
    ∃ x, k.behind = [x] ∧ x.kind = .endOfInput := by
  obtain ⟨x, behind⟩ := List.length_eq_one_iff.mp single
  obtain ⟨front, last, behind_eq, last_ends, -⟩ := k.ends
  cases front with
  | nil => exact ⟨last, behind_eq, last_ends⟩
  | cons => simp [behind] at behind_eq

section Lasting

theorem kept_early : Kept k.Early :=
  .anyOf fun e => (kept_complaint e).and .always

theorem kept_missed : Kept k.Missed :=
  .anyOf fun _ f op s ⟨missed, here⟩ => ⟨missed, kept_done missed.1 f op s here⟩

theorem kept_strayed : Kept k.Strayed := Kept.always.and (kept_made _)

theorem kept_took : Kept k.Took := by
  intro f op t took single
  obtain ⟨here, late⟩ := took single
  obtain ⟨x, behind, x_ends⟩ := k.single_behind single
  rw [behind] at here
  have said {u : ParserState} (errors : u.errors = t.errors) : ∀ e ∈ u.errors, k.Late e :=
    errors ▸ late
  rw [behind]
  cases op with
  | note kinds rules => exact ⟨(t.note_agrees _ _).rest.trans here, said (t.note_errors _ _)⟩
  | bump =>
    obtain ⟨u, same, -, read⟩ := ParserState.bump_eq_settle here
    rw [if_pos x_ends] at read
    rw [read]
    exact ⟨u.settle_agrees.rest.trans (same.rest.trans here),
      said (u.settle_errors.trans same.errors)⟩
  | complain c =>
    refine ⟨(t.complain_agrees c).rest.trans here, ?_⟩
    have span : t.settle.span = x.span := by
      simp [ParserState.span, t.settle_agrees.rest, here]
    unfold ParserState.complain
    dsimp only
    split
    · exact said t.settle_errors
    · rw [span, t.settle_errors]
      rintro e (⟨⟩ | ⟨-, old⟩)
      · exact .inl ⟨x, by simp [behind], rfl⟩
      · exact late e old
  | overrun => exact ⟨here, late⟩
  | start r =>
    obtain ⟨u, started, same, -⟩ := t.start_eq_note r
    change (t.start r).rest = _ ∧ ∀ e ∈ (t.start r).errors, _
    rw [started]
    exact ⟨(u.note_agrees _ _).rest.trans (same.rest.trans here),
      said ((u.note_errors _ _).trans same.errors)⟩
  | wrap r =>
    obtain ⟨u, wrapped, same, -⟩ := t.wrap_eq_note r
    change (t.wrap r).rest = _ ∧ ∀ e ∈ (t.wrap r).errors, _
    rw [wrapped]
    exact ⟨(u.note_agrees _ _).rest.trans (same.rest.trans here),
      said ((u.note_errors _ _).trans same.errors)⟩
  | finish =>
    have same := t.finish_reseen.1
    exact ⟨same.rest.trans here, said same.errors⟩

theorem kept_accepted_first (t : ParserState) : Kept (k.Accepted · t) :=
  k.kept_early.or (k.kept_missed.or (Kept.always.or k.kept_strayed))

theorem kept_accepted_second (s : ParserState) : Kept (k.Accepted s) :=
  Kept.always.or (Kept.always.or (k.kept_took.or .always))

theorem kept_settled_first (t : ParserState) : Kept (k.Settled · t) := by
  have foreseen : Kept (k.Foreseen · t) := Kept.always.or ((kept_told _).or .always)
  exact kept_overran.or (Kept.always.or (foreseen.and (k.kept_accepted_first t)))

theorem kept_settled_second (s : ParserState) : Kept (k.Settled s) := by
  have foreseen : Kept (k.Foreseen s) :=
    (Kept.anyOf kept_complaint).or (Kept.always.or (kept_made _))
  exact Kept.always.or (kept_overran.or (foreseen.and (k.kept_accepted_second s)))

end Lasting

/-! ## Side by side -/

section Together

variable {k} {rules rules₁ : List Rule} {left : List Token} {s t s' t' : ParserState}

theorem Waits.transfer {n : Nat} (waits : k.Waits n s) (same : s'.probe = s.probe)
    (consumed : s'.consumed = s.consumed) : k.Waits n s' := by
  obtain ⟨p, here, waiting⟩ := waits
  exact ⟨p, same.trans here, by rwa [consumed]⟩

theorem Beside.transfer (beside : k.Beside rules left s t) (same : s.Reseen s')
    (same' : t.Reseen t') (opened : s'.rules = rules₁) (opened' : t'.rules = rules₁) :
    k.Beside rules₁ left s' t' where
  opened := opened
  opened' := opened'
  suffix := beside.suffix
  rest := same.rest.trans beside.rest
  rest' := same'.rest.trans beside.rest'
  silent := same.errors.trans beside.silent
  silent' := same'.errors.trans beside.silent'
  waits := beside.waits.transfer same.probe same.consumed
  unprobed := same'.probe.trans beside.unprobed

/-- What is noted does not concern the word. -/
theorem Beside.note (beside : k.Beside rules left s t) {kinds : List TokenKind}
    (other : left = [] → k.word.kind ∉ kinds) (noted : List Rule) :
    k.Beside rules left (s.note kinds noted) t := by
  obtain ⟨p, here, waiting, caret, untold⟩ := beside.waits
  rw [ParserState.note_of_probe here]
  split
  case isTrue => exact beside
  case isFalse reached =>
    have empty : left = [] := by
      simp only [waiting, Bool.false_or, bne_iff_ne, ne_eq, not_not, caret] at reached
      exact List.eq_nil_of_length_eq_zero (by omega)
    refine { beside with opened := beside.opened, waits := ⟨_, rfl, waiting, caret, ?_⟩ }
    rw [ParserState.mem_kinds_note]
    exact not_or.mpr ⟨other empty, untold⟩

/-- The word is noted at the caret. -/
theorem Beside.told (beside : k.Beside rules [] s t) {kinds : List TokenKind}
    (asked : k.word.kind ∈ kinds) (noted : List Rule) :
    Told k.word.kind (s.note kinds noted).probe := by
  obtain ⟨p, here, waiting, caret, -⟩ := beside.waits
  rw [ParserState.note_of_probe here, if_neg (by simp [waiting, caret])]
  exact ⟨_, rfl, ParserState.mem_kinds_note.mpr (.inl asked)⟩

theorem Beside.inner (beside : k.Beside rules left s t) {r : Rule} {u v : ParserState}
    (first : s' = u.note [] [] ∧ s.Reseen u ∧ u.rules = r :: s.rules)
    (second : t' = v.note [] [] ∧ t.Reseen v ∧ v.rules = r :: t.rules) :
    k.Beside (r :: rules) left s' t' := by
  obtain ⟨rfl, same, opened⟩ := first
  obtain ⟨rfl, same', opened'⟩ := second
  rw [beside.opened] at opened
  rw [beside.opened'] at opened'
  have near := beside.transfer same same' opened opened'
  rw [ParserState.note_of_unprobed near.unprobed]
  exact near.note (fun _ => List.not_mem_nil) []

theorem Beside.start (beside : k.Beside rules left s t) (r : Rule) :
    k.Beside (r :: rules) left (s.start r) (t.start r) := by
  obtain ⟨u, first⟩ := s.start_eq_note r
  obtain ⟨v, second⟩ := t.start_eq_note r
  exact beside.inner first second

theorem Beside.wrap (beside : k.Beside rules left s t) (r : Rule) :
    k.Beside (r :: rules) left (s.wrap r) (t.wrap r) := by
  obtain ⟨u, first⟩ := s.wrap_eq_note r
  obtain ⟨v, second⟩ := t.wrap_eq_note r
  exact beside.inner first second

theorem Beside.finish {r : Rule} (beside : k.Beside (r :: rules) left s t) :
    k.Beside rules left s.finish t.finish := by
  refine beside.transfer s.finish_reseen.1 t.finish_reseen.1 ?_ ?_
  · rw [s.finish_reseen.2, beside.opened, List.tail_cons]
  · rw [t.finish_reseen.2, beside.opened', List.tail_cons]

theorem Beside.inside {x : Token} {xs : List Token} (beside : k.Beside rules (x :: xs) s t) :
    x.kind ≠ .endOfInput :=
  k.unended x (beside.suffix.mem (.head _))

/-- Both read the token before the caret that is ahead. -/
theorem Beside.bump {x : Token} {xs : List Token} (beside : k.Beside rules (x :: xs) s t) :
    k.Beside rules xs s.bump t.bump := by
  obtain ⟨u, same, opened, read⟩ := ParserState.bump_eq_settle beside.rest
  obtain ⟨v, same', opened', read'⟩ := ParserState.bump_eq_settle beside.rest'
  have near := beside.transfer same same' (opened.trans beside.opened)
    (opened'.trans beside.opened')
  obtain ⟨p, here, waiting, caret, untold⟩ := near.waits
  have early : ¬ p.caret ≤ u.consumed := by
    rw [caret, List.length_cons]
    omega
  have still : u.settle = u := by rw [ParserState.settle_of_probe here, if_neg early]
  have still' : v.settle = v := ParserState.settle_of_unprobed near.unprobed
  rw [if_neg beside.inside, still] at read
  rw [if_neg beside.inside, still'] at read'
  rw [read, read']
  exact { near with
    opened := near.opened
    opened' := near.opened'
    suffix := (List.suffix_cons x xs).trans beside.suffix
    rest := rfl
    rest' := rfl
    waits := ⟨p, here, waiting, by simp [caret, same.consumed]; omega, untold⟩ }

theorem complaint_of_silent (silent : s.errors = []) (c : Complaint) :
    ⟨c, some s.span⟩ ∈ (s.complain c).errors := by
  have span : s.settle.span = s.span := by
    simp only [ParserState.span, s.settle_agrees.rest]
  simp [ParserState.complain, s.settle_errors, silent, span]

/-- The probe does not wait any longer. -/
theorem Beside.missed (beside : k.Beside rules [] s t) {errors : List SyntaxError} :
    k.Missed { s.settle with errors := errors } := by
  obtain ⟨p, here, waiting, caret, untold⟩ := beside.waits
  have reached : p.caret ≤ s.consumed := by simp [caret]
  rw [ParserState.settle_of_probe here, if_pos reached]
  exact ⟨{ p with done := true }, ⟨rfl, untold⟩, rfl⟩

theorem Beside.complain_missed (beside : k.Beside rules [] s t) (c : Complaint) :
    k.Missed (s.complain c) := by
  obtain ⟨errors, complained⟩ := s.complain_eq_settle c
  exact complained ▸ beside.missed

theorem Beside.bump_missed (beside : k.Beside rules [] s t) : k.Missed s.bump := by
  obtain ⟨u, same, opened, read⟩ := ParserState.bump_eq_settle beside.rest
  have near := beside.transfer same ⟨rfl, rfl, rfl, rfl, rfl⟩ (opened.trans beside.opened)
    beside.opened'
  rw [read, if_pos k.ended]
  exact near.missed

/-- What is complained of is a token before the caret, or else the end and the word. -/
theorem Beside.complain (beside : k.Beside rules left s t) (c c' : Complaint) :
    k.Settled (s.complain c) (t.complain c') := by
  refine .inr (.inr ⟨.inl ⟨_, complaint_of_silent beside.silent' c'⟩, ?_⟩)
  cases left with
  | nil => exact .inr (.inl (beside.complain_missed c))
  | cons x xs =>
    have span : s.span = x.span := by simp [ParserState.span, beside.rest]
    exact .inl ⟨_, complaint_of_silent beside.silent c, x, beside.suffix.mem (.head _), by
      rw [span]⟩

end Together

end Fork

end XuleLang
