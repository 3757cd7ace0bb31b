import XuleLang.Proofs.Parser.Meeting
import XuleLang.Proofs.Parser.ErrorFree

/-!
Names and blocks at a fork.

The modules on foresight go through the grammar and show of each of its parsers that it meets itself
at a fork (`Fork.Meets`): what it reads before the caret keeps the two runs side by side, and where
the caret comes, the word behind it was predicted, or is complained of, or is one of those that the
parser reads without asking. They go from what has little in it to what has much. What is inside an
expression is taken for granted (`Level.Meets`) until the levels are built up on each other
(`level_meets`); the last module comes to whole files (`settled_declarations`).

Here it begins with what a single token decides. The end is no name, but any reserved word may be
one, so a name at the caret is where a word is read unasked (`meets_name`). Blocks meet however deep
assignments nest in them, since a run that breaks off there has overrun and settles the case.
-/

namespace XuleLang

open ParserState (Kept Told Agrees)
open XuleLang.Parser

/-- The parsers of a level at a fork. -/
structure Level.Meets (l : Level) (k : Fork) : Prop where
  expression : k.Meets none Fork.Anywhere l.expression l.expression
  negation : k.Meets none (kindAhead · 0 = .keyword .notKw) l.negation l.negation
  signed : k.Meets none (kindAhead · 0 ∈ signs) l.signed l.signed
  takes : k.word.kind = .keyword .notKw → k.Takes l.negation
  /-- A `not` with nothing behind it but the caret comes to nothing. -/
  abandons : k.word.kind = .keyword .inKw → ∀ {rules x s t}, k.Beside rules [x] s t →
    k.Early (l.negation.run s).2 ∨ k.Missed (l.negation.run s).2
  productive : l.Productive
  sound : l.Sound

namespace Fork

variable {k : Fork} {l : Level} {inside : Option Rule} {r : Rule} {I : List Token → Prop}

/-! ## Tokens -/

section Tokens

theorem meets_eat {kk : TokenKind} (unended : .endOfInput ∉ [kk]) :
    k.Meets inside I (eat kk) (eat kk) :=
  .ifSeen (inquires_sees kk) unended (Begins.bump.andThen fun _ => .answer true) (.answer false)

theorem meets_complainWanted (w : Wanted) :
    k.Meets inside I (complainWanted w) (complainWanted w) :=
  .onKind (.complain _ _) fun _ => .complain _ _

theorem meets_expect {kk : TokenKind} (unended : .endOfInput ∉ [kk]) :
    k.Meets inside I (expect kk) (expect kk) :=
  .andThen (meets_eat unended) fun _ => .iteThen (meets_complainWanted _) (.answer _)

theorem meets_expecting {kk : TokenKind} (unended : .endOfInput ∉ [kk]) :
    k.Meets inside I (do let _ ← expect kk) (do let _ ← expect kk) :=
  .andThen (meets_expect unended) fun _ => .answer ()

theorem meets_require {kk : TokenKind} (w : Wanted) (unended : .endOfInput ∉ [kk]) :
    k.Meets inside I (require kk w) (require kk w) :=
  .ifSeen (inquires_sees kk) unended .bump (meets_complainWanted w)

end Tokens

/-! ## Names -/

section Names

theorem word_isKeyword (k : Fork) : ∃ w, k.word.kind = .keyword w := by
  have reserved := k.reserved
  cases here : k.word.kind with
  | keyword w => exact ⟨w, rfl⟩
  | _ => simp [here, TokenKind.isKeyword] at reserved

theorem inquires_seesName :
    k.Inquires seesName [] fun ts =>
      kindAhead ts 0 == .identifier || (kindAhead ts 0).isKeyword := by
  obtain ⟨w, reserved⟩ := k.word_isKeyword
  have asks := (inquires_sees (k := k) .identifier).andThen fun identifier =>
    inquires_kind.andThen fun kk => inquires_answer (identifier || kk.isKeyword)
  refine (asks.weaken ?_).congr fun ts => ?_
  · simp [reserved]
  · simp [Bool.beq_eq_decide_eq]

theorem Beside.comes {rules : List Rule} {s t : ParserState} (beside : k.Beside rules [] s t) :
    k.Comes t :=
  ⟨beside.rest', beside.silent', beside.unprobed⟩

/-- The word becomes a leaf where it stands for a name. -/
theorem Comes.opened {t : ParserState} (comes : k.Comes t) (here : t.rules.head? = some r)
    (named : r ∈ Tree.nameRules) : k.Opened t.bump := by
  cases frames : t.frames with
  | nil => simp [ParserState.rules, frames] at here
  | cons f outer =>
    have rule : f.rule = r := by simpa [ParserState.rules, frames] using here
    have read := (ParserState.bump_of_cons comes.rest).frames
    rw [ParserState.attach_of_cons frames] at read
    refine ⟨_, outer, read, .inl ⟨⟨r, named, congrArg some rule⟩, ?_⟩⟩
    refine ⟨.leaf ⟨t.nextId, k.word⟩, ?_, rfl⟩
    simp [Tree.children]

/-- The end is no name, but the word may be read for one. -/
theorem meets_name {f g : Bool → Parser β} {rest : Parser β} (named : r ∈ Tree.nameRules)
    (missed : ∀ {rules s t}, k.Beside rules [] s t → k.Missed ((f false).run s).2)
    (reads : g true = bump >>= fun _ => rest) (appends : Appends rest)
    (yes : k.Meets (some r) (· ≠ []) (f true) (g true))
    (no : k.Meets (some r) Anywhere (f false) (g false)) :
    k.Meets (some r) I (seesName >>= f) (seesName >>= g) := by
  have nameAhead : ((kindAhead (k.word :: k.behind) 0) == .identifier ||
      (kindAhead (k.word :: k.behind) 0).isKeyword) = true :=
    Bool.or_eq_true_iff.mpr (.inr k.reserved)
  have no_name : ((kindAhead [k.last] 0) == .identifier ||
      (kindAhead [k.last] 0).isKeyword) = false := by
    have reached : kindAhead [k.last] 0 = .endOfInput := k.ended
    rw [reached]
    rfl
  refine .except (· = []) ?_ ?_
  · rintro rules left s t here - rfl beside
    have run : (seesName >>= f).run s = (f (seesName.run s).1).run (seesName.run s).2 := rfl
    have run' : (seesName >>= g).run t = (g (seesName.run t).1).run (seesName.run t).2 := rfl
    rw [run, run', (inquires_seesName (k := k)).answers beside.rest,
      (inquires_seesName (k := k)).answers beside.rest',
      (inquires_seesName (k := k)).still t beside.unprobed, List.nil_append, no_name,
      List.nil_append, nameAhead, reads]
    have asked := inquires_seesName.near beside fun _ => List.not_mem_nil
    have opened := beside.comes.opened (here r rfl |> fun first => beside.opened' ▸ first) named
    exact opened.onwards appends (.inr (.inl (missed asked)))
  · refine .before inquires_seesName (fun _ => And.right) (fun _ _ => rfl) fun a => ?_
    cases a with
    | true => exact yes.weaken fun _ known => known.1.2
    | false => exact no.weaken fun _ _ => trivial

theorem missed_complainWanted (w : Wanted) {rules : List Rule} {s t : ParserState}
    (beside : k.Beside rules [] s t) : k.Missed ((complainWanted w).run s).2 :=
  beside.complain_missed _

theorem meets_requireName (w : Wanted) (named : r ∈ Tree.nameRules) :
    k.Meets (some r) I (requireName w) (requireName w) :=
  meets_name named (missed_complainWanted w) (by rfl) (.answer ())
    (.bump fun _ => id) (meets_complainWanted w)

theorem meets_qualifiedName : k.Meets inside I qualifiedName qualifiedName := by
  have named : Rule.qualifiedName ∈ Tree.nameRules := by decide
  have local_name : Appends (do if ← eat (.punctuator .colon) then requireName .localName) :=
    .andThen (.of_yields (alike_eat _).steady fun _ => yields_eat (by simp))
      fun _ => .ite (.of_yields (alike_requireName _).steady fun _ =>
        yields_requireName _) (.answer ())
  refine .within (.openThen (meets_requireName _ named) (fun _ => ?_) fun _ => local_name)
  exact .andThen (meets_eat (by decide)) fun _ => .ite (meets_requireName _ named) (.answer ())

theorem meets_propertyRef : k.Meets inside I propertyRef propertyRef :=
  .within (meets_requireName _ (by decide))

end Names

/-! ## Blocks -/

section Blocks

/-- Two tokens ahead. -/
theorem two_left {left : List Token} {c : TokenKind}
    (second : kindAhead (left ++ [k.last]) 1 = c) (inside : c ≠ .endOfInput) :
    left ≠ [] ∧ left.tail ≠ [] := by
  match left with
  | [] => exact absurd second.symm inside
  | [_] => exact absurd (second.symm.trans k.ended) inside
  | _ :: _ :: _ => simp

theorem inquires_seesAssignment :
    k.Inquires seesAssignment [] fun ts =>
      [TokenKind.variableName].contains (kindAhead ts 0) &&
        kindAhead ts 1 == .punctuator .assign := by
  obtain ⟨w, reserved⟩ := k.word_isKeyword
  refine Inquires.weaken ((inquires_predict _).andThen fun _ =>
    (inquires_sees .variableName).andThen fun variableAhead => (inquires_kindAt 1).andThen
      fun second => inquires_answer (variableAhead && second == .punctuator .assign)) ?_
  simp [reserved]

/-- Questions for a token that is not the word, and for the one behind it. -/
theorem same_of_head {φ : List Token → Bool} (A : TokenKind → TokenKind → Bool)
    (asks : ∀ ts, φ ts = A (kindAhead ts 0) (kindAhead ts 1))
    (first : ∀ b, A .endOfInput b = false) (word : ∀ w b, A (.keyword w) b = false)
    (second : ∀ a w, A a (.keyword w) = A a .endOfInput) (left : List Token) :
    φ (left ++ [k.last]) = φ (left ++ k.word :: k.behind) := by
  obtain ⟨w, reserved⟩ := k.word_isKeyword
  rw [asks, asks]
  match left with
  | [] =>
    have ended : kindAhead [k.last] 0 = .endOfInput := k.ended
    have worded : kindAhead (k.word :: k.behind) 0 = .keyword w := reserved
    rw [List.nil_append, List.nil_append, ended, worded, first, word]
  | [x] =>
    have ended : kindAhead ([x] ++ [k.last]) 1 = .endOfInput := k.ended
    have worded : kindAhead ([x] ++ k.word :: k.behind) 1 = .keyword w := reserved
    rw [ended, worded, second]
    rfl
  | _ :: _ :: _ => rfl

theorem meets_assignment {value value' : Parser Unit} (meets : k.Meets none Anywhere value value') :
    k.Meets inside (fun left => left ≠ [] ∧ left.tail ≠ []) (assignment value)
      (assignment value') := by
  refine .within (.leafThen (J := (· ≠ [])) (.bumpThen (J := Anywhere) ?_ fun left ahead => ?_)
    fun left ahead => ahead)
  · exact meets.andThen fun _ => meets_expecting (by decide)
  · exact ⟨ahead, trivial⟩

theorem meets_blockUpTo_succ (meets : l.Meets k) {a b : Nat}
    (inner : k.Meets none Anywhere (blockUpTo l a) (blockUpTo l b)) :
    k.Meets inside I (blockUpTo l (a + 1)) (blockUpTo l (b + 1)) := by
  refine .within (.andThen (.repeated ?_) fun _ => meets.expression.inner)
  refine .deciding inquires_seesAssignment (same_of_head
    (fun a b => [TokenKind.variableName].contains a && b == .punctuator .assign)
    (fun _ => rfl) (fun _ => rfl) (fun _ _ => rfl) fun _ _ => rfl) fun ahead => ?_
  cases ahead with
  | false => exact .answer false
  | true =>
    refine .andThen ((meets_assignment inner).weaken fun left known => ?_) fun _ => .answer true
    have second := (Bool.and_eq_true_iff.mp known.2).2
    exact two_left (beq_iff_eq.mp second) (by simp)

/-- Blocks meet however deep assignments may nest in them. -/
theorem meets_blockUpTo (meets : l.Meets k) (a b : Nat) :
    k.Meets inside I (blockUpTo l a) (blockUpTo l b) := by
  have equal (n : Nat) {inside : Option Rule} {I : List Token → Prop} :
      k.Meets inside I (blockUpTo l n) (blockUpTo l n) := by
    induction n generalizing inside I with
    | zero => exact .overrunFirst .overrun
    | succ n ih => exact meets_blockUpTo_succ meets ih
  have whole (n : Nat) : k.Meets none Anywhere (blockUpTo l n) (blockUpTo l n) := equal n
  induction a generalizing b inside I with
  | zero => exact .overrunFirst (whole b).steady'
  | succ a ih =>
    cases b with
    | zero => exact .overrunSecond (whole (a + 1)).steady
    | succ b => exact meets_blockUpTo_succ meets (ih b)

theorem steady_block (meets : l.Meets k) : Steady (block l) := by
  intro J kept s
  have whole : k.Meets none Anywhere (blockUpTo l (s.rest.length + 1)) (blockUpTo l 0) :=
    meets_blockUpTo meets _ _
  exact whole.steady J kept s

theorem meets_block (meets : l.Meets k) : k.Meets inside I (block l) (block l) where
  steady := steady_block meets
  steady' := steady_block meets
  run here holds beside := (meets_blockUpTo meets _ _).run here holds beside

theorem meets_commaSeparated {item item' : Parser Unit} (meets : k.Meets none Anywhere item item') :
    k.Meets inside I (commaSeparated item) (commaSeparated item') :=
  .repeated (.andThen meets fun _ => meets_eat (by decide))

/-- A sign or an identifier is asked for. -/
theorem meets_sees {kk : TokenKind} (unended : kk ≠ .endOfInput) (other : kk.isKeyword = false) :
    k.Meets inside I (sees kk) (sees kk) := by
  have word : k.word.kind ≠ kk := by
    rintro rfl
    exact absurd (k.reserved.symm.trans other) nofun
  refine .ask ((inquires_sees kk).weaken (by simpa using word)) fun left => ?_
  cases left with
  | nil =>
    have first : [kk].contains k.last.kind = false := by simpa [k.ended] using unended.symm
    have second : [kk].contains k.word.kind = false := by simpa using word
    exact first.trans second.symm
  | cons x xs => rfl

theorem meets_stringPart (meets : l.Meets k) :
    k.Meets none Anywhere (stringPart l) (stringPart l) := by
  obtain ⟨w, reserved⟩ := k.word_isKeyword
  refine .onKind ?_ fun a => ?_
  · rw [reserved]
    exact .complainThen (.answer false) (.answer false) _ _
  · split
    case h_1 => exact .bumpThen (.answer (I := Anywhere) true) fun _ known => ⟨known.2.1, trivial⟩
    case h_2 =>
      refine .bumpThen (J := Anywhere) ?_ fun _ known => ⟨known.2.1, trivial⟩
      exact .andThen (meets_block meets) fun _ =>
        .andThen (meets_expect (by decide)) fun _ => .answer true
    case h_3 => exact .bumpThen (.answer (I := Anywhere) false) fun _ known => ⟨known.2.1, trivial⟩
    case h_4 => exact .complainThen (.answer false) (.answer false) _ _

theorem begins_stringLiteral (meets : l.Meets k) : k.Begins (stringLiteral l) (stringLiteral l) :=
  .node (.repeated (meets_stringPart meets))

theorem meets_argumentList (meets : l.Meets k) :
    k.Meets inside I (argumentList l) (argumentList l) := by
  refine .within (.andThen (meets_expect (by decide)) fun _ => .ite ?_ (.answer ()))
  exact .andThen (meets_sees (by simp) rfl) fun _ =>
    .iteThen (meets_commaSeparated (meets_block meets)) (meets_expecting (by decide))

theorem begins_whereClause (meets : l.Meets k) : k.Begins (whereClause l) (whereClause l) :=
  .node (meets_block meets)

end Blocks

end Fork

end XuleLang
