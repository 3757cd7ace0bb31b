import XuleLang.Analysis.Completion
import XuleLang.Proofs.Analysis.CandidatePlace
import XuleLang.Proofs.Analysis.Definition
import XuleLang.Proofs.Syntax.ReadFile

/-!
What has been typed of a name.

A name stands on one line and is written in plain characters. So what has been typed of it can be
told by columns: of the first name that a caret touches, the characters up to the column of the
caret. Where the caret touches no name, or only the start of one, nothing has been typed.
-/

namespace XuleLang

variable {text cs : List Char} {s : TokenStream} {t u : Token} {o n line column : Nat}

/-- What stands before a line and column of the first name that it touches. -/
def typedAt (tokens : List Token) (line column : Nat) : List Char :=
  match (visibleTokens tokens).find? fun t =>
    t.kind.isIdentifierLike && t.span.touches line column with
  | some t => t.text.toList.take (column - t.span.start.column)
  | none => []

/-! ## Names on their lines -/

/-- There is no line break among the characters. -/
def Unbroken (cs : List Char) : Prop := ∀ c ∈ cs, c ≠ '\n' ∧ c ≠ '\r'

theorem Position.advance_of_unbroken {p : Position} (unbroken : Unbroken cs)
    (inside : n ≤ cs.length) : p.advance cs n = ⟨p.line, p.column + n, p.offset + n⟩ := by
  induction n generalizing p cs with
  | zero => simp
  | succ n ih =>
    cases cs with
    | nil => exact absurd inside (Nat.not_succ_le_zero _)
    | cons c cs =>
      obtain ⟨⟨noFeed, noReturn⟩, others⟩ := List.forall_mem_cons.mp unbroken
      have goes : breaksLine c cs.head? = false := by simp [breaksLine, noFeed, noReturn]
      rw [advance_cons, ih others (Nat.le_of_succ_le_succ inside), step, goes]
      simp only [Bool.false_eq_true, if_false, Nat.add_assoc, Nat.add_comm 1]

theorem insideBreak_of_unbroken (unbroken : Unbroken cs) (n : Nat) : insideBreak cs n = false := by
  cases there : cs[n]? with
  | none => simp [insideBreak, there]
  | some c =>
    have noFeed := (unbroken c (List.mem_of_getElem? there)).1
    simp [insideBreak, there, noFeed]

/-- A name in a text, on one line. -/
structure Token.IsNameIn (t : Token) (text : List Char) : Prop where
  piece : (Piece.token t).IsCutFrom text
  some : t.span.start.offset < t.span.stop.offset
  plain : ∀ c ∈ t.text.toList, isNamePart c = true

namespace Token.IsNameIn

theorem unbroken (name : t.IsNameIn text) : Unbroken t.text.toList :=
  fun c member => (isNamePart_plain (name.plain c member)).2

/-- In a name the columns count the characters. -/
theorem positionAt_eq (name : t.IsNameIn text) (behind : t.span.start.offset ≤ o)
    (before : o ≤ t.span.stop.offset) :
    positionAt text o =
      ⟨t.span.start.line, t.span.start.column + (o - t.span.start.offset), o⟩ := by
  obtain ⟨span, chars⟩ : t.span.IsApartIn text ∧ t.text.toList = cut text t.span :=
    ⟨name.piece.span, name.piece.chars⟩
  have enough : o - t.span.start.offset ≤ (cut text t.span).length := by
    rw [length_cut span.inside]
    exact Nat.sub_le_sub_right before _
  rw [positionAt_eq_advance_cut span.toIsIn name.some span.stop_apart behind before,
    Position.advance_of_unbroken (chars ▸ name.unbroken) enough, Nat.add_sub_cancel' behind]

/-- A line and column that touches a name is a place in the text. -/
theorem exists_offset (name : t.IsNameIn text) (touches : t.span.touches line column = true) :
    ∃ o ≤ text.length, (positionAt text o).line = line ∧ (positionAt text o).column = column := by
  have span : t.span.IsIn text := name.piece.span.toIsIn
  have stop := name.positionAt_eq span.ordered (Nat.le_refl _)
  rw [← span.stop] at stop
  have sameLine : t.span.stop.line = t.span.start.line := (congrArg Position.line stop).trans rfl
  have width : t.span.stop.column =
      t.span.start.column + (t.span.stop.offset - t.span.start.offset) :=
    (congrArg Position.column stop).trans rfl
  have ordered := span.ordered
  have inside := span.inside
  simp only [Span.touches, Position.isAtOrBefore, Position.isAtOrAfter, Bool.and_eq_true,
    Bool.or_eq_true, beq_iff_eq, decide_eq_true_eq] at touches
  refine ⟨t.span.start.offset + (column - t.span.start.column), by omega, ?_⟩
  rw [name.positionAt_eq (Nat.le_add_right _ _) (by omega)]
  dsimp only
  omega

/-- All characters of a name before a caret count. -/
theorem charsBefore_eq (name : t.IsNameIn text) (behind : t.span.start.offset ≤ o)
    (before : o ≤ t.span.stop.offset) : t.charsBefore text o = o - t.span.start.offset := by
  obtain ⟨span, chars⟩ : t.span.IsApartIn text ∧ t.text.toList = cut text t.span :=
    ⟨name.piece.span, name.piece.chars⟩
  have whole := insideBreak_cut span.inside behind before
  rw [insideBreak_of_unbroken (chars ▸ name.unbroken)] at whole
  simp [charsBefore, ← whole]

end Token.IsNameIn

theorem isNameIn_of_read (read : tokenizeWithSeams text = .ok s)
    (member : t ∈ visibleTokens s.tokens) (name : t.kind.isIdentifierLike = true) :
    t.IsNameIn text := by
  obtain ⟨-, follow, -⟩ := visible_of_tokenizeWithSeams read
  have inside : t.kind ≠ .endOfInput := by
    intro ends
    rw [ends] at name
    cases name
  have steps := ofSteps_of_tokenizeWithSeams read
  have plain := TokenStream.tells_of_ofSteps Lexeme.tells_plainName arranges_withSeams steps t
    (List.mem_filter.mp member).1 name
  exact ⟨follow.piece t member,
    TokenStream.nonempty_of_ofSteps arranges_withSeams steps t member inside, plain⟩

/-! ## Names under carets -/

mutual

/-- A leaf that a search gives as touched is touched. -/
theorem offsetAt?_of_hit? {h : Hit} : (t : Tree) → t.hit? line column = some h →
    h.touching = true → h.leaf.token.offsetAt? line column = some h.offset
  | .leaf l, found, _ => by
    obtain ⟨o, offset, rfl⟩ := Option.map_eq_some_iff.mp found
    exact offset
  | .node n r none cs, found, _ => nomatch found
  | .node n r (some span) cs, found, touching => by
    rw [Tree.hit?] at found
    split at found
    case isTrue =>
      split at found
      case h_1 h' among =>
        cases found
        exact offsetAt?_of_hitAmong? cs among touching
      case h_2 =>
        obtain ⟨l, last, rfl⟩ := Option.map_eq_some_iff.mp found
        cases touching
    case isFalse => cases found

theorem offsetAt?_of_hitAmong? {h : Hit} : (ts : List Tree) →
    Tree.hitAmong? line column ts = some h →
    h.touching = true → h.leaf.token.offsetAt? line column = some h.offset
  | [], found, _ => nomatch found
  | t :: ts, found, touching => by
    rw [Tree.hitAmong?] at found
    split at found
    case h_1 h' here =>
      cases found
      exact offsetAt?_of_hit? t here touching
    case h_2 => exact offsetAt?_of_hitAmong? ts found touching

end

/-- A caret is what a search of the tree gives. -/
theorem caret_of_caretAt? {t : SyntaxTree} {c : Caret}
    (resolved : t.caretAt? line column = some c) : c = match t.root.hit? line column with
      | some h => ⟨some h.leaf, h.offset, h.tokenIndex (t.tokens.length - 1)⟩
      | none => ⟨none, 0, 0⟩ := by
  obtain ⟨span, covers, rest⟩ := Option.bind_eq_some_iff.mp resolved
  have touches : span.touches line column = true := by
    by_contra apart
    simp [guard, apart] at rest
  rw [caretAt?_of_touches covers touches] at resolved
  exact (Option.some.inj resolved).symm

/-- Where no name is touched, nothing has been typed. -/
theorem Caret.typed_eq_nil {c : Caret} (read : tokenizeWithSeams text = .ok s)
    (resolved : (parse s.tokens).tree.caretAt? line column = some c)
    (untouched : ∀ t ∈ visibleTokens s.tokens, t.kind.isIdentifierLike = true →
      t.span.touches line column = false) : c.typed = [] := by
  have caret := caret_of_caretAt? resolved
  cases hit : (parse s.tokens).tree.root.hit? line column with
  | none => rw [caret, hit]; rfl
  | some h =>
    rw [hit] at caret
    obtain ⟨numbers, -, ends⟩ := visible_of_tokenizeWithSeams read
    have leaf := Tree.mem_leaves_of_hit? _ h hit
    have member : h.leaf.token ∈ visibleTokens s.tokens :=
      leaves_parse ends ▸ List.mem_map_of_mem leaf
    rw [caret, Caret.typed]
    refine if_neg fun completes => ?_
    obtain ⟨name, own⟩ := Bool.and_eq_true_iff.mp completes
    have isName := isNameIn_of_read read member name
    -- The number is that of the leaf itself, which is not the last one, so the caret touches it.
    have touching : h.touching = true := by
      have inside : h.leaf.token.span.stop.offset ≤ text.length := isName.piece.span.inside
      obtain ⟨last, there, later⟩ := (listed_of_read read).exists_index_lt member
        (Nat.lt_of_lt_of_le isName.some inside)
      have bound := numbers.index_lt (List.mem_filter.mp there).1
      have whole : (parse s.tokens).tree.tokens = s.tokens := rfl
      cases touching : h.touching with
      | true => rfl
      | false =>
        simp only [Hit.tokenIndex, touching, Bool.not_false, if_true, beq_iff_eq, whole] at own
        omega
    have apart := untouched _ member name
    have empty : h.leaf.token.span.isEmpty = false := by
      simpa [Span.isEmpty] using Nat.ne_of_lt isName.some
    have offset := offsetAt?_of_hit? _ hit touching
    simp [Token.offsetAt?, empty, apart] at offset

/-- The first leaf that a caret touches is the one that it hits. -/
theorem exists_hit_of_touchedAt (read : tokenizeWithSeams text = .ok s) (inside : o ≤ text.length)
    (member : t ∈ visibleTokens s.tokens) (touched : t.touchedAt o = true) :
    ∃ l : Leaf, (visibleTokens s.tokens).find? (·.touchedAt o) = some l.token ∧
      (parse s.tokens).tree.root.hit? (positionAt text o).line (positionAt text o).column =
        some ⟨l, l.token.charsBefore text o, true⟩ := by
  obtain ⟨-, -, ends⟩ := visible_of_tokenizeWithSeams read
  rw [← leaves_parse ends] at member ⊢
  rw [hit?_parse read inside, hitAmongLeaves?]
  obtain ⟨k, leaf, rfl⟩ := List.mem_map.mp member
  cases first : (parse s.tokens).tree.root.leaves.find? (·.token.touchedAt o) with
  | none => exact absurd touched (by simpa using List.find?_eq_none.mp first k leaf)
  | some l => exact ⟨l, List.find?_map.trans (congrArg (Option.map _) first), rfl⟩

/-- **What has been typed is what stands before the caret of the name that it touches.** -/
theorem Caret.typed_eq {c : Caret} (read : tokenizeWithSeams text = .ok s)
    (resolved : (parse s.tokens).tree.caretAt? line column = some c) :
    c.typed = typedAt s.tokens line column := by
  have listed := listed_of_read read
  cases first : (visibleTokens s.tokens).find? fun t =>
      t.kind.isIdentifierLike && t.span.touches line column with
  | none =>
    have untouched := List.find?_eq_none.mp first
    rw [typedAt, first]
    exact Caret.typed_eq_nil read resolved fun t member name => by
      simpa [name] using untouched t member
  | some t =>
    have found := List.find?_some first
    obtain ⟨name, touches⟩ := Bool.and_eq_true_iff.mp found
    have member := List.mem_of_find?_eq_some first
    have isName := isNameIn_of_read read member name
    obtain ⟨o, inside, line, column⟩ := isName.exists_offset touches
    subst line column
    have touched : t.touchedAt o = true :=
      (isName.piece.span.toIsIn.touches_positionAt inside).symm.trans touches
    obtain ⟨l, foremost, hit⟩ := exists_hit_of_touchedAt read inside member touched
    have there := List.mem_of_find?_eq_some foremost
    have reached := List.find?_some foremost
    have upTo := listed.index_le_of_find? foremost member touched
    simp only [Token.touchedAt, Bool.and_eq_true, decide_eq_true_eq] at touched
    have columns := congrArg Position.column (isName.positionAt_eq touched.1 touched.2)
    have caret := caret_of_caretAt? resolved
    rw [hit] at caret
    rw [typedAt, first, caret]
    dsimp only at columns ⊢
    rw [columns, Nat.add_sub_cancel_left]
    cases kind : l.token.kind.isIdentifierLike with
    | true =>
      -- The first leaf is a name itself, so it is the one.
      have place := (isNameIn_of_read read there kind).piece.span.toIsIn
      have touches' : l.token.span.touches (positionAt text o).line (positionAt text o).column =
          true := (place.touches_positionAt inside).trans reached
      have back := listed.index_le_of_find? first there (by simp [kind, touches'])
      obtain rfl : l.token = t := listed.eq_of_index there member (Nat.le_antisymm upTo back)
      rw [isName.charsBefore_eq touched.1 touched.2]
      simp [Caret.typed, Hit.tokenIndex, kind]
    | false =>
      -- The first leaf ends where the name starts.
      have other : l.token.index ≠ t.index := fun same => by
        rw [listed.eq_of_index there member same, name] at kind
        cases kind
      have apart := listed.stop_le_start there member (by omega)
      simp only [Token.touchedAt, Bool.and_eq_true, decide_eq_true_eq] at reached
      have none : o - t.span.start.offset = 0 := by omega
      simp [Caret.typed, kind, none]

/-! ## The edited file -/

/-- The edited file was read, or it is empty. -/
theorem edited_tree_cases (source : SourceText) :
    (∃ stream, tokenizeWithSeams source.text = .ok stream ∧
      (RuleFile.edited source).tree = (parse stream.tokens).tree) ∨
    (RuleFile.edited source).tree = (parse [.endOfInput .start]).tree := by
  unfold RuleFile.edited
  split
  case h_1 stream read => exact .inl ⟨stream, read, rfl⟩
  case h_2 failure _ => exact .inr rfl

/-- The only leaf of an empty file is its end. -/
theorem token_of_mem_leaves_empty {l : Leaf}
    (member : l ∈ (parse [.endOfInput .start]).tree.root.leaves) :
    l.token = .endOfInput .start := by
  have leaves := leaves_parse (show EndsOnce (visibleTokens [.endOfInput .start]) by decide)
  have listed : l.token ∈ visibleTokens [.endOfInput .start] :=
    leaves ▸ List.mem_map_of_mem member
  exact List.mem_singleton.mp listed

/-- In an empty file nothing has been typed. -/
theorem typed_of_empty {c : Caret}
    (resolved : (parse [.endOfInput .start]).tree.caretAt? line column = some c) :
    c.typed = [] := by
  have caret := caret_of_caretAt? resolved
  cases hit : (parse [.endOfInput .start]).tree.root.hit? line column with
  | none => rw [caret, hit]; rfl
  | some h =>
    rw [hit] at caret
    have ending := token_of_mem_leaves_empty (Tree.mem_leaves_of_hit? _ h hit)
    rw [caret]
    simp only [Caret.typed, ending]
    rfl

section Edited

variable (source : SourceText)

/-- What is seen of the edited file ends once. -/
theorem edited_endsOnce : EndsOnce (visibleTokens (RuleFile.edited source).tree.tokens) := by
  rcases edited_tree_cases source with ⟨stream, read, tree⟩ | tree
  · rw [tree]
    exact (visible_of_tokenizeWithSeams read).2.2
  · rw [tree]
    decide

/-- What has been typed in the edited file stands before the caret in a name. -/
theorem typed_eq_typedAt {c : Caret}
    (resolved : (RuleFile.edited source).tree.caretAt? line column = some c) :
    c.typed = typedAt (RuleFile.edited source).tree.tokens line column := by
  rcases edited_tree_cases source with ⟨stream, read, tree⟩ | tree
  · rw [tree] at resolved ⊢
    exact Caret.typed_eq read resolved
  · rw [tree] at resolved ⊢
    exact typed_of_empty resolved

/-- What has been typed is written in plain characters. -/
theorem typedAt_plain : ∀ c ∈ typedAt (RuleFile.edited source).tree.tokens line column,
    c.toNat < 128 := by
  intro c typed
  rcases edited_tree_cases source with ⟨stream, read, tree⟩ | tree
  · rw [tree, typedAt] at typed
    split at typed
    case h_1 t found =>
      have name := List.find?_some found
      have isName := isNameIn_of_read read (List.mem_of_find?_eq_some found)
        (Bool.and_eq_true_iff.mp name).1
      exact (isNamePart_plain (isName.plain c (List.mem_of_mem_take typed))).1
    case h_2 => cases typed
  · rw [tree] at typed
    cases typed

end Edited

end XuleLang
