import XuleLang.Analysis.Caret
import XuleLang.Proofs.Token.Lossless

/-!
Carets inside tokens.

A caret has a line and a column, and where it stands in a token is found by going through the lines
of the token. This gives the number of characters before the caret, but for one place: between the
two characters of a line break the caret stands at the end of its line.
-/

namespace XuleLang

variable {text cs : List Char} {t : Token} {n o : Nat}

/-- A walk goes from line to line downwards. -/
theorem Position.line_le_advance {p : Position} : p.line ≤ (p.advance cs n).line := by
  induction n generalizing p cs with
  | zero => simp
  | succ n ih =>
    cases cs with
    | nil => simp
    | cons c cs =>
      rw [advance_cons]
      refine Nat.le_trans ?_ ih
      unfold step
      split
      · exact Nat.le_succ _
      · exact Nat.le_refl _

/-- The first line of some characters holds what stands before them. -/
theorem offsetInLines_lineWidths_zero {first column width least : Nat} (enough : least ≤ width) :
    offsetInLines first column first (column + least) (lineWidths width cs) = some least := by
  fun_induction lineWidths width cs with
  | case1 => simp [offsetInLines, enough]
  | case2 => simp [offsetInLines, enough]
  | case3 => simp [offsetInLines, enough]
  | case4 width c cs _ _ ih => exact ih (by omega)

theorem insideBreak_cons_succ {c : Char} :
    insideBreak (c :: cs) (n + 2) = insideBreak cs (n + 1) := by
  simp [insideBreak]

theorem insideBreak_cons {c : Char} (lone : c = '\r' → cs.head? ≠ some '\n') (n : Nat) :
    insideBreak (c :: cs) (n + 1) = insideBreak cs n := by
  cases n with
  | zero =>
    rw [insideBreak_zero]
    simpa [insideBreak, List.head?_eq_getElem?] using lone
  | succ n => exact insideBreak_cons_succ

theorem insideBreak_toNat_le (cs : List Char) (n : Nat) : (insideBreak cs n).toNat ≤ n := by
  cases n with
  | zero => simp
  | succ n => exact Nat.le_trans (Bool.toNat_le _) (Nat.succ_le_succ (Nat.zero_le n))

/-- Behind a line break the walk is found in the lines behind the first one. -/
theorem offsetInLines_behind {first column at0 width breakWidth : Nat} {ls : List LineWidth}
    {q : Position} (walk : q = Position.advance ⟨first + 1, 1, at0⟩ cs n) :
    offsetInLines first column q.line q.column (⟨width, breakWidth⟩ :: ls) =
      (offsetInLines (first + 1) 1 q.line q.column ls).map (width + breakWidth + ·) := by
  have below : first + 1 ≤ q.line := by
    rw [walk]
    exact Position.line_le_advance (p := ⟨first + 1, 1, at0⟩)
  rw [offsetInLines, if_neg (by omega)]

/-- Where a walk over some characters ends is found again in their lines. -/
theorem offsetInLines_lineWidths {first column width at0 : Nat} {q : Position}
    (inside : n ≤ cs.length) (walk : q = Position.advance ⟨first, column + width, at0⟩ cs n) :
    offsetInLines first column q.line q.column (lineWidths width cs) =
      some (width + (n - (insideBreak cs n).toNat)) := by
  fun_induction lineWidths width cs generalizing first column n at0 with
  | case1 width =>
    obtain rfl : n = 0 := Nat.le_zero.mp inside
    simp [walk, offsetInLines]
  | case2 width cs ih =>
    match n with
    | 0 => simp [walk, offsetInLines]
    | 1 =>
      -- The column here is one behind the end of the line, and the search takes it for the end.
      have between : insideBreak ('\r' :: '\n' :: cs) 1 = true := by simp [insideBreak]
      have stays : column + width + 1 - column = width + 1 := by omega
      simp [walk, offsetInLines, Position.step, breaksLine, between, stays]
    | n + 2 =>
      have next : q = Position.advance ⟨first + 1, 1 + 0, at0 + 1 + 1⟩ cs n := by
        rw [walk, Position.advance_cons, Position.advance_cons]
        simp [Position.step, breaksLine]
      have same : insideBreak ('\r' :: '\n' :: cs) (n + 2) = insideBreak cs n := by
        rw [insideBreak_cons_succ, insideBreak_cons fun same => absurd same (by decide)]
      have few := insideBreak_toNat_le cs n
      simp only [List.length_cons] at inside
      rw [offsetInLines_behind next, ih (by omega) next, same, Option.map_some]
      congr 1
      omega
  | case3 width c cs apart ends ih =>
    have lone : c = '\r' → cs.head? ≠ some '\n' := by
      intro returns follows
      obtain ⟨rest, cs_eq⟩ := List.head?_eq_some_iff.mp follows
      exact apart rest returns cs_eq
    cases n with
    | zero => simp [walk, offsetInLines]
    | succ n =>
      have breaks : breaksLine c cs.head? = true := by
        simp only [breaksLine, Bool.or_eq_true, Bool.and_eq_true, beq_iff_eq, bne_iff_ne] at ends ⊢
        exact ends.imp_right fun returns => ⟨returns, lone returns⟩
      have next : q = Position.advance ⟨first + 1, 1 + 0, at0 + 1⟩ cs n := by
        rw [walk, Position.advance_cons, Position.step, breaks]
        rfl
      have few := insideBreak_toNat_le cs n
      rw [offsetInLines_behind next, ih (Nat.le_of_succ_le_succ inside) next,
        insideBreak_cons lone, Option.map_some]
      congr 1
      omega
  | case4 width c cs _ goes ih =>
    simp only [Bool.or_eq_true, beq_iff_eq, not_or] at goes
    cases n with
    | zero =>
      rw [walk, Position.advance_zero, insideBreak_zero]
      exact offsetInLines_lineWidths_zero (Nat.le_succ _)
    | succ n =>
      have next : q = Position.advance ⟨first, column + (width + 1), at0 + 1⟩ cs n := by
        rw [walk, Position.advance_cons]
        simp [Position.step, breaksLine, goes, Nat.add_assoc]
      have few := insideBreak_toNat_le cs n
      rw [ih (Nat.le_of_succ_le_succ inside) next,
        insideBreak_cons fun returns => absurd returns goes.2]
      congr 1
      omega

/-! ## Tokens of a text -/

/-- A caret behind `o` characters touches a token at both of its ends, too. -/
def Token.touchedAt (t : Token) (o : Nat) : Bool :=
  t.span.start.offset ≤ o && o ≤ t.span.stop.offset

/-- The number of characters of a token of the text before the caret. Between the characters of
one line break inside the token the first does not count. -/
def Token.charsBefore (text : List Char) (t : Token) (o : Nat) : Nat :=
  let between := t.span.start.offset < o && o < t.span.stop.offset && insideBreak text o
  o - t.span.start.offset - between.toNat

/-- Inside a stretch, line breaks are those of the text. -/
theorem insideBreak_cut {s : Span} (inside : s.stop.offset ≤ text.length)
    (behind : s.start.offset ≤ o) (before : o ≤ s.stop.offset) :
    insideBreak (cut text s) (o - s.start.offset) =
      (decide (s.start.offset < o) && decide (o < s.stop.offset) && insideBreak text o) := by
  rcases Nat.eq_or_lt_of_le behind with atStart | later
  · simp [← atStart]
  rcases Nat.eq_or_lt_of_le before with atStop | earlier
  · have all : o - s.start.offset = (cut text s).length := by
      simp only [cut, Span.length, List.length_take, List.length_drop]
      omega
    rw [all, insideBreak_length]
    simp [atStop]
  · have within : o - s.start.offset < s.length := by
      unfold Span.length
      omega
    have same : insideBreak (cut text s) (o - s.start.offset) =
        insideBreak (text.drop s.start.offset) (o - s.start.offset) := by
      have one : o - s.start.offset - 1 < s.length := by omega
      simp only [insideBreak, cut, List.getElem?_take, if_pos within, if_pos one]
    rw [same, insideBreak_drop (by omega), Nat.add_sub_cancel' behind]
    simp [later, earlier]

/-- Positions inside a stretch are those of a walk over its characters. -/
theorem positionAt_eq_advance_cut {s : Span} (span : s.IsIn text)
    (some : s.start.offset < s.stop.offset)
    (apart : insideBreak text s.stop.offset = false) (behind : s.start.offset ≤ o)
    (before : o ≤ s.stop.offset) :
    positionAt text o = s.start.advance (cut text s) (o - s.start.offset) := by
  have last := span.inside
  have stop_apart : insideBreak (text.drop s.start.offset) s.length = false := by
    rw [Span.length, insideBreak_drop (Nat.sub_pos_of_lt some),
      Nat.add_sub_cancel' span.ordered, apart]
  have within : o - s.start.offset ≤ s.length := Nat.sub_le_sub_right before _
  calc positionAt text o
    _ = positionAt text (s.start.offset + (o - s.start.offset)) := by
      rw [Nat.add_sub_cancel' behind]
    _ = (positionAt text s.start.offset).advance (text.drop s.start.offset)
          (o - s.start.offset) := (advance_positionAt (by omega)).symm
    _ = s.start.advance (text.drop s.start.offset) (o - s.start.offset) := by rw [← span.start]
    _ = s.start.advance (cut text s) (o - s.start.offset) := by
      rw [cut, Position.advance_take within stop_apart]

/-- A caret in a text is found in every token that it touches, and in no other. -/
theorem Token.offsetAt?_positionAt (piece : (Piece.token t).IsCutFrom text)
    (apart : insideBreak text t.span.stop.offset = false) (inside : o ≤ text.length) :
    t.offsetAt? (positionAt text o).line (positionAt text o).column =
      if t.touchedAt o then some (t.charsBefore text o) else none := by
  obtain ⟨span, chars⟩ : t.span.IsIn text ∧ t.text.toList = cut text t.span :=
    ⟨piece.span.toIsIn, piece.chars⟩
  have ordered := span.ordered
  have start_inside := Nat.le_trans ordered span.inside
  have touches : t.span.touches (positionAt text o).line (positionAt text o).column =
      t.touchedAt o := span.touches_positionAt inside
  unfold offsetAt?
  by_cases empty : t.span.isEmpty = true
  case pos =>
    have ends : t.span.start.offset = t.span.stop.offset := by simpa [Span.isEmpty] using empty
    rw [if_pos empty, span.start]
    refine ite_congr (propext ?_) (fun touched => ?_) fun _ => rfl
    · rw [positionAt_inj start_inside inside]
      simp only [touchedAt, Bool.and_eq_true, decide_eq_true_eq]
      omega
    · have none : o - t.span.start.offset = 0 := by
        simp only [touchedAt, Bool.and_eq_true, decide_eq_true_eq] at touched
        omega
      rw [charsBefore, none, Nat.zero_sub]
  case neg =>
    have some : t.span.start.offset < t.span.stop.offset := by
      refine Nat.lt_of_le_of_ne ordered fun same => empty ?_
      simpa [Span.isEmpty] using same
    rw [if_neg empty, touches]
    refine ite_congr rfl (fun touched => ?_) fun _ => rfl
    simp only [touchedAt, Bool.and_eq_true, decide_eq_true_eq] at touched
    obtain ⟨behind, before⟩ := touched
    have walk : positionAt text o = Position.advance ⟨t.span.start.line, t.span.start.column + 0,
        t.span.start.offset⟩ (cut text t.span) (o - t.span.start.offset) :=
      positionAt_eq_advance_cut span some apart behind before
    have enough : o - t.span.start.offset ≤ (cut text t.span).length := by
      rw [length_cut span.inside]
      exact Nat.sub_le_sub_right before _
    rw [chars, offsetInLines_lineWidths enough walk, insideBreak_cut span.inside behind before,
      Nat.zero_add]
    rfl

end XuleLang
