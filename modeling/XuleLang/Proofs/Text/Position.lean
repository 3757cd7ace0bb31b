import XuleLang.Text.Position

/-!
Walks over a text.

Two walks one after the other are one walk (`Position.advance_add`), so that a reader that counts
lines as it goes stands where counting from the start of the text leads: `positionAt` of the
number of characters it has read. Of two places of a text the one with the smaller offset has the
smaller line, or the smaller column of one line.
-/

namespace XuleLang

variable {cs : List Char} {m n : Nat}

namespace Position

variable {p : Position} {c : Char} {next : Option Char}

@[simp] theorem advance_zero : p.advance cs 0 = p := by cases cs <;> rfl

@[simp] theorem advance_nil : p.advance [] n = p := by cases n <;> rfl

@[simp] theorem advance_cons : p.advance (c :: cs) (n + 1) = (p.step c cs.head?).advance cs n := rfl

@[simp] theorem offset_step : (p.step c next).offset = p.offset + 1 := by
  unfold step
  split <;> rfl

/-- A walk goes on where another one ended. -/
theorem advance_add : p.advance cs (m + n) = (p.advance cs m).advance (cs.drop m) n := by
  induction m generalizing p cs with
  | zero => simp
  | succ m ih =>
    cases cs with
    | nil => simp
    | cons c cs => rw [Nat.add_right_comm, advance_cons, ih, advance_cons, List.drop_succ_cons]

/-- A walk counts the characters that it passes. -/
theorem offset_advance (inside : n ≤ cs.length) : (p.advance cs n).offset = p.offset + n := by
  induction n generalizing p cs with
  | zero => simp
  | succ n ih =>
    cases cs with
    | nil => cases inside
    | cons c cs => rw [advance_cons, ih (Nat.le_of_succ_le_succ inside), offset_step]; omega

end Position

/-- Inside a text the place after some characters is where a walk over them ends. -/
theorem positionAt_eq_advance (inside : n ≤ cs.length) :
    positionAt cs n = Position.start.advance cs n := by
  have counted : (Position.start.advance cs n).offset = n := by
    rw [Position.offset_advance inside, Position.start, Nat.zero_add]
  calc positionAt cs n
    _ = { Position.start.advance cs n with offset := n } := rfl
    _ = { Position.start.advance cs n with offset := (Position.start.advance cs n).offset } := by
      rw [counted]
    _ = Position.start.advance cs n := rfl

@[simp] theorem positionAt_zero : positionAt cs 0 = .start := by simp [positionAt, Position.start]

@[simp] theorem offset_positionAt : (positionAt cs n).offset = n := rfl

/-- A walk from a place of a text ends at a place of it. -/
theorem advance_positionAt (inside : m + n ≤ cs.length) :
    (positionAt cs m).advance (cs.drop m) n = positionAt cs (m + n) := by
  rw [positionAt_eq_advance inside, positionAt_eq_advance (by omega), Position.advance_add]

/-- One character on in a text. -/
theorem positionAt_succ (inside : n < cs.length) :
    positionAt cs (n + 1) = (positionAt cs n).step cs[n] cs[n + 1]? := by
  rw [← advance_positionAt inside, List.drop_eq_getElem_cons inside, Position.advance_cons,
    Position.advance_zero, List.head?_drop]

/-! ## Order -/

namespace Position

/-- Strictly before, by line and column. -/
def Precedes (p q : Position) : Prop :=
  p.line < q.line ∨ p.line = q.line ∧ p.column < q.column

theorem Precedes.trans {p q r : Position} (first : p.Precedes q) (second : q.Precedes r) :
    p.Precedes r := by
  unfold Precedes at *
  omega

theorem precedes_step {p : Position} {c : Char} {next : Option Char} :
    p.Precedes (p.step c next) := by
  unfold step
  split
  · exact .inl (Nat.lt_succ_self _)
  · exact .inr ⟨rfl, Nat.lt_succ_self _⟩

end Position

/-- Every character leads on to a later line or column. -/
theorem positionAt_precedes (before : m < n) (inside : n ≤ cs.length) :
    (positionAt cs m).Precedes (positionAt cs n) := by
  induction n with
  | zero => cases before
  | succ n ih =>
    have last : (positionAt cs n).Precedes (positionAt cs (n + 1)) := by
      rw [positionAt_succ inside]
      exact Position.precedes_step
    rcases Nat.eq_or_lt_of_le (Nat.le_of_lt_succ before) with rfl | earlier
    · exact last
    · exact (ih earlier (Nat.le_of_lt inside)).trans last

theorem positionAt_precedes_iff (first : m ≤ cs.length) (second : n ≤ cs.length) :
    (positionAt cs m).Precedes (positionAt cs n) ↔ m < n := by
  refine ⟨fun precedes => Decidable.byContradiction fun behind => ?_,
    fun before => positionAt_precedes before second⟩
  rcases Nat.eq_or_lt_of_le (Nat.le_of_not_lt behind) with rfl | before
  · unfold Position.Precedes at precedes
    omega
  · have reverse := positionAt_precedes before first
    unfold Position.Precedes at precedes reverse
    omega

/-- Lines and columns of a text are in the order of the offsets. -/
theorem isAtOrBefore_positionAt (first : m ≤ cs.length) (second : n ≤ cs.length) :
    (positionAt cs m).isAtOrBefore (positionAt cs n).line (positionAt cs n).column =
      decide (m ≤ n) := by
  have behind := positionAt_precedes_iff second first
  unfold Position.Precedes at behind
  rw [Bool.eq_iff_iff]
  simp only [Position.isAtOrBefore, Bool.or_eq_true, Bool.and_eq_true, decide_eq_true_eq,
    beq_iff_eq]
  omega

theorem isAtOrAfter_positionAt (first : m ≤ cs.length) (second : n ≤ cs.length) :
    (positionAt cs m).isAtOrAfter (positionAt cs n).line (positionAt cs n).column =
      decide (n ≤ m) := by
  rw [← isAtOrBefore_positionAt second first]
  rfl

/-- No two offsets of a text share a line and column. -/
theorem positionAt_inj (first : m ≤ cs.length) (second : n ≤ cs.length) :
    (positionAt cs m).line = (positionAt cs n).line ∧
      (positionAt cs m).column = (positionAt cs n).column ↔ m = n := by
  have before := positionAt_precedes_iff first second
  have behind := positionAt_precedes_iff second first
  unfold Position.Precedes at before behind
  refine ⟨fun same => by omega, ?_⟩
  rintro rfl
  exact ⟨rfl, rfl⟩

/-- Between the two characters of one line break. -/
def insideBreak (text : List Char) (n : Nat) : Bool :=
  text[n - 1]? == some '\r' && text[n]? == some '\n'

theorem insideBreak_drop (some : 0 < n) : insideBreak (cs.drop m) n = insideBreak cs (m + n) := by
  simp only [insideBreak, List.getElem?_drop]
  rw [Nat.add_sub_assoc some]

@[simp] theorem insideBreak_zero : insideBreak cs 0 = false := by
  cases cs with
  | nil => rfl
  | cons c cs =>
    simp only [insideBreak, Nat.zero_sub, List.getElem?_cons_zero, Option.some_beq_some,
      Bool.and_eq_false_iff, beq_eq_false_iff_ne]
    exact (Decidable.em (c = '\r')).symm.imp_right fun same => by simp [same]

@[simp] theorem insideBreak_length : insideBreak cs cs.length = false := by simp [insideBreak]

/-- What stands behind a stretch that does not end inside a line break is of no account to walks
over it. -/
theorem Position.advance_take {p : Position} (inside : n ≤ m)
    (apart : insideBreak cs m = false) : p.advance (cs.take m) n = p.advance cs n := by
  induction cs generalizing p m n with
  | nil => simp
  | cons c cs ih =>
    cases n with
    | zero => simp
    | succ n =>
      obtain ⟨m, rfl⟩ : ∃ k, m = k + 1 := ⟨m - 1, by omega⟩
      rw [List.take_succ_cons, advance_cons, advance_cons]
      cases m with
      | zero =>
        obtain rfl : n = 0 := by omega
        have lone : breaksLine c none = breaksLine c cs.head? := by
          have alone : c = '\r' → cs.head? ≠ some '\n' := by
            simpa [insideBreak, List.head?_eq_getElem?] using apart
          cases returns : c == '\r' with
          | false => simp only [breaksLine, returns, Bool.false_and]
          | true =>
            simp only [breaksLine, returns, bne_iff_ne.mpr (alone (beq_iff_eq.mp returns))]
            rfl
        simp only [List.take_zero, List.head?_nil, advance_zero, step, lone]
      | succ m =>
        have behind : insideBreak cs (m + 1) = false := by simpa [insideBreak] using apart
        rw [ih (by omega) behind, List.head?_take, if_neg (Nat.succ_ne_zero m)]

/-- A span whose ends are places of a text, the first not behind the second. -/
structure Span.IsIn (s : Span) (cs : List Char) : Prop where
  start : s.start = positionAt cs s.start.offset
  stop : s.stop = positionAt cs s.stop.offset
  ordered : s.start.offset ≤ s.stop.offset
  inside : s.stop.offset ≤ cs.length

/-- A span of a text, neither end of which is between the two characters of one line break. -/
structure Span.IsApartIn (s : Span) (cs : List Char) : Prop extends s.IsIn cs where
  start_apart : insideBreak cs s.start.offset = false
  stop_apart : insideBreak cs s.stop.offset = false

/-- Nothing, at the start of a span. -/
theorem Span.IsApartIn.single_start {s : Span} (span : s.IsApartIn cs) :
    (Span.single s.start).IsApartIn cs :=
  { start := span.start, stop := span.start, ordered := Nat.le_refl _
    inside := Nat.le_trans span.ordered span.inside
    start_apart := span.start_apart, stop_apart := span.start_apart }

/-- A caret in a text touches a span between its two ends. -/
theorem Span.IsIn.touches_positionAt {s : Span} (span : s.IsIn cs) (inside : n ≤ cs.length) :
    s.touches (positionAt cs n).line (positionAt cs n).column =
      (decide (s.start.offset ≤ n) && decide (n ≤ s.stop.offset)) := by
  unfold touches
  rw [span.start, span.stop, isAtOrAfter_positionAt span.inside inside,
    isAtOrBefore_positionAt (Nat.le_trans span.ordered span.inside) inside]
  rfl

/-- The stretch of a text between two offsets. -/
def spanBetween (cs : List Char) (m n : Nat) : Span := ⟨positionAt cs m, positionAt cs n⟩

theorem spanBetween_isIn (ordered : m ≤ n) (inside : n ≤ cs.length) :
    (spanBetween cs m n).IsIn cs :=
  { start := rfl, stop := rfl, ordered := ordered, inside := inside }

theorem spanBetween_isApartIn (ordered : m ≤ n) (inside : n ≤ cs.length)
    (first : insideBreak cs m = false) (second : insideBreak cs n = false) :
    (spanBetween cs m n).IsApartIn cs :=
  { spanBetween_isIn ordered inside with start_apart := first, stop_apart := second }

namespace Located

variable {α : Type} {p : Located α → Bool} {rs : List (Located α)}

/-- Remarks that are in order already keep their order among others. -/
theorem filter_sort (inOrder : (rs.filter p).Pairwise fun a b => a.startOffset ≤ b.startOffset) :
    (sort rs).filter p = rs.filter p := by
  have kept : (rs.filter p).Sublist (sort rs) := by
    refine List.sublist_mergeSort (fun a b c => ?_) (fun a b => ?_) ?_ List.filter_sublist
    · simp only [decide_eq_true_eq]
      exact Nat.le_trans
    · simp only [Bool.or_eq_true, decide_eq_true_eq]
      exact Nat.le_total _ _
    · simpa using inOrder
  have same := kept.filter p
  simp only [List.filter_filter, Bool.and_self] at same
  have many : ((sort rs).filter p).length = (rs.filter p).length :=
    ((List.mergeSort_perm rs _).filter p).length_eq
  exact (same.eq_of_length many.symm).symm

end Located

end XuleLang
