import XuleLang.Proofs.Text.Position
import XuleLang.Text.Editor

/-!
Places of an editor in a text.

A place of a text lies on a line, which is told by the number of line breaks before the place, and
begins behind the last of them. Both walks over a text, that of the lexer and that of an editor,
lead to the same line, and count from where it begins: the one characters, the other UTF-16 units.
Looking for the line from the start of the text comes upon the same beginning, so that an editor's
place leads back to the offset that it was made from (`offsetAt_editorPositionAt`). Only between the
two characters of one line break it does not, since no place in a line is behind its end.
-/

namespace XuleLang

variable {cs : List Char} {m n k : Nat}

/-! ## Lines -/

/-- Whether the character behind an offset ends its line. -/
def breaksAt (cs : List Char) (n : Nat) : Bool := (cs[n]?).any (breaksLine · cs[n + 1]?)

/-- The number of line breaks that end at an offset or before it. -/
def breaksBefore (cs : List Char) (n : Nat) : Nat := (List.range n).countP (breaksAt cs)

/-- Where the line begins that an offset lies on: behind the last line break before it. -/
def lineStart (cs : List Char) : Nat → Nat
  | 0 => 0
  | n + 1 => if breaksAt cs n then n + 1 else lineStart cs n

/-- The characters of a line before an offset. -/
def lineBefore (cs : List Char) (n : Nat) : List Char := (cs.take n).drop (lineStart cs n)

/-- The number of UTF-16 units of some characters. -/
def utf16Length : List Char → Nat
  | [] => 0
  | c :: cs => utf16Width c + utf16Length cs

theorem utf16Length_append (cs ds : List Char) :
    utf16Length (cs ++ ds) = utf16Length cs + utf16Length ds := by
  induction cs with
  | nil => exact (Nat.zero_add _).symm
  | cons c cs ih => rw [List.cons_append, utf16Length, utf16Length, ih, Nat.add_assoc]

@[simp] theorem breaksBefore_zero : breaksBefore cs 0 = 0 := rfl

theorem breaksBefore_succ :
    breaksBefore cs (n + 1) = breaksBefore cs n + if breaksAt cs n then 1 else 0 := by
  rw [breaksBefore, List.range_succ, List.countP_append, List.countP_singleton]
  rfl

theorem lineStart_le (cs : List Char) (n : Nat) : lineStart cs n ≤ n := by
  fun_induction lineStart cs n with
  | case1 => exact Nat.le_refl 0
  | case2 n breaks => exact Nat.le_refl (n + 1)
  | case3 n on ih => exact Nat.le_succ_of_le ih

/-- No line ends between its beginning and a place on it. -/
theorem not_breaksAt (behind : lineStart cs n ≤ k) (before : k < n) : ¬breaksAt cs k := by
  fun_induction lineStart cs n with
  | case1 => cases before
  | case2 n breaks => omega
  | case3 n on ih =>
    rcases Nat.lt_succ_iff_lt_or_eq.mp before with earlier | rfl
    · exact ih behind earlier
    · exact on

theorem breaksAt_of_lt (inside : n < cs.length) :
    breaksAt cs n = breaksLine cs[n] cs[n + 1]? := by
  rw [breaksAt, List.getElem?_eq_getElem inside, Option.any_some]

theorem lineBefore_succ_of_breaksAt (breaks : breaksAt cs n) : lineBefore cs (n + 1) = [] := by
  rw [lineBefore, lineStart, if_pos breaks, List.drop_eq_nil_iff]
  exact List.length_take_le ..

theorem lineBefore_succ (inside : n < cs.length) (on : ¬breaksAt cs n) :
    lineBefore cs (n + 1) = lineBefore cs n ++ [cs[n]] := by
  have reached : lineStart cs n ≤ (cs.take n).length := by
    rw [List.length_take_of_le (Nat.le_of_lt inside)]
    exact lineStart_le cs n
  rw [lineBefore, lineStart, if_neg on, List.take_succ_eq_append_getElem inside,
    List.drop_append_of_le_length reached, lineBefore]

theorem lineBefore_length (inside : n ≤ cs.length) :
    (lineBefore cs n).length = n - lineStart cs n := by
  rw [lineBefore, List.length_drop, List.length_take_of_le inside]

/-- What stands on a line before a place is no part of a line break, unless the place is inside of
one. -/
theorem lineBefore_apart (apart : insideBreak cs n = false) :
    ∀ c ∈ lineBefore cs n, c ≠ '\n' ∧ c ≠ '\r' := by
  intro c member
  obtain ⟨i, here⟩ := List.mem_iff_getElem?.mp member
  rw [lineBefore, List.getElem?_drop, List.getElem?_take] at here
  split at here
  case isFalse => cases here
  case isTrue before =>
    have on := not_breaksAt (Nat.le_add_right _ i) before
    rw [breaksAt, here, Option.any_some] at on
    constructor
    · rintro rfl
      exact on rfl
    · rintro rfl
      have next : cs[lineStart cs n + i + 1]? = some '\n' := by
        simpa [breaksLine] using on
      -- The line feed is before the place, and ends the line there, or right behind it.
      rcases Nat.lt_or_eq_of_le (Nat.succ_le_of_lt before) with earlier | last
      · refine not_breaksAt (Nat.le_add_right_of_le (Nat.le_add_right _ i)) earlier ?_
        rw [breaksAt, next, Option.any_some, breaksLine, beq_self_eq_true, Bool.true_or]
      · rw [← last] at apart
        simp [insideBreak, here, next] at apart

/-! ## Walks -/

theorem positionAt_eq (inside : n ≤ cs.length) :
    positionAt cs n = ⟨breaksBefore cs n + 1, n - lineStart cs n + 1, n⟩ := by
  induction n with
  | zero => exact positionAt_zero
  | succ n ih =>
    have reached := lineStart_le cs n
    rw [positionAt_succ inside, ih (Nat.le_of_lt inside), Position.step, breaksBefore_succ,
      lineStart, ← breaksAt_of_lt inside]
    split
    · simp
    · rw [Nat.sub_add_comm reached]

namespace EditorPosition

variable {p q r : EditorPosition} {c : Char} {next : Option Char}

@[simp] theorem advance_zero : p.advance cs 0 = p := by cases cs <;> rfl

/-- A walk goes on by one more step. -/
theorem advance_succ (inside : n < cs.length) :
    p.advance cs (n + 1) = (p.advance cs n).step cs[n] cs[n + 1]? := by
  induction n generalizing p cs with
  | zero =>
    cases cs with
    | nil => cases inside
    | cons c cs => simp [advance, List.head?_eq_getElem?]
  | succ n ih =>
    cases cs with
    | nil => cases inside
    | cons c cs =>
      rw [advance, ih (Nat.lt_of_succ_lt_succ inside)]
      rfl

/-- Strictly before. -/
def Precedes (p q : EditorPosition) : Prop :=
  p.line < q.line ∨ p.line = q.line ∧ p.character < q.character

theorem Precedes.trans (first : p.Precedes q) (second : q.Precedes r) : p.Precedes r := by
  unfold Precedes at *
  omega

end EditorPosition

theorem utf16Width_pos (c : Char) : 0 < utf16Width c := by
  unfold utf16Width
  split <;> decide

theorem EditorPosition.precedes_step {p : EditorPosition} {c : Char} {next : Option Char} :
    p.Precedes (p.step c next) := by
  unfold step
  split
  · exact .inl (Nat.lt_succ_self _)
  · exact .inr ⟨rfl, Nat.lt_add_of_pos_right (utf16Width_pos c)⟩

theorem editorPositionAt_succ (inside : n < cs.length) :
    editorPositionAt cs (n + 1) = (editorPositionAt cs n).step cs[n] cs[n + 1]? :=
  EditorPosition.advance_succ inside

theorem editorPositionAt_eq (inside : n ≤ cs.length) :
    editorPositionAt cs n = ⟨breaksBefore cs n, utf16Length (lineBefore cs n)⟩ := by
  induction n with
  | zero => exact EditorPosition.advance_zero
  | succ n ih =>
    rw [editorPositionAt_succ inside, ih (Nat.le_of_lt inside), EditorPosition.step,
      breaksBefore_succ, ← breaksAt_of_lt inside]
    split
    case isTrue breaks =>
      rw [lineBefore_succ_of_breaksAt breaks]
      rfl
    case isFalse on =>
      rw [lineBefore_succ inside on, utf16Length_append]
      rfl

/-- Every character leads on to a later place of an editor. -/
theorem editorPositionAt_precedes (before : m < n) (inside : n ≤ cs.length) :
    (editorPositionAt cs m).Precedes (editorPositionAt cs n) := by
  induction n with
  | zero => cases before
  | succ n ih =>
    have last : (editorPositionAt cs n).Precedes (editorPositionAt cs (n + 1)) := by
      rw [editorPositionAt_succ inside]
      exact EditorPosition.precedes_step
    rcases Nat.eq_or_lt_of_le (Nat.le_of_lt_succ before) with rfl | earlier
    · exact last
    · exact (ih earlier (Nat.le_of_lt inside)).trans last

/-! ## The way back -/

/-- One more line is dropped at the next line break. -/
theorem dropLines_one {o : Nat} (on : ∀ k < n, ¬breaksAt cs k) (breaks : breaksAt cs n) :
    dropLines o cs 1 = some (o + (n + 1), cs.drop (n + 1)) := by
  induction cs generalizing n o with
  | nil => simp [breaksAt] at breaks
  | cons c cs ih =>
    have first : breaksAt (c :: cs) 0 = breaksLine c cs.head? := by
      simp [breaksAt, List.head?_eq_getElem?]
    rw [dropLines, ← first]
    cases n with
    | zero =>
      rw [if_pos breaks]
      cases cs <;> rfl
    | succ n =>
      have later (k : Nat) : breaksAt cs k = breaksAt (c :: cs) (k + 1) := by simp [breaksAt]
      rw [if_neg (on 0 (Nat.succ_pos n)), ih (n := n) (fun k less => later k ▸ on (k + 1)
        (Nat.succ_lt_succ less)) (later n ▸ breaks), List.drop_succ_cons]
      congr 2
      omega

/-- Lines are dropped one after the other. -/
theorem dropLines_succ {o start : Nat} {rest : List Char}
    (dropped : dropLines o cs n = some (start, rest)) :
    dropLines o cs (n + 1) = dropLines start rest 1 := by
  induction cs generalizing n o with
  | nil =>
    cases n with
    | zero => cases dropped; rfl
    | succ n => cases dropped
  | cons c cs ih =>
    cases n with
    | zero =>
      cases dropped
      rfl
    | succ n =>
      rw [dropLines] at dropped ⊢
      split at dropped
      case isTrue breaks => rw [if_pos breaks, ih dropped]
      case isFalse on => rw [if_neg on, ih dropped]

/-- The line of a place is found where it begins. -/
theorem dropLines_breaksBefore (inside : n ≤ cs.length) :
    dropLines 0 cs (breaksBefore cs n) = some (lineStart cs n, cs.drop (lineStart cs n)) := by
  induction n with
  | zero => cases cs <;> rfl
  | succ n ih =>
    have found := ih (Nat.le_of_lt inside)
    rw [breaksBefore_succ, lineStart]
    split
    case isFalse => exact found
    case isTrue breaks =>
      have reached := lineStart_le cs n
      have shifted (k : Nat) : breaksAt (cs.drop (lineStart cs n)) k =
          breaksAt cs (lineStart cs n + k) := by
        simp only [breaksAt, List.getElem?_drop, Nat.add_assoc]
      have last : lineStart cs n + (n - lineStart cs n) = n := by omega
      have behind : lineStart cs n + (n - lineStart cs n + 1) = n + 1 := by omega
      rw [dropLines_succ found, dropLines_one (n := n - lineStart cs n), List.drop_drop, behind]
      · intro k less
        rw [shifted]
        exact not_breaksAt (Nat.le_add_right _ k) (by omega)
      · rwa [shifted, last]

/-- Characters of a line fit into their UTF-16 units, and no more do. -/
theorem fittingLength_utf16Length {line : List Char} (apart : ∀ c ∈ line, c ≠ '\n' ∧ c ≠ '\r')
    (rest : List Char) : fittingLength (line ++ rest) (utf16Length line) = line.length := by
  induction line with
  | nil =>
    cases rest with
    | nil => rfl
    | cons c cs => simp [fittingLength, utf16Length, utf16Width_pos c]
  | cons c line ih =>
    obtain ⟨first, others⟩ := List.forall_mem_cons.mp apart
    rw [List.cons_append, fittingLength, utf16Length, Nat.add_sub_cancel_left, ih others]
    simp [first.1, first.2]

theorem fittingLength_le (cs : List Char) (units : Nat) : fittingLength cs units ≤ cs.length := by
  fun_induction fittingLength cs units with
  | case1 => exact Nat.le_refl 0
  | case2 => exact Nat.zero_le _
  | case3 units c cs room ih => exact Nat.succ_le_succ ih

/-- Nothing is lost of what lies behind some line breaks. -/
theorem length_of_dropLines {o start : Nat} {rest : List Char}
    (dropped : dropLines o cs n = some (start, rest)) : start + rest.length = o + cs.length := by
  fun_induction dropLines o cs n with
  | case1 o cs =>
    cases dropped
    rfl
  | case2 => cases dropped
  | case3 o n c cs ih => rw [ih dropped, List.length_cons, Nat.add_assoc, Nat.add_comm 1]

/-- Every place of an editor stands for one in the text. -/
theorem offsetAt_le (cs : List Char) (p : EditorPosition) : offsetAt cs p ≤ cs.length := by
  unfold offsetAt
  split
  case h_1 start rest dropped =>
    have whole := length_of_dropLines dropped
    have fits := fittingLength_le rest p.character
    omega
  case h_2 => exact Nat.le_refl _

/-- One more character is behind one more line break if it ends its line. -/
theorem lineFrom_succ (line : Nat) (inside : n < cs.length) :
    lineFrom line cs (n + 1) = lineFrom line cs n + if breaksAt cs n then 1 else 0 := by
  induction cs generalizing n line with
  | nil => cases inside
  | cons c cs ih =>
    have first : breaksAt (c :: cs) 0 = breaksLine c cs.head? := by
      simp [breaksAt, List.head?_eq_getElem?]
    cases n with
    | zero =>
      have reached (line : Nat) : lineFrom line cs 0 = line := by cases cs <;> rfl
      rw [lineFrom, lineFrom, reached, first]
      split <;> rfl
    | succ n =>
      have later : breaksAt (c :: cs) (n + 1) = breaksAt cs n := by simp [breaksAt]
      rw [lineFrom, ih _ (Nat.lt_of_succ_lt_succ inside), later, lineFrom]

theorem lineAt_eq (inside : n ≤ cs.length) : lineAt cs n = breaksBefore cs n := by
  induction n with
  | zero => cases cs <;> rfl
  | succ n ih =>
    rw [breaksBefore_succ, ← ih (Nat.le_of_lt inside)]
    exact lineFrom_succ 0 inside

/-- Where the line of a place begins is found by its number. -/
theorem lineOffset_lineAt (inside : n ≤ cs.length) :
    lineOffset cs (lineAt cs n) = lineStart cs n := by
  rw [lineAt_eq inside, lineOffset, dropLines_breaksBefore inside]
  rfl

/-- By lines or by walking, an editor's place is the same position. -/
theorem positionOfEditor_eq (cs : List Char) (p : EditorPosition) :
    positionOfEditor cs p = positionAt cs (offsetAt cs p) := by
  have inside := offsetAt_le cs p
  rw [positionAt_eq inside, positionOfEditor, lineOffset_lineAt inside, lineAt_eq inside]

/-- A place of an editor leads back to its offset. -/
theorem offsetAt_editorPositionAt (inside : n ≤ cs.length) (apart : insideBreak cs n = false) :
    offsetAt cs (editorPositionAt cs n) = n := by
  have reached := lineStart_le cs n
  have line : cs.drop (lineStart cs n) = lineBefore cs n ++ cs.drop n := by
    have rest : cs.drop n = (cs.drop (lineStart cs n)).drop (n - lineStart cs n) := by
      rw [List.drop_drop, Nat.add_sub_cancel' reached]
    rw [lineBefore, List.drop_take, rest, List.take_append_drop]
  rw [editorPositionAt_eq inside, offsetAt, dropLines_breaksBefore inside]
  dsimp only
  rw [line, fittingLength_utf16Length (lineBefore_apart apart), lineBefore_length inside,
    Nat.add_sub_cancel' reached]

end XuleLang
