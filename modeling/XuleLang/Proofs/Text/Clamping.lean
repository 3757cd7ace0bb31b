import Mathlib.Order.Bounds.Defs
import XuleLang.Proofs.Text.Editor

/-!
Places of an editor that need not exist.

A text has a line for each number up to that of its line breaks. On a line stand the places from its
beginning up to its line break, and they lie the further in UTF-16 units the more characters are
before them. Walking along a line stops at the last of them that is near enough
(`fittingLength_isGreatest`), which is how a place behind the end of its line, or in the middle of a
character, is rounded down. A line in plain characters need not be walked along, since there the
number of characters is the number of units (`plainFittingLength_eq`).
-/

namespace XuleLang

variable {cs : List Char} {line m n : Nat}

/-! ## The lines of a text -/

theorem breaksBefore_mono (ordered : m ≤ n) : breaksBefore cs m ≤ breaksBefore cs n := by
  induction ordered with
  | refl => exact Nat.le_refl _
  | step _ ih =>
    rw [breaksBefore_succ]
    exact Nat.le_add_right_of_le ih

theorem breaksBefore_cons (c : Char) (cs : List Char) (n : Nat) :
    breaksBefore (c :: cs) (n + 1) =
      (if breaksLine c cs.head? then 1 else 0) + breaksBefore cs n := by
  have first : breaksAt (c :: cs) 0 = breaksLine c cs.head? := by
    simp [breaksAt, List.head?_eq_getElem?]
  have later : breaksAt (c :: cs) ∘ Nat.succ = breaksAt cs := by
    funext k
    simp [breaksAt]
  rw [breaksBefore, List.range_succ_eq_map, List.countP_cons, List.countP_map, later, first,
    Nat.add_comm, breaksBefore]

/-- A line is found if there are as many line breaks. -/
theorem isSome_dropLines (o : Nat) (cs : List Char) (line : Nat) :
    (dropLines o cs line).isSome = decide (line ≤ breaksBefore cs cs.length) := by
  fun_induction dropLines o cs line with
  | case1 => simp
  | case2 => simp [breaksBefore]
  | case3 o n c cs ih =>
    rw [ih, List.length_cons, breaksBefore_cons, decide_eq_decide]
    split <;> omega

/-- A line that is found has a place. -/
theorem exists_breaksBefore_eq (enough : line ≤ breaksBefore cs n) :
    ∃ k ≤ n, breaksBefore cs k = line := by
  induction n with
  | zero => exact ⟨0, Nat.le_refl 0, (Nat.le_zero.mp enough).symm⟩
  | succ n ih =>
    by_cases earlier : line ≤ breaksBefore cs n
    · obtain ⟨k, inside, same⟩ := ih earlier
      exact ⟨k, Nat.le_succ_of_le inside, same⟩
    · refine ⟨n + 1, Nat.le_refl _, ?_⟩
      rw [breaksBefore_succ] at enough ⊢
      split at enough <;> split <;> omega

/-- An offset stands on a line: behind as many line breaks, and not inside of one. -/
structure OnLine (cs : List Char) (line n : Nat) : Prop where
  inside : n ≤ cs.length
  number : breaksBefore cs n = line
  apart : insideBreak cs n = false

/-- A line begins where no line break goes on. -/
theorem insideBreak_lineStart (cs : List Char) (n : Nat) :
    insideBreak cs (lineStart cs n) = false := by
  fun_induction lineStart cs n with
  | case1 => exact insideBreak_zero
  | case2 n breaks =>
    simp only [insideBreak, Nat.add_sub_cancel, Bool.and_eq_false_iff, beq_eq_false_iff_ne]
    refine (Decidable.em (cs[n]? = some '\r')).symm.imp_right fun returns follows => ?_
    simp [breaksAt, returns, follows, breaksLine] at breaks
  | case3 n on ih => exact ih

theorem lineStart_lineStart (cs : List Char) (n : Nat) :
    lineStart cs (lineStart cs n) = lineStart cs n := by
  fun_induction lineStart cs n with
  | case1 => rfl
  | case2 n breaks => rw [lineStart, if_pos breaks]
  | case3 n on ih => exact ih

theorem breaksBefore_lineStart (cs : List Char) (n : Nat) :
    breaksBefore cs (lineStart cs n) = breaksBefore cs n := by
  fun_induction lineStart cs n with
  | case1 => rfl
  | case2 => rfl
  | case3 n on ih => rw [ih, breaksBefore_succ, if_neg on, Nat.add_zero]

/-- The beginning of a line is the first place on it. -/
theorem onLine_lineStart (inside : n ≤ cs.length) :
    OnLine cs (breaksBefore cs n) (lineStart cs n) :=
  { inside := Nat.le_trans (lineStart_le cs n) inside
    number := breaksBefore_lineStart cs n
    apart := insideBreak_lineStart cs n }

theorem lineBefore_lineStart (cs : List Char) (n : Nat) : lineBefore cs (lineStart cs n) = [] := by
  rw [lineBefore, lineStart_lineStart, List.drop_eq_nil_iff]
  exact List.length_take_le ..

/-- Of two places on a line the one behind more characters is behind more UTF-16 units. -/
theorem OnLine.utf16Length_lt (first : OnLine cs line m) (second : OnLine cs line n)
    (before : m < n) : utf16Length (lineBefore cs m) < utf16Length (lineBefore cs n) := by
  have precedes := editorPositionAt_precedes before second.inside
  rw [editorPositionAt_eq first.inside, editorPositionAt_eq second.inside] at precedes
  rcases precedes with other | ⟨-, less⟩
  · exact absurd other (by simp [first.number, second.number])
  · exact less

/-! ## Walking along a line -/

/-- Any other character than those of line breaks has a place behind it on the same line. -/
theorem OnLine.succ (on : OnLine cs line n) (more : n < cs.length) (feeds : cs[n] ≠ '\n')
    (returns : cs[n] ≠ '\r') :
    OnLine cs line (n + 1) ∧ lineBefore cs (n + 1) = lineBefore cs n ++ [cs[n]] := by
  have goesOn : ¬breaksAt cs n := by
    rw [breaksAt_of_lt more]
    simp [breaksLine, feeds, returns]
  refine ⟨{ inside := more, number := ?_, apart := ?_ }, lineBefore_succ more goesOn⟩
  · rw [breaksBefore_succ, if_neg goesOn, on.number, Nat.add_zero]
  · simp [insideBreak, more, returns]

/-- No place on a line is behind its line break. -/
theorem OnLine.le_of_break (on : OnLine cs line n) (other : OnLine cs line m)
    (more : n < cs.length) (ends : cs[n] = '\n' ∨ cs[n] = '\r') : m ≤ n := by
  refine Nat.le_of_not_lt fun behind => ?_
  have same : ∀ k, breaksAt cs k → m ≤ k ∨ k < n := by
    intro k breaks
    refine Decidable.byContradiction fun between => ?_
    have counted : breaksBefore cs (k + 1) = breaksBefore cs k + 1 := by
      rw [breaksBefore_succ, if_pos breaks]
    have upper : breaksBefore cs (k + 1) ≤ breaksBefore cs m := breaksBefore_mono (by omega)
    have lower : breaksBefore cs n ≤ breaksBefore cs k := breaksBefore_mono (by omega)
    have numbers := on.number.trans other.number.symm
    omega
  by_cases follows : cs[n] = '\r' ∧ cs[n + 1]? = some '\n'
  · -- The line break has two characters, and ends with the second of them.
    have second : breaksAt cs (n + 1) := by rw [breaksAt, follows.2]; rfl
    obtain rfl : m = n + 1 := by
      have := same (n + 1) second
      omega
    have apart := other.apart
    simp [insideBreak, more, follows] at apart
  · have breaks : breaksAt cs n := by
      rw [breaksAt_of_lt more]
      rcases ends with feeds | returns
      · simp [breaksLine, feeds]
      · have alone : cs[n + 1]? ≠ some '\n' := fun next => follows ⟨returns, next⟩
        simp [breaksLine, returns, alone]
    have := same n breaks
    omega

/-- Walking along a line leads to the last place on it that is not too far away. -/
theorem fittingLength_isGreatest (on : OnLine cs line n) (units : Nat) :
    IsGreatest {m | OnLine cs line m ∧
        utf16Length (lineBefore cs m) ≤ utf16Length (lineBefore cs n) + units}
      (n + fittingLength (cs.drop n) units) := by
  induction ahead : cs.drop n generalizing n units with
  | nil =>
    have ended : cs.length ≤ n := List.drop_eq_nil_iff.mp ahead
    exact ⟨⟨on, Nat.le_add_right _ _⟩, fun m there => Nat.le_trans there.1.inside ended⟩
  | cons c rest ih =>
    have more : n < cs.length := by
      refine Nat.lt_of_not_le fun ended => ?_
      rw [List.drop_eq_nil_of_le ended] at ahead
      cases ahead
    obtain ⟨here, behind⟩ := List.cons.inj ((List.drop_eq_getElem_cons more).symm.trans ahead)
    rw [fittingLength]
    split
    case isTrue stops =>
      refine ⟨⟨on, Nat.le_add_right _ _⟩, fun m reached => ?_⟩
      obtain ⟨there, near⟩ := reached
      simp only [Bool.or_eq_true, beq_iff_eq, decide_eq_true_eq] at stops
      by_cases ends : cs[n] = '\n' ∨ cs[n] = '\r'
      · exact on.le_of_break there more ends
      · -- The next character is too wide, and every place behind it is at least as far away.
        obtain ⟨feeds, returns⟩ := not_or.mp ends
        obtain ⟨next, longer⟩ := on.succ more feeds returns
        have wide : units < utf16Width c := stops.resolve_left (here ▸ ends)
        refine Nat.le_of_not_lt fun later => ?_
        have far : utf16Length (lineBefore cs (n + 1)) ≤ utf16Length (lineBefore cs m) := by
          rcases Nat.eq_or_lt_of_le (Nat.succ_le_of_lt later) with rfl | beyond
          · exact Nat.le_refl _
          · exact Nat.le_of_lt (next.utf16Length_lt there beyond)
        rw [longer, utf16Length_append, here, utf16Length, utf16Length] at far
        omega
    case isFalse goes =>
      simp only [Bool.or_eq_true, beq_iff_eq, decide_eq_true_eq, not_or, Nat.not_lt] at goes
      obtain ⟨⟨feeds, returns⟩, fits⟩ := goes
      obtain ⟨next, longer⟩ := on.succ more (here ▸ feeds) (here ▸ returns)
      have further := ih next (units - utf16Width c) behind
      rw [longer, utf16Length_append, here, utf16Length, utf16Length, Nat.add_zero, Nat.add_assoc,
        Nat.add_sub_cancel' fits] at further
      rwa [Nat.add_comm (fittingLength _ _), ← Nat.add_assoc]

/-! ## From places of an editor to offsets -/

/-- A line that does not exist stands for the end of the text. -/
theorem offsetAt_of_missing {p : EditorPosition} (missing : breaksBefore cs cs.length < p.line) :
    offsetAt cs p = cs.length := by
  have nothing : dropLines 0 cs p.line = none := by
    rw [← Option.not_isSome_iff_eq_none, isSome_dropLines, decide_eq_true_eq]
    exact Nat.not_le_of_lt missing
  rw [offsetAt, nothing]

/-- A place stands for the last one on its line that is not behind it. -/
theorem offsetAt_isGreatest {p : EditorPosition} (present : p.line ≤ breaksBefore cs cs.length) :
    IsGreatest {n | OnLine cs p.line n ∧ utf16Length (lineBefore cs n) ≤ p.character}
      (offsetAt cs p) := by
  obtain ⟨n, inside, number⟩ := exists_breaksBefore_eq present
  have walked := fittingLength_isGreatest (onLine_lineStart inside) p.character
  rw [lineBefore_lineStart, utf16Length, Nat.zero_add, number] at walked
  rw [offsetAt, ← number, dropLines_breaksBefore inside, number]
  exact walked

/-! ## Plain lines -/

/-- A line is what stands on it and the line break behind that. -/
theorem firstLine_parts (cs : List Char) :
    ∃ content ending, firstLine cs = content ++ ending ∧
      (∀ c ∈ content, c ≠ '\n' ∧ c ≠ '\r') ∧ ∀ c ∈ ending, c = '\n' ∨ c = '\r' := by
  fun_induction firstLine cs with
  | case1 => exact ⟨[], [], rfl, nofun, nofun⟩
  | case2 c cs breaks =>
    refine ⟨[], [c], rfl, nofun, fun d member => ?_⟩
    obtain rfl := List.mem_singleton.mp member
    simp only [breaksLine, Bool.or_eq_true, Bool.and_eq_true, beq_iff_eq] at breaks
    exact breaks.imp_right And.left
  | case3 c cs goes ih =>
    obtain ⟨content, ending, parts, apart, only⟩ := ih
    by_cases returns : c = '\r'
    · -- A line feed follows, and the line has ended with it.
      have follows : cs.head? = some '\n' := by simpa [breaksLine, returns] using goes
      obtain ⟨cs, rfl⟩ := List.head?_eq_some_iff.mp follows
      refine ⟨[], [c, '\n'], rfl, nofun, ?_⟩
      simp [returns]
    · have feeds : c ≠ '\n' := by
        rintro rfl
        exact goes rfl
      exact ⟨c :: content, ending, congrArg (c :: ·) parts,
        List.forall_mem_cons.mpr ⟨⟨feeds, returns⟩, apart⟩, only⟩

theorem trimBreak_append {content ending : List Char} (apart : ∀ c ∈ content, c ≠ '\n' ∧ c ≠ '\r')
    (only : ∀ c ∈ ending, c = '\n' ∨ c = '\r') : trimBreak (content ++ ending) = content := by
  have gone : ∀ c ∈ ending.reverse, (c == '\n' || c == '\r') = true := by
    simpa using only
  rw [trimBreak, List.reverse_append, List.dropWhile_append_of_pos gone]
  cases back : content.reverse with
  | nil => exact (List.reverse_eq_nil_iff.mp back).symm
  | cons c cs =>
    have last := apart c (List.mem_reverse.mp (back ▸ List.mem_cons_self))
    rw [List.dropWhile_cons_of_neg (by simpa using last), ← back, List.reverse_reverse]

/-- As many plain characters fit as there are units. -/
theorem fittingLength_plain {content ending : List Char}
    (apart : ∀ c ∈ content, c ≠ '\n' ∧ c ≠ '\r') (plain : ∀ c ∈ content, c.toNat < 128)
    (only : ∀ c ∈ ending, c = '\n' ∨ c = '\r') (units : Nat) :
    fittingLength (content ++ ending) units = min units content.length := by
  induction content generalizing units with
  | nil =>
    cases ending with
    | nil => simp [fittingLength]
    | cons c ending => simp [fittingLength, only c List.mem_cons_self]
  | cons c content ih =>
    obtain ⟨⟨feeds, returns⟩, apart⟩ := List.forall_mem_cons.mp apart
    obtain ⟨narrow, plain⟩ := List.forall_mem_cons.mp plain
    have width : utf16Width c = 1 := if_pos (Nat.lt_trans narrow (by decide))
    rw [List.cons_append, fittingLength, width, ih apart plain]
    cases units with
    | zero => simp
    | succ units =>
      rw [if_neg (by simp [feeds, returns]), Nat.add_sub_cancel, List.length_cons,
        Nat.add_min_add_right]

/-- Measuring a plain line gives what walking along it gives. -/
theorem plainFittingLength_eq (cs : List Char) (plain : isPlainLine (firstLine cs)) (units : Nat) :
    plainFittingLength (firstLine cs) units = fittingLength (firstLine cs) units := by
  obtain ⟨content, ending, parts, apart, only⟩ := firstLine_parts cs
  rw [isPlainLine, parts, List.all_append, Bool.and_eq_true, List.all_eq_true] at plain
  have narrow : ∀ c ∈ content, c.toNat < 128 := fun c member =>
    of_decide_eq_true (plain.1 c member)
  rw [plainFittingLength, parts, trimBreak_append apart only,
    fittingLength_plain apart narrow only]

/-- Walking along a line does not leave it. -/
theorem fittingLength_firstLine (cs : List Char) (units : Nat) :
    fittingLength (firstLine cs) units = fittingLength cs units := by
  fun_induction firstLine cs generalizing units with
  | case1 => rfl
  | case2 c cs breaks =>
    have ends : c = '\n' ∨ c = '\r' := by
      simp only [breaksLine, Bool.or_eq_true, Bool.and_eq_true, beq_iff_eq] at breaks
      exact breaks.imp_right And.left
    simp [fittingLength, ends]
  | case3 c cs goes ih => rw [fittingLength, fittingLength, ih]

/-- In what pieces a text lies is of no account. -/
theorem offsetInPieces_eq (inOnePiece : Nat → Bool) (cs : List Char) (p : EditorPosition) :
    offsetInPieces inOnePiece cs p = offsetAt cs p := by
  unfold offsetInPieces offsetAt
  cases dropLines 0 cs p.line with
  | none => rfl
  | some found =>
    dsimp only
    congr 1
    split
    case isTrue measured =>
      have plain := (Bool.and_eq_true _ _ ▸ measured).2
      rw [plainFittingLength_eq found.2 plain, fittingLength_firstLine]
    case isFalse => exact fittingLength_firstLine found.2 p.character

end XuleLang
