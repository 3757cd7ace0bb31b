import XuleLang.Text.LowerCase
import Mathlib.Data.List.Basic
import Mathlib.Data.List.Flatten

/-!
Lower case, and texts inside of others.

A greedy search for characters in their order finds them whenever they are there: the first one of
them may always be matched as early as possible. What names are made of is in lower case once it
has been put into it.
-/

namespace XuleLang

/-- The greedy search misses nothing. -/
theorem isSubsequence_iff {α : Type} [BEq α] [LawfulBEq α] {needle hay : List α} :
    isSubsequence needle hay = true ↔ needle.Sublist hay := by
  fun_induction isSubsequence needle hay with
  | case1 => simp
  | case2 => simp
  | case3 n ns h hs same ih =>
    rw [ih, beq_iff_eq.mp same, List.cons_sublist_cons]
  | case4 n ns h hs other ih =>
    rw [ih]
    constructor
    · exact fun behind => behind.cons h
    · intro inside
      cases inside with
      | cons _ behind => exact behind
      | cons_cons _ _ => exact absurd (beq_self_eq_true n) other

theorem isSubsequenceOfText_iff {needle hay : List Char} :
    isSubsequenceOfText needle hay = true ↔ (lowerCaseAll needle).Sublist (lowerCaseAll hay) :=
  isSubsequence_iff

/-- Lower case is taken character by character, so that what is left out of a text is left out of
its lower case. -/
theorem lowerCaseAll_sublist {fewer more : List Char} (kept : fewer.Sublist more) :
    (lowerCaseAll fewer).Sublist (lowerCaseAll more) :=
  kept.flatMap lowerCase

/-- **Greedy matching is complete.** A text is found in another if and only if its lower case
occurs in that of the other, character after character, however many characters the lower case of
one has. So every text is found in itself, what is found in a text that is found is found, and
neither more characters in the text that is searched, wherever they stand, nor fewer in the other
one make it be missed. -/
theorem greedy_matching_is_complete :
    (∀ needle hay, isSubsequenceOfText needle hay = true ↔
        (needle.flatMap lowerCase).Sublist (hay.flatMap lowerCase)) ∧
      (∀ text, isSubsequenceOfText text text = true) ∧
      (∀ first second third, isSubsequenceOfText first second = true →
        isSubsequenceOfText second third = true → isSubsequenceOfText first third = true) ∧
      ∀ needle fewer hay more, fewer.Sublist needle → hay.Sublist more →
        isSubsequenceOfText needle hay = true → isSubsequenceOfText fewer more = true := by
  simp only [isSubsequenceOfText_iff]
  refine ⟨fun _ _ => Iff.rfl, fun _ => List.Sublist.refl _,
    fun _ _ _ front back => front.trans back, ?_⟩
  intro needle fewer hay more shorter longer found
  calc (lowerCaseAll fewer).Sublist (lowerCaseAll needle) := lowerCaseAll_sublist shorter
    List.Sublist _ (lowerCaseAll hay) := found
    List.Sublist _ (lowerCaseAll more) := lowerCaseAll_sublist longer

/-- The two characters that `İ` has in lower case are found apart from each other. -/
theorem dotted_capital_is_found :
    isSubsequenceOfText "İD".toList "I-\u0307-d".toList = true ∧
      isSubsequenceOfText "İ".toList "(I-\u0307-d)".toList = true := by
  obtain ⟨-, -, trans, stays⟩ := greedy_matching_is_complete
  have found : isSubsequenceOfText "İD".toList "I-\u0307-d".toList = true :=
    trans _ "I-\u0307d".toList _ (by decide +kernel) (by decide +kernel)
  exact ⟨found, stays _ _ _ _ (by decide +kernel) (by decide +kernel) found⟩

/-- What has been put into lower case stays as it is, if it is written in plain characters. -/
theorem lowerCaseAll_lowerCaseAll {cs : List Char} (plain : ∀ c ∈ cs, c.toNat < 128) :
    lowerCaseAll (lowerCaseAll cs) = lowerCaseAll cs := by
  have lowered : ∀ n < 128, lowerCaseAll (lowerCase (.ofNat n)) = lowerCase (.ofNat n) := by
    decide +kernel
  induction cs with
  | nil => rfl
  | cons c cs ih =>
    obtain ⟨here, others⟩ := List.forall_mem_cons.mp plain
    have first := lowered c.toNat here
    rw [Char.ofNat_toNat] at first
    have split (as bs : List Char) : lowerCaseAll (as ++ bs) = lowerCaseAll as ++ lowerCaseAll bs :=
      List.flatMap_append
    rw [show lowerCaseAll (c :: cs) = lowerCase c ++ lowerCaseAll cs from List.flatMap_cons, split,
      first, ih others]

end XuleLang
