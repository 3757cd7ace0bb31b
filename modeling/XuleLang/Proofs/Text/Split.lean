import XuleLang.Text.Split

/-!
Splitting and joining.

A separator divides the stretches of a text into those before it and those behind it
(`splitWhere_append_cons`). So stretches that hold no separator are what their join falls into.
-/

namespace XuleLang

variable {separates : Char → Bool} {separator : Char} {part : List Char}
  {parts : List (List Char)}

theorem splitWhere_ne_nil (separates : Char → Bool) (cs : List Char) :
    splitWhere separates cs ≠ [] := by
  fun_induction splitWhere separates cs <;> exact nofun

/-- What is before a separator and what is behind it are split apart from each other. -/
theorem splitWhere_append_cons (front behind : List Char) (divides : separates separator = true) :
    splitWhere separates (front ++ separator :: behind) =
      splitWhere separates front ++ splitWhere separates behind := by
  induction front with
  | nil => simp [splitWhere, divides]
  | cons c front ih =>
    rw [List.cons_append, splitWhere, splitWhere, ih]
    split
    case isTrue => rfl
    case isFalse =>
      cases first : splitWhere separates front with
      | nil => exact absurd first (splitWhere_ne_nil separates front)
      | cons part parts => rfl

/-- A text without separators is one stretch. -/
theorem splitWhere_eq_singleton (apart : ∀ c ∈ part, separates c = false) :
    splitWhere separates part = [part] := by
  induction part with
  | nil => rfl
  | cons c cs ih =>
    obtain ⟨here, others⟩ := List.forall_mem_cons.mp apart
    simp [splitWhere, here, ih others]

/-- Stretches that were joined are found again. -/
theorem splitWhere_joinWith (divides : separates separator = true) (some : parts ≠ [])
    (apart : ∀ part ∈ parts, ∀ c ∈ part, separates c = false) :
    splitWhere separates (joinWith separator parts) = parts := by
  induction parts with
  | nil => exact absurd rfl some
  | cons part parts ih =>
    obtain ⟨here, others⟩ := List.forall_mem_cons.mp apart
    cases parts with
    | nil => exact splitWhere_eq_singleton here
    | cons next parts =>
      rw [joinWith, splitWhere_append_cons _ _ divides, splitWhere_eq_singleton here,
        ih nofun others, List.singleton_append]
      exact nofun

theorem joinWith_eq_intercalate (separator : Char) (parts : List (List Char)) :
    joinWith separator parts = [separator].intercalate parts := by
  induction parts with
  | nil => rfl
  | cons part parts ih =>
    cases parts with
    | nil => simp [joinWith, List.intercalate]
    | cons next parts => simp [joinWith, ih, List.intercalate]

end XuleLang
