import Mathlib.Data.List.Basic

/-!
The first of each key.

Where several things have one key, the first of them is meant: of bindings with one name, and of
items with one label. They are gathered by going through a list and taking each whose key has not
been taken before. Nothing is taken twice then, what is taken keeps its order, and a search for a
key finds what it would have found in the whole list.
-/

namespace XuleLang

variable {α : Type} {key : α → String}

/-- The first of a key is taken. -/
theorem find?_foldl_distinct (name : String) (items out : List α) :
    (items.foldl (fun out i => if out.any (key · == key i) then out else i :: out)
      out).reverse.find? (key · == name) = (out.reverse ++ items).find? (key · == name) := by
  induction items generalizing out with
  | nil => simp
  | cons i items ih =>
    rw [List.foldl_cons, ih]
    split
    case isTrue taken =>
      obtain ⟨j, early, same⟩ := List.any_eq_true.mp taken
      rw [List.find?_append, List.find?_append, List.find?_cons]
      split
      case h_2 => rfl
      case h_1 wanted =>
        -- The search has ended at `j` or before, which is of the same key.
        have ended : (out.reverse.find? (key · == name)).isSome :=
          List.find?_isSome.mpr ⟨j, List.mem_reverse.mpr early, by
            rw [beq_iff_eq] at same wanted ⊢
            exact same.trans wanted⟩
        rw [Option.or_of_isSome ended, Option.or_of_isSome ended]
    case isFalse => simp

/-- No key is taken twice. -/
theorem nodup_foldl_distinct {items out : List α} (before : (out.map key).Nodup) :
    ((items.foldl (fun out i => if out.any (key · == key i) then out else i :: out) out).map
      key).Nodup := by
  induction items generalizing out with
  | nil => exact before
  | cons i items ih =>
    rw [List.foldl_cons]
    refine ih ?_
    split
    case isTrue => exact before
    case isFalse other =>
      have fresh : ∀ j ∈ out, key j ≠ key i := by simpa using other
      rw [List.map_cons, List.nodup_cons]
      refine ⟨?_, before⟩
      intro taken
      obtain ⟨j, member, same⟩ := List.mem_map.mp taken
      exact fresh j member same

/-- What is taken keeps its order. -/
theorem sublist_foldl_distinct (items out : List α) :
    (items.foldl (fun out i => if out.any (key · == key i) then out else i :: out)
      out).reverse.Sublist (out.reverse ++ items) := by
  induction items generalizing out with
  | nil => simp
  | cons i items ih =>
    rw [List.foldl_cons]
    refine (ih _).trans ?_
    split
    case isTrue => exact (List.Sublist.refl _).append (List.sublist_cons_self ..)
    case isFalse => simp

/-- What has been taken is kept. -/
theorem suffix_foldl_distinct (items out : List α) :
    out <:+ items.foldl (fun out i => if out.any (key · == key i) then out else i :: out) out := by
  induction items generalizing out with
  | nil => exact List.suffix_refl out
  | cons i items ih =>
    rw [List.foldl_cons]
    refine .trans ?_ (ih _)
    split
    case isTrue => exact List.suffix_refl out
    case isFalse => exact List.suffix_cons i out

end XuleLang
