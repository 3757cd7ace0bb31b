import XuleLang.Proofs.Text.Split
import XuleLang.Source.FileTree

/-!
Where paths lead to.

Without links a path can be followed by its parts alone: one that says nothing stays where it is,
two points lead to the folder around, and any other goes on by a name (`Path.enter`). Files in
memory are found in the same way, except that there must be something at every step
(`FileTree.eq_of_follow`).

A path seen from a folder is followed from where the folder is (`Path.resolved_join`). If it never
goes to the folder around, it ends there or below (`Path.foldl_enter_of_descends`), so a safe path
stays inside of every folder.
-/

namespace XuleLang

namespace Path

variable {base p : Path} {place : List (List Char)}

/-- Where a part leads from a place, which is the list of the names that lead there. -/
def enter (place : List (List Char)) (part : List Char) : List (List Char) :=
  if isSilent part then place
  else if part = ['.', '.'] then place.dropLast
  else place ++ [part]

/-- Where an absolute path leads if there are no links. -/
def resolved (p : Path) : List (List Char) := p.parts.foldl enter []

theorem enter_of_isSilent {part : List Char} (silent : isSilent part) :
    enter place part = place := if_pos silent

/-- Parts that never lead to the folder around lead down by the names among them. -/
theorem foldl_enter_of_descends {parts : List (List Char)}
    (descends : ∀ part ∈ parts, part ≠ ['.', '.']) :
    parts.foldl enter place = place ++ parts.filter fun part => !isSilent part := by
  induction parts generalizing place with
  | nil => exact (List.append_nil place).symm
  | cons part parts ih =>
    obtain ⟨here, others⟩ := List.forall_mem_cons.mp descends
    rw [List.foldl_cons, ih others]
    cases silent : isSilent part with
    | true => rw [enter_of_isSilent silent, List.filter_cons_of_neg (by simp [silent])]
    | false =>
      rw [enter, silent, if_neg Bool.false_ne_true, if_neg here,
        List.filter_cons_of_pos (by simp [silent]), List.append_assoc, List.singleton_append]

/-- What is before a slash and what is behind it have parts of their own. -/
theorem parts_append_slash (front behind : List Char) :
    (mk (front ++ '/' :: behind)).parts = (mk front).parts ++ (mk behind).parts :=
  splitWhere_append_cons front behind rfl

/-- A path seen from an absolute folder is followed from where the folder is. -/
theorem resolved_join (folder : base.isAbsolute = true) (below : p.isAbsolute = false) :
    (base.join p).resolved = p.parts.foldl enter base.resolved := by
  have some : base.text ≠ [] := by
    rintro nothing
    simp [isAbsolute, nothing] at folder
  rw [join, below, if_neg Bool.false_ne_true]
  split
  case isTrue ends =>
    have last : base.text.getLast? = .some '/' := by simpa [some] using ends
    obtain ⟨front, written⟩ := List.getLast?_eq_some_iff.mp last
    obtain rfl : base = ⟨front ++ ['/']⟩ := congrArg mk written
    -- The stretch behind the last slash of the folder is empty, and says nothing.
    have before : (mk (front ++ ['/'])).parts = (mk front).parts ++ [[]] :=
      parts_append_slash front []
    rw [resolved, resolved, before, List.append_assoc, List.singleton_append, parts_append_slash,
      List.foldl_append, List.foldl_append, List.foldl_cons, List.foldl_nil, enter_of_isSilent rfl]
  case isFalse => rw [resolved, parts_append_slash, List.foldl_append, resolved]

/-- What a safe path is known to be. -/
theorem of_isSafe (safe : p.isSafe = true) :
    (p.text ≠ [] ∧ p.isAbsolute = false) ∧ ['.', '.'] ∉ p.parts ∧
      ∀ c ∈ p.text, c ≠ '\x00' ∧ c ≠ '\n' ∧ c ≠ '\r' ∧ c ≠ '\t' := by
  rw [isSafe, Bool.and_eq_true, Bool.and_eq_true, Bool.and_eq_true, Bool.and_eq_true] at safe
  obtain ⟨⟨⟨⟨some, below⟩, descends⟩, printable⟩, -⟩ := safe
  refine ⟨⟨bne_iff_ne.mp some, by simpa using below⟩, by simpa using descends, ?_⟩
  simpa [and_assoc] using printable

/-- A safe path goes down from every folder, by its own names. -/
theorem resolved_join_of_isSafe (safe : p.isSafe = true) (folder : base.isAbsolute = true) :
    (base.join p).resolved = base.resolved ++ p.names := by
  obtain ⟨⟨-, below⟩, descends, -⟩ := of_isSafe safe
  rw [resolved_join folder below]
  refine foldl_enter_of_descends fun part member around => ?_
  exact descends (around ▸ member)

end Path

/-! ## Files in memory -/

namespace FileTree

variable {t : FileTree} {place found : List (List Char)}

/-- Following parts in a tree leads where the parts lead alone, if it leads anywhere. -/
theorem eq_of_follow {parts : List (List Char)} (followed : t.follow place parts = .ok found) :
    found = parts.foldl Path.enter place := by
  fun_induction t.follow place parts with
  | case1 =>
    cases followed
    rfl
  | case2 => cases followed
  | case3 place part parts isFolder silent ih =>
    rw [List.foldl_cons, Path.enter, if_pos silent, ih followed]
  | case4 place parts isFolder loud ih =>
    rw [List.foldl_cons, Path.enter, if_neg loud, if_pos rfl, ih followed]
  | case5 => cases followed
  | case6 place part parts isFolder loud forward short present ih =>
    rw [List.foldl_cons, Path.enter, if_neg loud, if_neg forward, ih followed]
  | case7 => cases followed

/-- A safe path leads to nothing outside of the folder where paths begin. -/
theorem place_of_isSafe {p : Path} (safe : p.isSafe = true) (there : t.place p = .ok found) :
    found = t.folder ++ p.names := by
  obtain ⟨⟨some, below⟩, descends, -⟩ := Path.of_isSafe safe
  rw [place, if_neg (by simpa using some), below, if_neg Bool.false_ne_true] at there
  rw [eq_of_follow there]
  refine Path.foldl_enter_of_descends fun part member around => ?_
  exact descends (around ▸ member)

end FileTree

end XuleLang
