import XuleLang.Vocabulary.Standard

/-!
Where the names of a vocabulary come from.

A name is known only if it came with a module that was registered. So what holds of all names of
some modules holds of every name that is known once they are registered, and a name that none of
them has is unknown. The modules can be looked through; the vocabulary need not be built.
-/

namespace XuleLang

/-- The names of a module with their kinds. -/
def NameModule.entries (m : NameModule) : List (NameKind × String) :=
  m.functions.map (.function, ·.1) ++ m.names

namespace Vocabulary

variable {v w : Vocabulary} {m : NameModule} {k : NameKind} {name : String}
  {e : NameKind × String}

theorem mem_entries_add : e ∈ (v.add k name).entries ↔ e ∈ v.entries ∨ e = (k, name) := by
  rw [add, contains]
  split
  case isTrue known =>
    have there := List.contains_iff_mem.mp known
    exact ⟨.inl, fun either => either.elim id fun same => same ▸ there⟩
  case isFalse => simp

theorem mem_entries_addFunction {signature : String} :
    e ∈ (v.addFunction name signature).entries ↔ e ∈ v.entries ∨ e = (.function, name) :=
  mem_entries_add

theorem mem_entries_addFunctions {fs : List (String × String)} :
    e ∈ (fs.foldl (fun v f => v.addFunction f.1 f.2) v).entries ↔
      e ∈ v.entries ∨ e ∈ fs.map (NameKind.function, ·.1) := by
  induction fs generalizing v with
  | nil => simp
  | cons f fs ih =>
    rw [List.foldl_cons, ih, mem_entries_addFunction, List.map_cons, List.mem_cons, or_assoc]

theorem mem_entries_addOthers {names : List (NameKind × String)} :
    e ∈ (names.foldl (fun v n => v.add n.1 n.2) v).entries ↔ e ∈ v.entries ∨ e ∈ names := by
  induction names generalizing v with
  | nil => simp
  | cons n names ih => rw [List.foldl_cons, ih, mem_entries_add, List.mem_cons, or_assoc]

/-- Adding a module makes just its names known. -/
theorem mem_entries_addModule : e ∈ (v.addModule m).entries ↔ e ∈ v.entries ∨ e ∈ m.entries := by
  rw [addModule, mem_entries_addOthers, mem_entries_addFunctions, NameModule.entries,
    List.mem_append, or_assoc]

theorem mem_entries_register (registered : v.register m = .ok w) :
    e ∈ w.entries ↔ e ∈ v.entries ∨ e ∈ m.entries := by
  rw [register] at registered
  split at registered
  · cases registered
  · cases registered
    exact mem_entries_addModule

/-- A name is known only if it was before or came with one of the modules. -/
theorem mem_entries_registerAll {ms : List NameModule} (known : e ∈ (v.registerAll ms).1.entries) :
    e ∈ v.entries ∨ ∃ m ∈ ms, e ∈ m.entries := by
  induction ms generalizing v with
  | nil => exact .inl known
  | cons m ms ih =>
    rw [registerAll] at known
    cases registered : v.register m with
    | error => exact .inl (by simpa [registered] using known)
    | ok w =>
      simp only [registered] at known
      rcases ih known with before | ⟨m', member, inside⟩
      · have came := (mem_entries_register registered).mp before
        exact came.imp_right fun inside => ⟨m, List.mem_cons_self, inside⟩
      · exact .inr ⟨m', List.mem_cons_of_mem m member, inside⟩

/-- A name that none of some modules has is unknown where nothing else was registered. -/
theorem contains_eq_false {ms : List NameModule} (registered : v = (registerAll .empty ms).1)
    (nowhere : ∀ m ∈ ms, (k, name) ∉ m.entries) : v.contains k name = false := by
  rw [← Bool.not_eq_true, contains, List.contains_iff_mem, registered]
  intro known
  rcases mem_entries_registerAll known with before | ⟨m, member, inside⟩
  · cases before
  · exact nowhere m member inside

/-- A name that none of the modules of the language has is unknown. -/
theorem standard_contains_eq_false (nowhere : ∀ m ∈ standardModules, (k, name) ∉ m.entries) :
    standard.contains k name = false :=
  contains_eq_false rfl nowhere

end Vocabulary

end XuleLang
