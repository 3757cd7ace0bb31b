import XuleLang.Vocabulary.Tables

/-!
Tables answer like vocabularies.

Whatever is added, directly or by a module, the tables answer like the `Vocabulary` that the same
was added to (`VocabularyTables.Represents`). What carries this is that the list and the hash table
of a kind have the same names (`NameList.IsIndexed`).
-/

namespace XuleLang

theorem NameKind.mem_all (k : NameKind) : k ∈ all := by
  cases k <;> decide

namespace Vocabulary

variable {v : Vocabulary} {k : NameKind} {name : String}

theorem register_eq_registerAs (v : Vocabulary) (m : NameModule) :
    v.register m = v.registerAs m.name m.additions := by
  simp only [register, registerAs, addModule, NameModule.additions, List.foldl_append,
    List.foldl_map, make]

/-! ## Names -/

theorem mem_names : name ∈ v.names k ↔ (k, name) ∈ v.entries := by
  simp only [names, List.mem_filterMap, Option.ite_none_right_eq_some, Option.some.injEq]
  constructor
  · rintro ⟨e, member, rfl, rfl⟩
    exact member
  · exact fun member => ⟨_, member, rfl, rfl⟩

/-- A name is known if it is listed. -/
theorem contains_eq_names_contains : v.contains k name = (v.names k).contains name := by
  rw [Bool.eq_iff_iff, contains, List.contains_iff_mem, List.contains_iff_mem, mem_names]

/-- A new name comes last among those of its kind. -/
theorem names_add (v : Vocabulary) (k k' : NameKind) (name : String) : (v.add k name).names k' =
    if k = k' ∧ (v.names k).contains name = false then v.names k' ++ [name] else v.names k' := by
  rw [add, contains_eq_names_contains]
  cases (v.names k).contains name
  case true => simp
  case false => by_cases same : k = k' <;> simp [names, same]

theorem add_signatures : (v.add k name).signatures = v.signatures := by
  rw [add]
  split <;> rfl

theorem add_modules : (v.add k name).modules = v.modules := by
  rw [add]
  split <;> rfl

end Vocabulary

/-! ## Names kept twice -/

namespace NameList

/-- The table has what the list has. -/
def IsIndexed (l : NameList) : Prop := ∀ name, l.index.contains name = l.ordered.contains name

variable {l : NameList}

theorem empty_isIndexed : empty.IsIndexed := fun _ => Std.HashSet.contains_empty

theorem insert_ordered (indexed : l.IsIndexed) (name : String) : (l.insert name).ordered =
    if l.ordered.contains name = false then l.ordered ++ [name] else l.ordered := by
  rw [insert, indexed name]
  cases l.ordered.contains name <;> simp

theorem IsIndexed.insert (indexed : l.IsIndexed) (name : String) : (l.insert name).IsIndexed := by
  intro other
  rw [NameList.insert]
  split
  case isTrue => exact indexed other
  case isFalse =>
    rw [Std.HashSet.contains_insert, indexed other, Bool.eq_iff_iff, Bool.or_eq_true, beq_iff_eq,
      List.contains_iff_mem, List.contains_iff_mem, List.mem_append, List.mem_singleton, or_comm,
      @eq_comm _ name]

end NameList

namespace VocabularyTables

/-! ## The same answers -/

/-- The tables answer like the vocabulary. -/
structure Represents (t : VocabularyTables) (v : Vocabulary) : Prop where
  lists : ∀ k, ∃ l, t.lists[k]? = some l ∧ l.IsIndexed ∧ l.ordered = v.names k
  signatures : ∀ f, t.signature? f = v.signature? f
  modules : t.modules = v.modules

theorem empty_represents : empty.Represents .empty where
  lists k := by
    have filled (ks : List NameKind) (lists : Std.HashMap NameKind NameList)
        (either : k ∈ ks ∨ lists[k]? = some .empty) :
        (ks.foldl (fun lists k => lists.insert k .empty) lists)[k]? = some .empty := by
      induction ks generalizing lists with
      | nil => simpa using either
      | cons k' ks ih =>
        refine ih _ ?_
        rw [Std.HashMap.getElem?_insert]
        by_cases same : k' = k
        · simp [same]
        · simpa [same, Ne.symm same] using either
    exact ⟨.empty, filled _ _ (.inl k.mem_all), NameList.empty_isIndexed, rfl⟩
  signatures _ := Std.HashMap.getElem?_empty
  modules := rfl

namespace Represents

variable {t : VocabularyTables} {v : Vocabulary}

theorem names (same : t.Represents v) (k : NameKind) : t.names k = v.names k := by
  obtain ⟨l, found, -, ordered⟩ := same.lists k
  simp [VocabularyTables.names, found, ordered]

theorem contains (same : t.Represents v) (k : NameKind) (name : String) :
    t.contains k name = v.contains k name := by
  obtain ⟨l, found, indexed, ordered⟩ := same.lists k
  rw [VocabularyTables.contains, found, Option.any_some, indexed name, ordered,
    Vocabulary.contains_eq_names_contains]

theorem add (same : t.Represents v) (k : NameKind) (name : String) :
    (t.add k name).Represents (v.add k name) := by
  obtain ⟨l, found, indexed, ordered⟩ := same.lists k
  rw [VocabularyTables.add, found]
  refine { lists := fun k' => ?_
           signatures := fun f => ?_
           modules := same.modules.trans Vocabulary.add_modules.symm }
  · dsimp only
    rw [Std.HashMap.getElem?_insert, Vocabulary.names_add]
    by_cases here : k = k'
    · subst here
      refine ⟨l.insert name, by simp, indexed.insert name, ?_⟩
      simp [NameList.insert_ordered indexed, ordered]
    · simpa [here] using same.lists k'
  · rw [Vocabulary.signature?, Vocabulary.add_signatures]
    exact same.signatures f

theorem addAll (same : t.Represents v) (k : NameKind) (names : List String) :
    (t.addAll k names).Represents (v.addAll k names) := by
  induction names generalizing t v with
  | nil => exact same
  | cons name names ih => exact ih (same.add k name)

theorem addFunction (same : t.Represents v) (name signature : String) :
    (t.addFunction name signature).Represents (v.addFunction name signature) := by
  have added := same.add .function name
  refine { lists := added.lists, signatures := fun f => ?_, modules := added.modules }
  change ((t.add .function name).signatures.insert name signature)[f]? =
    ((name, signature) :: (v.add .function name).signatures).lookup f
  have before : (t.add .function name).signatures[f]? =
      (v.add .function name).signatures.lookup f := added.signatures f
  rw [Std.HashMap.getElem?_insert, List.lookup_cons, before, BEq.comm]
  cases f == name <;> rfl

theorem make (same : t.Represents v) (a : Addition) : (t.make a).Represents (v.make a) := by
  cases a with
  | name k name => exact same.add k name
  | names k names => exact same.addAll k names
  | function name signature => exact same.addFunction name signature

theorem makeAll (same : t.Represents v) (additions : List Addition) :
    (additions.foldl VocabularyTables.make t).Represents (additions.foldl Vocabulary.make v) := by
  induction additions generalizing t v with
  | nil => exact same
  | cons a additions ih => exact ih (same.make a)

end Represents

end VocabularyTables

end XuleLang
