import XuleLang.Proofs.Vocabulary.Tables
import Mathlib.Data.List.Induction
import Mathlib.Data.List.Nodup

/-!
What a vocabulary has been told.

Names are added directly or by modules, and the modules of the language are registered up to the
first whose name is taken. The record of such a history (`VocabularyRecord`) has the additions that
were made and the modules that were registered, in order, and nothing of registrations that failed.
The vocabulary and its tables are told by the record: each kind has its names in the order in which
they came first, and a function has the signature that came last. So whatever came before, the
tables are consistent, a registration that fails leaves them as they were, and the modules of the
language can be registered just where none of their names is taken.
-/

namespace XuleLang

/-- The names of a kind among what is added. -/
def Addition.namesOf : Addition → NameKind → List String
  | .name k n, k' => if k = k' then [n] else []
  | .names k ns, k' => if k = k' then ns else []
  | .function n _, k' => if .function = k' then [n] else []

/-- The functions that are added, with their signatures. -/
def Addition.signatures : Addition → List (String × String)
  | .function n signature => [(n, signature)]
  | _ => []

/-- What happens to a vocabulary. -/
inductive VocabularyStep where
  | make (a : Addition)
  | register (name : String) (additions : List Addition)
  | registerStandard

/-- What a vocabulary has been told: the additions that were made and the modules that were
registered, in order. -/
structure VocabularyRecord where
  additions : List Addition
  modules : List String

namespace VocabularyRecord

def empty : VocabularyRecord := ⟨[], []⟩

/-- The names of a kind, with all that came again. -/
def names (r : VocabularyRecord) (k : NameKind) : List String :=
  r.additions.flatMap (·.namesOf k)

/-- The functions with their signatures, also those that were replaced. -/
def signatures (r : VocabularyRecord) : List (String × String) := r.additions.flatMap (·.signatures)

/-- The record of a registration, which fails if the name is taken. -/
def register (r : VocabularyRecord) (name : String) (additions : List Addition) :
    VocabularyRecord :=
  if name ∈ r.modules then r else ⟨r.additions ++ additions, r.modules ++ [name]⟩

/-- The record of registrations up to the first that fails. -/
def registerAll (r : VocabularyRecord) : List NameModule → VocabularyRecord
  | [] => r
  | m :: ms => if m.name ∈ r.modules then r else (r.register m.name m.additions).registerAll ms

/-- The record of a further step. -/
def next (r : VocabularyRecord) : VocabularyStep → VocabularyRecord
  | .make a => { r with additions := r.additions ++ [a] }
  | .register name additions => r.register name additions
  | .registerStandard => r.registerAll Vocabulary.standardModules

/-- The record of a history. -/
def ofSteps (steps : List VocabularyStep) : VocabularyRecord := steps.foldl next .empty

variable {r : VocabularyRecord}

theorem register_nodup (distinct : r.modules.Nodup) (name : String) (additions : List Addition) :
    (r.register name additions).modules.Nodup := by
  rw [register]
  split
  case isTrue => exact distinct
  case isFalse new =>
    exact distinct.append (List.nodup_singleton name) (List.disjoint_singleton.mpr new)

theorem registerAll_nodup (distinct : r.modules.Nodup) (ms : List NameModule) :
    (r.registerAll ms).modules.Nodup := by
  induction ms generalizing r with
  | nil => exact distinct
  | cons m ms ih =>
    rw [registerAll]
    split
    case isTrue => exact distinct
    case isFalse => exact ih (register_nodup distinct _ _)

/-- No module is registered twice. -/
theorem ofSteps_nodup (steps : List VocabularyStep) : (ofSteps steps).modules.Nodup := by
  suffices every : ∀ r : VocabularyRecord, r.modules.Nodup → (steps.foldl next r).modules.Nodup from
    every _ List.nodup_nil
  induction steps with
  | nil => exact fun _ distinct => distinct
  | cons step steps ih =>
    refine fun r distinct => ih _ ?_
    cases step with
    | make a => exact distinct
    | register name additions => exact register_nodup distinct name additions
    | registerStandard => exact registerAll_nodup distinct _

/-- Every function with a signature was added as a function. -/
theorem mem_names_of_mem_signatures {f s : String} (given : (f, s) ∈ r.signatures) :
    f ∈ r.names .function := by
  obtain ⟨a, member, signed⟩ := List.mem_flatMap.mp given
  refine List.mem_flatMap.mpr ⟨a, member, ?_⟩
  cases a with
  | name | names => cases signed
  | function name signature =>
    cases List.mem_singleton.mp signed
    exact List.mem_singleton_self f

end VocabularyRecord

/-- A list without what came before has nothing twice. -/
theorem nodup_eraseDups (l : List String) : l.eraseDups.Nodup := by
  induction l using List.reverseRecOn with
  | nil => exact List.nodup_nil
  | append_singleton l a ih =>
    rw [List.eraseDups_append]
    by_cases old : a ∈ l
    · simpa [List.removeAll, old] using ih
    · refine ih.append ?_ ?_ <;> simp [List.removeAll, old, List.eraseDups_cons]

/-! ## Vocabularies and their records -/

namespace Vocabulary

variable {v : Vocabulary} {r : VocabularyRecord}

/-- The vocabulary after a further step. One that fails changes nothing. -/
def next (v : Vocabulary) : VocabularyStep → Vocabulary
  | .make a => v.make a
  | .register name additions => (v.registerAs name additions).toOption.getD v
  | .registerStandard => v.registerStandard.1

/-- The vocabulary at the end of a history. -/
def ofSteps (steps : List VocabularyStep) : Vocabulary := steps.foldl next .empty

/-- The vocabulary knows what has been recorded. -/
structure Knows (v : Vocabulary) (r : VocabularyRecord) : Prop where
  names : ∀ k, v.names k = (r.names k).eraseDups
  signatures : v.signatures = r.signatures.reverse
  modules : v.modules = r.modules

/-- A name that comes again leaves the order of those that came first. -/
theorem names_add_of_eq {told : List String} {k k' : NameKind} (known : v.names k' = told.eraseDups)
    (name : String) :
    (v.add k name).names k' = (told ++ if k = k' then [name] else []).eraseDups := by
  rw [names_add]
  by_cases here : k = k'
  · subst here
    by_cases old : name ∈ told <;>
      simp [known, old, List.eraseDups_append, List.removeAll, List.eraseDups_cons]
  · simpa [here] using known

theorem names_addAll_of_eq {told : List String} {k k' : NameKind}
    (known : v.names k' = told.eraseDups) (names : List String) :
    (v.addAll k names).names k' = (told ++ if k = k' then names else []).eraseDups := by
  induction names generalizing v told with
  | nil => simpa [addAll] using known
  | cons name names ih =>
    refine (ih (names_add_of_eq known name)).trans (congrArg List.eraseDups ?_)
    by_cases here : k = k' <;> simp [here]

theorem addAll_signatures (v : Vocabulary) (k : NameKind) (names : List String) :
    (v.addAll k names).signatures = v.signatures := by
  induction names generalizing v with
  | nil => rfl
  | cons name names ih => exact (ih _).trans add_signatures

theorem addAll_modules (v : Vocabulary) (k : NameKind) (names : List String) :
    (v.addAll k names).modules = v.modules := by
  induction names generalizing v with
  | nil => rfl
  | cons name names ih => exact (ih _).trans add_modules

/-! ### What is added -/

theorem names_make_of_eq {told : List String} {k : NameKind} (known : v.names k = told.eraseDups)
    (a : Addition) : (v.make a).names k = (told ++ a.namesOf k).eraseDups := by
  cases a with
  | name k' name => exact names_add_of_eq known name
  | names k' names => exact names_addAll_of_eq known names
  | function name signature => exact names_add_of_eq known name

theorem make_signatures (v : Vocabulary) (a : Addition) :
    (v.make a).signatures = a.signatures.reverse ++ v.signatures := by
  cases a with
  | name k name => exact add_signatures
  | names k names => exact addAll_signatures v k names
  | function name signature => exact congrArg ((name, signature) :: ·) add_signatures

theorem make_modules (v : Vocabulary) (a : Addition) : (v.make a).modules = v.modules := by
  cases a with
  | name k name => exact add_modules
  | names k names => exact addAll_modules v k names
  | function name signature => exact add_modules

theorem empty_knows : empty.Knows .empty := ⟨fun _ => rfl, rfl, rfl⟩

theorem Knows.make (knows : v.Knows r) (a : Addition) :
    (v.make a).Knows { r with additions := r.additions ++ [a] } where
  names k := by
    rw [names_make_of_eq (knows.names k)]
    simp [VocabularyRecord.names]
  signatures := by
    rw [make_signatures, knows.signatures]
    simp [VocabularyRecord.signatures]
  modules := (make_modules v a).trans knows.modules

theorem Knows.makeAll (knows : v.Knows r) (additions : List Addition) :
    (additions.foldl Vocabulary.make v).Knows { r with additions := r.additions ++ additions } := by
  induction additions generalizing v r with
  | nil => simpa using knows
  | cons a additions ih => simpa using ih (knows.make a)

theorem foldl_make_modules (v : Vocabulary) (additions : List Addition) :
    (additions.foldl make v).modules = v.modules := by
  induction additions generalizing v with
  | nil => rfl
  | cons a additions ih => exact (ih _).trans (make_modules v a)

/-- A registration fails if the name is taken. Else the additions are made, and the module comes
last. -/
theorem registerAs_cases (v : Vocabulary) (name : String) (additions : List Addition) :
    (name ∈ v.modules ∧ v.registerAs name additions = .error ⟨name⟩) ∨
      name ∉ v.modules ∧ v.registerAs name additions =
        .ok { additions.foldl make v with modules := v.modules ++ [name] } := by
  rw [registerAs]
  dsimp only
  rw [foldl_make_modules]
  by_cases taken : name ∈ v.modules
  · exact .inl ⟨taken, if_pos (by simpa using taken)⟩
  · exact .inr ⟨taken, if_neg (by simpa using taken)⟩

theorem Knows.registered (knows : v.Knows r) {name : String} (new : name ∉ v.modules)
    (additions : List Addition) :
    { additions.foldl Vocabulary.make v with modules := v.modules ++ [name] }.Knows
      (r.register name additions) := by
  rw [VocabularyRecord.register, ← knows.modules, if_neg new]
  have made := knows.makeAll additions
  exact ⟨made.names, made.signatures, rfl⟩

theorem Knows.registerAll (knows : v.Knows r) (ms : List NameModule) :
    (v.registerAll ms).1.Knows (r.registerAll ms) := by
  induction ms generalizing v r with
  | nil => exact knows
  | cons m ms ih =>
    rw [Vocabulary.registerAll, VocabularyRecord.registerAll, register_eq_registerAs,
      ← knows.modules]
    rcases v.registerAs_cases m.name m.additions with ⟨taken, failed⟩ | ⟨new, done⟩
    · rw [failed, if_pos taken]
      exact knows
    · rw [done, if_neg new]
      exact ih (knows.registered new m.additions)

theorem Knows.next (knows : v.Knows r) (step : VocabularyStep) :
    (v.next step).Knows (r.next step) := by
  cases step with
  | make a => exact knows.make a
  | register name additions =>
    rw [Vocabulary.next, VocabularyRecord.next]
    rcases v.registerAs_cases name additions with ⟨taken, failed⟩ | ⟨new, done⟩
    · rw [failed, VocabularyRecord.register, ← knows.modules, if_pos taken]
      exact knows
    · rw [done]
      exact knows.registered new additions
  | registerStandard => exact knows.registerAll _

/-- At the end of every history the vocabulary knows what has been recorded. -/
theorem ofSteps_knows (steps : List VocabularyStep) : (ofSteps steps).Knows (.ofSteps steps) := by
  suffices every : ∀ (v : Vocabulary) (r : VocabularyRecord), v.Knows r →
      (steps.foldl Vocabulary.next v).Knows (steps.foldl .next r) from every _ _ empty_knows
  induction steps with
  | nil => exact fun _ _ knows => knows
  | cons step steps ih => exact fun _ _ knows => ih _ _ (knows.next step)

/-- Modules of different names can be registered just where none of the names is taken. -/
theorem registerAll_eq_none_iff {ms : List NameModule} (distinct : (ms.map (·.name)).Nodup) :
    (v.registerAll ms).2 = none ↔ ∀ m ∈ ms, m.name ∉ v.modules := by
  induction ms generalizing v with
  | nil => simp [registerAll]
  | cons m ms ih =>
    obtain ⟨apart, distinct⟩ := List.nodup_cons.mp distinct
    rw [registerAll, register_eq_registerAs, List.forall_mem_cons]
    rcases v.registerAs_cases m.name m.additions with ⟨taken, failed⟩ | ⟨new, done⟩
    · simp [failed, taken]
    · have others (m' : NameModule) (member : m' ∈ ms) : m'.name ≠ m.name :=
        fun same => apart (List.mem_map.mpr ⟨m', member, same⟩)
      rw [done]
      dsimp only
      rw [ih distinct]
      constructor
      · intro free
        exact ⟨new, fun m' member taken => free m' member (List.mem_append_left _ taken)⟩
      · rintro ⟨-, free⟩ m' member taken
        rcases List.mem_append.mp taken with before | last
        · exact free m' member before
        · exact others m' member (List.mem_singleton.mp last)

end Vocabulary

/-! ## Tables and their records -/

namespace VocabularyTables

variable {t : VocabularyTables} {v : Vocabulary}

/-- The tables after a further step. -/
def next (t : VocabularyTables) : VocabularyStep → VocabularyTables
  | .make a => t.make a
  | .register name additions => (t.register name additions).1
  | .registerStandard => t.registerStandard.1

/-- The tables at the end of a history. -/
def ofSteps (steps : List VocabularyStep) : VocabularyTables := steps.foldl next .empty

theorem register_of_mem {name : String} (taken : name ∈ t.modules) (additions : List Addition) :
    t.register name additions = (t, some ⟨name⟩) := by
  rw [register, if_pos (by simpa using taken)]

theorem register_of_notMem {name : String} (new : name ∉ t.modules) (additions : List Addition) :
    t.register name additions =
      ({ additions.foldl make t with
          modules := (additions.foldl make t).modules ++ [name] }, none) := by
  rw [register, if_neg (by simpa using new)]

theorem Represents.registered (same : t.Represents v) (name : String)
    (additions : List Addition) :
    { additions.foldl VocabularyTables.make t with
        modules := (additions.foldl VocabularyTables.make t).modules ++ [name] }.Represents
      { additions.foldl Vocabulary.make v with modules := v.modules ++ [name] } := by
  have made := same.makeAll additions
  exact ⟨made.lists, made.signatures, by rw [made.modules, Vocabulary.foldl_make_modules]⟩

theorem Represents.registerAll (same : t.Represents v) (ms : List NameModule) :
    (t.registerAll ms).1.Represents (v.registerAll ms).1 ∧
      (t.registerAll ms).2 = (v.registerAll ms).2 := by
  induction ms generalizing t v with
  | nil => exact ⟨same, rfl⟩
  | cons m ms ih =>
    rw [VocabularyTables.registerAll, Vocabulary.registerAll, Vocabulary.register_eq_registerAs]
    rcases v.registerAs_cases m.name m.additions with ⟨taken, failed⟩ | ⟨new, done⟩
    · rw [register_of_mem (same.modules ▸ taken), failed]
      exact ⟨same, rfl⟩
    · rw [register_of_notMem (same.modules ▸ new), done]
      exact ih (same.registered m.name m.additions)

theorem Represents.next (same : t.Represents v) (step : VocabularyStep) :
    (t.next step).Represents (v.next step) := by
  cases step with
  | make a => exact same.make a
  | register name additions =>
    rw [VocabularyTables.next, Vocabulary.next]
    rcases v.registerAs_cases name additions with ⟨taken, failed⟩ | ⟨new, done⟩
    · rw [register_of_mem (same.modules ▸ taken), failed]
      exact same
    · rw [register_of_notMem (same.modules ▸ new), done]
      exact same.registered name additions
  | registerStandard => exact (same.registerAll _).1

/-- At the end of every history the tables represent the vocabulary. -/
theorem ofSteps_represents (steps : List VocabularyStep) :
    (ofSteps steps).Represents (.ofSteps steps) := by
  suffices every : ∀ (t : VocabularyTables) (v : Vocabulary), t.Represents v →
      (steps.foldl VocabularyTables.next t).Represents (steps.foldl .next v) from
    every _ _ empty_represents
  induction steps with
  | nil => exact fun _ _ same => same
  | cons step steps ih => exact fun _ _ same => ih _ _ (same.next step)

/-- The tables give the answers that the vocabulary gives, and fail where it fails. -/
structure AnswersLike (t : VocabularyTables) (v : Vocabulary) : Prop where
  names : ∀ k, t.names k = v.names k
  contains : ∀ k name, t.contains k name = v.contains k name
  signature : ∀ f, t.signature? f = v.signature? f
  modules : t.modules = v.modules
  register : ∀ m : NameModule, (t.register m.name m.additions).2 =
    match v.register m with
    | .ok _ => none
    | .error e => some e
  standard : t.registerStandard.2 = v.registerStandard.2

/-- The tables are consistent with each other and with the record of what they were told. -/
structure IsConsistent (t : VocabularyTables) (r : VocabularyRecord) : Prop where
  /-- Names come in the order in which they came first. -/
  names : ∀ k, t.names k = (r.names k).eraseDups
  distinct : ∀ k, (t.names k).Nodup
  contains : ∀ k name, t.contains k name = true ↔ name ∈ t.names k
  /-- The signature that came last counts. -/
  signature : ∀ f, t.signature? f = r.signatures.reverse.lookup f
  functions : ∀ f s, t.signature? f = some s → f ∈ t.names .function
  modules : t.modules = r.modules
  modules_distinct : t.modules.Nodup
  register : ∀ name additions, (t.register name additions).2 = none ↔ name ∉ t.modules
  /-- A registration that fails changes nothing. -/
  failing : ∀ name additions, (t.register name additions).2 ≠ none →
    (t.register name additions).1 = t
  standard : t.registerStandard.2 = none ↔ ∀ m ∈ Vocabulary.standardModules, m.name ∉ t.modules

theorem Represents.answersLike (same : t.Represents v) : t.AnswersLike v where
  names := same.names
  contains := same.contains
  signature := same.signatures
  modules := same.modules
  register m := by
    rw [Vocabulary.register_eq_registerAs]
    rcases v.registerAs_cases m.name m.additions with ⟨taken, failed⟩ | ⟨new, done⟩
    · rw [register_of_mem (same.modules ▸ taken), failed]
    · rw [register_of_notMem (same.modules ▸ new), done]
  standard := (same.registerAll _).2

theorem Represents.isConsistent {r : VocabularyRecord} (same : t.Represents v) (knows : v.Knows r)
    (distinct : r.modules.Nodup) : t.IsConsistent r := by
  have names (k : NameKind) : t.names k = (r.names k).eraseDups :=
    (same.names k).trans (knows.names k)
  have modules : t.modules = r.modules := same.modules.trans knows.modules
  have signature (f : String) : t.signature? f = r.signatures.reverse.lookup f := by
    rw [signature?, ← knows.signatures]
    exact same.signatures f
  refine { names, signature, modules
           distinct := fun k => names k ▸ nodup_eraseDups _
           contains := fun k name => ?_
           functions := fun f s given => ?_
           modules_distinct := modules ▸ distinct
           register := fun name additions => ?_
           failing := fun name additions failed => ?_
           standard := ?_ }
  · rw [same.contains, same.names, Vocabulary.contains_eq_names_contains, List.contains_iff_mem]
  · rw [signature] at given
    obtain ⟨later, earlier, given, -⟩ := List.lookup_eq_some_iff.mp given
    have member : (f, s) ∈ r.signatures.reverse := by simp [given]
    rw [names, List.mem_eraseDups]
    exact VocabularyRecord.mem_names_of_mem_signatures (List.mem_reverse.mp member)
  · by_cases taken : name ∈ t.modules
    · simp [register_of_mem taken, taken]
    · simp [register_of_notMem taken, taken]
  · by_cases taken : name ∈ t.modules
    · rw [register_of_mem taken]
    · rw [register_of_notMem taken] at failed
      exact absurd rfl failed
  · rw [registerStandard, (same.registerAll _).2, same.modules]
    exact Vocabulary.registerAll_eq_none_iff (by decide)

/-- **Registration stays consistent and fails cleanly.** Whatever was added and registered, each
kind has its names once and in the order in which they came first, the hash table of a kind has the
names that its list has, a function has the signature that came last and is among the functions, and
no module was registered twice. A registration fails just where the name is taken, and then changes
nothing; the modules of the language can be registered just where none of their names is taken. The
tables answer like the vocabulary all along. -/
theorem registration_stays_consistent (steps : List VocabularyStep) :
    (ofSteps steps).IsConsistent (.ofSteps steps) ∧
      (ofSteps steps).AnswersLike (.ofSteps steps) := by
  have same := ofSteps_represents steps
  exact ⟨same.isConsistent (Vocabulary.ofSteps_knows steps) (VocabularyRecord.ofSteps_nodup steps),
    same.answersLike⟩

/-- A name that is taken brings nothing, and a function that comes again only its signature. -/
example : let v := Vocabulary.ofSteps [.register "lists" [.function "sum" "sum(x)"],
      .register "lists" [.function "min" "min(x)"], .make (.names .function ["max", "sum"]),
      .make (.function "sum" "sum(list)")]
    v.names .function = ["sum", "max"] ∧ v.signature? "sum" = some "sum(list)" := by
  decide

end VocabularyTables

end XuleLang
