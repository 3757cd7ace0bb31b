import XuleLang.Analysis.State
import XuleLang.Proofs.Scope.Lookup
import XuleLang.Proofs.Syntax.Cursor

/-!
Imports only ever help.

What is declared at the top of any file is known everywhere, and variables are known in their own
file only. So of the imports only the names of their constants, functions and output attributes are
of account to the diagnostics of the edited file, and not where they are declared, how often, or in
which order. The more of them there are, the fewer names mean nothing.
-/

namespace XuleLang

open Declaration

variable {edited : SourceText} {imports others : List SourceText} {s t : RuleSet} {c : Cursor}
  {name : String} {kind : BindingKind}

/-! ## What a file declares -/

namespace Place

/-- The names that are declared at a place, and what they name. -/
def declared (p : Place) : List (String × BindingKind) :=
  p.declarations.map fun d => (d.binding.name, d.binding.kind)

/-- The number of the file is of no account to the names that are declared in it. -/
theorem declared_eq (i k : Nat) (c : Cursor) : (mk i c).declared = (mk k c).declared := by
  have named : (mk i c).named? = (mk k c).named? := rfl
  have unasked : (mk i c).unasked?.map (fun b => (b.name, b.kind)) =
      (mk k c).unasked?.map fun b => (b.name, b.kind) := by
    simp only [unasked?]
    cases c.tree.rule?.bind (·.implicitVariable?) <;> cases c.tree.firstLeaf? <;> rfl
  have unaskedNames (p : Place) : p.unasked?.toList.map (fun b => (b.name, b.kind)) =
      (p.unasked?.map fun b => (b.name, b.kind)).toList := by
    cases p.unasked? <;> rfl
  simp only [declared, declarations, named, List.map_append, List.map_map, Function.comp_def,
    unaskedNames, unasked]
  cases (mk k c).named? <;> rfl

theorem mem_declared_iff {p : Place} :
    (name, kind) ∈ p.declared ↔ ∃ d ∈ p.declarations, d.declares name kind := by
  simp [declared, declares, and_comm]

/-- What is declared in a scope is declared in the file of the scope. -/
theorem file_of_scope {p : Place} {d : Declaration} {r : NodeRef} (member : d ∈ p.declarations)
    (scope : d.scope = some r) : r.file = p.file := by
  rcases List.mem_append.mp member with named | unasked
  · obtain ⟨b, -, rfl⟩ := List.mem_map.mp named
    exact file_of_mem_scopesAmong (List.mem_of_head? scope)
  · obtain ⟨b, -, rfl⟩ := List.mem_map.mp unasked
    cases scope
    rfl

end Place

/-- Something of a kind is declared in the file under a name. -/
def RuleFile.Declares (f : RuleFile) (name : String) (kind : BindingKind) : Prop :=
  ∃ c ∈ f.tree.root.cursors, (name, kind) ∈ (Place.mk 0 c).declared

namespace RuleSet

/-- The places of the edited file come first. -/
theorem places_eq (s : RuleSet) : s.places = s.edited.tree.root.cursors.map (.mk 0) ++
    (s.imports.zipIdx 1).flatMap fun (f, i) => f.tree.root.cursors.map (.mk i) := by
  rw [places, files, List.zipIdx_cons, List.flatMap_cons]

theorem exists_declares_iff : (∃ d ∈ s.declarations, d.declares name kind) ↔
    ∃ f ∈ s.files, f.Declares name kind := by
  constructor
  · rintro ⟨d, declared, names⟩
    obtain ⟨p, place, declared⟩ := List.mem_flatMap.mp declared
    obtain ⟨⟨f, i⟩, file, here⟩ := List.mem_flatMap.mp place
    obtain ⟨c, member, rfl⟩ := List.mem_map.mp here
    refine ⟨f, List.fst_mem_of_mem_zipIdx file, c, member, ?_⟩
    rw [Place.declared_eq 0 i]
    exact Place.mem_declared_iff.mpr ⟨d, declared, names⟩
  · rintro ⟨f, file, c, member, names⟩
    obtain ⟨i, inside, rfl⟩ := List.getElem_of_mem file
    rw [Place.declared_eq 0 i] at names
    obtain ⟨d, declared, names⟩ := Place.mem_declared_iff.mp names
    have place : Place.mk i c ∈ s.places := List.mem_flatMap.mpr
      ⟨(s.files[i], i), List.mk_mem_zipIdx_iff_getElem?.mpr (List.getElem?_eq_getElem inside),
        List.mem_map_of_mem member⟩
    exact ⟨d, List.mem_flatMap.mpr ⟨_, place, declared⟩, names⟩

/-- What is declared in a scope of the edited file is declared in that file. -/
theorem filter_declarations (property : Declaration → Bool)
    (own : ∀ d, property d → ∃ r, d.scope = some r ∧ r.file = 0) :
    s.declarations.filter property =
      ((s.edited.tree.root.cursors.map (.mk 0)).flatMap Place.declarations).filter property := by
  rw [declarations, places_eq, List.flatMap_append, List.filter_append]
  have none : (((s.imports.zipIdx 1).flatMap fun (f, i) =>
      f.tree.root.cursors.map (Place.mk i)).flatMap Place.declarations).filter property = [] := by
    rw [List.filter_eq_nil_iff]
    intro d declared holds
    obtain ⟨p, place, declared⟩ := List.mem_flatMap.mp declared
    obtain ⟨⟨f, i⟩, file, here⟩ := List.mem_flatMap.mp place
    obtain ⟨c, -, rfl⟩ := List.mem_map.mp here
    obtain ⟨r, scope, first⟩ := own d holds
    have same : r.file = i := Place.file_of_scope declared scope
    have behind := (List.mem_zipIdx file).1
    omega
  rw [none, List.append_nil]

end RuleSet

/-! ## What is known -/

/-- The files that the first set imports declare nothing at the top that those of the second one do
not declare. -/
def RuleSet.ImportsCoveredBy (s t : RuleSet) : Prop :=
  ∀ f ∈ s.imports, ∀ name kind, kind ≠ .variableName → f.Declares name kind →
    ∃ g ∈ t.imports, g.Declares name kind

section Lookup

/-- A name that is declared at the top of a file is known everywhere. -/
theorem lookup_isSome_iff {p : Place} (member : p ∈ (RuleSet.ofTexts edited imports).places)
    (other : kind ≠ .variableName) :
    let s := RuleSet.ofTexts edited imports
    ((SymbolTable.ofRuleSet s).lookup p.file p.cursor name kind).isSome ↔
      ∃ f ∈ s.files, f.Declares name kind := by
  intro s
  have files : ∀ f ∈ s.files, f.tree.root.IsFile := fun f => RuleSet.isFile_of_mem_files
  rw [s.lookup_eq files member, RuleSet.lexicalLookup?_of_ne other,
    latest?_isSome, RuleSet.exists_declares_iff]

/-- What variables mean in the edited file, that file says. -/
theorem lexicalLookup?_congr (same : s.edited = t.edited) :
    s.lexicalLookup? ⟨0, c⟩ name .variableName = t.lexicalLookup? ⟨0, c⟩ name .variableName := by
  refine findSome?_congr fun scope around => ?_
  have first : scope.file = 0 := Place.file_of_mem_scopesAmong around
  have own (d : Declaration) : (d.scope == some scope && d.declares name .variableName &&
      d.binding.visibleFrom ≤ referenceIndex c.tree) → ∃ r, d.scope = some r ∧ r.file = 0 := by
    simp only [Bool.and_eq_true, beq_iff_eq]
    exact fun holds => ⟨scope, holds.1.1, first⟩
  rw [latest?, latest?, RuleSet.filter_declarations _ own, RuleSet.filter_declarations _ own, same]

theorem place_mem_ofTexts (member : c ∈ (RuleFile.edited edited).tree.root.cursors) :
    (⟨0, c⟩ : Place) ∈ (RuleSet.ofTexts edited imports).places := by
  rw [RuleSet.places_eq]
  exact List.mem_append_left _ (List.mem_map_of_mem member)

/-- A name that means something in the edited file does so as well where more is imported. -/
theorem resolves_of_covered (v w : Vocabulary)
    (covered : (RuleSet.ofTexts edited imports).ImportsCoveredBy (RuleSet.ofTexts edited others))
    (member : c ∈ (RuleFile.edited edited).tree.root.cursors)
    (resolves : NameContext.resolves ⟨v, .ofRuleSet (.ofTexts edited imports)⟩ c name kind) :
    NameContext.resolves ⟨w, .ofRuleSet (.ofTexts edited others)⟩ c name kind := by
  have place (texts : List SourceText) : ⟨0, c⟩ ∈ (RuleSet.ofTexts edited texts).places :=
    place_mem_ofTexts member
  unfold NameContext.resolves at resolves ⊢
  by_cases ofVariable : kind = .variableName
  · subst ofVariable
    rw [RuleSet.lookup_eq (fun f => RuleSet.isFile_of_mem_files) (place imports)] at resolves
    rw [RuleSet.lookup_eq (fun f => RuleSet.isFile_of_mem_files) (place others)]
    have same : (RuleSet.ofTexts edited imports).edited = (RuleSet.ofTexts edited others).edited :=
      rfl
    rwa [lexicalLookup?_congr same] at resolves
  · obtain ⟨f, file, declares⟩ := (lookup_isSome_iff (place imports) ofVariable).mp resolves
    refine (lookup_isSome_iff (place others) ofVariable).mpr ?_
    rcases List.mem_cons.mp file with rfl | imported
    · exact ⟨_, .head _, declares⟩
    · obtain ⟨g, imported', declares'⟩ := covered f imported name kind ofVariable declares
      exact ⟨g, .tail _ imported', declares'⟩

end Lookup

/-! ## What is wrong -/

namespace NameContext

variable {x y : NameContext} {settings : CheckSettings} {finding : Cursor × Finding}

/-- What is reported where less is known is reported where more is unknown. -/
theorem report_of_known {α : Type} {known known' : Bool} {report found : α}
    (more : known = true → known' = true)
    (reported : (do guard !known'; return report : Option α) = some found) :
    (do guard !known; return report : Option α) = some found := by
  cases known with
  | false =>
    cases known' with
    | false => exact reported
    | true => cases reported
  | true =>
    rw [more rfl] at reported
    cases reported

theorem or_imp_or {a b a' b' : Bool} (first : a = true → a' = true)
    (second : b = true → b' = true) : (a || b) = true → (a' || b') = true := by
  simp only [Bool.or_eq_true]
  exact Or.imp first second

/-- In the second context all that means something at a place, or at a child of it, does so that
means something in the first one. -/
structure KnowsMore (x y : NameContext) (c : Cursor) : Prop where
  vocabulary : x.vocabulary = y.vocabulary
  here : ∀ {name kind}, x.resolves c name kind = true → y.resolves c name kind = true
  child : ∀ u ∈ c.tree.children, ∀ {name kind},
    x.resolves (c.child u) name kind = true → y.resolves (c.child u) name kind = true

/-- Where more names mean something, fewer are found to mean nothing. -/
theorem KnowsMore.check? (knows : x.KnowsMore y c)
    (found : y.check? settings c = some finding) : x.check? settings c = some finding := by
  unfold NameContext.check? at found ⊢
  split at found
  case h_1 =>
    split at found
    case isFalse => cases found
    case isTrue checked =>
      rw [if_pos checked]
      obtain ⟨callee, part, found⟩ := Option.bind_eq_some_iff.mp found
      obtain ⟨name, written, found⟩ := Option.bind_eq_some_iff.mp found
      obtain ⟨u, child, rfl⟩ := Option.map_eq_some_iff.mp part
      have below := List.mem_of_find?_eq_some child
      refine Option.bind_eq_some_iff.mpr ⟨_, part, Option.bind_eq_some_iff.mpr ⟨name, written, ?_⟩⟩
      rw [knows.vocabulary]
      exact report_of_known (or_imp_or id (knows.child u below)) found
  case h_2 =>
    unfold checkProperty? at found ⊢
    rw [knows.vocabulary]
    exact found
  case h_3 =>
    split at found
    case isFalse => cases found
    case isTrue checked =>
      rw [if_pos checked]
      obtain ⟨name, written, found⟩ := Option.bind_eq_some_iff.mp found
      refine Option.bind_eq_some_iff.mpr ⟨name, written, ?_⟩
      rw [knows.vocabulary]
      exact report_of_known (or_imp_or id knows.here) found
  case h_4 =>
    split at found
    case isFalse => cases found
    case isTrue checked =>
      rw [if_pos checked]
      obtain ⟨name, written, found⟩ := Option.bind_eq_some_iff.mp found
      refine Option.bind_eq_some_iff.mpr ⟨name, written, ?_⟩
      exact report_of_known (or_imp_or knows.here knows.here) found
  case h_5 => cases found

end NameContext

/-- A function that finds less in a list finds what it does in the same order. -/
theorem filterMap_sublist_filterMap {α β : Type} {f g : α → Option β} {l : List α}
    (less : ∀ a ∈ l, ∀ b, f a = some b → g a = some b) :
    (l.filterMap f).Sublist (l.filterMap g) := by
  induction l with
  | nil => exact .slnil
  | cons a l ih =>
    obtain ⟨here, later⟩ := List.forall_mem_cons.mp less
    cases found : f a with
    | none =>
      rw [List.filterMap_cons_none found]
      exact (ih later).trans ((List.sublist_cons_self a l).filterMap g)
    | some b =>
      rw [List.filterMap_cons_some found, List.filterMap_cons_some (here b found)]
      exact (ih later).cons_cons b

/-- What each place of the edited file is found to be decides on the diagnostics. -/
theorem check_sublist {x y : NameContext} {settings : CheckSettings} (same : s.edited = t.edited)
    (knows : ∀ c ∈ t.edited.tree.root.cursors, x.KnowsMore y c) :
    (check t y settings).Sublist (check s x settings) := by
  unfold check
  dsimp only
  rw [same]
  refine .append (.refl _) (filterMap_sublist_filterMap fun c member diagnostic found => ?_)
  obtain ⟨finding, checked, shown⟩ := Option.bind_eq_some_iff.mp found
  exact Option.bind_eq_some_iff.mpr ⟨finding, (knows c member).check? checked, shown⟩

namespace RuleSet

/-- An import that is kept in one list is kept in every list that it is in. -/
theorem imports_subset (more : imports ⊆ others) :
    (ofTexts edited imports).imports ⊆ (ofTexts edited others).imports := by
  intro f kept
  obtain ⟨text, listed, read⟩ := List.mem_filterMap.mp kept
  obtain ⟨listed, apart⟩ := List.mem_filter.mp listed
  exact List.mem_filterMap.mpr ⟨text, List.mem_filter.mpr ⟨more listed, apart⟩, read⟩

theorem ImportsCoveredBy.of_subset (more : s.imports ⊆ t.imports) : s.ImportsCoveredBy t :=
  fun f kept _ _ _ declares => ⟨f, more kept, declares⟩

end RuleSet

/-- The more the imports declare, the fewer diagnostics there are. -/
theorem diagnostics_sublist (configured : NamespaceSet) (settings : CheckSettings)
    (covered : (RuleSet.ofTexts edited imports).ImportsCoveredBy (.ofTexts edited others)) :
    ((Analysis.ofInput ⟨edited, others, configured⟩).diagnostics settings).Sublist
      ((Analysis.ofInput ⟨edited, imports, configured⟩).diagnostics settings) :=
  check_sublist rfl fun c member =>
    { vocabulary := rfl
      here := resolves_of_covered _ _ covered member
      child := fun u below =>
        resolves_of_covered _ _ covered (Tree.child_mem_cursorsUnder _ c member u below) }

/-- **Imports only ever help.** If all that the imports of one list declare at the top of a file is
declared by those of another one too, the diagnostics with the latter are among those with the
former, in the same order. So texts that are put into a list anywhere add none, lists of the same
texts have the same ones, and whatever is wrong within the imports, they add none to those that
there are without imports. -/
theorem imports_only_help (edited : SourceText) (configured : NamespaceSet)
    (settings : CheckSettings) :
    let diagnostics imports := (Analysis.ofInput ⟨edited, imports, configured⟩).diagnostics settings
    (∀ imports others : List SourceText,
      (RuleSet.ofTexts edited imports).ImportsCoveredBy (.ofTexts edited others) →
        (diagnostics others).Sublist (diagnostics imports)) ∧
    (∀ before added behind : List SourceText,
      (diagnostics (before ++ added ++ behind)).Sublist (diagnostics (before ++ behind))) ∧
    (∀ imports others : List SourceText, (∀ text, text ∈ imports ↔ text ∈ others) →
      diagnostics imports = diagnostics others) ∧
    ∀ imports : List SourceText, (diagnostics imports).Sublist (diagnostics []) := by
  intro diagnostics
  have more {imports others : List SourceText} (subset : imports ⊆ others) :
      (diagnostics others).Sublist (diagnostics imports) :=
    diagnostics_sublist configured settings (.of_subset (RuleSet.imports_subset subset))
  refine ⟨fun imports others => diagnostics_sublist configured settings, ?_, ?_, ?_⟩
  · intro before added behind
    refine more (List.append_subset.mpr ⟨?_, List.subset_append_right _ _⟩)
    exact List.subset_append_of_subset_left _ (List.subset_append_left _ _)
  · intro imports others same
    exact (more fun text => (same text).mpr).antisymm (more fun text => (same text).mp)
  · exact fun imports => more (List.nil_subset _)

/-- A text that uses two constants. -/
def usesBoth : SourceText := ⟨"", "output o $a + $b".toList⟩

/-- A text that declares the first of them. -/
def declaresOne : List SourceText := [⟨"one", "constant $a = 1".toList⟩]

/-- Other texts, of which each declares one. -/
def declareBoth : List SourceText :=
  [⟨"two", "constant $b = 1".toList⟩, ⟨"three", "constant $a = 2".toList⟩]

/-- Texts may be replaced by others that declare as much, though no text is the same. -/
theorem replaced_imports_help :
    let diagnostics imports := (Analysis.ofInput ⟨usesBoth, imports, .empty⟩).diagnostics .all
    (∀ text ∈ declaresOne, text ∉ declareBoth) ∧
      (diagnostics declaresOne).length = 1 ∧ diagnostics declareBoth = [] ∧
      (diagnostics declareBoth).Sublist (diagnostics declaresOne) := by
  intro diagnostics
  have declared : ∀ f ∈ (RuleSet.ofTexts usesBoth declaresOne).imports,
      ∀ c ∈ f.tree.root.cursors, ∀ d ∈ (Place.mk 0 c).declared, d = ("$a", .constant) := by
    decide +kernel
  have known : ∃ g ∈ (RuleSet.ofTexts usesBoth declareBoth).imports,
      ∃ c ∈ g.tree.root.cursors, ("$a", .constant) ∈ (Place.mk 0 c).declared := by
    decide +kernel
  have covered : (RuleSet.ofTexts usesBoth declaresOne).ImportsCoveredBy
      (.ofTexts usesBoth declareBoth) := by
    rintro f kept name kind - ⟨c, member, declares⟩
    cases declared f kept c member (name, kind) declares
    exact known
  exact ⟨by decide +kernel, by decide +kernel, by decide +kernel,
    (imports_only_help usesBoth .empty .all).1 _ _ covered⟩

end XuleLang
