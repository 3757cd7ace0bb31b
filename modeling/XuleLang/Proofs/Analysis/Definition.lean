import XuleLang.Analysis.Definition
import XuleLang.Proofs.Analysis.DeclaredName
import XuleLang.Proofs.Scope.Forest
import XuleLang.Proofs.Syntax.EditorRange

/-!
Definitions lead to names.

A binding remembers the leaf that declares it by its number and that of its file. In every file the
numbers of the leaves are all different, and each leaf covers its own text, so a target made of them
is a name in the text of its file. Only what is bound unasked has no name to lead to, and leads to
the first token of what binds it.

A name at which something is declared leads to itself. What is bound unasked never comes in between,
since no construct that binds something begins with a name.
-/

namespace XuleLang

variable {edited : SourceText} {imports : List SourceText} {s : RuleSet} {f : RuleFile}
  {l : Leaf} {b : Binding} {name : String} {kind : BindingKind}

/-- The characters of a text between two places of an editor. -/
def textIn (text : List Char) (r : EditorRange) : List Char :=
  (text.drop (offsetAt text r.start)).take (offsetAt text r.stop - offsetAt text r.start)

/-! ## Leaves of files -/

namespace RuleFile.IsRead

/-- In an editor a leaf covers its own text. -/
theorem textIn_leaf (read : f.IsRead) (member : l ∈ f.tree.root.leaves) :
    textIn f.text (editorRangeOf f.text l.token.span) = l.token.text.toList := by
  have piece := read.follow.piece l.token (List.mem_map_of_mem member)
  obtain ⟨start, stop, -⟩ := piece.span.leadsBack
  rw [textIn]
  exact (congrArg₂ (fun m n => (f.text.drop m).take (n - m)) start stop).trans piece.chars.symm

/-- A leaf is found by its number. -/
theorem cursor?_leaf (read : f.IsRead) (member : l ∈ f.tree.root.leaves) :
    ∃ c ∈ f.tree.root.cursors, c.tree = .leaf l ∧ f.tree.cursor? l.id = some c := by
  obtain ⟨c, there, same⟩ := Tree.exists_cursor_of_mem_leaves [] f.tree.root l member
  have found := (Tree.cursor?_eq_some_iff read.isFile.distinct).mpr ⟨there, rfl⟩
  rw [same] at found
  exact ⟨c, there, same, found⟩

theorem eq_of_id (read : f.IsRead) {k : Leaf} (member : l ∈ f.tree.root.leaves)
    (member' : k ∈ f.tree.root.leaves) (same : l.id = k.id) : l = k := by
  obtain ⟨c, -, leaf, found⟩ := read.cursor?_leaf member
  obtain ⟨d, -, leaf', found'⟩ := read.cursor?_leaf member'
  rw [same, found', Option.some.injEq] at found
  rw [← found, leaf'] at leaf
  exact (Tree.leaf.inj leaf).symm

end RuleFile.IsRead

/-- No construct that binds something unasked begins with a name. -/
theorem Tree.HasShape.first_of_implicitVariable? {t : Tree} {r : Rule} (shape : t.HasShape)
    (rule : t.rule? = some r) (binds : r.implicitVariable? = some name)
    (first : t.firstLeaf? = some l) : l.token.kind ∉ TokenKind.names := by
  have made := shape.isMadeOf rule
  rw [firstLeaf?, leaves_of_rule? rule] at first
  cases r <;> simp only [Rule.implicitVariable?, reduceCtorEq] at binds
  all_goals
    obtain ⟨k, head, noName⟩ := made
    obtain rfl : k = l := Option.some.inj (head.symm.trans first)
    exact noName

/-! ## Bindings -/

namespace SymbolTable

/-- The bindings of all environments are those of the declarations. -/
theorem Holds.mem_bindings_iff {t : SymbolTable} {ds : List Declaration} (holds : t.Holds ds) :
    b ∈ t.envs.flatMap (·.bindings) ↔ ∃ d ∈ ds, d.binding = b := by
  rw [List.mem_flatMap]
  constructor
  · rintro ⟨e, member, bound⟩
    obtain ⟨k, here⟩ := List.mem_iff_getElem?.mp member
    obtain ⟨d, declared, -, same⟩ := holds.exists_declaration here bound
    exact ⟨d, declared, same⟩
  · rintro ⟨d, declared, rfl⟩
    obtain ⟨e, member, owner⟩ := List.mem_map.mp (holds.known d declared)
    obtain ⟨k, here⟩ := List.mem_iff_getElem?.mp member
    refine ⟨e, member, ?_⟩
    rw [holds.bindings k e here, Declaration.bindingsIn, owner]
    exact List.mem_map_of_mem (List.mem_filter.mpr ⟨declared, beq_self_eq_true _⟩)

theorem mem_bindings_of_lookup {t : SymbolTable} {file : Nat} {c : Cursor}
    (found : t.lookup file c name kind = some b) :
    b ∈ t.envs.flatMap (·.bindings) ∧ b.name = name := by
  rw [lookup, lookupFrom] at found
  have named : b.name = name := by simpa using List.find?_some found
  obtain ⟨⟨k, e⟩, inside, seen⟩ := List.mem_flatMap.mp (List.mem_of_find?_eq_some found)
  have member := List.mem_of_getElem? (getElem?_of_mem_chainUpTo inside)
  exact ⟨List.mem_flatMap.mpr ⟨e, member, List.mem_reverse.mp (List.mem_filter.mp seen).1⟩, named⟩

end SymbolTable

/-! ## What a binding was made for -/

theorem Tree.mem_leaves_of_mem_children {t : Tree} (child : .leaf l ∈ t.children) :
    l ∈ t.leaves := by
  have place : Cursor.child ⟨t, []⟩ (.leaf l) ∈ t.cursors :=
    child_mem_cursorsUnder t _ (mem_cursorsUnder_self [] t) _ child
  exact (leaves_sublist_of_mem_cursorsUnder t _ place).subset (.head _)

/-- The leaf at a place that a binding was made for: the name of what is declared there, or the
first leaf of what binds it unasked. -/
inductive Place.Binds (p : Place) (l : Leaf) (b : Binding) : Prop where
  | named (declares : p.named? = some (l, b.kind)) (same : b.name = l.token.text)
  | unasked (r : Rule) (rule : p.cursor.tree.rule? = some r)
    (binds : r.implicitVariable? = some b.name) (first : p.cursor.tree.firstLeaf? = some l)

theorem Place.Binds.mem_leaves {p : Place} (binds : p.Binds l b) : l ∈ p.cursor.tree.leaves := by
  cases binds with
  | named declares => exact Tree.mem_leaves_of_mem_children (mem_of_named? declares).1
  | unasked r rule binds first => exact List.mem_of_head? first

namespace RuleSet

theorem mem_places_iff {p : Place} : p ∈ s.places ↔
    ∃ f, s.files[p.file]? = some f ∧ p.cursor ∈ f.tree.root.cursors := by
  rw [places, List.mem_flatMap]
  constructor
  · rintro ⟨⟨f, i⟩, file, here⟩
    obtain ⟨c, member, rfl⟩ := List.mem_map.mp here
    exact ⟨f, List.mk_mem_zipIdx_iff_getElem?.mp file, member⟩
  · rintro ⟨f, file, member⟩
    exact ⟨(f, p.file), List.mk_mem_zipIdx_iff_getElem?.mpr file, List.mem_map_of_mem member⟩

/-- Every binding was made for a leaf at a place of a file. -/
theorem exists_place_of_binding {d : Declaration} (declared : d ∈ s.declarations) :
    ∃ p ∈ s.places, ∃ l, p.Binds l d.binding ∧ d.binding.declaredAt = ⟨p.file, l.id⟩ := by
  obtain ⟨p, place, declared⟩ := List.mem_flatMap.mp declared
  rcases Place.exists_of_mem_declarations declared with ⟨l, named, same, there⟩ | unasked
  · exact ⟨p, place, l, .named named same, there⟩
  · obtain ⟨r, first, rule, binds, begins, -, there⟩ := Place.exists_of_unasked? unasked
    exact ⟨p, place, first, .unasked r rule binds begins, there⟩

end RuleSet

/-- A binding leads to the leaf that it was made for. -/
theorem Analysis.targetOf?_eq {a : Analysis} {i : Nat} (file : a.rules.files[i]? = some f)
    (read : f.IsRead) (member : l ∈ f.tree.root.leaves) (there : b.declaredAt = ⟨i, l.id⟩) :
    a.targetOf? b = some ⟨f.origin, editorRangeOf f.text l.token.span⟩ := by
  obtain ⟨c, -, leaf, found⟩ := read.cursor?_leaf member
  rw [targetOf?, there]
  simp [file, found, leaf, Tree.span?]

/-! ## Names under carets -/

namespace Tree

variable {line column : Nat}

theorem mem_leaves_of_lastBefore? {t : Tree} {h : Hit}
    (found : t.lastBefore? line column = some h) : h.leaf ∈ t.leaves := by
  obtain ⟨l, last, rfl⟩ := Option.map_eq_some_iff.mp found
  exact List.mem_reverse.mp (List.mem_of_find?_eq_some last)

mutual

/-- A caret belongs to a leaf of the tree. -/
theorem mem_leaves_of_hit? : (t : Tree) → ∀ h, t.hit? line column = some h → h.leaf ∈ t.leaves
  | leaf l, h, found => by
    obtain ⟨n, -, rfl⟩ := Option.map_eq_some_iff.mp found
    exact .head _
  | node n r none cs, h, found => nomatch found
  | node n r (some s) cs, h, found => by
    rw [hit?] at found
    split at found
    case isFalse => cases found
    case isTrue =>
      split at found
      case h_1 k among =>
        cases found
        exact mem_leaves_of_hitAmong? cs h among
      case h_2 => exact mem_leaves_of_lastBefore? found

theorem mem_leaves_of_hitAmong? : (ts : List Tree) →
    ∀ h, hitAmong? line column ts = some h → h.leaf ∈ leavesOfAll ts
  | [], _, found => nomatch found
  | t :: ts, h, found => by
    rw [hitAmong?] at found
    rw [leavesOfAll]
    split at found
    case h_1 k here =>
      cases found
      exact List.mem_append_left _ (mem_leaves_of_hit? t h here)
    case h_2 => exact List.mem_append_right _ (mem_leaves_of_hitAmong? ts h found)

end

end Tree

theorem SyntaxTree.mem_leaves_of_caretAt? {t : SyntaxTree} {line column : Nat} {c : Caret}
    (found : t.caretAt? line column = some c) (here : c.leaf = some l) : l ∈ t.root.leaves := by
  obtain ⟨span, -, found⟩ := Option.bind_eq_some_iff.mp found
  obtain ⟨_, -, found⟩ := Option.bind_eq_some_iff.mp found
  cases hit : t.root.hit? line column with
  | none => simp [hit] at found; subst found; cases here
  | some h =>
    simp [hit] at found
    subst found
    cases here
    exact Tree.mem_leaves_of_hit? t.root h hit

/-- What is looked up under a caret is a name of the tree. -/
theorem SyntaxTree.mem_leaves_of_nameAt? {t : SyntaxTree} {line column : Nat} {c : Caret}
    (resolved : t.caretAt? line column = some c) (found : t.nameAt? c line column = some l) :
    l ∈ t.root.leaves ∧ l.token.isName := by
  unfold nameAt? at found
  split at found
  case h_1 k own =>
    cases found
    obtain ⟨here, isName⟩ := Option.filter_eq_some_iff.mp own
    exact ⟨mem_leaves_of_caretAt? resolved here, isName⟩
  case h_2 =>
    have isName := List.find?_some found
    simp only [Bool.and_eq_true] at isName
    exact ⟨List.mem_of_find?_eq_some found, isName.1.1⟩

/-! ## Where names lead -/

namespace Analysis

variable {i : AnalysisInput} {n : Leaf}

/-- The name that a caret of an editor is resolved to. -/
def nameAt? (a : Analysis) (p : EditorPosition) : Option Leaf := do
  let position := positionOfEditor a.rules.edited.text p
  let caret ← a.rules.edited.tree.caretAt? position.line position.column
  a.rules.edited.tree.nameAt? caret position.line position.column

theorem definition?_eq (a : Analysis) (p : EditorPosition) :
    a.definition? p = (a.nameAt? p).bind fun n => (a.bindingOf? n).bind a.targetOf? :=
  (Option.bind_assoc ..).symm

theorem mem_leaves_of_nameAt? {a : Analysis} {p : EditorPosition} (under : a.nameAt? p = some n) :
    n ∈ a.rules.edited.tree.root.leaves ∧ n.token.isName := by
  obtain ⟨caret, resolved, found⟩ := Option.bind_eq_some_iff.mp under
  exact SyntaxTree.mem_leaves_of_nameAt? resolved found

/-- All bindings of an analysis are declared in its files. -/
theorem mem_bindings_iff (i : AnalysisInput) :
    let a := ofInput i
    b ∈ a.symbols.envs.flatMap (·.bindings) ↔ ∃ d ∈ a.rules.declarations, d.binding = b := by
  intro a
  have files : ∀ f ∈ a.rules.files, f.tree.root.IsFile := fun f => RuleSet.isFile_of_mem_files
  obtain ⟨filled, walk⟩ := SymbolTable.ofRuleSet_eq files
  have holds := walk.charts.holds
  rw [← filled] at holds
  exact holds.mem_bindings_iff

theorem exists_place_of_mem_bindings
    (bound : b ∈ (ofInput i).symbols.envs.flatMap (·.bindings)) :
    ∃ p ∈ (ofInput i).rules.places, ∃ l, p.Binds l b ∧ b.declaredAt = ⟨p.file, l.id⟩ := by
  obtain ⟨d, declared, rfl⟩ := (mem_bindings_iff i).mp bound
  exact RuleSet.exists_place_of_binding declared

/-- A binding that a name of the edited file declares is declared there under that name. -/
theorem named_of_declaredAt? (member : n ∈ (RuleFile.edited i.edited).tree.root.leaves)
    (isName : n.token.isName) (found : (ofInput i).symbols.declaredAt? ⟨0, n.id⟩ = some b) :
    b.declaredAt = ⟨0, n.id⟩ ∧ ∃ c ∈ (RuleFile.edited i.edited).tree.root.cursors,
      (⟨0, c⟩ : Place).named? = some (n, b.kind) ∧ b.name = n.token.text := by
  have read := RuleFile.edited_isRead i.edited
  have at_n : b.declaredAt = ⟨0, n.id⟩ := by simpa using List.find?_some found
  refine ⟨at_n, ?_⟩
  obtain ⟨⟨k, c⟩, place, l, binds, there⟩ :=
    exists_place_of_mem_bindings (List.mem_of_find?_eq_some found)
  obtain ⟨f, file, here⟩ := RuleSet.mem_places_iff.mp place
  obtain ⟨rfl, same⟩ : 0 = k ∧ n.id = l.id := by simpa [at_n] using there
  cases file
  have leaf : l ∈ (RuleFile.edited i.edited).tree.root.leaves :=
    (Tree.leaves_sublist_of_mem_cursorsUnder _ c here).subset binds.mem_leaves
  obtain rfl : n = l := read.eq_of_id member leaf same
  -- What is bound unasked has the number of a first leaf, and that is no name.
  cases binds with
  | named declares same => exact ⟨c, here, declares, same⟩
  | unasked r rule binds first =>
    have noName := (read.shape_of_mem here).first_of_implicitVariable? rule binds first
    exact absurd isName (by simpa [Token.isName, TokenKind.names] using noName)

/-- A name at which something is declared has a binding. -/
theorem declaredAt?_of_named {c : Cursor} (place : c ∈ (RuleFile.edited i.edited).tree.root.cursors)
    (named : (⟨0, c⟩ : Place).named? = some (n, kind)) :
    ∃ b, (ofInput i).symbols.declaredAt? ⟨0, n.id⟩ = some b := by
  refine Option.isSome_iff_exists.mp (List.find?_isSome.mpr ?_)
  let d : Declaration := ⟨(Place.scopesAmong 0 c.above).head?, n.token.text, kind, ⟨0, n.id⟩,
    (Place.mk 0 c).visibleFrom n⟩
  have declared : d ∈ (Place.mk 0 c).declarations := by
    simp [Place.declarations, named, d]
  refine ⟨d.binding, (mem_bindings_iff i).mpr ⟨d, ?_, rfl⟩, beq_self_eq_true _⟩
  exact List.mem_flatMap.mpr ⟨_, place_mem_ofTexts place, declared⟩

end Analysis

/-- A target leads to a name: to a token of that text in a file that declares something, or, where a
variable is bound unasked, to the first token of the construct that binds it. -/
inductive DefinitionTarget.LeadsTo (t : DefinitionTarget) (s : RuleSet) (name : String) : Prop where
  | named (f : RuleFile) (file : f ∈ s.files) (c : Cursor) (place : c ∈ f.tree.root.cursors)
    (l : Leaf) (kind : BindingKind) (declares : (⟨0, c⟩ : Place).named? = some (l, kind))
    (leaf : t = ⟨f.origin, editorRangeOf f.text l.token.span⟩)
    (chars : textIn f.text t.range = name.toList)
  | unasked (f : RuleFile) (file : f ∈ s.files) (c : Cursor) (place : c ∈ f.tree.root.cursors)
    (l : Leaf) (binds : c.tree.rule?.bind (·.implicitVariable?) = some name)
    (first : c.tree.firstLeaf? = some l)
    (leaf : t = ⟨f.origin, editorRangeOf f.text l.token.span⟩)
    (chars : textIn f.text t.range = l.token.text.toList)

namespace Analysis

variable {i : AnalysisInput} {n : Leaf} {target : DefinitionTarget}

/-- The leaf that a binding was made for is where the binding leads to. -/
theorem exists_target (bound : b ∈ (ofInput i).symbols.envs.flatMap (·.bindings)) :
    ∃ target, (ofInput i).targetOf? b = some target ∧ target.LeadsTo (ofInput i).rules b.name := by
  obtain ⟨⟨k, c⟩, place, l, binds, there⟩ := exists_place_of_mem_bindings bound
  obtain ⟨f, file, here⟩ := RuleSet.mem_places_iff.mp place
  have member := List.mem_of_getElem? file
  have read : f.IsRead := RuleSet.isRead_of_mem_files member
  have leaf : l ∈ f.tree.root.leaves :=
    (Tree.leaves_sublist_of_mem_cursorsUnder _ c here).subset binds.mem_leaves
  have chars := read.textIn_leaf leaf
  refine ⟨_, targetOf?_eq file read leaf there, ?_⟩
  cases binds with
  | named declares same => exact .named f member c here l b.kind declares rfl (same ▸ chars)
  | unasked r rule binds first =>
    exact .unasked f member c here l (by rw [rule]; exact binds) first rfl chars

/-- A name of the edited file has the binding of that name. -/
theorem mem_bindings_of_bindingOf? (member : n ∈ (RuleFile.edited i.edited).tree.root.leaves)
    (isName : n.token.isName) (found : (ofInput i).bindingOf? n = some b) :
    b ∈ (ofInput i).symbols.envs.flatMap (·.bindings) ∧ b.name = n.token.text := by
  unfold bindingOf? at found
  split at found
  case h_1 declared =>
    cases found
    obtain ⟨-, c, -, -, same⟩ := named_of_declaredAt? member isName declared
    exact ⟨List.mem_of_find?_eq_some declared, same⟩
  case h_2 =>
    obtain ⟨c, -, found⟩ := Option.bind_eq_some_iff.mp found
    obtain ⟨kind, -, found⟩ := List.exists_of_findSome?_eq_some found
    exact SymbolTable.mem_bindings_of_lookup found

/-- A name at which something is declared leads to itself. -/
theorem targetOf?_of_named {c : Cursor} (place : c ∈ (RuleFile.edited i.edited).tree.root.cursors)
    (named : (⟨0, c⟩ : Place).named? = some (n, kind)) (isName : n.token.isName)
    (found : (ofInput i).bindingOf? n = some b) : (ofInput i).targetOf? b =
      some ⟨i.edited.origin, editorRangeOf i.edited.text n.token.span⟩ := by
  have child := (Place.mem_of_named? named).1
  have leaf : n ∈ (RuleFile.edited i.edited).tree.root.leaves :=
    (Tree.leaves_sublist_of_mem_cursorsUnder _ c place).subset
      (Tree.mem_leaves_of_mem_children child)
  obtain ⟨b', declared⟩ := declaredAt?_of_named place named
  obtain rfl : b' = b := by simpa [bindingOf?, declared] using found
  obtain ⟨there, -⟩ := named_of_declaredAt? leaf isName declared
  have file : (ofInput i).rules.files[0]? = some (RuleFile.edited i.edited) := rfl
  rw [targetOf?_eq file (RuleFile.edited_isRead i.edited) leaf there, RuleFile.edited_origin,
    RuleFile.edited_text]

end Analysis

/-- **Definitions lead to names.** What is under a caret leads to a token of its own text in the
file that the target tells, or, if it is a variable that a construct binds unasked, to the first
token of the construct. A name at which something is declared leads to itself. -/
theorem definitions_lead_to_names (i : AnalysisInput) {p : EditorPosition}
    {target : DefinitionTarget} (found : (Analysis.ofInput i).definition? p = some target) :
    let a := Analysis.ofInput i
    ∃ name, a.nameAt? p = some name ∧ target.LeadsTo a.rules name.token.text ∧
      ∀ c ∈ a.rules.edited.tree.root.cursors, ∀ kind,
        (⟨0, c⟩ : Place).named? = some (name, kind) →
          target = ⟨i.edited.origin, editorRangeOf i.edited.text name.token.span⟩ := by
  intro a
  rw [Analysis.definition?_eq] at found
  obtain ⟨name, under, found⟩ := Option.bind_eq_some_iff.mp found
  obtain ⟨b, bound, leads⟩ := Option.bind_eq_some_iff.mp found
  obtain ⟨leaf, isName⟩ := Analysis.mem_leaves_of_nameAt? under
  obtain ⟨declared, same⟩ := Analysis.mem_bindings_of_bindingOf? leaf isName bound
  refine ⟨name, under, ?_, fun c place kind named => ?_⟩
  · obtain ⟨target', leads', there⟩ := Analysis.exists_target declared
    obtain rfl : target' = target := Option.some.inj (leads'.symm.trans leads)
    exact same ▸ there
  · exact Option.some.inj (leads.symm.trans (Analysis.targetOf?_of_named place named isName bound))

/-- A constant that is read in one file and declared in another. -/
def importedConstant : AnalysisInput :=
  ⟨⟨"main", "output o $rate".toList⟩, [⟨"rates", "constant $rate = 2".toList⟩], .empty⟩

/-- What is read in one file leads to its name in the other. -/
theorem imported_constant_leads_to_its_file :
    let a := Analysis.ofInput importedConstant
    let target : DefinitionTarget := ⟨"rates", ⟨⟨0, 9⟩, ⟨0, 14⟩⟩⟩
    a.definition? ⟨0, 10⟩ = some target ∧ target.LeadsTo a.rules "$rate" := by
  intro a target
  have found : a.definition? ⟨0, 10⟩ = some target := by decide +kernel
  obtain ⟨name, under, leads, -⟩ := definitions_lead_to_names _ found
  have word : (a.nameAt? ⟨0, 10⟩).map (·.token.text) = some "$rate" := by decide +kernel
  rw [under, Option.map_some, Option.some.injEq] at word
  exact ⟨found, word ▸ leads⟩

end XuleLang
