import XuleLang.Proofs.Analysis.DeclaredName
import XuleLang.Proofs.Syntax.EditorRange
import XuleLang.Proofs.Vocabulary.Registration

/-!
What is reported, and what is not.

A name is used at a node of its own, whose only leaf it is. So what is found out about a name can be
said at that node, also where it is found at another one, the call around the name of a function.
Said so, the names that mean nothing are leaves of the tree, and their order is that of the text.

`RuleSet.MeansNothing` says by the trees alone which names mean nothing. The diagnostics are the
complaints about the text and one for each such name, on the name and nothing else.
-/

namespace XuleLang

/-! ## Settings -/

/-- Whether a finding is looked for. -/
def CheckSettings.checks (settings : CheckSettings) : Finding → Bool
  | .syntaxError _ => true
  | .unknownFunction _ => settings.functionNames
  | .unknownProperty _ | .unknownOutputAttribute _ => settings.propertyNames
  | .unknownVariable _ => settings.variableNames

/-- What can be switched off. -/
inductive NameCheck where
  | ofFunctions | ofProperties | ofVariables
deriving DecidableEq, Repr

/-- The codes of what a check finds. -/
def NameCheck.codes : NameCheck → List String
  | ofFunctions => ["unknown-function"]
  | ofProperties => ["unknown-property", "unknown-output-attribute"]
  | ofVariables => ["unknown-variable"]

/-- The same settings with one check switched off. -/
def CheckSettings.without (settings : CheckSettings) : NameCheck → CheckSettings
  | .ofFunctions => { settings with functionNames := false }
  | .ofProperties => { settings with propertyNames := false }
  | .ofVariables => { settings with variableNames := false }

/-- A check that is switched off no longer looks for what has one of its codes. -/
theorem CheckSettings.checks_without (settings : CheckSettings) (w : NameCheck) (f : Finding) :
    (settings.without w).checks f = (settings.checks f && !w.codes.contains f.code) := by
  cases w <;> cases f <;> simp [without, checks, NameCheck.codes, Finding.code]

/-! ## Findings at names -/

namespace NameContext

variable {x : NameContext} {settings : CheckSettings} {c : Cursor} {above : List Tree} {t : Tree}

/-- What is wrong with the name that the node of a place is made of. -/
def finding? (x : NameContext) (c : Cursor) : Option Finding := do
  let name ← c.tree.leadingName?
  match c.tree.rule? with
  | some .functionRef =>
    if x.vocabulary.contains .function name || x.resolves c name .function then none
    else some (.unknownFunction name)
  | some .propertyRef =>
    if x.vocabulary.contains .property name then none else some (.unknownProperty name)
  | some .outputAttributeName =>
    if x.vocabulary.contains .outputAttribute name || x.resolves c name .outputAttribute then none
    else some (.unknownOutputAttribute name)
  | some .variableRead =>
    if x.resolves c name .variableName || x.resolves c name .constant then none
    else some (.unknownVariable name)
  | _ => none

/-- What is wrong with a name and looked for, at the place of the name. -/
def ownCheck? (x : NameContext) (settings : CheckSettings) (c : Cursor) :
    Option (Cursor × Finding) :=
  ((x.finding? c).filter settings.checks).map (c, ·)

theorem check?_of_functionRef (rule : c.tree.rule? = some .functionRef) :
    x.check? settings c = none := by
  rw [check?, rule]

theorem ownCheck?_of_callExpression (rule : c.tree.rule? = some .callExpression) :
    x.ownCheck? settings c = none := by
  rw [ownCheck?, finding?, rule]
  cases c.tree.leadingName? <;> rfl

/-- What is reported if a name is not known and that is looked for. -/
theorem report_eq {known : String → Bool} {on : Bool} {f : String → Finding} (named : Option String)
    (checks : ∀ name, settings.checks (f name) = on) :
    (if on then (do let name ← named; guard !known name; return (c, f name)) else none) =
      ((do let name ← named; if known name then none else some (f name)).filter
        settings.checks).map (c, ·) := by
  cases named with
  | none => exact ite_self none
  | some name =>
    have wanted := checks name
    change (if on then (do guard !known name; return (c, f name)) else none) =
      ((if known name then none else some (f name)).filter settings.checks).map (c, ·)
    cases known name with
    | true => cases on <;> rfl
    | false =>
      rw [if_neg Bool.false_ne_true, Option.filter_some, wanted]
      cases on <;> rfl

/-- All names but those of functions are reported where they are. -/
theorem check?_eq_ownCheck? (noCall : c.tree.rule? ≠ some .callExpression)
    (noCallee : c.tree.rule? ≠ some .functionRef) :
    x.check? settings c = x.ownCheck? settings c := by
  rw [ownCheck?, finding?, check?]
  split
  case h_1 rule => exact absurd rule noCall
  case h_2 rule | h_3 rule | h_4 rule =>
    rw [rule]
    exact report_eq c.tree.leadingName? fun _ => rfl
  case h_5 noProperty noAttribute noVariable =>
    cases c.tree.leadingName? with
    | none => rfl
    | some name =>
      dsimp only [Option.bind_eq_bind, Option.bind_some]
      split <;> first | contradiction | rfl

/-- The name of a function is reported at the call around it. -/
theorem check?_call {u : Tree} (rule : c.tree.rule? = some .callExpression)
    (callee : c.tree.childOfRule? .functionRef = some u) :
    x.check? settings c = x.ownCheck? settings (c.child u) := by
  have ofFunction : (c.child u).tree.rule? = some .functionRef := by
    simpa [Cursor.child] using List.find?_some callee
  rw [check?, rule, ownCheck?, finding?, checkCall?, ofFunction, Cursor.childOfRule?, callee]
  exact report_eq u.leadingName? fun _ => rfl

/-- Calls by a qualified name are left alone. -/
theorem check?_of_no_callee (rule : c.tree.rule? = some .callExpression)
    (qualified : c.tree.childOfRule? .functionRef = none) : x.check? settings c = none := by
  rw [check?, rule, checkCall?, Cursor.childOfRule?, qualified]
  exact ite_self none

theorem check?_leaf (l : Leaf) (above : List Tree) : x.check? settings ⟨.leaf l, above⟩ = none :=
  rfl

theorem ownCheck?_leaf (l : Leaf) (above : List Tree) :
    x.ownCheck? settings ⟨.leaf l, above⟩ = none :=
  (check?_eq_ownCheck? (by simp [Tree.rule?]) (by simp [Tree.rule?])).symm

theorem filterMap_cursorsOfAll {α : Type} {f g : Cursor → Option α} {ts : List Tree}
    (all : ∀ t ∈ ts, (t.cursorsUnder above).filterMap f = (t.cursorsUnder above).filterMap g) :
    (Tree.cursorsOfAll above ts).filterMap f = (Tree.cursorsOfAll above ts).filterMap g := by
  induction ts with
  | nil => rfl
  | cons t ts ih =>
    obtain ⟨first, others⟩ := List.forall_mem_cons.mp all
    rw [Tree.cursorsOfAll, List.filterMap_append, List.filterMap_append, first, ih others]

/-- The name of a function, at its own place and that of its leaf. -/
theorem filterMap_callee {n : Nat} {span : Option Span} {cs : List Tree}
    (made : Rule.functionRef.IsMadeOf cs) (above : List Tree) :
    ((Tree.node n .functionRef span cs).cursorsUnder above).filterMap (x.check? settings) = [] ∧
      ((Tree.node n .functionRef span cs).cursorsUnder above).filterMap (x.ownCheck? settings) =
        (x.ownCheck? settings ⟨.node n .functionRef span cs, above⟩).toList := by
  obtain ⟨l, rfl, -⟩ := made
  simp only [Tree.cursorsUnder, Tree.cursorsOfAll, List.append_nil]
  constructor
  · rw [List.filterMap_cons_none (check?_of_functionRef rfl),
      List.filterMap_cons_none (check?_leaf l _), List.filterMap_nil]
  · rw [List.filterMap_cons, List.filterMap_cons_none (ownCheck?_leaf l _), List.filterMap_nil]
    cases x.ownCheck? settings ⟨.node n .functionRef span [.leaf l], above⟩ <;> rfl

/-- What is found at a call by the name of a function is what is found at the name. -/
theorem filterMap_namedCall {n : Nat} {span : Option Span} {callee arguments : Tree}
    (ofFunction : callee.rule? = some .functionRef) (shape : callee.HasShape)
    (inArguments : ∀ above, (arguments.cursorsUnder above).filterMap (x.check? settings) =
      (arguments.cursorsUnder above).filterMap (x.ownCheck? settings)) (above : List Tree) :
    let call := Tree.node n .callExpression span [callee, arguments]
    (call.cursorsUnder above).filterMap (x.check? settings) =
      (call.cursorsUnder above).filterMap (x.ownCheck? settings) := by
  intro call
  let c : Cursor := ⟨call, above⟩
  have found : c.tree.childOfRule? .functionRef = some callee := by
    simp [c, call, Tree.childOfRule?, Tree.children, ofFunction]
  have silent : x.ownCheck? settings c = none := ownCheck?_of_callExpression rfl
  cases shape with
  | leaf l => cases ofFunction
  | @node cs r m span' made =>
    cases ofFunction
    obtain ⟨nothing, own⟩ : _ ∧ _ := filterMap_callee made (c.tree :: above)
    rw [Tree.cursorsUnder, List.filterMap_cons_none silent, List.filterMap_cons,
      check?_call rfl found]
    simp only [Tree.cursorsOfAll, List.append_nil, List.filterMap_append]
    rw [nothing, own, inArguments, Cursor.child]
    cases x.ownCheck? settings ⟨.node m .functionRef span' cs, c.tree :: above⟩ <;> rfl

/-- Whether it is asked at calls or at names, the same is found in the same order. -/
theorem filterMap_check? (shape : t.HasShape) (free : t.rule? ≠ some .functionRef)
    (above : List Tree) : (t.cursorsUnder above).filterMap (x.check? settings) =
      (t.cursorsUnder above).filterMap (x.ownCheck? settings) := by
  induction shape generalizing above with
  | leaf l =>
    rw [Tree.cursorsUnder, List.filterMap_cons_none (check?_leaf l above),
      List.filterMap_cons_none (ownCheck?_leaf l above), List.filterMap_nil, List.filterMap_nil]
  | @node cs r n span made parts callees ih =>
    let c : Cursor := ⟨.node n r span cs, above⟩
    have below (noCallee : ∀ t ∈ cs, t.rule? ≠ some .functionRef) :=
      filterMap_cursorsOfAll fun t member => ih t member (noCallee t member) (c.tree :: above)
    by_cases call : r = .callExpression
    case neg =>
      have noCallee : ∀ t ∈ cs, t.rule? ≠ some .functionRef :=
        fun t member callee => call (callees t member callee)
      have here : x.check? settings c = x.ownCheck? settings c :=
        check?_eq_ownCheck? (by simpa [c, Tree.rule?] using call) free
      rw [Tree.cursorsUnder, List.filterMap_cons, List.filterMap_cons, here, below noCallee]
    case pos =>
      subst call
      obtain ⟨callee, arguments, rfl, named, listed⟩ := made
      have noCallee : arguments.rule? ≠ some .functionRef := by simp [listed]
      rcases named with ofFunction | qualified
      · exact filterMap_namedCall ofFunction (parts callee (by simp))
          (ih arguments (by simp) noCallee) above
      -- A call by a qualified name has no finding of its own, and no name of a function below it.
      · have none : c.tree.childOfRule? .functionRef = none := by
          simp [c, Tree.childOfRule?, Tree.children, qualified, listed]
        rw [Tree.cursorsUnder, List.filterMap_cons_none (check?_of_no_callee rfl none),
          List.filterMap_cons_none (ownCheck?_of_callExpression rfl)]
        exact below (by simp [qualified, listed])

end NameContext

/-! ## The leaf of a name -/

/-- Rules whose nodes are names that are used. -/
def Rule.namesUsed : List Rule := [.functionRef, .propertyRef, .outputAttributeName, .variableRead]

namespace Tree

variable {t : Tree} {l : Leaf} {name : String}

/-- A name that is used is the only leaf of its node, unless it is missing. -/
theorem HasShape.children_of_namesUsed {r : Rule} (shape : t.HasShape) (rule : t.rule? = some r)
    (uses : r ∈ Rule.namesUsed) :
    t.children = [] ∨ ∃ l, t.children = [.leaf l] ∧ l.token.kind.isIdentifierLike := by
  have made := shape.isMadeOf rule
  simp only [Rule.namesUsed, List.mem_cons, List.not_mem_nil, or_false] at uses
  obtain rfl | rfl | rfl | rfl := uses
  case inl =>
    obtain ⟨l, sole, kind⟩ := made
    refine .inr ⟨l, sole, ?_⟩
    rcases List.mem_pair.mp kind with identifier | variableName
    · rw [identifier]; rfl
    · rw [variableName]; rfl
  case inr.inl =>
    obtain missing | ⟨l, sole, identifier | keyword⟩ := made
    · exact .inl missing
    · exact .inr ⟨l, sole, by rw [identifier]; rfl⟩
    · refine .inr ⟨l, sole, ?_⟩
      cases kind : l.token.kind <;> simp_all [TokenKind.isKeyword, TokenKind.isIdentifierLike]
  all_goals
    obtain ⟨l, sole, kind⟩ := made
    exact .inr ⟨l, sole, by rw [kind]; rfl⟩

/-- The name that is used is the text of the leaf. -/
theorem HasShape.leadingName?_eq_some_iff {r : Rule} (shape : t.HasShape) (rule : t.rule? = some r)
    (uses : r ∈ Rule.namesUsed) :
    t.leadingName? = some name ↔ ∃ l, t.children = [.leaf l] ∧ l.token.text = name := by
  rw [leadingName?, firstLeaf?, leaves_of_rule? rule]
  rcases shape.children_of_namesUsed rule uses with missing | ⟨l, sole, identifier⟩
  · rw [missing]
    exact ⟨nofun, nofun⟩
  · rw [sole]
    change (do guard l.token.kind.isIdentifierLike; return l.token.text) = some name ↔ _
    rw [identifier]
    change some l.token.text = some name ↔ _
    simp

theorem soleLeaf?_eq_some_iff : t.soleLeaf? = some l ↔ t.children = [.leaf l] := by
  rw [soleLeaf?_eq_some]
  constructor
  · rintro ⟨n, r, span, rfl⟩
    rfl
  · intro sole
    cases t with
    | leaf => cases sole
    | node n r span cs => exact ⟨n, r, span, by rw [show cs = _ from sole]⟩

end Tree

/-! ## Names that mean nothing -/

namespace RuleSet

/-- A name that is used at a place of the edited file means nothing there. -/
inductive MeansNothing (s : RuleSet) (v : Vocabulary) (c : Cursor) (name : String) :
    Finding → Prop where
  /-- The name of a function that is called, and is neither built in nor declared in any file. -/
  | function (rule : c.tree.rule? = some .functionRef)
    (called : c.parent?.bind Tree.rule? = some .callExpression)
    (unknown : v.contains .function name = false)
    (undeclared : ¬∃ f ∈ s.files, f.Declares name .function) :
    MeansNothing s v c name (.unknownFunction name)
  /-- The name of a property, and none of the properties that there are. -/
  | property (rule : c.tree.rule? = some .propertyRef)
    (unknown : v.contains .property name = false) :
    MeansNothing s v c name (.unknownProperty name)
  /-- The name of an output attribute, and neither built in nor declared in any file. -/
  | outputAttribute (rule : c.tree.rule? = some .outputAttributeName)
    (unknown : v.contains .outputAttribute name = false)
    (undeclared : ¬∃ f ∈ s.files, f.Declares name .outputAttribute) :
    MeansNothing s v c name (.unknownOutputAttribute name)
  /-- A variable that is read, and neither visible there nor a constant of any file. -/
  | variableName (rule : c.tree.rule? = some .variableRead)
    (invisible : s.lexicalLookup? ⟨0, c⟩ name .variableName = none)
    (undeclared : ¬∃ f ∈ s.files, f.Declares name .constant) :
    MeansNothing s v c name (.unknownVariable name)

variable {edited : SourceText} {imports : List SourceText} {s : RuleSet} {v : Vocabulary}
  {c : Cursor} {name : String} {kind : BindingKind} {f : Finding}

theorem MeansNothing.exists_rule (nothing : s.MeansNothing v c name f) :
    ∃ r ∈ Rule.namesUsed, c.tree.rule? = some r := by
  cases nothing with
  | function rule => exact ⟨_, by decide, rule⟩
  | property rule => exact ⟨_, by decide, rule⟩
  | outputAttribute rule => exact ⟨_, by decide, rule⟩
  | variableName rule => exact ⟨_, by decide, rule⟩

end RuleSet

/-- In a file, the names of functions are called. -/
theorem RuleFile.IsRead.called {f : RuleFile} {c : Cursor} (read : f.IsRead)
    (member : c ∈ f.tree.root.cursors) (rule : c.tree.rule? = some .functionRef) :
    c.parent?.bind Tree.rule? = some .callExpression := by
  rcases Tree.exists_parent_of_mem_cursorsUnder _ c member with rfl | ⟨p, there, u, child, rfl⟩
  · have isFile := read.isFile.rule
    rw [show f.tree.root.rule? = _ from rule] at isFile
    cases isFile
  · change p.tree.rule? = _
    have shape := read.shape_of_mem there
    cases tree : p.tree with
    | leaf l => rw [tree] at child; cases child
    | node n r span cs =>
      rw [tree] at child shape
      cases shape with
      | node _ _ _ _ callees => rw [callees u child rule]; rfl

section Meaning

variable {edited : SourceText} {imports : List SourceText} {c : Cursor} {name : String}
  {kind : BindingKind} {f : Finding}

theorem resolves_eq_false_iff (v : Vocabulary)
    (member : c ∈ (RuleFile.edited edited).tree.root.cursors) (other : kind ≠ .variableName) :
    let s := RuleSet.ofTexts edited imports
    NameContext.resolves ⟨v, .ofRuleSet s⟩ c name kind = false ↔
      ¬∃ f ∈ s.files, f.Declares name kind := by
  intro s
  have known : ((SymbolTable.ofRuleSet s).lookup 0 c name kind).isSome ↔
      ∃ f ∈ s.files, f.Declares name kind :=
    lookup_isSome_iff (place_mem_ofTexts member) other
  rw [← known, Bool.not_eq_true]
  rfl

theorem resolves_variableName_eq_false_iff (v : Vocabulary)
    (member : c ∈ (RuleFile.edited edited).tree.root.cursors) :
    let s := RuleSet.ofTexts edited imports
    NameContext.resolves ⟨v, .ofRuleSet s⟩ c name .variableName = false ↔
      s.lexicalLookup? ⟨0, c⟩ name .variableName = none := by
  intro s
  rw [← RuleSet.lookup_eq (fun f => RuleSet.isFile_of_mem_files) (place_mem_ofTexts member)]
  exact Option.isSome_eq_false_iff.trans Option.isNone_iff_eq_none

theorem unknown_iff {known : Bool} {g : Finding} :
    (if known then none else some g) = some f ↔ known = false ∧ g = f := by
  cases known <;> simp

/-- What is found out about names is what is wrong with them. -/
theorem finding?_eq_some_iff (v : Vocabulary)
    (member : c ∈ (RuleFile.edited edited).tree.root.cursors) :
    let s := RuleSet.ofTexts edited imports
    NameContext.finding? ⟨v, .ofRuleSet s⟩ c = some f ↔
      ∃ l, c.tree.children = [.leaf l] ∧ s.MeansNothing v c l.token.text f := by
  intro s
  have read := RuleFile.edited_isRead edited
  have shape := read.shape_of_mem member
  have isDeclared {kind : BindingKind} {name : String} (other : kind ≠ .variableName) :
      NameContext.resolves ⟨v, .ofRuleSet s⟩ c name kind = false ↔
        ¬∃ f ∈ s.files, f.Declares name kind := resolves_eq_false_iff v member other
  constructor
  · intro found
    obtain ⟨name, named, found⟩ := Option.bind_eq_some_iff.mp found
    suffices nothing : s.MeansNothing v c name f by
      obtain ⟨r, uses, rule⟩ := nothing.exists_rule
      obtain ⟨l, sole, rfl⟩ := (shape.leadingName?_eq_some_iff rule uses).mp named
      exact ⟨l, sole, nothing⟩
    split at found
    case h_1 rule =>
      obtain ⟨unknown, rfl⟩ := unknown_iff.mp found
      obtain ⟨unknown, undeclared⟩ := Bool.or_eq_false_iff.mp unknown
      exact .function rule (read.called member rule) unknown ((isDeclared (by simp)).mp undeclared)
    case h_2 rule =>
      obtain ⟨unknown, rfl⟩ := unknown_iff.mp found
      exact .property rule unknown
    case h_3 rule =>
      obtain ⟨unknown, rfl⟩ := unknown_iff.mp found
      obtain ⟨unknown, undeclared⟩ := Bool.or_eq_false_iff.mp unknown
      exact .outputAttribute rule unknown ((isDeclared (by simp)).mp undeclared)
    case h_4 rule =>
      obtain ⟨unknown, rfl⟩ := unknown_iff.mp found
      obtain ⟨invisible, undeclared⟩ := Bool.or_eq_false_iff.mp unknown
      exact .variableName rule ((resolves_variableName_eq_false_iff _ member).mp invisible)
        ((isDeclared (by simp)).mp undeclared)
    case h_5 => cases found
  · rintro ⟨l, sole, nothing⟩
    obtain ⟨r, uses, rule⟩ := nothing.exists_rule
    have named := (shape.leadingName?_eq_some_iff rule uses).mpr ⟨l, sole, rfl⟩
    rw [NameContext.finding?, named]
    cases nothing with
    | function rule called unknown undeclared =>
      simp [rule, unknown, (isDeclared (by simp)).mpr undeclared]
    | property rule unknown => simp [rule, unknown]
    | outputAttribute rule unknown undeclared =>
      simp [rule, unknown, (isDeclared (by simp)).mpr undeclared]
    | variableName rule invisible undeclared =>
      have invisible : NameContext.resolves ⟨v, .ofRuleSet s⟩ c l.token.text .variableName =
          false := (resolves_variableName_eq_false_iff _ member).mpr invisible
      simp [rule, invisible, (isDeclared (by simp)).mpr undeclared]

end Meaning

/-- A name that means nothing: where it is used, the leaf that it is, and what is wrong with it. -/
structure UnknownName where
  place : Cursor
  leaf : Leaf
  finding : Finding

namespace UnknownName

/-- What is wrong is shown on the name. -/
def diagnostic (u : UnknownName) (text : List Char) : Diagnostic :=
  ⟨editorRangeOf text u.leaf.token.span, u.finding⟩

/-- The one name ends before the other one, and is shown before it. -/
def Precedes (text : List Char) (u v : UnknownName) : Prop :=
  u.leaf.token.span.stop.offset ≤ v.leaf.token.span.start.offset ∧
    (u.diagnostic text).range.start.Precedes (v.diagnostic text).range.start

end UnknownName

namespace NameContext

/-- The name at a place, if it means nothing and that is looked for. -/
def unknownName? (x : NameContext) (settings : CheckSettings) (c : Cursor) :
    Option UnknownName := do
  let leaf ← c.tree.soleLeaf?
  let finding ← (x.finding? c).filter settings.checks
  return ⟨c, leaf, finding⟩

/-- The names in a tree that mean nothing, as far as they are looked for. -/
def unknownNames (x : NameContext) (settings : CheckSettings) (t : Tree) : List UnknownName :=
  t.cursors.filterMap (x.unknownName? settings)

theorem unknownName?_eq_some_iff {x : NameContext} {settings : CheckSettings} {c : Cursor}
    {u : UnknownName} : x.unknownName? settings c = some u ↔
      c = u.place ∧ u.place.tree.children = [.leaf u.leaf] ∧ settings.checks u.finding ∧
        x.finding? u.place = some u.finding := by
  simp only [unknownName?, Option.bind_eq_bind, Option.bind_eq_some_iff, Option.filter_eq_some_iff,
    Option.pure_def, Option.some.injEq, Tree.soleLeaf?_eq_some_iff]
  constructor
  · rintro ⟨l, sole, f, ⟨found, checked⟩, rfl⟩
    exact ⟨rfl, sole, checked, found⟩
  · rintro ⟨rfl, sole, checked, found⟩
    exact ⟨u.leaf, sole, u.finding, ⟨found, checked⟩, rfl⟩

end NameContext

section Check

variable {edited : SourceText} {imports : List SourceText} {settings : CheckSettings}
  {v : Vocabulary}

theorem mem_unknownNames_iff {u : UnknownName} :
    let s := RuleSet.ofTexts edited imports
    let root := s.edited.tree.root
    u ∈ NameContext.unknownNames ⟨v, .ofRuleSet s⟩ settings root ↔
      u.place ∈ root.cursors ∧ u.place.tree.children = [.leaf u.leaf] ∧
        settings.checks u.finding ∧ s.MeansNothing v u.place u.leaf.token.text u.finding := by
  intro s root
  rw [NameContext.unknownNames, List.mem_filterMap]
  simp only [NameContext.unknownName?_eq_some_iff]
  constructor
  · rintro ⟨c, member, rfl, sole, checked, found⟩
    obtain ⟨l, sole', nothing⟩ := (finding?_eq_some_iff v member).mp found
    obtain rfl : u.leaf = l := by simpa [sole] using sole'
    exact ⟨member, sole, checked, nothing⟩
  · rintro ⟨member, sole, checked, nothing⟩
    exact ⟨_, member, rfl, sole, checked, (finding?_eq_some_iff v member).mpr ⟨_, sole, nothing⟩⟩

/-- What is found at a place is shown on its span. -/
def Diagnostic.ofFound? (text : List Char) (found : Cursor × Finding) : Option Diagnostic := do
  let span ← found.1.tree.span?
  return ⟨editorRangeOf text span, found.2⟩

/-- At the place of a name, what is wrong is shown on the leaf. -/
theorem ofFound?_ownCheck? {c : Cursor} (member : c ∈ (RuleFile.edited edited).tree.root.cursors) :
    let x : NameContext := ⟨v, .ofRuleSet (.ofTexts edited imports)⟩
    (x.ownCheck? settings c).bind (Diagnostic.ofFound? edited.text) =
      (x.unknownName? settings c).map (·.diagnostic edited.text) := by
  intro x
  rw [NameContext.ownCheck?, NameContext.unknownName?]
  cases found : x.finding? c with
  | none => cases c.tree.soleLeaf? <;> rfl
  | some f =>
    obtain ⟨l, sole, nothing⟩ := (finding?_eq_some_iff v member).mp found
    obtain ⟨r, uses, rule⟩ := nothing.exists_rule
    have other : c.tree.rule? ≠ some .file := by
      rw [rule]
      rintro ⟨⟩
      simp [Rule.namesUsed] at uses
    have sole := Tree.soleLeaf?_eq_some_iff.mpr sole
    have spanned := (RuleFile.edited_isRead edited).spanned_of_rule? member other
    have span := spanned.span?_of_soleLeaf? sole
    cases checked : settings.checks f <;>
      simp [Option.filter, checked, sole, span, UnknownName.diagnostic, Diagnostic.ofFound?]

/-- The diagnostics are the complaints and then the names that mean nothing. -/
theorem check_eq : let s := RuleSet.ofTexts edited imports
    let x : NameContext := ⟨v, .ofRuleSet s⟩
    check s x settings = s.edited.errors.map (Diagnostic.ofError edited.text) ++
      (x.unknownNames settings s.edited.tree.root).map (·.diagnostic edited.text) := by
  intro s x
  have read := RuleFile.edited_isRead edited
  have text : s.edited.text = edited.text := RuleFile.edited_text edited
  rw [check, text]
  refine congrArg _ ?_
  calc s.edited.tree.root.cursors.filterMap
        (fun c => (x.check? settings c).bind (Diagnostic.ofFound? edited.text))
    _ = (s.edited.tree.root.cursors.filterMap (x.check? settings)).filterMap
          (Diagnostic.ofFound? edited.text) := List.filterMap_filterMap.symm
    _ = (s.edited.tree.root.cursors.filterMap (x.ownCheck? settings)).filterMap
          (Diagnostic.ofFound? edited.text) :=
      congrArg _ (NameContext.filterMap_check? read.shape (by simp [read.isFile.rule]) [])
    _ = s.edited.tree.root.cursors.filterMap
          (fun c => (x.ownCheck? settings c).bind (Diagnostic.ofFound? edited.text)) :=
      List.filterMap_filterMap
    _ = s.edited.tree.root.cursors.filterMap
          (fun c => (x.unknownName? settings c).map (·.diagnostic edited.text)) :=
      List.filterMap_congr fun c member => ofFound?_ownCheck? member
    _ = (x.unknownNames settings s.edited.tree.root).map (·.diagnostic edited.text) :=
      (List.map_filterMap ..).symm

/-- The names that mean nothing are leaves in the order of the text. -/
theorem leaf_unknownNames_sublist (x : NameContext) (settings : CheckSettings) (t : Tree) :
    ((x.unknownNames settings t).map (·.leaf)).Sublist t.leaves := by
  refine .trans ?_ t.filterMap_soleLeaf?_sublist
  rw [NameContext.unknownNames, List.map_filterMap, ← Tree.map_tree_cursorsUnder [],
    List.filterMap_map]
  refine filterMap_sublist_filterMap fun c member l found => ?_
  obtain ⟨u, unknown, rfl⟩ := Option.map_eq_some_iff.mp found
  obtain ⟨rfl, sole, -⟩ := NameContext.unknownName?_eq_some_iff.mp unknown
  exact Tree.soleLeaf?_eq_some_iff.mpr sole

/-- The names that mean nothing come in the order of the text. -/
theorem pairwise_unknownNames : let s := RuleSet.ofTexts edited imports
    let x : NameContext := ⟨v, .ofRuleSet s⟩
    (x.unknownNames settings s.edited.tree.root).Pairwise (UnknownName.Precedes edited.text) := by
  intro s x
  have read := RuleFile.edited_isRead edited
  have text : s.edited.text = edited.text := RuleFile.edited_text edited
  have fewer := leaf_unknownNames_sublist x settings s.edited.tree.root
  have ordered := read.follow.inOrder.sublist (fewer.map (·.token))
  rw [List.map_map, List.pairwise_map] at ordered
  -- One leaf ends before the next, and no name is empty, so they are not shown at one place.
  refine ordered.imp_of_mem fun {u w} first second apart => ⟨apart, ?_⟩
  obtain ⟨member, sole, -, nothing⟩ := mem_unknownNames_iff.mp first
  have leaf : u.leaf ∈ s.edited.tree.root.leaves := fewer.subset (List.mem_map_of_mem first)
  have leaf' : w.leaf ∈ s.edited.tree.root.leaves := fewer.subset (List.mem_map_of_mem second)
  obtain ⟨r, uses, rule⟩ := nothing.exists_rule
  have noEnd : u.leaf.token.kind ≠ .endOfInput := by
    rcases (read.shape_of_mem member).children_of_namesUsed rule uses with missing | ⟨l, here, kind⟩
    · rw [missing] at sole
      cases sole
    · obtain rfl : u.leaf = l := by simpa [sole] using here
      intro same
      rw [same] at kind
      cases kind
  have some := read.nonempty _ (List.mem_map_of_mem leaf) noEnd
  have place := (read.follow.piece _ (List.mem_map_of_mem leaf')).span
  have inside := Nat.le_trans place.ordered place.inside
  rw [RuleFile.edited_text] at inside
  exact editorPositionAt_precedes (Nat.lt_of_lt_of_le some apart) inside

/-! ## Calls by the names of variables -/

/-- No function that is built in has the name of a variable. -/
theorem standard_function_apart {name : String}
    (ofVariable : TokenKind.variableName.Spells name.toList) :
    Vocabulary.standard.contains .function name = false := by
  have apart : ∀ m ∈ Vocabulary.standardModules, ∀ e ∈ m.entries, e.1 = .function →
      e.2.toList.head? ≠ some '$' := by
    decide +kernel
  obtain ⟨rest, spelled⟩ := ofVariable
  refine Vocabulary.standard_contains_eq_false fun m member inside => ?_
  exact apart m member _ inside rfl (by rw [spelled]; rfl)

/-- What is called by the name of a variable is not called by a qualified name. -/
theorem Tree.HasShape.callee_of_variableName {t callee : Tree} {l : Leaf} (shape : t.HasShape)
    (rule : t.rule? = some .callExpression) (head : t.children.head? = some callee)
    (first : callee.firstLeaf? = some l) (ofVariable : l.token.kind = .variableName) :
    callee.rule? = some .functionRef ∧ callee.children = [.leaf l] := by
  obtain ⟨callee', arguments, children, named, -⟩ := shape.isMadeOf rule
  obtain rfl : callee' = callee := by simpa [children] using head
  have own := shape.child callee' (by simp [children])
  rcases named with ofFunction | qualified
  · obtain ⟨k, sole, -⟩ := own.isMadeOf ofFunction
    rw [firstLeaf?, leaves_of_rule? ofFunction, sole] at first
    cases first
    exact ⟨ofFunction, sole⟩
  · have names := own.isMadeOf qualified
    rw [firstLeaf?, leaves_of_rule? qualified] at first
    cases children : callee'.children with
    | nil => simp [children, leavesOfAll] at first
    | cons c cs =>
      obtain ⟨k, rfl, other⟩ := names c (by simp [children])
      rw [children] at first
      cases first
      exact absurd ofVariable other

theorem filter_eq_singleton {α : Type} {p : α → Bool} {l : List α} {a : α}
    (once : l.Pairwise fun x y => ¬(p x ∧ p y)) (member : a ∈ l) (holds : p a) :
    l.filter p = [a] := by
  induction l with
  | nil => cases member
  | cons x l ih =>
    obtain ⟨first, others⟩ := List.pairwise_cons.mp once
    rcases List.mem_cons.mp member with rfl | later
    · have nothing : l.filter p = [] :=
        List.filter_eq_nil_iff.mpr fun y there found => first y there ⟨holds, found⟩
      rw [List.filter_cons_of_pos holds, nothing]
    · rw [List.filter_cons_of_neg fun found => first a later ⟨found, holds⟩, ih others later]

theorem EditorPosition.not_precedes_self (p : EditorPosition) : ¬p.Precedes p := by
  unfold Precedes
  omega

/-- Only one name stands at a place of the text. -/
theorem filter_unknownNames {u : UnknownName} : let s := RuleSet.ofTexts edited imports
    let unknown := NameContext.unknownNames ⟨v, .ofRuleSet s⟩ settings s.edited.tree.root
    let d := u.diagnostic edited.text
    u ∈ unknown → (unknown.map (·.diagnostic edited.text)).filter (fun e =>
      e.finding.code == d.finding.code && e.range == d.range) = [d] := by
  intro s unknown d member
  refine filter_eq_singleton ?_ (List.mem_map_of_mem member) (by simp)
  rw [List.pairwise_map]
  refine pairwise_unknownNames.imp fun {w y} before both => ?_
  simp only [Bool.and_eq_true, beq_iff_eq] at both
  refine EditorPosition.not_precedes_self d.range.start ?_
  have shown := before.2
  rwa [both.1.2, both.2.2] at shown

/-- A call by the name of a variable is found wrong, whatever is declared. -/
theorem unknown_of_variable_called {call : Cursor} {callee : Tree} {l : Leaf}
    (imports : List SourceText) (checked : settings.functionNames) :
    let s := RuleSet.ofTexts edited imports
    let root := s.edited.tree.root
    call ∈ root.cursors → call.tree.rule? = some .callExpression →
      call.tree.children.head? = some callee → callee.firstLeaf? = some l →
      l.token.kind = .variableName → ⟨call.child callee, l, .unknownFunction l.token.text⟩ ∈
        NameContext.unknownNames ⟨.standard, .ofRuleSet s⟩ settings root := by
  intro s root member rule head first ofVariable
  have read := RuleFile.edited_isRead edited
  obtain ⟨ofFunction, sole⟩ :=
    (read.shape_of_mem member).callee_of_variableName rule head first ofVariable
  have place : call.child callee ∈ root.cursors :=
    Tree.child_mem_cursorsUnder _ call member _ (List.mem_of_head? head)
  have leaf : l ∈ root.leaves :=
    (Tree.leaves_sublist_of_mem_cursorsUnder _ _ place).subset (List.mem_of_head? first)
  have spells : TokenKind.variableName.Spells l.token.text.toList :=
    ofVariable ▸ read.spells _ (List.mem_map_of_mem leaf)
  refine mem_unknownNames_iff.mpr ⟨place, sole, checked, ?_⟩
  refine .function ofFunction (read.called place ofFunction) (standard_function_apart spells) ?_
  rintro ⟨f, file, declares⟩
  exact ((RuleSet.isRead_of_mem_files file).spells_of_declares declares).apart spells

/-- What is switched off is left out of the names. -/
theorem unknownNames_without (x : NameContext) (w : NameCheck) (t : Tree) :
    x.unknownNames (settings.without w) t =
      (x.unknownNames settings t).filter fun u => !w.codes.contains u.finding.code := by
  rw [NameContext.unknownNames, NameContext.unknownNames, List.filter_filterMap]
  refine List.filterMap_congr fun c _ => Option.ext fun u => ?_
  simp only [Option.filter_eq_some_iff, NameContext.unknownName?_eq_some_iff,
    CheckSettings.checks_without, Bool.and_eq_true]
  tauto

end Check

theorem code_of_mem_complaints {es : List SyntaxError} {text : List Char} {d : Diagnostic}
    (complaint : d ∈ es.map (Diagnostic.ofError text)) : d.finding.code = "syntax-error" := by
  obtain ⟨e, -, rfl⟩ := List.mem_map.mp complaint
  rfl

/-- **Diagnostics are exact.** The diagnostics are the complaints about the text, followed by one
for each name that means nothing and is looked for, on the name and nothing else and in the order of
the text. A call by the name of a variable always has just one of them that says so. What is
switched off is left out, and nothing else. -/
theorem diagnostics_are_exact (i : AnalysisInput) (settings : CheckSettings) :
    let a := Analysis.ofInput i
    let text := i.edited.text
    let root := a.rules.edited.tree.root
    (∃ unknown : List UnknownName,
      a.diagnostics settings = a.rules.edited.errors.map (Diagnostic.ofError text) ++
        unknown.map (·.diagnostic text) ∧
      (∀ u, u ∈ unknown ↔ u.place ∈ root.cursors ∧ u.place.tree.children = [.leaf u.leaf] ∧
        settings.checks u.finding ∧
        a.rules.MeansNothing .standard u.place u.leaf.token.text u.finding) ∧
      unknown.Pairwise (UnknownName.Precedes text)) ∧
    (settings.functionNames → ∀ call ∈ root.cursors, call.tree.rule? = some .callExpression →
      ∀ callee l, call.tree.children.head? = some callee → callee.firstLeaf? = some l →
      l.token.kind = .variableName →
      let here := editorRangeOf text l.token.span
      (a.diagnostics settings).filter (fun d =>
        d.finding.code == "unknown-function" && d.range == here) =
          [⟨here, .unknownFunction l.token.text⟩]) ∧
    ∀ w : NameCheck, a.diagnostics (settings.without w) =
      (a.diagnostics settings).filter fun d => !w.codes.contains d.finding.code := by
  intro a text root
  have diagnostics (settings : CheckSettings) : a.diagnostics settings = _ :=
    check_eq
  refine ⟨⟨_, check_eq, fun u => mem_unknownNames_iff, pairwise_unknownNames⟩, ?_, fun w => ?_⟩
  · intro checked call member rule callee l head first ofVariable here
    have unknown := unknown_of_variable_called i.imports checked member rule head first ofVariable
    rw [diagnostics, List.filter_append, List.filter_eq_nil_iff.mpr, List.nil_append]
    · exact filter_unknownNames unknown
    · intro d complaint
      simp [code_of_mem_complaints complaint]
  · have complaints : (a.rules.edited.errors.map (Diagnostic.ofError i.edited.text)).filter
        (fun d => !w.codes.contains d.finding.code) =
          a.rules.edited.errors.map (Diagnostic.ofError i.edited.text) := by
      refine List.filter_eq_self.mpr fun d complaint => ?_
      cases w <;> simp [code_of_mem_complaints complaint, NameCheck.codes]
    rw [diagnostics, diagnostics, unknownNames_without, List.filter_append,
      List.filter_map (l := NameContext.unknownNames ..)]
    exact congrArg (· ++ _) complaints.symm

end XuleLang
