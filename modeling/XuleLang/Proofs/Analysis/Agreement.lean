import XuleLang.Proofs.Analysis.Caret
import XuleLang.Proofs.Analysis.Definition
import XuleLang.Proofs.Analysis.UnknownName

/-!
Definitions and diagnostics agree.

A name is checked at its node, and a definition is looked for at its leaf, in more kinds and by a
caret. A caret at a name is resolved to it, also where other tokens touch it. The leaf lies in the
same scopes as the node, and no name that is used declares anything. Of the further kinds none can
have the name of a variable. So a variable that is read leads to a definition just where it is not
reported, and a function that is called does so where it is looked for.
-/

namespace XuleLang

variable {edited : SourceText} {imports : List SourceText} {f : RuleFile} {l k : Leaf}
  {i : AnalysisInput} {c : Cursor} {p : EditorPosition} {kind : BindingKind}

/-! ## Carets at names -/

namespace RuleFile.IsRead

/-- Of two leaves the one ends before the other one starts. -/
theorem leaves_apart (read : f.IsRead) (first : l ∈ f.tree.root.leaves)
    (second : k ∈ f.tree.root.leaves) (other : l ≠ k) :
    l.token.span.stop.offset ≤ k.token.span.start.offset ∨
      k.token.span.stop.offset ≤ l.token.span.start.offset := by
  let Apart (l k : Leaf) := l.token.span.stop.offset ≤ k.token.span.start.offset ∨
    k.token.span.stop.offset ≤ l.token.span.start.offset
  have symmetric : Std.Symm Apart := ⟨fun _ _ => Or.symm⟩
  have apart : f.tree.root.leaves.Pairwise Apart :=
    (List.pairwise_map.mp read.follow.inOrder).imp Or.inl
  exact apart.forall first second other

theorem start_lt_stop_of_isName (read : f.IsRead) (member : l ∈ f.tree.root.leaves)
    (isName : l.token.isName) : l.token.span.start.offset < l.token.span.stop.offset := by
  refine read.nonempty _ (List.mem_map_of_mem member) fun ending => ?_
  rw [Token.isName, ending] at isName
  cases isName

/-- No two names start at the same place. -/
theorem eq_of_start (read : f.IsRead) (first : l ∈ f.tree.root.leaves)
    (second : k ∈ f.tree.root.leaves) (isName : l.token.isName) (isName' : k.token.isName)
    (same : l.token.span.start.offset = k.token.span.start.offset) : l = k := by
  by_contra other
  have some := read.start_lt_stop_of_isName first isName
  have some' := read.start_lt_stop_of_isName second isName'
  rcases read.leaves_apart first second other with before | behind <;> omega

end RuleFile.IsRead

/-- A text in which there is a name can be read. -/
theorem RuleFile.exists_stream_of_isName (member : l ∈ (RuleFile.edited edited).tree.root.leaves)
    (isName : l.token.isName) : ∃ stream, tokenizeWithSeams edited.text = .ok stream ∧
      (RuleFile.edited edited).tree = (parse stream.tokens).tree := by
  unfold RuleFile.edited at member ⊢
  split at member
  case h_1 stream read =>
    rw [read]
    exact ⟨stream, rfl, rfl⟩
  case h_2 =>
    have leaves : (parse [.endOfInput .start]).tree.root.leaves.map (·.token) =
        visibleTokens [.endOfInput .start] := leaves_parse (by decide)
    have token : l.token ∈ visibleTokens [.endOfInput .start] := by
      rw [← leaves]
      exact List.mem_map_of_mem member
    rw [show l.token = .endOfInput .start from List.mem_singleton.mp token] at isName
    cases isName

/-- A caret stands at a name: behind its start and not behind its end, or at its start unless
another name ends there. -/
def RuleFile.CaretAt (f : RuleFile) (p : EditorPosition) (l : Leaf) : Prop :=
  let o := offsetAt f.text p
  l.token.span.start.offset ≤ o ∧ o ≤ l.token.span.stop.offset ∧
    (o = l.token.span.start.offset →
      ∀ k ∈ f.tree.root.leaves, k.token.isName → k.token.span.stop.offset ≠ o)

instance (f : RuleFile) (p : EditorPosition) (l : Leaf) : Decidable (f.CaretAt p l) :=
  inferInstanceAs (Decidable (_ ∧ _ ∧ (_ → ∀ k ∈ f.tree.root.leaves, _ → _)))

section Caret

variable {text : List Char} {o : Nat}

/-- A caret in a text that can be read belongs to the first leaf that it touches. -/
theorem exists_caretAt? {s : TokenStream} (read : tokenizeWithSeams text = .ok s)
    (inside : o ≤ text.length) : let tree := (parse s.tokens).tree
    ∃ c, tree.caretAt? (positionAt text o).line (positionAt text o).column = some c ∧
      c.Belongs text o tree.root.leaves := by
  intro tree
  obtain ⟨-, -, ends⟩ := visible_of_tokenizeWithSeams read
  obtain ⟨last, n, trees, -, -, root⟩ := parse_root ends
  have covers : tree.root.span? = some (wholeSpan s.tokens) := congrArg Tree.span? root
  have belongs := belongs_hitAmongLeaves? text o tree.root.leaves
  rw [caretAt?_of_touches covers (wholeSpan_touches read inside), hit?_parse read inside]
  refine ⟨_, rfl, ?_⟩
  cases hit : hitAmongLeaves? text o tree.root.leaves with
  | none => simpa [hit] using belongs 0
  | some h => simpa [hit] using belongs (h.tokenIndex (tree.tokens.length - 1))

end Caret

/-- The leaf is a name that starts at the line and column of a position. -/
def Leaf.startsNameAt (l : Leaf) (q : Position) : Bool :=
  l.token.isName && l.token.span.start.line == q.line && l.token.span.start.column == q.column

namespace RuleFile.IsRead

/-- The first leaf that a caret at a name touches is the name, or a token before it that is none. -/
theorem first_touched (read : f.IsRead) (member : l ∈ f.tree.root.leaves)
    (caret : f.CaretAt p l) (found : f.tree.root.leaves.find?
      (·.token.touchedAt (offsetAt f.text p)) = some k) :
    k = l ∨ offsetAt f.text p = l.token.span.start.offset ∧ k.token.isName = false := by
  obtain ⟨behind, before, atStart⟩ := caret
  obtain ⟨touched, early, later, leaves, untouched⟩ := List.find?_eq_some_iff_append.mp found
  simp only [Token.touchedAt, Bool.and_eq_true, decide_eq_true_eq] at touched
  have ordered := List.pairwise_map.mp read.follow.inOrder
  rw [leaves] at member ordered
  rcases List.mem_append.mp member with here | there
  · have reached := untouched l here
    simp [Token.touchedAt, behind, before] at reached
  · rcases List.mem_cons.mp there with same | there
    · exact .inl same.symm
    · have apart := (List.pairwise_cons.mp (List.pairwise_append.mp ordered).2.1).1 l there
      have start : offsetAt f.text p = l.token.span.start.offset := by omega
      refine .inr ⟨start, Bool.eq_false_iff.mpr fun isName' => ?_⟩
      exact atStart start k (by simp [leaves]) isName' (by omega)

/-- The name that starts at a place is found there. -/
theorem find?_startsNameAt (read : f.IsRead) (member : l ∈ f.tree.root.leaves)
    (isName : l.token.isName) :
    f.tree.root.leaves.find? (·.startsNameAt (positionAt f.text l.token.span.start.offset)) =
      some l := by
  have place (k : Leaf) (there : k ∈ f.tree.root.leaves) : k.token.span.IsIn f.text :=
    (read.follow.piece k.token (List.mem_map_of_mem there)).span.toIsIn
  have inside (k : Leaf) (there : k ∈ f.tree.root.leaves) :=
    Nat.le_trans (place k there).ordered (place k there).inside
  generalize here : positionAt f.text l.token.span.start.offset = q
  have own : l.startsNameAt q := by
    simp [Leaf.startsNameAt, isName, ← here, ← (place l member).start]
  obtain ⟨k, found⟩ : ∃ k, f.tree.root.leaves.find? (·.startsNameAt q) = some k :=
    Option.isSome_iff_exists.mp (List.find?_isSome.mpr ⟨l, member, own⟩)
  have there := List.mem_of_find?_eq_some found
  have fits := List.find?_some found
  simp only [Leaf.startsNameAt, Bool.and_eq_true, beq_iff_eq] at fits
  obtain ⟨⟨isName', line⟩, column⟩ := fits
  rw [(place k there).start, ← here] at line column
  have same := (positionAt_inj (inside k there) (inside l member)).mp ⟨line, column⟩
  rw [found, read.eq_of_start there member isName' isName same]

end RuleFile.IsRead

/-- A caret at a name is resolved to it. -/
theorem Analysis.nameAt?_of_caretAt (member : l ∈ (ofInput i).rules.edited.tree.root.leaves)
    (isName : l.token.isName) (caret : (ofInput i).rules.edited.CaretAt p l) :
    (ofInput i).nameAt? p = some l := by
  have read : (ofInput i).rules.edited.IsRead := RuleFile.edited_isRead i.edited
  have text : (ofInput i).rules.edited.text = i.edited.text := RuleFile.edited_text i.edited
  obtain ⟨stream, ok, tree⟩ := RuleFile.exists_stream_of_isName member isName
  have inside : offsetAt i.edited.text p ≤ i.edited.text.length := by
    have stop := (read.follow.piece l.token (List.mem_map_of_mem member)).span.inside
    have before := caret.2.1
    rw [text] at stop before
    exact Nat.le_trans before stop
  obtain ⟨c, resolved, belongs⟩ := exists_caretAt? ok inside
  rw [← text, ← tree] at resolved belongs
  have touched : l.token.touchedAt (offsetAt (ofInput i).rules.edited.text p) := by
    simp [Token.touchedAt, caret.1, caret.2.1]
  obtain ⟨k, found⟩ : ∃ k, (ofInput i).rules.edited.tree.root.leaves.find?
      (·.token.touchedAt (offsetAt (ofInput i).rules.edited.text p)) = some k :=
    Option.isSome_iff_exists.mp (List.find?_isSome.mpr ⟨l, member, touched⟩)
  have leaf : c.leaf = some k := (belongs.touching k found).1
  have named : (ofInput i).nameAt? p = (ofInput i).rules.edited.tree.nameAt? c
      (positionOfEditor (ofInput i).rules.edited.text p).line
      (positionOfEditor (ofInput i).rules.edited.text p).column := by
    rw [← positionOfEditor_eq] at resolved
    rw [nameAt?]
    exact congrArg (Option.bind · _) resolved
  rw [named, SyntaxTree.nameAt?, leaf]
  -- The leaf of the caret is the name, or it ends where the name starts and is none itself.
  rcases read.first_touched member caret found with rfl | ⟨start, noName⟩
  · simp [Option.filter, isName]
  · simp only [Option.filter, noName, positionOfEditor_eq, start]
    exact read.find?_startsNameAt member isName

/-! ## What a name that is used is bound to -/

namespace RuleFile.IsRead

variable {d : Cursor}

/-- A leaf is a child of one node. -/
theorem parent_unique (read : f.IsRead) (first : c ∈ f.tree.root.cursors)
    (second : d ∈ f.tree.root.cursors) (child : .leaf l ∈ c.tree.children)
    (child' : .leaf l ∈ d.tree.children) : c = d := by
  have found (e : Cursor) (there : e ∈ f.tree.root.cursors) (child : .leaf l ∈ e.tree.children) :
      f.tree.root.cursor? l.id = some (e.child (.leaf l)) :=
    (Tree.cursor?_eq_some_iff read.isFile.distinct).mpr
      ⟨Tree.child_mem_cursorsUnder _ e there _ child, rfl⟩
  have same := Option.some.inj ((found c first child).symm.trans (found d second child'))
  obtain ⟨tree, above⟩ := List.cons.inj (congrArg Cursor.above same)
  cases c
  cases d
  exact congrArg₂ Cursor.mk tree above

end RuleFile.IsRead

/-- A name looks up variables in the scopes around its node, and sees what the node does. -/
theorem lexicalLookup?_leaf {s : RuleSet} {name : String} (sole : c.tree.children = [.leaf l]) :
    s.lexicalLookup? ⟨0, c.child (.leaf l)⟩ name .variableName =
      s.lexicalLookup? ⟨0, c⟩ name .variableName := by
  have first : c.tree.firstLeaf? = some l := by
    obtain ⟨n, r, span, tree⟩ := Tree.soleLeaf?_eq_some.mp (Tree.soleLeaf?_eq_some_iff.mpr sole)
    rw [tree]
    rfl
  have index : referenceIndex (.leaf l) = referenceIndex c.tree := by
    rw [referenceIndex, referenceIndex, first]
    rfl
  simp only [RuleSet.lexicalLookup?, Cursor.child, ← index]
  rfl

/-- A name that is used, and the node that it is. -/
structure RuleFile.Uses (f : RuleFile) (r : Rule) (c : Cursor) (l : Leaf) : Prop where
  place : c ∈ f.tree.root.cursors
  rule : c.tree.rule? = some r
  sole : c.tree.children = [.leaf l]
  isName : l.token.isName

/-- What the nodes of calls and of variables that are read are made of are names. -/
theorem RuleFile.IsRead.uses {r : Rule} (read : f.IsRead) (place : c ∈ f.tree.root.cursors)
    (rule : c.tree.rule? = some r) (sole : c.tree.children = [.leaf l])
    (named : r = .functionRef ∨ r = .variableRead) : f.Uses r c l := by
  refine ⟨place, rule, sole, ?_⟩
  have made := (read.shape_of_mem place).isMadeOf rule
  rw [sole] at made
  rcases named with rfl | rfl
  · obtain ⟨k, same, kind⟩ := made
    cases same
    simpa [Token.isName, TokenKind.names] using kind
  · obtain ⟨k, same, kind⟩ := made
    cases same
    simp [Token.isName, kind]

namespace RuleFile.Uses

variable {r : Rule}

theorem mem_children (uses : f.Uses r c l) : .leaf l ∈ c.tree.children := by
  simp [uses.sole]

theorem child (uses : f.Uses r c l) : c.child (.leaf l) ∈ f.tree.root.cursors :=
  Tree.child_mem_cursorsUnder _ c uses.place _ uses.mem_children

theorem leaf (uses : f.Uses r c l) : l ∈ f.tree.root.leaves :=
  (Tree.leaves_sublist_of_mem_cursorsUnder _ _ uses.child).subset (.head _)

/-- What is read is spelled as variables are. -/
theorem spells (uses : f.Uses .variableRead c l) (read : f.IsRead) :
    TokenKind.variableName.Spells l.token.text.toList := by
  obtain ⟨k, sole, kind⟩ := (read.shape_of_mem uses.place).isMadeOf uses.rule
  obtain rfl : l = k := by simpa [uses.sole] using sole
  exact kind ▸ read.spells _ (List.mem_map_of_mem uses.leaf)

end RuleFile.Uses

namespace Analysis

variable {r : Rule}

/-- A name that is used declares nothing. -/
theorem declaredAt?_eq_none (uses : (RuleFile.edited i.edited).Uses r c l)
    (silent : r.declares? = none) : (ofInput i).symbols.declaredAt? ⟨0, l.id⟩ = none := by
  have read := RuleFile.edited_isRead i.edited
  cases declared : (ofInput i).symbols.declaredAt? ⟨0, l.id⟩ with
  | none => rfl
  | some b =>
    obtain ⟨-, d, there, named, -⟩ := named_of_declaredAt? uses.leaf uses.isName declared
    have child := (Place.mem_of_named? named).1
    obtain rfl := read.parent_unique uses.place there uses.mem_children child
    simp [Place.named?, uses.rule, silent] at named

/-- A name that is used is bound if it means something of some kind. -/
theorem bindingOf?_isSome_iff (uses : (RuleFile.edited i.edited).Uses r c l)
    (silent : r.declares? = none) : ((ofInput i).bindingOf? l).isSome ↔
      ∃ kind, ((ofInput i).symbols.lookup 0 (c.child (.leaf l)) l.token.text kind).isSome := by
  have read := RuleFile.edited_isRead i.edited
  have place : (ofInput i).rules.edited.tree.cursor? l.id = some (c.child (.leaf l)) :=
    (Tree.cursor?_eq_some_iff read.isFile.distinct).mpr ⟨uses.child, rfl⟩
  rw [bindingOf?, declaredAt?_eq_none uses silent, place]
  dsimp only [Option.bind_eq_bind, Option.bind_some]
  rw [List.findSome?_isSome_iff]
  constructor
  · rintro ⟨kind, -, found⟩
    exact ⟨kind, found⟩
  · rintro ⟨kind, found⟩
    exact ⟨kind, by cases kind <;> decide, found⟩

/-- A caret at a name that is used finds a definition if the name is bound. -/
theorem definition?_isSome_iff (uses : (RuleFile.edited i.edited).Uses r c l)
    (caret : (RuleFile.edited i.edited).CaretAt p l) :
    ((ofInput i).definition? p).isSome ↔ ((ofInput i).bindingOf? l).isSome := by
  rw [definition?_eq, nameAt?_of_caretAt uses.leaf uses.isName caret, Option.bind_some]
  cases bound : (ofInput i).bindingOf? l with
  | none => rfl
  | some b =>
    obtain ⟨declared, -⟩ := mem_bindings_of_bindingOf? uses.leaf uses.isName bound
    obtain ⟨target, leads, -⟩ := exists_target declared
    simp [leads]

theorem lookup_isSome_iff_declares (uses : (RuleFile.edited i.edited).Uses r c l)
    (other : kind ≠ .variableName) :
    ((ofInput i).symbols.lookup 0 (c.child (.leaf l)) l.token.text kind).isSome ↔
      ∃ f ∈ (ofInput i).rules.files, f.Declares l.token.text kind :=
  lookup_isSome_iff (place_mem_ofTexts uses.child) other

theorem lookup_variableName_eq (uses : (RuleFile.edited i.edited).Uses r c l) :
    (ofInput i).symbols.lookup 0 (c.child (.leaf l)) l.token.text .variableName =
      (ofInput i).rules.lexicalLookup? ⟨0, c⟩ l.token.text .variableName :=
  (RuleSet.lookup_eq (fun _ => RuleSet.isFile_of_mem_files) (place_mem_ofTexts uses.child)
    l.token.text .variableName).trans (lexicalLookup?_leaf uses.sole)

/-- A variable that is read is bound, or it means nothing. -/
theorem bound_variable_iff (uses : (RuleFile.edited i.edited).Uses .variableRead c l) :
    ((ofInput i).bindingOf? l).isSome ↔
      ¬(ofInput i).rules.MeansNothing .standard c l.token.text (.unknownVariable l.token.text) := by
  rw [bindingOf?_isSome_iff uses rfl]
  constructor
  · rintro ⟨kind, found⟩ (_ | _ | _ | ⟨-, invisible, undeclared⟩)
    by_cases ofVariable : kind = .variableName
    · subst ofVariable
      rw [lookup_variableName_eq uses, invisible] at found
      cases found
    · obtain ⟨f, file, declares⟩ := (lookup_isSome_iff_declares uses ofVariable).mp found
      have declared := (RuleSet.isRead_of_mem_files file).spells_of_declares declares
      have own := uses.spells (RuleFile.edited_isRead i.edited)
      -- Functions and output attributes have no names of variables, so it is a constant.
      cases kind with
      | constant => exact undeclared ⟨f, file, declares⟩
      | function => exact declared.apart own
      | variableName => exact ofVariable rfl
      | outputAttribute => exact declared.apart own
  · intro meaning
    by_contra unbound
    refine meaning (.variableName uses.rule ?_ fun declared => ?_)
    · rw [← lookup_variableName_eq uses, ← Option.not_isSome_iff_eq_none]
      exact fun found => unbound ⟨_, found⟩
    · exact unbound ⟨.constant, (lookup_isSome_iff_declares uses (by simp)).mpr declared⟩

/-- A function that is called and not built in is bound if it does not mean nothing. -/
theorem bound_of_function (uses : (RuleFile.edited i.edited).Uses .functionRef c l)
    (unknown : Vocabulary.standard.contains .function l.token.text = false)
    (meaning : ¬(ofInput i).rules.MeansNothing .standard c l.token.text
      (.unknownFunction l.token.text)) : ((ofInput i).bindingOf? l).isSome := by
  have called := (RuleFile.edited_isRead i.edited).called uses.place uses.rule
  refine (bindingOf?_isSome_iff uses rfl).mpr ⟨.function, ?_⟩
  refine (lookup_isSome_iff_declares uses (by simp)).mpr ?_
  by_contra undeclared
  exact meaning (.function uses.rule called unknown undeclared)

end Analysis

/-! ## What is reported of a name -/

/-- A name is known by where it is shown. -/
theorem RuleFile.IsRead.eq_of_editorRange (read : f.IsRead) (first : k ∈ f.tree.root.leaves)
    (second : l ∈ f.tree.root.leaves) (isName : l.token.isName)
    (same : editorRangeOf f.text k.token.span = editorRangeOf f.text l.token.span) : k = l := by
  have leadsBack (m : Leaf) (there : m ∈ f.tree.root.leaves) : m.token.span.LeadsBack f.text :=
    (read.follow.piece m.token (List.mem_map_of_mem there)).span.leadsBack
  obtain ⟨start, stop, -⟩ := leadsBack k first
  obtain ⟨start', stop', -⟩ := leadsBack l second
  rw [same] at start stop
  have some := read.start_lt_stop_of_isName second isName
  by_contra other
  rcases read.leaves_apart first second other with before | behind <;> omega

namespace Analysis

variable {settings : CheckSettings} {r : Rule} {code : String}

/-- A diagnostic on a name has a code. -/
def Reports (a : Analysis) (settings : CheckSettings) (code : String) (l : Leaf) : Prop :=
  ∃ d ∈ a.diagnostics settings, d.finding.code = code ∧
    d.range = editorRangeOf a.rules.edited.text l.token.span

/-- What is reported of a name is that it means nothing. -/
theorem reports_iff (uses : (RuleFile.edited i.edited).Uses r c l) (other : code ≠ "syntax-error") :
    (ofInput i).Reports settings code l ↔ ∃ g : Finding, g.code = code ∧ settings.checks g ∧
      (ofInput i).rules.MeansNothing .standard c l.token.text g := by
  have read := RuleFile.edited_isRead i.edited
  have text : (ofInput i).rules.edited.text = i.edited.text := RuleFile.edited_text i.edited
  have diagnostics : (ofInput i).diagnostics settings = _ := check_eq
  rw [Reports, diagnostics, text]
  constructor
  · rintro ⟨d, member, coded, range⟩
    rcases List.mem_append.mp member with complaint | shown
    · exact absurd (coded.symm.trans (code_of_mem_complaints complaint)) other
    · obtain ⟨u, unknown, rfl⟩ := List.mem_map.mp shown
      obtain ⟨place, sole, checked, nothing⟩ := mem_unknownNames_iff.mp unknown
      have leaf : u.leaf ∈ (RuleFile.edited i.edited).tree.root.leaves :=
        (leaf_unknownNames_sublist _ settings _).subset (List.mem_map_of_mem unknown)
      have same : u.leaf = l := by
        refine read.eq_of_editorRange leaf uses.leaf uses.isName ?_
        rw [RuleFile.edited_text]
        exact range
      have child : .leaf l ∈ u.place.tree.children := by simp [sole, same]
      have own : u.place = c := read.parent_unique place uses.place child uses.mem_children
      exact ⟨u.finding, coded, checked, own ▸ same ▸ nothing⟩
  · rintro ⟨g, coded, checked, nothing⟩
    have unknown := mem_unknownNames_iff.mpr
      (⟨uses.place, uses.sole, checked, nothing⟩ : (⟨c, l, g⟩ : UnknownName).place ∈ _ ∧ _)
    exact ⟨_, List.mem_append_right _ (List.mem_map_of_mem unknown), coded, rfl⟩

/-- A variable that is read is reported if it means nothing. -/
theorem reports_variable_iff (uses : (RuleFile.edited i.edited).Uses .variableRead c l)
    (checked : settings.variableNames) : (ofInput i).Reports settings "unknown-variable" l ↔
      (ofInput i).rules.MeansNothing .standard c l.token.text (.unknownVariable l.token.text) := by
  rw [reports_iff uses (by decide)]
  constructor
  · rintro ⟨g, coded, -, nothing⟩
    cases nothing with
    | variableName rule invisible undeclared => exact .variableName rule invisible undeclared
    | _ => simp [Finding.code] at coded
  · exact fun nothing => ⟨.unknownVariable l.token.text, rfl, checked, nothing⟩

/-- A function that means nothing is reported. -/
theorem reports_function (uses : (RuleFile.edited i.edited).Uses .functionRef c l)
    (checked : settings.functionNames) (nothing : (ofInput i).rules.MeansNothing .standard c
      l.token.text (.unknownFunction l.token.text)) :
    (ofInput i).Reports settings "unknown-function" l :=
  (reports_iff uses (by decide)).mpr ⟨.unknownFunction l.token.text, rfl, checked, nothing⟩

/-! ## Agreement -/

/-- Wherever a caret stands at a variable that is read, there is a definition just if the variable
is not reported. -/
def AgreesOnVariables (a : Analysis) (settings : CheckSettings) : Prop :=
  ∀ c ∈ a.rules.edited.tree.root.cursors, ∀ l, c.tree.rule? = some .variableRead →
    c.tree.children = [.leaf l] → ∀ p, a.rules.edited.CaretAt p l →
      ((a.definition? p).isSome ↔ ¬a.Reports settings "unknown-variable" l)

/-- Wherever a caret stands at the name of a function that is called, not built in and not reported,
there is a definition. -/
def AgreesOnFunctions (a : Analysis) (settings : CheckSettings) : Prop :=
  ∀ c ∈ a.rules.edited.tree.root.cursors, ∀ l, c.tree.rule? = some .functionRef →
    c.tree.children = [.leaf l] → Vocabulary.standard.contains .function l.token.text = false →
      ¬a.Reports settings "unknown-function" l → ∀ p, a.rules.edited.CaretAt p l →
        (a.definition? p).isSome

end Analysis

/-- **Definitions and diagnostics agree.** Where variables are checked, a variable that is read
leads to a definition just if it is not reported. Where functions are checked, one that is neither
built in nor reported leads to a definition. -/
theorem definitions_and_diagnostics_agree (i : AnalysisInput) (settings : CheckSettings) :
    let a := Analysis.ofInput i
    (settings.variableNames → a.AgreesOnVariables settings) ∧
      (settings.functionNames → a.AgreesOnFunctions settings) := by
  intro a
  have read := RuleFile.edited_isRead i.edited
  constructor
  · intro checked c place l rule sole p caret
    have uses := read.uses place rule sole (.inr rfl)
    rw [Analysis.definition?_isSome_iff uses caret, Analysis.bound_variable_iff uses,
      Analysis.reports_variable_iff uses checked]
  · intro checked c place l rule sole unknown silent p caret
    have uses := read.uses place rule sole (.inl rfl)
    rw [Analysis.definition?_isSome_iff uses caret]
    refine Analysis.bound_of_function uses unknown fun nothing => ?_
    exact silent (Analysis.reports_function uses checked nothing)

/-- The constant that is declared in another file leads there, and is not reported. -/
theorem imported_constant_is_defined_and_not_reported :
    let a := Analysis.ofInput importedConstant
    ∃ c ∈ a.rules.edited.tree.root.cursors, ∃ l, c.tree.rule? = some .variableRead ∧
      c.tree.children = [.leaf l] ∧ a.rules.edited.CaretAt ⟨0, 9⟩ l ∧
      (a.definition? ⟨0, 9⟩).isSome ∧ ¬a.Reports .all "unknown-variable" l := by
  intro a
  obtain ⟨c, place, rule, l, sole, caret⟩ : ∃ c ∈ a.rules.edited.tree.root.cursors,
      c.tree.rule? = some .variableRead ∧
        ∃ l ∈ c.tree.soleLeaf?, a.rules.edited.CaretAt ⟨0, 9⟩ l := by
    decide +kernel
  have leads : (a.definition? ⟨0, 9⟩).isSome := by decide +kernel
  have children := Tree.soleLeaf?_eq_some_iff.mp sole
  have agree := (definitions_and_diagnostics_agree importedConstant .all).1 rfl
  exact ⟨c, place, l, rule, children, caret, leads,
    (agree c place l rule children _ caret).mp leads⟩

/-- A call of a function that nobody declares. -/
def undeclaredCall : AnalysisInput := ⟨⟨"", "output o foo()".toList⟩, [], .empty⟩

/-- Everything but functions is checked. -/
def CheckSettings.allButFunctions : CheckSettings := ⟨false, true, true⟩

/-- Where functions are not checked, one that is not reported need not lead to a definition. -/
theorem unchecked_function_without_definition :
    let a := Analysis.ofInput undeclaredCall
    let settings := CheckSettings.allButFunctions
    settings.variableNames ∧ ¬(a.AgreesOnVariables settings ∧ a.AgreesOnFunctions settings) := by
  intro a settings
  refine ⟨rfl, fun ⟨_, agree⟩ => ?_⟩
  obtain ⟨c, place, rule, l, sole, caret, unlisted⟩ : ∃ c ∈ a.rules.edited.tree.root.cursors,
      c.tree.rule? = some .functionRef ∧ ∃ l ∈ c.tree.soleLeaf?,
        a.rules.edited.CaretAt ⟨0, 10⟩ l ∧
          ∀ m ∈ Vocabulary.standardModules, (.function, l.token.text) ∉ m.entries := by
    decide +kernel
  have silent : a.diagnostics settings = [] := by decide +kernel
  have nothing : a.definition? ⟨0, 10⟩ = none := by decide +kernel
  have children := Tree.soleLeaf?_eq_some_iff.mp sole
  have unknown := Vocabulary.standard_contains_eq_false unlisted
  have leads := agree c place l rule children unknown (by simp [Analysis.Reports, silent]) _ caret
  rw [nothing] at leads
  cases leads

end XuleLang
