import XuleLang.Proofs.Analysis.Agreement
import XuleLang.Proofs.Analysis.LocalNames

/-!
Definitions away from names.

A caret that touches no token belongs to the last one before it. So it does not need to touch a name
to lead to a definition: in the gap behind a name it leads where the name does. Anywhere else, where
it touches no name, it leads nowhere.
-/

namespace XuleLang

section Gap

variable {text : List Char} {o : Nat} {s : TokenStream} {l : Leaf}

/-- In the gap behind a token a caret belongs to its leaf. -/
theorem leaf_of_gapBehind (read : tokenizeWithSeams text = .ok s) (inside : o ≤ text.length)
    (member : l ∈ (parse s.tokens).tree.root.leaves)
    (gap : l.token.GapBehind (visibleTokens s.tokens) o) :
    ∃ c k, (parse s.tokens).tree.caretAt? (positionAt text o).line (positionAt text o).column =
      some c ∧ c.leaf = some k ∧ k ∈ (parse s.tokens).tree.root.leaves ∧ k.token = l.token := by
  have listed := listed_of_read read
  obtain ⟨-, -, ends⟩ := visible_of_tokenizeWithSeams read
  have seen (k : Leaf) (there : k ∈ (parse s.tokens).tree.root.leaves) :
      k.token ∈ visibleTokens s.tokens := leaves_parse ends ▸ List.mem_map_of_mem there
  -- Tokens before this one stop before the caret, and those behind it start behind the caret.
  have place (k : Leaf) (there : k ∈ (parse s.tokens).tree.root.leaves) :
      k.token.index ≤ l.token.index ∧ k.token.span.stop.offset < o ∨
        l.token.index < k.token.index ∧ o < k.token.span.start.offset := by
    rcases Nat.lt_or_ge l.token.index k.token.index with later | upTo
    · exact .inr ⟨later, gap.2 k.token (seen k there) later⟩
    · have stops := (listed.offsets_le (seen k there) (seen l member) upTo).2
      exact .inl ⟨upTo, Nat.lt_of_le_of_lt stops gap.1⟩
  have untouched : Untouched o (parse s.tokens).tree.root.leaves := by
    intro k there
    simp only [Token.touchedAt, Bool.and_eq_false_iff, decide_eq_false_iff_not]
    have := place k there
    omega
  obtain ⟨c, resolved, belongs⟩ := exists_caretAt? read inside
  obtain ⟨k, last⟩ : ∃ k, (parse s.tokens).tree.root.leaves.reverse.find?
      (·.token.span.stop.offset < o) = some k :=
    Option.isSome_iff_exists.mp (List.find?_isSome.mpr
      ⟨l, List.mem_reverse.mpr member, decide_eq_true gap.1⟩)
  have there := List.mem_reverse.mp (List.mem_of_find?_eq_some last)
  have stops : k.token.span.stop.offset < o := by simpa using List.find?_some last
  refine ⟨c, k, resolved, (belongs.behind untouched k last).1, there, ?_⟩
  have onward : l.token.index ≤ k.token.index := by
    refine listed.le_index_of_find?_reverse (p := (·.span.stop.offset < o)) ?_ (seen l member)
      (decide_eq_true gap.1)
    rw [← leaves_parse ends, ← List.map_reverse, List.find?_map]
    simp only [Function.comp_def, last, Option.map_some]
  have ordered := listed.start_le_stop (seen k there)
  refine listed.eq_of_index (seen k there) (seen l member) (Nat.le_antisymm ?_ onward)
  have := place k there
  omega

end Gap

/-- A caret in the gap behind a name: it touches no token, and the name is the last one before it.
-/
structure RuleFile.GapBehindName (f : RuleFile) (p : EditorPosition) (l : Leaf) : Prop where
  member : l ∈ f.tree.root.leaves
  isName : l.token.isName
  gap : l.token.GapBehind (visibleTokens f.tree.tokens) (offsetAt f.text p)

/-- The names of a tree are among the tokens that are seen of its text. -/
theorem RuleFile.token_mem_visibleTokens {s : SourceText} {l : Leaf}
    (member : l ∈ (RuleFile.edited s).tree.root.leaves) (isName : l.token.isName) :
    l.token ∈ visibleTokens (RuleFile.edited s).tree.tokens := by
  obtain ⟨stream, ok, tree⟩ := RuleFile.exists_stream_of_isName member isName
  obtain ⟨-, -, ends⟩ := visible_of_tokenizeWithSeams ok
  rw [tree] at member ⊢
  exact leaves_parse ends ▸ List.mem_map_of_mem member

namespace Analysis

variable {i : AnalysisInput} {p : EditorPosition} {l : Leaf}

/-- In the gap behind a name a caret is resolved to the name. -/
theorem nameAt?_of_gapBehindName (behind : (ofInput i).rules.edited.GapBehindName p l) :
    (ofInput i).nameAt? p = some l := by
  obtain ⟨member, isName, gap⟩ := behind
  have read : (ofInput i).rules.edited.IsRead := RuleFile.edited_isRead i.edited
  have text : (ofInput i).rules.edited.text = i.edited.text := RuleFile.edited_text i.edited
  obtain ⟨stream, ok, tree⟩ := RuleFile.exists_stream_of_isName member isName
  have tree : (ofInput i).rules.edited.tree = (parse stream.tokens).tree := tree
  have tokens : (parse stream.tokens).tree.tokens = stream.tokens := rfl
  rw [tree, tokens, text] at gap
  obtain ⟨c, k, resolved, leaf, there, same⟩ :=
    leaf_of_gapBehind ok (offsetAt_le _ _) (tree ▸ member) gap
  obtain rfl : k = l := read.eq_of_start (tree ▸ there) member (same ▸ isName) isName (by rw [same])
  rw [nameAt?, text, tree, Option.bind_eq_bind, positionOfEditor_eq, resolved, Option.bind_some,
    SyntaxTree.nameAt?, leaf]
  simp [Option.filter, isName]

/-- A caret is resolved to a name that it touches, or to the name behind which its gap is. -/
theorem touched_or_gapBehindName (under : (ofInput i).nameAt? p = some l) :
    l.token.touchedAt (offsetAt (ofInput i).rules.edited.text p) = true ∨
      (ofInput i).rules.edited.GapBehindName p l := by
  obtain ⟨member, isName⟩ := mem_leaves_of_nameAt? under
  have read : (ofInput i).rules.edited.IsRead := RuleFile.edited_isRead i.edited
  have text : (ofInput i).rules.edited.text = i.edited.text := RuleFile.edited_text i.edited
  obtain ⟨stream, ok, tree⟩ := RuleFile.exists_stream_of_isName member isName
  have tree : (ofInput i).rules.edited.tree = (parse stream.tokens).tree := tree
  have inside := offsetAt_le i.edited.text p
  rw [nameAt?, text, tree, positionOfEditor_eq] at under
  obtain ⟨c, resolved, named⟩ := Option.bind_eq_some_iff.mp under
  unfold SyntaxTree.nameAt? at named
  split at named
  case h_1 k own =>
    cases named
    rcases touched_or_gapBehind ok inside resolved (Option.filter_eq_some_iff.mp own).1 with
      touched | ⟨gap, -⟩
    · exact .inl (text ▸ touched)
    · exact .inr { member, isName, gap := by rw [tree, text]; exact gap }
  case h_2 =>
    -- The name starts where the caret is.
    have starts := List.find?_some named
    simp only [Bool.and_eq_true, beq_iff_eq] at starts
    obtain ⟨⟨-, line⟩, column⟩ := starts
    have place : l.token.span.IsIn i.edited.text :=
      text ▸ (read.follow.piece l.token (List.mem_map_of_mem member)).span.toIsIn
    rw [place.start] at line column
    have same : l.token.span.start.offset = offsetAt i.edited.text p :=
      (positionAt_inj (Nat.le_trans place.ordered place.inside) inside).mp ⟨line, column⟩
    have ordered := place.ordered
    left
    simp only [Token.touchedAt, Bool.and_eq_true, decide_eq_true_eq, text]
    omega

end Analysis

/-- **Away from names, only the gap behind a name has a definition.** Let a caret touch no name of
the edited file. Where it touches no token and the last one before it is a name, it leads where
every caret at the name leads, to where the binding of the name is declared. Anywhere else it leads
nowhere. -/
theorem definitions_away_from_names (i : AnalysisInput) (p : EditorPosition) :
    let a := Analysis.ofInput i
    let f := a.rules.edited
    (∀ t ∈ f.tree.tokens, t.isName → t.touchedAt (offsetAt f.text p) = false) →
    (∀ l, f.GapBehindName p l → a.definition? p = (a.bindingOf? l).bind a.targetOf? ∧
      ∀ q, f.CaretAt q l → a.definition? q = a.definition? p) ∧
    ((∀ l, ¬f.GapBehindName p l) → a.definition? p = none) := by
  intro a f apart
  refine ⟨fun l behind => ?_, fun noGap => ?_⟩
  · have here : a.definition? p = (a.bindingOf? l).bind a.targetOf? := by
      rw [Analysis.definition?_eq, Analysis.nameAt?_of_gapBehindName behind, Option.bind_some]
    refine ⟨here, fun q caret => ?_⟩
    rw [here, Analysis.definition?_eq,
      Analysis.nameAt?_of_caretAt behind.member behind.isName caret, Option.bind_some]
  · cases under : a.nameAt? p with
    | none => rw [Analysis.definition?_eq, under, Option.bind_none]
    | some l =>
      obtain ⟨member, isName⟩ := Analysis.mem_leaves_of_nameAt? under
      rcases Analysis.touched_or_gapBehindName under with touched | behind
      · have seen := RuleFile.token_mem_visibleTokens member isName
        rw [apart l.token (List.mem_filter.mp seen).1 isName] at touched
        cases touched
      · exact absurd behind (noGap l)

/-- A constant with blanks behind its name, and more behind its value. -/
def constantWithGaps : AnalysisInput := ⟨⟨"main", "constant $a  = 1   ".toList⟩, [], .empty⟩

/-- Behind the name there is a definition, and behind the value there is none. -/
theorem only_the_gap_behind_a_name_has_a_definition :
    let a := Analysis.ofInput constantWithGaps
    a.definition? ⟨0, 10⟩ = some ⟨"main", ⟨⟨0, 9⟩, ⟨0, 11⟩⟩⟩ ∧
      a.definition? ⟨0, 10⟩ = a.definition? ⟨0, 12⟩ ∧ a.definition? ⟨0, 17⟩ = none := by
  intro a
  obtain ⟨l, member, isName, gap, caret⟩ : ∃ l ∈ a.rules.edited.tree.root.leaves,
      l.token.isName ∧ l.token.GapBehind (visibleTokens a.rules.edited.tree.tokens)
        (offsetAt a.rules.edited.text ⟨0, 12⟩) ∧ a.rules.edited.CaretAt ⟨0, 10⟩ l := by
    decide +kernel
  have noGap : ∀ l ∈ a.rules.edited.tree.root.leaves, l.token.isName →
      ¬l.token.GapBehind (visibleTokens a.rules.edited.tree.tokens)
        (offsetAt a.rules.edited.text ⟨0, 17⟩) := by
    decide +kernel
  have first := (definitions_away_from_names constantWithGaps ⟨0, 12⟩ (by decide +kernel)).1
  have second := (definitions_away_from_names constantWithGaps ⟨0, 17⟩ (by decide +kernel)).2
  exact ⟨by decide +kernel, (first l ⟨member, isName, gap⟩).2 ⟨0, 10⟩ caret,
    second fun l behind => noGap l behind.member behind.isName behind.gap⟩

/-- A caret that touches no name can have a definition. -/
theorem a_gap_can_have_a_definition : ¬∀ (i : AnalysisInput) (p : EditorPosition),
    let a := Analysis.ofInput i
    let f := a.rules.edited
    (∀ t ∈ f.tree.tokens, t.isName → t.touchedAt (offsetAt f.text p) = false) →
      a.definition? p = none := by
  intro claimed
  have apart : ∀ t ∈ (Analysis.ofInput constantWithGaps).rules.edited.tree.tokens, t.isName →
      t.touchedAt (offsetAt (Analysis.ofInput constantWithGaps).rules.edited.text ⟨0, 12⟩) =
        false := by
    decide +kernel
  have found : (Analysis.ofInput constantWithGaps).definition? ⟨0, 12⟩ ≠ none := by
    decide +kernel
  exact found (claimed constantWithGaps ⟨0, 12⟩ apart)

end XuleLang
