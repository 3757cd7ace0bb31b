import XuleLang.Proofs.Parser.Lossless
import XuleLang.Proofs.Parser.NodeShape
import XuleLang.Proofs.Syntax.Cursor
import XuleLang.Proofs.Syntax.WellFormed
import XuleLang.Proofs.Token.Spelling

/-!
Rule files as they are read.

All that is told of a file is told of its tree and its text. The tree is that of a file with all its
nodes in shape, and its leaves stand in the text one behind the other, with names that are spelled
as names are. This is so in the edited file and in those that it imports, whatever is wrong with
their texts.

A name that is used is the only leaf of a node of its own. The nodes of one leaf come in the order
of their leaves.
-/

namespace XuleLang

variable {text : List Char} {tokens : List Token} {f : RuleFile}

/-- The tree of the file was made of its text. -/
structure RuleFile.IsRead (f : RuleFile) : Prop where
  isFile : f.tree.root.IsFile
  shape : f.tree.root.HasShape
  follow : Follow f.text f.tree.root.tokens
  spells : ∀ t ∈ f.tree.root.tokens, t.kind.Spells t.text.toList
  nonempty : ∀ t ∈ f.tree.root.tokens, t.kind ≠ .endOfInput →
    t.span.start.offset < t.span.stop.offset
  spanned : ∀ c ∈ f.tree.root.children, c.IsSpanned

theorem RuleFile.IsRead.of_parse (tree : f.tree = (parse tokens).tree)
    (ends : EndsOnce (visibleTokens tokens)) (follow : Follow f.text (visibleTokens tokens))
    (spells : ∀ t ∈ visibleTokens tokens, t.kind.Spells t.text.toList)
    (nonempty : ∀ t ∈ visibleTokens tokens, t.kind ≠ .endOfInput →
      t.span.start.offset < t.span.stop.offset) : f.IsRead := by
  have leaves : f.tree.root.tokens = visibleTokens tokens := tree ▸ leaves_parse ends
  obtain ⟨cs, root, spanned, -⟩ := parse_parts ends
  rw [← leaves] at follow spells nonempty
  exact { isFile := tree ▸ parse_isFile ends, shape := tree ▸ parse_hasShape tokens, follow, spells
          nonempty, spanned := by rw [tree, root]; exact spanned }

/-- Only the end of a text has no characters among what is seen of it. -/
theorem TokenStream.nonempty_of_ofSteps {s : TokenStream} {arrange : List Token → List Token}
    (arranges : Arranges arrange) (read : ofSteps arrange (Lexer.steps text) = .ok s) :
    ∀ t ∈ visibleTokens s.tokens, t.kind ≠ .endOfInput →
      t.span.start.offset < t.span.stop.offset := by
  obtain ⟨ts, es, all, tokens, -, -⟩ := ofSteps_eq_ok read
  obtain ⟨marked, ps, tokens_eq, -, members⟩ := arranges.placed all
  intro t seen inside
  obtain ⟨member, visible⟩ := List.mem_filter.mp seen
  rw [tokens, tokens_eq] at member
  rcases List.mem_append.mp member with early | last
  · obtain ⟨-, u, same, own | ⟨p, rfl⟩⟩ := members t early
    · rw [same] at inside ⊢
      exact own.some inside
    · rw [same] at visible
      cases visible
  · rw [List.mem_singleton.mp last] at inside
    exact absurd rfl inside

namespace RuleFile

theorem IsRead.ofStream {s : SourceText} {stream : TokenStream} {arrange : List Token → List Token}
    (arranges : Arranges arrange)
    (read : TokenStream.ofSteps arrange (Lexer.steps s.text) = .ok stream) :
    (ofStream s stream).IsRead := by
  obtain ⟨-, follow, ends⟩ := TokenStream.visible_of_ofSteps arranges read
  exact .of_parse rfl ends follow
    (fun t seen => TokenStream.spells_of_ofSteps arranges read t (List.mem_filter.mp seen).1)
    (TokenStream.nonempty_of_ofSteps arranges read)

theorem IsRead.ofFailure (s : SourceText) (failure : TooDeep) : (ofFailure s failure).IsRead := by
  have ending : visibleTokens [.endOfInput .start] = [.endOfInput .start] := rfl
  have start : (Token.endOfInput .start).span = spanBetween s.text 0 0 := by
    simp [spanBetween, Token.endOfInput, Span.single]
  have piece : (Piece.token (.endOfInput .start)).IsCutFrom s.text :=
    { span := by
        rw [Piece.span, start]
        exact spanBetween_isApartIn (Nat.le_refl 0) (Nat.zero_le _) insideBreak_zero
          insideBreak_zero
      chars := by simp [Piece.chars, Piece.span, Token.endOfInput, cut, Span.single, Span.length] }
  have tree : (RuleFile.ofFailure s failure).tree = (parse [.endOfInput .start]).tree := rfl
  refine .of_parse tree (by decide) ?_ ?_ ?_
  · rw [ending]
    exact ⟨List.forall_mem_singleton.mpr piece, List.pairwise_singleton ..⟩
  · rw [ending]
    simp [Token.endOfInput, TokenKind.Spells]
  · rw [ending]
    simp [Token.endOfInput]

theorem edited_isRead (s : SourceText) : (edited s).IsRead := by
  unfold edited
  split
  case h_1 stream read => exact .ofStream arranges_withSeams (ofSteps_of_tokenizeWithSeams read)
  case h_2 failure _ => exact .ofFailure s failure

theorem isRead_of_imported? {s : SourceText} (read : imported? s = some f) : f.IsRead := by
  unfold imported? at read
  split at read
  case h_1 stream reads =>
    cases read
    exact .ofStream arranges_id (ofSteps_of_tokenize reads)
  case h_2 => cases read

end RuleFile

/-- All files of a rule set are read from their texts. -/
theorem RuleSet.isRead_of_mem_files {edited : SourceText} {imports : List SourceText}
    (member : f ∈ (ofTexts edited imports).files) : f.IsRead := by
  rcases List.mem_cons.mp member with rfl | imported
  · exact RuleFile.edited_isRead edited
  · obtain ⟨s, -, read⟩ := List.mem_filterMap.mp imported
    exact RuleFile.isRead_of_imported? read

/-! ## Nodes of one leaf -/

namespace Tree

/-- The leaf that is the only child of a node. -/
def soleLeaf? : Tree → Option Leaf
  | .node _ _ _ [.leaf l] => some l
  | _ => none

theorem soleLeaf?_eq_some {t : Tree} {l : Leaf} :
    t.soleLeaf? = some l ↔ ∃ n r span, t = .node n r span [.leaf l] := by
  constructor
  · intro sole
    unfold soleLeaf? at sole
    split at sole
    case h_1 n r span l => cases sole; exact ⟨n, r, span, rfl⟩
    case h_2 => cases sole
  · rintro ⟨n, r, span, rfl⟩
    rfl

/-- A node of one leaf that knows its span covers the leaf. -/
theorem IsSpanned.span?_of_soleLeaf? {t : Tree} {l : Leaf} (spanned : t.IsSpanned)
    (sole : t.soleLeaf? = some l) : t.span? = some l.token.span := by
  obtain ⟨n, r, span, rfl⟩ := soleLeaf?_eq_some.mp sole
  cases spanned with
  | node parts => rfl

mutual

/-- Nodes of one leaf come in the order of their leaves. -/
theorem filterMap_soleLeaf?_sublist : (t : Tree) →
    (t.subtrees.filterMap soleLeaf?).Sublist t.leaves
  | .leaf l => List.nil_sublist _
  | .node n r span cs => by
    have below := filterMap_soleLeaf?_all_sublist cs
    rw [subtrees, List.filterMap_cons]
    split
    case h_1 => exact below
    case h_2 l sole =>
      obtain ⟨_, _, _, same⟩ := soleLeaf?_eq_some.mp sole
      cases same
      exact List.Sublist.refl _

theorem filterMap_soleLeaf?_all_sublist : (ts : List Tree) →
    ((subtreesOfAll ts).filterMap soleLeaf?).Sublist (leavesOfAll ts)
  | [] => List.nil_sublist _
  | t :: ts => by
    rw [subtreesOfAll, List.filterMap_append, leavesOfAll]
    exact (filterMap_soleLeaf?_sublist t).append (filterMap_soleLeaf?_all_sublist ts)

end

end Tree

namespace RuleFile.IsRead

theorem shape_of_mem {c : Cursor} (read : f.IsRead) (member : c ∈ f.tree.root.cursors) :
    c.tree.HasShape :=
  Tree.HasShape.subtrees _ read.shape _ (Tree.mem_subtrees_of_mem_cursors member)

/-- Below its root, a file knows the spans of all nodes. -/
theorem spanned_of_rule? {c : Cursor} (read : f.IsRead) (member : c ∈ f.tree.root.cursors)
    (other : c.tree.rule? ≠ some .file) : c.tree.IsSpanned := by
  have below := Tree.mem_subtrees_of_mem_cursors member
  have rule := read.isFile.rule
  have spanned := read.spanned
  cases root : f.tree.root with
  | leaf l => rw [root] at rule; cases rule
  | node n r span cs =>
    rw [root] at below rule spanned
    rcases List.mem_cons.mp below with same | below
    · rw [same] at other
      exact absurd rule other
    · obtain ⟨c, child, inside⟩ := Tree.mem_subtreesOfAll.mp below
      exact (spanned c child).subtrees _ inside

end RuleFile.IsRead

end XuleLang
