import XuleLang.Proofs.Parser.File
import XuleLang.Proofs.Token.Visible

/-!
Parsing loses nothing.

Whatever is wrong with a text, the leaves of its tree are the tokens that the parser sees, each
once and in their order. Nodes around an operand, skipped stretches and the limit of nesting change
where a token stands in the tree, but not that it stands there.
-/

namespace XuleLang

variable {tokens : List Token}

/-- The leaves of a tree are the tokens that the parser sees. -/
theorem leaves_parse (ends : EndsOnce (visibleTokens tokens)) :
    (parse tokens).tree.root.leaves.map (·.token) = visibleTokens tokens := by
  obtain ⟨last, n, trees, -, grows, root⟩ := parse_root ends
  obtain ⟨read, rest_eq, tokens_eq, -⟩ := grows.reads
  have grown : (Tree.leavesOfAll trees.reverse).map (·.token) = read := tokens_eq
  rw [root, Tree.leaves, Tree.leavesOfAll_append, List.map_append, grown]
  exact rest_eq.symm

/-- **Parsing ends and loses nothing.** If the end stands behind all visible tokens, no repetition
reaches its bound, whether there is a probe or not. The leaves of the tree are the visible tokens
in their order, so that in a stream their numbers are the places of these. The last child of the
file is the end. -/
theorem parsing_loses_nothing (ends : EndsOnce (visibleTokens tokens)) :
    (∀ probe, (runFile tokens probe).overran = false) ∧
    (parse tokens).tree.root.leaves.map (·.token) = visibleTokens tokens ∧
    (IsNumbered tokens → (parse tokens).tree.root.leaves.map (·.token.index) =
      (List.range tokens.length).filter fun i => (tokens[i]?).any Token.isVisible) ∧
    (parse tokens).tree.root.rule? = some .file ∧
    ∃ parts last, (parse tokens).tree.root.children = parts ++ [.leaf last] ∧
      last.token.kind = .endOfInput := by
  obtain ⟨last, n, trees, last_ends, -, root⟩ := parse_root ends
  refine ⟨fun probe => (runFile_builds ends probe).1, leaves_parse ends, fun numbers => ?_,
    by rw [root]; rfl, trees.reverse, ⟨n, last⟩, by rw [root]; rfl, last_ends⟩
  rw [← numbers.visible, ← leaves_parse ends, List.map_map]
  rfl

/-- The tokens of a text, if it can be read. -/
def tokensOf (text : String) : List Token := (tokenize text.toList).toOption.elim [] (·.tokens)

/-- A closing parenthesis before all declarations, an operand too few, and a string literal and a
parenthesis without end. -/
def strayTokens : List Token := tokensOf ") constant $a = (-b.c + \"d"

/-- Stray tokens are complained of, and stand in the tree all the same. -/
theorem stray_tokens_stand_in_the_tree :
    (parse strayTokens).errors.length = 2 ∧
    (parse strayTokens).tree.root.leaves.map (·.token) = visibleTokens strayTokens ∧
    (parse strayTokens).tree.root.leaves.map (·.token.index) =
      (List.range strayTokens.length).filter fun i => (strayTokens[i]?).any Token.isVisible := by
  have ends : EndsOnce (visibleTokens strayTokens) := by decide +kernel
  have numbers : IsNumbered strayTokens := by decide +kernel
  obtain ⟨-, leaves, places, -⟩ := parsing_loses_nothing ends
  exact ⟨by decide +kernel, leaves, places numbers⟩

end XuleLang
