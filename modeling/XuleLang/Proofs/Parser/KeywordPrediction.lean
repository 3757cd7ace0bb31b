import XuleLang.Proofs.Parser.Foresight.Declaration
import XuleLang.Proofs.Parser.Lossless

/-!
Which reserved words are predicted.

A text breaks off at a caret, and another one goes on there with a reserved word. If the parser has
no complaint of the second text, the word was predicted at the caret of the first one, but for some
places where the parser reads words without asking for them. The other way round, a word that was
predicted is read without a complaint, but for a `not`, which may be one level too deep.
-/

namespace XuleLang

open XuleLang.Parser
open ParserState (Told)

/-! ## Trees of texts -/

namespace Tree

variable {u v : Tree} {w : Token}

theorem ReadsUnasked.congr (reads : u.ReadsUnasked w) (rule : v.rule? = u.rule?)
    (children : v.children = u.children) : v.ReadsUnasked w := by
  simpa only [ReadsUnasked, IsNameOf, IsNotInOf, IsFactsetOver, rule, children] using reads

theorem BindsTightly.congr (binds : u.BindsTightly w) (rule : v.rule? = u.rule?)
    (children : v.children = u.children) : v.BindsTightly w := by
  simpa only [BindsTightly, rule, children] using binds

end Tree

section Whole

variable {tokens : List Token} {u : Tree}

/-- What a run leaves behind is the tree of the text but for the span of the root. -/
theorem exists_finished (ends : EndsOnce (visibleTokens tokens)) (probe : Option Probe) :
    ∃ cs, (runFile tokens probe).frames = [] ∧
      (runFile tokens probe).finished = [.ofChildren 0 .file cs] ∧
      (parse tokens).tree.root = .node 0 .file (some (wholeSpan tokens)) cs := by
  obtain ⟨last, n, trees, -, -, -, closed, finished⟩ := runFile_closes ends probe
  refine ⟨_, closed, finished, ?_⟩
  simp only [parse, ← (runFile_unprobed ends probe).1, finished]
  rfl

/-- What was made for a text is part of its tree, where the root may have another span. -/
theorem exists_subtree_of_made (ends : EndsOnce (visibleTokens tokens)) {probe : Option Probe}
    (made : (runFile tokens probe).Made u) :
    ∃ v ∈ (parse tokens).tree.root.subtrees, v.rule? = u.rule? ∧ v.children = u.children := by
  obtain ⟨cs, closed, finished, root⟩ := exists_finished ends probe
  obtain ⟨t, here | ⟨f, opened, -⟩, below⟩ := made
  case inr => simp [closed] at opened
  rw [finished, List.mem_singleton] at here
  rw [here, Tree.ofChildren, Tree.subtrees, List.mem_cons] at below
  rw [root, Tree.subtrees]
  rcases below with rfl | inner
  · exact ⟨_, .head _, rfl, rfl⟩
  · exact ⟨u, .tail _ inner, rfl, rfl⟩

/-- What is part of the tree of a text, but for its root, is made in every run. -/
theorem made_of_mem_subtrees (ends : EndsOnce (visibleTokens tokens)) (probe : Option Probe)
    (member : u ∈ (parse tokens).tree.root.subtrees) (inner : u.rule? ≠ some .file) :
    (runFile tokens probe).Made u := by
  obtain ⟨cs, -, finished, root⟩ := exists_finished ends probe
  refine ⟨.ofChildren 0 .file cs, .inl (finished ▸ .head _), ?_⟩
  rw [root, Tree.subtrees] at member
  rcases List.mem_cons.mp member with rfl | below
  · exact absurd rfl inner
  · exact .tail _ below

end Whole

/-! ## Forks of texts -/

namespace Fork

variable {k : Fork} {tokens tokens' : List Token}

/-- The visible tokens of two texts part at the fork. -/
structure Parts (k : Fork) (tokens tokens' : List Token) : Prop where
  ended : visibleTokens tokens = k.front ++ [k.last]
  further : visibleTokens tokens' = k.front ++ k.word :: k.behind

namespace Parts

theorem ends (parts : k.Parts tokens tokens') : EndsOnce (visibleTokens tokens) :=
  ⟨k.front, k.last, parts.ended, k.ended, k.unended⟩

theorem ends' (parts : k.Parts tokens tokens') : EndsOnce (visibleTokens tokens') := by
  obtain ⟨between, last, behind, last_ends, others⟩ := k.ends
  refine ⟨k.front ++ k.word :: between, last, by simp [parts.further, behind], last_ends, ?_⟩
  intro t member
  rw [List.mem_append, List.mem_cons] at member
  rcases member with before | rfl | later
  · exact k.unended t before
  · exact k.word_inside
  · exact others t later

/-- The probe waits at the caret. -/
theorem beside (parts : k.Parts tokens tokens') :
    k.Beside [] k.front
      (.ofTokens (visibleTokens tokens) (some ⟨k.front.length, false, [], []⟩))
      (.ofTokens (visibleTokens tokens') none) where
  opened := rfl
  opened' := rfl
  suffix := List.suffix_refl _
  rest := parts.ended
  rest' := parts.further
  silent := rfl
  silent' := rfl
  waits := ⟨_, rfl, rfl, (Nat.zero_add _).symm, List.not_mem_nil⟩
  unprobed := rfl

/-- Whole files at a fork. -/
theorem settled (parts : k.Parts tokens tokens') :
    k.Settled (runFile tokens (some ⟨k.front.length, false, [], []⟩)) (runFile tokens' none) := by
  simp only [runFile, file_run_declarations]
  exact (settled_declarations (level_meets k maxDepth) (parts.beside.start .file) _ _).finish

theorem foreseen_accepted (parts : k.Parts tokens tokens') :
    k.Foreseen (runFile tokens (some ⟨k.front.length, false, [], []⟩)) (runFile tokens' none) ∧
      k.Accepted (runFile tokens (some ⟨k.front.length, false, [], []⟩))
        (runFile tokens' none) := by
  rcases parts.settled with reached | reached | both
  · exact absurd ((runFile_builds parts.ends _).1.symm.trans reached) nofun
  · exact absurd ((runFile_builds parts.ends' _).1.symm.trans reached) nofun
  · exact both

end Parts

/-- A reserved word is a candidate if the probe has been told of it. -/
theorem mem_candidatesAt {index : Nat} (caret : caretOf tokens index = k.front.length) :
    k.word.kind ∈ (candidatesAt tokens index).kinds ↔
      Told k.word.kind (runFile tokens (some ⟨k.front.length, false, [], []⟩)).probe := by
  have listed : k.word.kind ∈ TokenKind.all := by
    obtain ⟨w, reserved⟩ := k.word_isKeyword
    rw [reserved]
    cases w <;> decide
  unfold candidatesAt Told
  rw [caret]
  cases (runFile tokens (some ⟨k.front.length, false, [], []⟩)).probe with
  | none => simp
  | some p => simp [listed]

end Fork

/-! ## Predictions -/

/-- The first text ends at a caret, and the second one goes on there with a reserved word. -/
structure GoesOn (tokens tokens' : List Token) (word : Token) : Prop where
  ends : EndsOnce (visibleTokens tokens)
  ends' : EndsOnce (visibleTokens tokens')
  further : (visibleTokens tokens).dropLast ++ [word] <+: visibleTokens tokens'
  reserved : word.kind.isKeyword = true

section Texts

variable {tokens tokens' : List Token} {word : Token} {index : Nat}

instance : Decidable (GoesOn tokens tokens' word) :=
  decidable_of_iff (EndsOnce (visibleTokens tokens) ∧ EndsOnce (visibleTokens tokens') ∧
      (visibleTokens tokens).dropLast ++ [word] <+: visibleTokens tokens' ∧
      word.kind.isKeyword = true)
    ⟨fun ⟨ends, ends', further, reserved⟩ => ⟨ends, ends', further, reserved⟩,
      fun goes => ⟨goes.ends, goes.ends', goes.further, goes.reserved⟩⟩

/-- The texts part at a fork. -/
theorem GoesOn.parts (goes : GoesOn tokens tokens' word) :
    ∃ k : Fork, k.Parts tokens tokens' ∧ k.word = word ∧
      k.front = (visibleTokens tokens).dropLast := by
  obtain ⟨front, last, ended, last_ends, unended⟩ := goes.ends
  obtain ⟨behind, further⟩ := goes.further
  rw [ended, List.dropLast_concat] at further
  have inside : ∀ t ∈ front ++ [word], t.kind ≠ .endOfInput := by
    intro t member
    rcases List.mem_append.mp member with before | here
    · exact unended t before
    · rw [List.mem_singleton.mp here]
      rintro reached
      exact absurd (reached ▸ goes.reserved) nofun
  have ends : EndsOnce behind := (further ▸ goes.ends').of_append inside
  refine ⟨⟨front, last, word, behind, last_ends, goes.reserved, unended, ends⟩,
    ⟨ended, ?_⟩, rfl, ?_⟩
  · simp [← further]
  · simp [ended]

/-- **Words that are asked for are predicted.** If a text goes on with a reserved word and is parsed
without a complaint, the word is among the candidates at the end of what stands before it. It may be
missing only where it stands for a name, where it is one of the two words of a `not in`, or where it
begins the block of a fact set. -/
theorem accepted_words_are_predicted (goes : GoesOn tokens tokens' word)
    (caret : caretOf tokens index = (visibleTokens tokens).length - 1)
    (clean : (parse tokens').errors = [])
    (asked : ∀ t ∈ (parse tokens').tree.root.subtrees, ¬ t.ReadsUnasked word) :
    word.kind ∈ (candidatesAt tokens index).kinds := by
  obtain ⟨k, parts, rfl, front⟩ := goes.parts
  rw [← List.length_dropLast, ← front] at caret
  rw [Fork.mem_candidatesAt caret]
  rcases parts.foreseen_accepted.1 with ⟨e, complained⟩ | told | ⟨u, made, reads⟩
  · have silent : (runFile tokens' none).errors = [] := List.reverse_eq_nil_iff.mp clean
    simp [silent] at complained
  · exact told
  · obtain ⟨v, below, rule, children⟩ := exists_subtree_of_made parts.ends' made
    exact absurd (reads.congr rule children) (asked v below)

/-- A number, with which a declaration could end. -/
def oneConstant : List Token := tokensOf "constant $a = 1"

/-- A conjunction that begins with the number. -/
def conjoinedConstant : List Token := tokensOf "constant $a = 1 and $b"

theorem conjunction_is_predicted_behind_a_number :
    ∃ word ∈ (visibleTokens conjoinedConstant)[4]?, word.kind = .keyword .andKw ∧
      word.kind ∈ (candidatesAt oneConstant 7).kinds := by
  have known : ∃ word ∈ (visibleTokens conjoinedConstant)[4]?,
      GoesOn oneConstant conjoinedConstant word ∧ word.kind = .keyword .andKw ∧
      ∀ t ∈ (parse conjoinedConstant).tree.root.subtrees, ¬ t.ReadsUnasked word := by decide +kernel
  obtain ⟨word, there, goes, conjunction, asked⟩ := known
  have caret : caretOf oneConstant 7 = (visibleTokens oneConstant).length - 1 := by decide +kernel
  have clean : (parse conjoinedConstant).errors = [] := by decide +kernel
  exact ⟨word, there, conjunction, accepted_words_are_predicted goes caret clean asked⟩

/-- A fact set that is open at the end. -/
def openFactset : List Token := tokensOf "output o \x7b"

/-- The same fact set around a value. -/
def closedFactset : List Token := tokensOf "output o \x7b true \x7d"

/-- At the end the parser asks for no block of a fact set. -/
theorem block_of_a_fact_set_is_not_predicted :
    ∃ word ∈ (visibleTokens closedFactset)[3]?, GoesOn openFactset closedFactset word ∧
      caretOf openFactset 5 = (visibleTokens openFactset).length - 1 ∧
      (parse closedFactset).errors = [] ∧
      (∀ t ∈ (parse closedFactset).tree.root.subtrees, ¬ t.IsNameOf word) ∧
      word.kind ∉ (candidatesAt openFactset 5).kinds := by
  decide +kernel

/-- **Predicted words are accepted.** If there is no complaint of what stands before a caret, each
reserved word among the candidates there can follow: only the end behind it is complained of. A
`not` may nest too deep, and one behind a sign or an operator that takes none is left out. -/
theorem predicted_words_are_accepted (goes : GoesOn tokens tokens' word)
    (caret : caretOf tokens index = (visibleTokens tokens).length - 1)
    (alone : (visibleTokens tokens').length = (visibleTokens tokens).length + 1)
    (clean : ∀ e ∈ (parse tokens).errors, ∀ t ∈ (visibleTokens tokens).dropLast,
      e.span ≠ some t.span)
    (offered : word.kind ∈ (candidatesAt tokens index).kinds)
    (apart : word.kind = .keyword .notKw → ∀ op ∈ (visibleTokens tokens).dropLast.getLast?,
      ∀ t ∈ (parse tokens).tree.root.subtrees, ¬ t.BindsTightly op) :
    ∀ e ∈ (parse tokens').errors,
      e.span = (visibleTokens tokens').getLast?.map (·.span) ∨
      word.kind = .keyword .notKw ∧ e.what = .tooDeepExpression ∧ e.span = some word.span := by
  obtain ⟨k, parts, rfl, front⟩ := goes.parts
  rw [← List.length_dropLast, ← front] at caret
  rw [Fork.mem_candidatesAt caret] at offered
  rcases parts.foreseen_accepted.2 with ⟨e, said, t, before, place⟩ | ⟨p, missed, probe⟩ | took |
    ⟨negated, u, made, op, behind, binds⟩
  · rw [(runFile_unprobed parts.ends _).2] at said
    exact absurd place (clean e (List.mem_reverse.mpr said) t (front ▸ before))
  · obtain ⟨p', probe', told⟩ := offered
    obtain rfl := Option.some.inj (probe.symm.trans probe')
    exact absurd told missed.2
  · have single : k.behind.length = 1 := by
      have count := congrArg List.length parts.ended
      have count' := congrArg List.length parts.further
      simp only [List.length_append, List.length_cons, List.length_nil] at count count'
      omega
    obtain ⟨last, behind, -⟩ := k.single_behind single
    intro e said
    rcases (took single).2 e (List.mem_reverse.mp said) with ⟨x, member, place⟩ | deep
    · rw [behind, List.mem_singleton] at member
      refine .inl ?_
      simp [place, member, parts.further, behind]
    · exact .inr deep
  · obtain ⟨v, below, rule, children⟩ := exists_subtree_of_made parts.ends made
    exact absurd (binds.congr rule children) (apart negated op (front ▸ behind) v below)

end Texts

/-- A conjunction without its second part. -/
def halfConjunction : List Token := tokensOf "output o 1 and"

/-- The same with a `not` where the second part begins. -/
def negatedHalf : List Token := tokensOf "output o 1 and not"

theorem negation_is_accepted_in_a_conjunction :
    ∃ word ∈ (visibleTokens negatedHalf)[4]?, word.kind = .keyword .notKw ∧
      ∀ e ∈ (parse negatedHalf).errors,
        e.span = (visibleTokens negatedHalf).getLast?.map (·.span) ∨
        word.kind = .keyword .notKw ∧ e.what = .tooDeepExpression ∧ e.span = some word.span := by
  have known : ∃ word ∈ (visibleTokens negatedHalf)[4]?, GoesOn halfConjunction negatedHalf word ∧
      word.kind = .keyword .notKw ∧ word.kind ∈ (candidatesAt halfConjunction 7).kinds := by
    decide +kernel
  obtain ⟨word, there, goes, negated, offered⟩ := known
  have apart : ∀ op ∈ (visibleTokens halfConjunction).dropLast.getLast?,
      ∀ t ∈ (parse halfConjunction).tree.root.subtrees, ¬ t.BindsTightly op := by decide +kernel
  exact ⟨word, there, negated, predicted_words_are_accepted goes (by decide +kernel)
    (by decide +kernel) (by decide +kernel) offered fun _ => apart⟩

/-- A token in the first line of a text. -/
def Token.inLine (kind : TokenKind) (text : String) (index offset : Nat) : Token where
  kind := kind
  text := text
  span := ⟨⟨1, offset + 1, offset⟩, ⟨1, offset + text.length + 1, offset + text.length⟩⟩
  channel := .visible
  index := index

/-- An output with as many open parentheses as there may be. -/
def deepOutput : List Token :=
  .inLine (.keyword .outputKw) "output" 0 0 :: .inLine .identifier "o" 1 7 ::
    (List.range 127).map fun n => .inLine (.punctuator .lparen) "(" (n + 2) (n + 9)

/-- The end behind the parentheses. -/
def deepEnd : Token := .inLine .endOfInput "" 129 137

/-- A `not` behind them. -/
def deepNot : Token := .inLine (.keyword .notKw) "not" 129 137

/-- There is no room for the `not`, but the parser asks for it. -/
theorem deepest_negation_is_too_deep :
    let tokens := deepOutput ++ [deepEnd]
    let tokens' := deepOutput ++ [deepNot, .inLine .endOfInput "" 130 140]
    GoesOn tokens tokens' deepNot ∧
      caretOf tokens 129 = (visibleTokens tokens).length - 1 ∧
      (visibleTokens tokens').length = (visibleTokens tokens).length + 1 ∧
      (∀ e ∈ (parse tokens).errors, ∀ t ∈ (visibleTokens tokens).dropLast, e.span ≠ some t.span) ∧
      deepNot.kind ∈ (candidatesAt tokens 129).kinds ∧
      ∃ e ∈ (parse tokens').errors, e.span = some deepNot.span := by
  intro tokens tokens'
  have visible : visibleTokens tokens = tokens := List.filter_eq_self.mpr (by decide +kernel)
  have visible' : visibleTokens tokens' = tokens' := List.filter_eq_self.mpr (by decide +kernel)
  have further : (visibleTokens tokens).dropLast ++ [deepNot] <+: visibleTokens tokens' := by
    rw [visible, visible', List.dropLast_concat]
    exact ⟨[.inLine .endOfInput "" 130 140], by simp [tokens']⟩
  exact ⟨⟨by decide +kernel, by decide +kernel, further, rfl⟩, by decide +kernel,
    by decide +kernel, by decide +kernel, by decide +kernel, by decide +kernel⟩

end XuleLang
