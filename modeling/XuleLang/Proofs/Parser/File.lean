import XuleLang.Syntax.Parse
import XuleLang.Proofs.Parser.Grammar

/-!
Declarations, and what a whole file becomes.

Each declaration reads the word that it begins with, and what is no declaration is skipped with at
least one token. So the parser of a file comes to the end of its tokens, which closes the file.
-/

namespace XuleLang

namespace Parser

variable {l : Level} {ts : List Token}

/-! ## Declarations -/

theorem advances_ruleNamePart : Advances .scope ruleNamePart := by
  refine fun ts => .after (stays_kindAt 1) fun following here => .after stays_kind fun k first => ?_
  split
  case isTrue yes =>
    simp only [Bool.and_eq_true, Bool.or_eq_true, beq_iff_eq] at yes
    have second : kindAhead ts 1 ≠ .endOfInput := by
      rintro reached
      simp [here, reached] at yes
    have ahead : kindAhead ts 0 ≠ .endOfInput := by simp [← first, yes.1]
    exact (reads_bump.andThen fun _ => .answer true).behind ahead second |>.weaken
      fun _ _ _ fewer _ => fewer
  case isFalse => exact .answer nofun

theorem works_ruleName : Works .scope ruleName := by
  have name : Reads .scope (do bump; repeatWhile ruleNamePart) :=
    reads_bump.andThen fun _ => advances_ruleNamePart.repeated
  refine .within rfl fun ts => .after spots_seesName fun named spotted => ?_
  cases named with
  | true => exact (name.working (spotted rfl))
  | false => exact Works.ifSpotted (spots_sees (by simp)) name (stays_complainWanted _).works ts

theorem advances_outputAttribute (sound : l.Sound) : Advances .scope (outputAttribute l) := by
  have given : Reads .scope (within .outputAttribute do
      leafOf .outputAttributeName
      l.expression) :=
    .within rfl <| (reads_leafOf rfl).andThen fun _ => sound.expression
  exact .after (stays_predict _).works fun _ =>
    .ifSpotted (spots_sees nofun) (given.andThen fun _ => .answer true) .stop

theorem works_ruleBody (sound : l.Sound) : Works .scope (ruleBody l) :=
  .andThen (works_block sound nofun) fun _ => (advances_outputAttribute sound).repeated

theorem reads_assertion (sound : l.Sound) : Reads .file (assertion l) :=
  .within rfl <| reads_bump.andThen fun _ => works_ruleName.andThen fun _ =>
    .ifSpottedThen (spots_seesAny (by decide)) reads_bump (works_ruleBody sound)

theorem reads_output (sound : l.Sound) : Reads .file (output l) :=
  .within rfl <| reads_bump.andThen fun _ => works_ruleName.andThen fun _ => works_ruleBody sound

theorem works_functionArguments : Works .scope functionArguments := by
  have close : Works .scope (do let _ ← expect (.punctuator .rparen)) :=
    .andThen (works_expect nofun) fun _ => .answer ()
  have argument : Works .scope functionArgument := .within rfl (works_require _ nofun)
  exact .within rfl <| .andThen (works_expect nofun) fun _ => .either
    (.andThen (stays_sees _).works fun _ => .eitherThen (works_commaSeparated argument) close)
    (.answer ())

theorem reads_function (sound : l.Sound) : Reads .file (function l) :=
  .within rfl <| reads_bump.andThen fun _ => .andThen (works_require _ nofun) fun _ =>
    works_functionArguments.andThen fun _ => works_block sound nofun

theorem reads_constant (sound : l.Sound) : Reads .file (constant l) :=
  .within rfl <| reads_bump.andThen fun _ => .andThen (works_require _ nofun) fun _ =>
    .andThen (works_expect nofun) fun _ => .either (works_block sound nofun) (.answer ())

theorem reads_namespaceDeclaration (sound : l.Sound) : Reads .file (namespaceDeclaration l) := by
  have uri : Works .declaration (do
      if ← sees .url then bump
      else if ← sees .stringOpen then stringLiteral l
      else complainWanted .namespaceUri) :=
    .ifSpotted (spots_sees nofun) reads_bump <|
    .ifSpotted (spots_sees nofun) (reads_stringLiteral sound nofun) (stays_complainWanted _).works
  refine .within rfl <| reads_bump.andThen fun _ ts => .knowing fun ends =>
    .after (spots_sees nofun) fun named spotted => .after (stays_kindAt 1) fun following here => ?_
  split
  case isTrue yes =>
    obtain ⟨name, assign⟩ := Bool.and_eq_true_iff.mp yes
    have second : kindAhead ts 1 ≠ .endOfInput := by simp [← here, beq_iff_eq.mp assign]
    exact (reads_bump.andThen fun _ => uri).behind (spotted name) second |>.weaken
      fun _ _ _ _ => trivial
  case isFalse => exact uri ts

theorem reads_nameDeclaration {r : Rule} (admitted : Region.file.admits r) :
    Reads .file (nameDeclaration r) :=
  .within admitted <| reads_bump.andThen fun _ => works_require _ nofun

theorem reads_separatorDeclaration (sound : l.Sound) : Reads .file (separatorDeclaration l) :=
  .within rfl <| reads_bump.andThen fun _ =>
    .ifSpotted (spots_sees nofun) (reads_stringLiteral sound nofun) (stays_complainWanted _).works

theorem reads_declaration (sound : l.Sound) : Reads .file (declaration l) := by
  refine fun ts ahead => .after stays_kind fun k here => ?_
  split
  case h_1 => exact reads_assertion sound ts ahead
  case h_2 => exact reads_output sound ts ahead
  case h_3 => exact reads_function sound ts ahead
  case h_4 => exact reads_constant sound ts ahead
  case h_5 => exact reads_namespaceDeclaration sound ts ahead
  case h_6 => exact reads_nameDeclaration rfl ts ahead
  case h_7 => exact reads_nameDeclaration rfl ts ahead
  case h_8 => exact reads_separatorDeclaration sound ts ahead
  case h_9 =>
    have others : kindAhead ts 0 ∉ declarationStarts := by simp_all [declarationStarts]
    exact .after (stays_complain _) fun _ _ => does_skipTo rfl ahead others

/-- Declarations end only with the tokens. -/
theorem does_nextDeclaration (sound : l.Sound) :
    Does .file ts (nextDeclaration l) fun yes us =>
      if yes then us.length < ts.length else kindAhead us 0 = .endOfInput := by
  refine .after (stays_seesAny _) fun _ _ => .after (stays_sees _) fun ended here => ?_
  cases ended with
  | true => exact .answer (by simpa using here.symm)
  | false =>
    have ahead : kindAhead ts 0 ≠ .endOfInput := by simpa using here.symm
    exact (reads_declaration sound ts ahead).andThen fun _ _ _ fewer => .answer fewer

/-! ## Files -/

theorem file_run (l : Level) (s : ParserState) :
    ((file l).run s).2 = ((repeatWhile (nextDeclaration l)).run (s.start .file)).2.bump.finish := by
  unfold file within
  rfl

end Parser

open XuleLang.Parser

variable {tokens : List Token}

/-- The declarations of a file grow up to the end behind them, which closes the file. No node stays
open. -/
theorem runFile_closes (ends : EndsOnce (visibleTokens tokens)) (probe : Option Probe) :
    ∃ last n trees, last.kind = .endOfInput ∧
      Grows .file ⟨visibleTokens tokens, 1, []⟩ ⟨[last], n, trees⟩ ∧
      (runFile tokens probe).overran = false ∧ (runFile tokens probe).frames = [] ∧
      (runFile tokens probe).finished =
        [.ofChildren 0 .file (trees.reverse ++ [.leaf ⟨n, last⟩])] := by
  let before : ParserState := .ofTokens (visibleTokens tokens) probe
  let declarations := repeatWhile (nextDeclaration (level maxDepth))
  have started := before.start_agrees .file
  have does : Does .file (visibleTokens tokens) declarations fun _ us =>
      kindAhead us 0 = .endOfInput :=
    .repeated fun us _ => does_nextDeclaration (level_sound maxDepth)
  obtain ⟨builds, reached⟩ := does (before.start .file) started.rest (by simp [started.frames]) ends
  let behind := (declarations.run (before.start .file)).2
  obtain ⟨last, here, last_ends⟩ : ∃ last, behind.rest = [last] ∧ last.kind = .endOfInput :=
    (builds.endsOnce (started.rest ▸ ends)).eq_singleton reached
  obtain ⟨finished, overran, f, outer, trees, opened, frames, grows⟩ := builds
  obtain ⟨rfl, rfl⟩ := List.cons.inj (started.frames.symm.trans opened)
  -- The last step makes the end a leaf of the file.
  have bumped := ParserState.bump_of_cons here
  rw [ParserState.attach_of_cons frames] at bumped
  have whole : runFile tokens probe = behind.bump.finish := rfl
  have closed : behind.bump.finish = { behind.bump with frames := [] }.attach
      (.ofChildren 0 .file (Tree.leaf ⟨behind.nextId, last⟩ :: trees).reverse) := by
    simp only [ParserState.finish, bumped.frames]
    rfl
  have nothing : behind.bump.finished = [] :=
    bumped.finished.trans (finished.trans started.finished)
  refine ⟨last, behind.nextId, trees, last_ends, ?_, ?_, ?_, ?_⟩
  · rw [started.rest, started.nextId] at grows
    exact here ▸ grows
  · rw [whole, closed]
    exact bumped.overran.trans (overran.trans started.overran)
  · rw [whole, closed]
    rfl
  · rw [whole, closed, ← List.reverse_cons]
    simp only [ParserState.attach, nothing]

/-- **A file is built.** If the end stands behind all visible tokens, the declarations grow a file
up to it, and it becomes the last child. No repetition reaches its bound. -/
theorem runFile_builds (ends : EndsOnce (visibleTokens tokens)) (probe : Option Probe) :
    (runFile tokens probe).overran = false ∧
    ∃ last n trees, last.kind = .endOfInput ∧
      Grows .file ⟨visibleTokens tokens, 1, []⟩ ⟨[last], n, trees⟩ ∧
      (runFile tokens probe).finished =
        [.ofChildren 0 .file (trees.reverse ++ [.leaf ⟨n, last⟩])] := by
  obtain ⟨last, n, trees, last_ends, grows, overran, -, finished⟩ := runFile_closes ends probe
  exact ⟨overran, last, n, trees, last_ends, grows, finished⟩

/-- The tree of a stream is a file whose children grew up to the end. -/
theorem parse_root (ends : EndsOnce (visibleTokens tokens)) :
    ∃ last n trees, last.kind = .endOfInput ∧
      Grows .file ⟨visibleTokens tokens, 1, []⟩ ⟨[last], n, trees⟩ ∧
      (parse tokens).tree.root =
        .node 0 .file (some (wholeSpan tokens)) (trees.reverse ++ [.leaf ⟨n, last⟩]) := by
  obtain ⟨-, last, n, trees, last_ends, grows, finished⟩ := runFile_builds ends none
  refine ⟨last, n, trees, last_ends, grows, ?_⟩
  simp only [parse, finished]
  rfl

end XuleLang
