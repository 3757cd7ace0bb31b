import XuleLang.Proofs.Parser.Composition
import XuleLang.Proofs.Parser.File
import XuleLang.Proofs.Parser.Halting
import XuleLang.Proofs.Parser.Lossless
import XuleLang.Proofs.Parser.Shift
import XuleLang.Proofs.Syntax.FileTree

/-!
Parsing starts afresh at a word that begins a declaration.

However malformed the tokens before the word are, the parser comes to it between two declarations of
the file, with no node open but the file. From there on it does what it does with the word and what
stands behind it alone. Of what went before, only the numbers of nodes and tokens bear a trace.
-/

namespace XuleLang

namespace Parser

variable {s : ParserState} {deep : Bool}

/-! ## The watched parser is the parser -/

theorem alike_unlessAhead {n : Nat} {p q : Parser Unit} (alike : Alike deep p q) :
    Alike deep (unlessAhead n p) q := by
  have asked : (get >>= fun _ => q) = q := rfl
  rw [← asked]
  refine .ask fun s _ _ => ?_
  split
  · exact .overrunFirst alike
  · exact alike

theorem watchedLevel_alike (n : Nat) : ∀ depth, (watchedLevel n depth).Alike (level depth)
  | 0 => lowestLevel_alike
  | 1 =>
    have last := levelAbove_alike lowestLevel_alike
    ⟨alike_unlessAhead last.expression, alike_unlessAhead last.negation,
      alike_unlessAhead last.signed⟩
  | depth + 2 => levelAbove_alike (watchedLevel_alike n (depth + 1))

/-- Where the watched parser reaches no bound, it does what the parser does. -/
theorem nextDeclaration_watched {n depth : Nat} (opened : s.frames ≠ []) (ends : EndsOnce s.rest)
    (clean : s.overran = false)
    (watched : ((nextDeclaration (watchedLevel n depth)).run s).2.overran = false) :
    (nextDeclaration (watchedLevel n depth)).run s = (nextDeclaration (level depth)).run s := by
  have alike : Alike false (nextDeclaration (watchedLevel n depth))
      (nextDeclaration (level depth)) := alike_nextDeclaration (watchedLevel_alike n depth)
  obtain ⟨builds, -⟩ := does_nextDeclaration (level_sound depth) s rfl opened ends
  rcases alike.run_eq s with same | far | far
  · exact same
  · exact absurd (watched.symm.trans far) nofun
  · exact absurd ((builds.overran.trans clean).symm.trans far) nofun

end Parser

/-! ## The same tokens further back -/

section Moved

variable {before behind : List Token} {k : Nat}

theorem EndsOnce.moved (ends : EndsOnce behind) : EndsOnce (behind.map (·.moved k)) := by
  obtain ⟨front, last, rfl, last_ends, others⟩ := ends
  refine ⟨front.map (·.moved k), last.moved k, by simp, last_ends, fun t member => ?_⟩
  obtain ⟨u, there, rfl⟩ := List.mem_map.mp member
  exact others u there

theorem inOrder_moved
    (inOrder : (before ++ behind).Pairwise fun t u => t.span.start.offset < u.span.start.offset) :
    (before ++ behind.map (·.moved k)).Pairwise
      fun t u => t.span.start.offset < u.span.start.offset := by
  rw [List.pairwise_append] at inOrder ⊢
  obtain ⟨first, second, across⟩ := inOrder
  refine ⟨first, List.pairwise_map.mpr second, fun t member u there => ?_⟩
  obtain ⟨v, old, rfl⟩ := List.mem_map.mp there
  exact across t member v old

theorem visible_moved (visible : ∀ t ∈ before ++ behind, t.isVisible = true) :
    ∀ t ∈ before ++ behind.map (·.moved k), t.isVisible = true := by
  intro t member
  rcases List.mem_append.mp member with first | second
  · exact visible t (List.mem_append_left _ first)
  · obtain ⟨u, there, rfl⟩ := List.mem_map.mp second
    exact visible u (List.mem_append_right _ there)

end Moved

/-- The word and what stands behind it, further back in their stream. -/
def Barrier.moved (k : Nat) (b : Barrier) : Barrier :=
  { b with word := b.word.moved k, rest := b.rest.map (·.moved k) }

namespace Parser

variable {b : Barrier} {s : ParserState}

/-! ## Coming to the word -/

/-- A step that says yes is followed by the others. -/
theorem repeatUpTo_succ_run {step : Parser Bool} {n : Nat} (on : (step.run s).1 = true) :
    (repeatUpTo (n + 1) step).run s = (repeatUpTo n step).run (step.run s).2 := by
  have run : (repeatUpTo (n + 1) step).run s =
      (if (step.run s).1 then repeatUpTo n step else pure ()).run (step.run s).2 := rfl
  rw [run, if_pos on]

/-- The declarations before the word come to an end there, with no more than the file open. -/
theorem declarations_reach_word {depth n : Nat} (nested : depth ≠ 0) (opened : s.frames ≠ [])
    (ends : EndsOnce s.rest) (ahead : b.Ahead s.rest) (clean : s.overran = false)
    (watched : ((repeatUpTo n (nextDeclaration (watchedLevel b.behind.length depth))).run
      s).2.overran = false) :
    ∃ m s', s'.rest = b.behind ∧ ParserState.Builds .file s s' ∧
      (∀ I, ParserState.Kept I → I s → I s') ∧
      (repeatUpTo n (nextDeclaration (level depth))).run s =
        (repeatUpTo m (nextDeclaration (level depth))).run s' := by
  induction n generalizing s with
  | zero => cases watched
  | succ n ih =>
    rcases ahead.eq_or_before with here | before
    case inl =>
      exact ⟨n + 1, s, here, ParserState.Agrees.builds ⟨rfl, rfl, rfl, rfl, rfl⟩ opened,
        fun _ _ => id, rfl⟩
    case inr =>
      obtain ⟨between, on⟩ := halts_nextDeclaration (watchedLevel_heeds b nested) before ahead s rfl
      rw [repeatUpTo_succ_run on] at watched
      have alike : Alike false (nextDeclaration (level depth)) (nextDeclaration (level depth)) :=
        alike_nextDeclaration (level_alike depth)
      let watchedStep := nextDeclaration (watchedLevel b.behind.length depth)
      have others : Alike false (repeatUpTo n watchedStep) (repeatUpTo n _) :=
        alike_repeatUpTo (alike_nextDeclaration (watchedLevel_alike b.behind.length depth)) n n
      rw [nextDeclaration_watched opened ends clean (others.overran_of_run watched)]
        at between on watched
      obtain ⟨builds, -⟩ := does_nextDeclaration (level_sound depth) s rfl opened ends
      obtain ⟨m, s', here, more, keeps, run⟩ := ih builds.opened (builds.endsOnce ends) between
        (builds.overran.trans clean) watched
      exact ⟨m, s', here, builds.trans more, fun I kept holds =>
        keeps I kept ((alike.keeps kept).1 s holds), (repeatUpTo_succ_run on).trans run⟩

/-! ## Files -/

/-- As long as a token of `before` is ahead, expressions nest less than `depth` deep. -/
def NestsBelow (depth : Nat) (before behind : List Token) : Prop :=
  ((file (watchedLevel behind.length depth)).run
    (.ofTokens (before ++ behind) none)).2.overran = false

instance (depth : Nat) (before behind : List Token) : Decidable (NestsBelow depth before behind) :=
  inferInstanceAs (Decidable (_ = false))

theorem repeatWhile_run (step : Parser Bool) (s : ParserState) :
    (repeatWhile step).run s = (repeatUpTo (s.rest.length + 1) step).run s := rfl

/-- The declarations of a file come first, then the end. -/
theorem file_run_declarations (l : Level) (tokens : List Token) :
    ((file l).run (.ofTokens tokens none)).2 =
      ((repeatUpTo (tokens.length + 1) (nextDeclaration l)).run
        (.start (.ofTokens tokens none) .file)).2.bump.finish := by
  rw [file_run, repeatWhile_run, (ParserState.start_agrees _ _).rest]
  rfl

/-- The parser comes to the word with no more than the file open. -/
theorem file_reaches_word (b : Barrier) {depth : Nat} (nested : depth ≠ 0)
    (ends : EndsOnce b.behind)
    (inOrder : (b.front ++ b.behind).Pairwise
      fun x y => x.span.start.offset < y.span.start.offset)
    (shallow : NestsBelow depth b.front b.behind) :
    ∃ m n made s, s.rest = b.behind ∧ s.frames = [⟨0, .file, made⟩] ∧ s.finished = [] ∧
      s.nextId = n + 1 ∧ s.Quiet b.word ∧
      ((file (level depth)).run (.ofTokens (b.front ++ b.behind) none)).2 =
        ((repeatUpTo m (nextDeclaration (level depth))).run s).2.bump.finish := by
  let before : ParserState := .ofTokens (b.front ++ b.behind) none
  have started := before.start_agrees .file
  have rest : (before.start .file).rest = b.front ++ b.behind := started.rest
  have opened : (before.start .file).frames ≠ [] := by simp [started.frames]
  have whole_ends : EndsOnce (before.start .file).rest := by
    rw [rest]
    exact ends.append b.unended
  have ahead : b.Ahead (before.start .file).rest := by
    rw [rest]
    exact ⟨b.front, List.suffix_refl _, rfl⟩
  unfold NestsBelow at shallow
  rw [file_run_declarations] at shallow ⊢
  have watched := ParserState.Operation.bump.overran_of
    (ParserState.Operation.finish.overran_of shallow)
  obtain ⟨m, s, here, builds, keeps, run⟩ :=
    declarations_reach_word nested opened whole_ends ahead started.overran watched
  obtain ⟨finished, overran, f, outer, made, opened, frames, grows⟩ := builds
  obtain ⟨rfl, rfl⟩ := List.cons.inj (started.frames.symm.trans opened)
  obtain ⟨n, number⟩ := Nat.exists_eq_add_of_le' (started.nextId ▸ grows.ids.1)
  have begun : before.Quiet b.word := ⟨rfl, inOrder, fun _ _ told => absurd told List.not_mem_nil⟩
  have quiet := keeps _ (ParserState.kept_quiet b.word) <|
    ParserState.kept_quiet b.word _ (.start .file) before begun
  exact ⟨m, n, made, s, here, frames, finished.trans started.finished, number, quiet,
    by rw [run]⟩

/-- From the word on the parser does what it does with the word and what stands behind it alone. -/
theorem file_resumes {made : List Tree} {k n m depth : Nat} (ends : EndsOnce b.behind)
    (later : ∀ x ∈ b.rest, b.word.span.start.offset < x.span.start.offset)
    (here : s.rest = b.behind.map (·.moved k)) (frames : s.frames = [⟨0, .file, made⟩])
    (finished : s.finished = []) (number : s.nextId = n + 1) (quiet : s.Quiet (b.word.moved k))
    (never : ((repeatUpTo m (nextDeclaration (level depth))).run s).2.overran = false)
    (never' : ((file (level depth)).run (.ofTokens b.behind none)).2.overran = false) :
    ∃ t, ((file (level depth)).run (.ofTokens b.behind none)).2 = t.bump.finish ∧
      ParserState.Resumes k n b.word b.rest made 0
        ((repeatUpTo m (nextDeclaration (level depth))).run s).2 t := by
  let before : ParserState := .ofTokens b.behind none
  have early : ∀ e ∈ s.errors, ¬ e.isBehind b.word.span.start.offset :=
    quiet.early (by simp [here, Barrier.behind])
  have begin : ParserState.Resumes k n b.word b.rest made 0 s (before.start .file) :=
    { rest := here
      suffix := List.suffix_refl _
      ends := ends
      nextId := by rw [number, Nat.add_comm]; rfl
      frames := frames ▸ .file []
      finished := ⟨finished, rfl⟩
      unprobed := ⟨quiet.unprobed, rfl⟩
      errors := ⟨[], s.errors, [], rfl, rfl, by simp, by simpa using early, fun _ => rfl⟩ }
  let step := nextDeclaration (level depth)
  have alike : Alike false (repeatUpTo m step) (repeatUpTo (b.behind.length + 1) step) :=
    alike_repeatUpTo (alike_nextDeclaration (level_alike depth)) m (b.behind.length + 1)
  rw [file_run_declarations] at never' ⊢
  refine ⟨_, rfl, ?_⟩
  rcases alike.coupled (ParserState.inStep_resumes made later).coupled nofun begin with
    ⟨-, same⟩ | far | far
  · exact same
  · exact absurd (never.symm.trans far) nofun
  · have never_before := ParserState.Operation.bump.overran_of
      (ParserState.Operation.finish.overran_of never')
    exact absurd (never_before.symm.trans far) nofun

/-- The word's own file makes the last parts of the whole one, and complains of the same behind the
word. -/
theorem file_starts_afresh (b : Barrier) (k : Nat) {depth : Nat} (nested : depth ≠ 0)
    (ends : EndsOnce b.behind)
    (inOrder : (b.front ++ b.behind).Pairwise
      fun x y => x.span.start.offset < y.span.start.offset)
    (shallow : NestsBelow depth b.front (b.behind.map (·.moved k))) {s t : ParserState}
    (whole : ((file (level depth)).run
      (.ofTokens (b.front ++ b.behind.map (·.moved k)) none)).2 = s)
    (alone : ((file (level depth)).run (.ofTokens b.behind none)).2 = t)
    (never : s.overran = false) (never' : t.overran = false) :
    ∃ n made us, s.finished = [.ofChildren 0 .file (made ++ us.map (·.shifted k n))] ∧
      t.finished = [.ofChildren 0 .file us] ∧
      s.errors.filter (·.isBehind b.word.span.start.offset) =
        t.errors.filter (·.isBehind b.word.span.start.offset) := by
  have later := (List.pairwise_cons.mp (List.pairwise_append.mp inOrder).2.1).1
  obtain ⟨m, n, made, u, here, frames, finished, number, quiet, run⟩ :=
    file_reaches_word (b.moved k) nested ends.moved (inOrder_moved inOrder) shallow
  obtain rfl := whole.symm.trans run
  have never_before := ParserState.Operation.bump.overran_of
    (ParserState.Operation.finish.overran_of never)
  obtain ⟨v, run', resumes⟩ :=
    file_resumes ends later here frames finished number quiet never_before (alone ▸ never')
  obtain rfl := alone.symm.trans run'
  obtain ⟨us, closed, closed'⟩ := resumes.bump.close
  refine ⟨n, made.reverse, us, closed, closed', ?_⟩
  rw [(ParserState.finish_reseen _).1.errors, (ParserState.finish_reseen _).1.errors,
    resumes.bump.errors_behind]

end Parser

open XuleLang.Parser

theorem parse_of_finished {tokens : List Token} {ts : List Tree}
    (finished : (runFile tokens none).finished = [.ofChildren 0 .file ts]) :
    (parse tokens).tree.root.children = ts := by
  simp only [parse, finished]
  rfl

theorem visibleTokens_eq_self {tokens : List Token} (visible : ∀ t ∈ tokens, t.isVisible = true) :
    visibleTokens tokens = tokens := List.filter_eq_self.mpr visible

theorem runFile_of_visible {tokens : List Token} (visible : ∀ t ∈ tokens, t.isVisible = true) :
    runFile tokens none = ((file (level maxDepth)).run (.ofTokens tokens none)).2 := by
  rw [runFile, visibleTokens_eq_self visible]

/-- **Parsing starts afresh at a word that begins a declaration.** The last parts of the file are
those of the word and what stands behind it alone, and behind the word the same is complained of. -/
theorem declarations_are_parsed_afresh {before behind : List Token} {word : Token} (k : Nat)
    (visible : ∀ t ∈ before ++ word :: behind, t.isVisible = true)
    (unended : ∀ t ∈ before, t.kind ≠ .endOfInput) (ends : EndsOnce (word :: behind))
    (declares : word.kind ∈ declarationStarts)
    (inOrder : (before ++ word :: behind).Pairwise
      fun t u => t.span.start.offset < u.span.start.offset)
    (unjoined : ∀ t ∈ before.getLast?, t.kind ∉ joiners)
    (shallow : NestsBelow maxDepth before ((word :: behind).map (·.moved k))) :
    let whole := parse (before ++ (word :: behind).map (·.moved k))
    let alone := parse (word :: behind)
    (∃ n, alone.tree.root.children.map (·.shifted k n) <:+ whole.tree.root.children) ∧
      whole.errors.filter (·.isBehind word.span.start.offset) =
        alone.errors.filter (·.isBehind word.span.start.offset) := by
  intro whole alone
  let tokens := before ++ (word :: behind).map (·.moved k)
  let b : Barrier := ⟨before, word, behind, declares, unended, unjoined⟩
  have whole_visible : ∀ t ∈ tokens, t.isVisible = true := visible_moved visible
  have alone_visible : ∀ t ∈ word :: behind, t.isVisible = true :=
    fun t member => visible t (List.mem_append_right before member)
  have whole_ends : EndsOnce (visibleTokens tokens) := by
    rw [visibleTokens_eq_self whole_visible]
    exact ends.moved.append unended
  have alone_ends : EndsOnce (visibleTokens (word :: behind)) := by
    rwa [visibleTokens_eq_self alone_visible]
  obtain ⟨n, made, us, finished, finished', errors⟩ :=
    file_starts_afresh b k (show maxDepth ≠ 0 by decide) ends inOrder shallow
      (runFile_of_visible whole_visible).symm (runFile_of_visible alone_visible).symm
      (runFile_builds whole_ends none).1 (runFile_builds alone_ends none).1
  refine ⟨⟨n, made, ?_⟩, ?_⟩
  · rw [parse_of_finished finished, parse_of_finished finished']
  · have whole_errors : whole.errors = (runFile tokens none).errors.reverse := rfl
    have alone_errors : alone.errors = (runFile (word :: behind) none).errors.reverse := rfl
    rw [whole_errors, alone_errors, List.filter_reverse, List.filter_reverse, errors]

/-- A call, a fact set and a condition without end, and two declarations behind them. -/
def unclosedTokens : List Token :=
  visibleTokens (tokensOf "assert r satisfied f($x, [@y where constant $b = 1 + output o")

/-- The two declarations alone, at the same places of the text. -/
def laterTokens : List Token :=
  visibleTokens (tokensOf "                                   constant $b = 1 + output o")

/-- Declarations behind a call without end are parsed as they are alone. -/
theorem unclosed_call_ends_at_the_next_declaration :
    (parse unclosedTokens).errors.length = 3 ∧
    (∃ n, (parse laterTokens).tree.root.children.map (·.shifted 16 n) <:+
      (parse unclosedTokens).tree.root.children) ∧
    (parse unclosedTokens).errors.filter (·.isBehind 35) =
      (parse laterTokens).errors.filter (·.isBehind 35) := by
  let before := unclosedTokens.take 11
  let word := laterTokens.headD default
  let behind := laterTokens.tail
  have later : laterTokens = word :: behind := by decide +kernel
  have whole : unclosedTokens = before ++ (word :: behind).map (·.moved 16) := by decide +kernel
  have offset : word.span.start.offset = 35 := by decide +kernel
  have visible : ∀ t ∈ before ++ word :: behind, t.isVisible = true := by decide +kernel
  have unended : ∀ t ∈ before, t.kind ≠ .endOfInput := by decide +kernel
  have ends : EndsOnce (word :: behind) := by decide +kernel
  have declares : word.kind ∈ declarationStarts := by decide +kernel
  have inOrder : (before ++ word :: behind).Pairwise
      fun t u => t.span.start.offset < u.span.start.offset := by decide +kernel
  have unjoined : ∀ t ∈ before.getLast?, t.kind ∉ joiners := by decide +kernel
  have shallow : NestsBelow maxDepth before ((word :: behind).map (·.moved 16)) := by decide +kernel
  have afresh := declarations_are_parsed_afresh 16 visible unended ends declares inOrder unjoined
    shallow
  rw [← whole, ← later, offset] at afresh
  exact ⟨by decide +kernel, afresh⟩

end XuleLang
