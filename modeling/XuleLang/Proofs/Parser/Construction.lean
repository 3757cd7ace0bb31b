import XuleLang.Proofs.Parser.Books
import XuleLang.Proofs.Parser.File
import XuleLang.Proofs.Syntax.Arena

/-!
What a parser makes of an arena.

A parser keeps the nodes under construction as a chain of frames, and trees are completed from the
inside out. An arena is made by the same actions another way: entries are added at the end, and the
links of those that are there are changed. At every moment the entries stored are those that the
frames and the completed trees tell (`TreeBuilder.Builds`). This is so at the start, and no action
puts an end to it, whatever came before (`TreeBuilder.Builds.perform`); so it is after any run, and
the arena of a file holds the tree of the file (`parseArena_holds`).
-/

namespace XuleLang

/-! ## Actions on an arena -/

/-- What an action does to an arena under construction. -/
def Action.construct : Action → Ledger → TreeBuilder → TreeBuilder
  | bump, m, b =>
    match m.rest with
    | [] => b
    | t :: _ => b.token t.index t.span
  | start r, _, b => b.start r
  | wrap r, _, b => b.wrapLast r
  | finish, _, b => b.finish
  | note _ _, _, b | complain _, _, b | overrun, _, b | enter, _, b | leave, _, b => b

/-- The arena under construction after the actions of a program. -/
def Program.construct {α : Type} (p : Program α) (m : Ledger) (b : TreeBuilder) : TreeBuilder :=
  (p.steps m).foldl (fun b step => step.1.construct step.2 b) b

/-- The arena under construction after the parser has gone through a stream. -/
def constructFile (tokens : List Token) : TreeBuilder :=
  Procedure.file.program.construct (.of (.ofTokens (visibleTokens tokens) none) 0) .empty

/-- The arena that the parser makes of a stream. -/
def parseArena (tokens : List Token) : Arena :=
  ⟨(constructFile tokens).build (wholeSpan tokens), tokens⟩

/-! ## Nodes under construction -/

/-- The entry of an open node with a parent. The open node inside of it is its latest child. -/
def Frame.data (parent inner : Option Nat) (f : Frame) : NodeData :=
  ⟨.rule f.rule, parent, f.children.reverse.map Tree.id ++ inner.toList, none⟩

/-- The entries of open nodes and of what is complete in them, with the node `inner` open inside of
them all. -/
def Frame.entries (inner : Option Nat) : List Frame → List (Nat × NodeData)
  | [] => []
  | f :: outer =>
    (f.id, f.data (outer.head?.map (·.id)) inner) ::
      (Tree.entriesOfAll (some f.id) f.children ++ entries (some f.id) outer)

namespace TreeBuilder

variable {b : TreeBuilder} {s : ParserState} {es : List (Nat × NodeData)}

/-- An arena under construction has the entries that a state of the parser tells. -/
structure Builds (b : TreeBuilder) (s : ParserState) : Prop where
  opened : b.opened = s.frames.map (·.id)
  size : b.nodes.size = s.nextId
  stores : Stores b.nodes (Frame.entries none s.frames ++ Tree.entriesOfAll none s.finished)

theorem builds_empty (visible : List Token) (probe : Option Probe) :
    empty.Builds (.ofTokens visible probe) :=
  { opened := rfl
    size := rfl
    stores := ⟨.refl _, nofun⟩ }

/-- A new entry, where no node is open. -/
theorem stores_push_nil (closed : b.opened = []) (stores : Stores b.nodes es) (kind : NodeKind)
    (span : Option Span) :
    Stores (b.push kind span).nodes ((b.nodes.size, ⟨kind, none, [], span⟩) :: es) := by
  simp only [push, closed]
  exact stores.push _

/-- A new entry becomes the latest child of the innermost open node. -/
theorem stores_push_cons {p : Nat} {outer : List Nat} {d : NodeData}
    (opened : b.opened = p :: outer)
    (stores : Stores b.nodes ((p, d) :: es)) (kind : NodeKind) (span : Option Span) :
    Stores (b.push kind span).nodes ((b.nodes.size, ⟨kind, some p, [], span⟩) ::
      (p, { d with children := d.children ++ [b.nodes.size] }) :: es) := by
  simp only [push, opened]
  exact (((stores.push ⟨kind, some p, [], span⟩).of_perm (.swap _ _ _)).modify _).of_perm
    (.swap _ _ _)

@[simp] theorem size_push (b : TreeBuilder) (kind : NodeKind) (span : Option Span) :
    (b.push kind span).nodes.size = b.nodes.size + 1 := by
  rw [push]
  split <;> simp

@[simp] theorem opened_push (b : TreeBuilder) (kind : NodeKind) (span : Option Span) :
    (b.push kind span).opened = b.opened := by
  rw [push]
  split <;> rfl

/-- A new entry is told of by the state before, with a node of its number open inside. -/
theorem Builds.stores_push (builds : b.Builds s) (kind : NodeKind) (span : Option Span) :
    Stores (b.push kind span).nodes ((s.nextId, ⟨kind, s.frames.head?.map (·.id), [], span⟩) ::
      (Frame.entries (some s.nextId) s.frames ++ Tree.entriesOfAll none s.finished)) := by
  obtain ⟨opened, size, stores⟩ := builds
  rw [← size]
  cases frames : s.frames with
  | nil =>
    rw [frames] at opened stores
    exact stores_push_nil opened stores kind span
  | cons f outer =>
    rw [frames] at opened stores
    have pushed := stores_push_cons opened stores kind span
    have child : { f.data (outer.head?.map (·.id)) none with
        children := (f.data (outer.head?.map (·.id)) none).children ++ [b.nodes.size] } =
        f.data (outer.head?.map (·.id)) (some b.nodes.size) := by
      simp [Frame.data]
    rwa [child] at pushed

theorem Builds.start (builds : b.Builds s) (r : Rule) : (b.start r).Builds (s.openNode r) :=
  { opened := by rw [TreeBuilder.start, builds.opened, builds.size]; rfl
    size := by simp [TreeBuilder.start, ParserState.openNode, builds.size]
    stores := builds.stores_push (.rule r) none }

/-- A leaf for the token ahead is added. -/
theorem Builds.token (builds : b.Builds s) (t : Token) : (b.token t.index t.span).Builds
    { s.attach (.leaf ⟨s.nextId, t⟩) with nextId := s.nextId + 1 } := by
  have pushed := builds.stores_push (.token t.index) (some t.span)
  obtain ⟨opened, size, -⟩ := builds
  refine ⟨?_, by simp [TreeBuilder.token, size], ?_⟩
  · rw [TreeBuilder.token, opened_push, opened, ParserState.attach]
    split <;> simp_all
  · rw [ParserState.attach]
    cases frames : s.frames with
    | nil =>
      rw [frames] at pushed
      exact pushed
    | cons f outer =>
      rw [frames] at pushed
      have child : f.data (outer.head?.map (·.id)) (some s.nextId) =
          { f with children := .leaf ⟨s.nextId, t⟩ :: f.children : Frame }.data
            (outer.head?.map (·.id)) none := by
        simp [Frame.data, Tree.id]
      rw [Frame.entries, child] at pushed
      exact pushed.of_perm (.swap _ _ _)

/-- Of a state nothing matters but its nodes. -/
theorem Builds.of_agrees {s' : ParserState} (builds : b.Builds s) (same : s.Agrees s') :
    b.Builds s' :=
  { opened := by rw [same.frames, builds.opened]
    size := by rw [same.nextId, builds.size]
    stores := by rw [same.frames, same.finished]; exact builds.stores }

/-! ### A node around the latest child -/

/-- The latest child moves from the node it is in to a new one, and is told of it. -/
theorem stores_wrapLast {p c : Nat} {outer cs : List Nat} {d e : NodeData}
    (opened : b.opened = p :: outer) (children : d.children = cs ++ [c])
    (stores : Stores b.nodes ((p, d) :: (c, e) :: es)) (r : Rule) :
    Stores (b.wrapLast r).nodes ((b.nodes.size, ⟨.rule r, some p, [c], none⟩) ::
      (c, { e with parent := some b.nodes.size }) ::
      (p, { d with children := cs ++ [b.nodes.size] }) :: es) := by
  have found : b.lastChild? = some (p, c) := by
    have here : b.nodes[p]? = some d := stores.entry (p, d) (.head _)
    simp [lastChild?, opened, here, children]
  let popped : TreeBuilder :=
    { b with nodes := b.nodes.modify p fun d => { d with children := d.children.dropLast } }
  have taken : Stores popped.nodes ((p, { d with children := cs }) :: (c, e) :: es) := by
    have modified := stores.modify fun d => { d with children := d.children.dropLast }
    rwa [children, List.dropLast_concat] at modified
  have pushed := stores_push_cons (b := popped) opened taken (.rule r) none
  have told := (pushed.of_perm (@List.perm_middle _ _ [_, _] es)).modify
    fun e => { e with parent := some b.nodes.size }
  have adopted := (told.of_perm (.swap _ _ _)).modify
    fun d => { d with children := d.children ++ [c] }
  rw [wrapLast, found]
  simpa [popped] using adopted

@[simp] theorem size_wrapLast (b : TreeBuilder) (r : Rule) :
    (b.wrapLast r).nodes.size = b.nodes.size + 1 := by
  rw [wrapLast]
  split <;> simp [start]

@[simp] theorem opened_wrapLast (b : TreeBuilder) (r : Rule) :
    (b.wrapLast r).opened = b.nodes.size :: b.opened := by
  rw [wrapLast]
  split <;> rfl

theorem Builds.wrapLast (builds : b.Builds s) (r : Rule) :
    (b.wrapLast r).Builds (s.wrapNode r) := by
  have without (nothing : b.lastChild? = none) : (b.wrapLast r).Builds (s.openNode r) := by
    rw [TreeBuilder.wrapLast, nothing]
    exact builds.start r
  obtain ⟨opened, size, stores⟩ := id builds
  rw [ParserState.wrapNode]
  cases frames : s.frames with
  | nil =>
    rw [frames] at opened
    exact without (by rw [lastChild?, opened]; rfl)
  | cons f outer =>
    rw [frames] at opened stores
    dsimp only
    cases parts : f.children with
    | nil =>
      have here : b.nodes[f.id]? = some _ := stores.entry (f.id, _) (.head _)
      exact without (by simp [lastChild?, opened, here, Frame.data, parts])
    | cons c cs =>
      let below := Tree.entriesOfAll (some c.id) c.children
      let others := Tree.entriesOfAll (some f.id) cs ++
        (Frame.entries (some f.id) outer ++ Tree.entriesOfAll none s.finished)
      have stores : Stores b.nodes ((f.id, f.data (outer.head?.map (·.id)) none) ::
          (c.id, c.data (some f.id)) :: (below ++ others)) := by
        simpa [Frame.entries, parts, Tree.entriesOfAll, c.entries_eq, below, others] using stores
      have children : (f.data (outer.head?.map (·.id)) none).children =
          cs.reverse.map Tree.id ++ [c.id] := by
        simp [Frame.data, parts]
      have wrapped := (stores_wrapLast opened children stores r).of_perm
        ((List.perm_middle.symm.cons _).cons _)
      refine ⟨by simp [opened, size], by simp [size], ?_⟩
      simpa [Frame.entries, Frame.data, Tree.entriesOfAll, c.entries_eq, c.data_withParent, size,
        below, others] using wrapped

/-! ### Closing a node -/

/-- The innermost open node is closed with a span over those of its children. -/
theorem stores_finish {n : Nat} {outer : List Nat} {d : NodeData} (opened : b.opened = n :: outer)
    (stores : Stores b.nodes ((n, d) :: es)) :
    Stores b.finish.nodes ((n, { d with
      span := Span.coverAll (d.children.filterMap fun c => (b.nodes[c]?).bind (·.span)) }) ::
        es) := by
  have here : b.nodes[n]? = some d := stores.entry (n, d) (.head _)
  rw [finish, opened]
  simpa [here] using stores.modify _

/-- What the open nodes tell is so of the completed tree. -/
theorem Builds.stores_finish {f : Frame} {outer : List Frame} (builds : b.Builds s)
    (frames : s.frames = f :: outer) : Stores b.finish.nodes
      ((Tree.ofChildren f.id f.rule f.children.reverse).entries (outer.head?.map (·.id)) ++
        (Frame.entries (some f.id) outer ++ Tree.entriesOfAll none s.finished)) := by
  obtain ⟨opened, -, stores⟩ := builds
  rw [frames] at opened stores
  have spans : (f.data (outer.head?.map (·.id)) none).children.filterMap
      (fun c => (b.nodes[c]?).bind (·.span)) = f.children.reverse.filterMap Tree.span? := by
    rw [Frame.data, Option.toList_none, List.append_nil, List.filterMap_map]
    refine List.filterMap_congr fun c member => ?_
    have there : (c.id, c.data (some f.id)) ∈ Tree.entriesOfAll (some f.id) f.children :=
      Tree.mem_entriesOfAll _ (List.mem_reverse.mp member)
    have found : b.nodes[c.id]? = some (c.data (some f.id)) := stores.entry (c.id, _)
      (List.mem_append_left _ (.tail _ (List.mem_append_left _ there)))
    rw [Function.comp, found]
    cases c <;> rfl
  have closed := TreeBuilder.stores_finish opened stores
  rw [spans] at closed
  have same := Tree.entriesOfAll_perm (some f.id) f.children.reverse_perm.symm
  rw [Tree.entries_eq, List.cons_append]
  refine closed.of_perm (.trans ?_ ((same.append_right _).cons _))
  simp [Frame.data, Tree.ofChildren, Tree.data, Tree.id]

theorem Builds.finish (builds : b.Builds s) : b.finish.Builds s.finish := by
  cases frames : s.frames with
  | nil =>
    have nothing : b.opened = [] := by rw [builds.opened, frames]; rfl
    rw [TreeBuilder.finish, nothing, ParserState.finish, frames]
    exact builds
  | cons f outer =>
    have closed := builds.stores_finish frames
    obtain ⟨opened, size, -⟩ := builds
    rw [frames] at opened
    rw [ParserState.finish, frames]
    have opened' : b.finish.opened = outer.map (·.id) := by rw [TreeBuilder.finish, opened]; rfl
    have size' : b.finish.nodes.size = s.nextId := by
      rw [TreeBuilder.finish, opened]
      simpa using size
    cases outer with
    | nil => exact ⟨opened', size', closed⟩
    | cons g rest =>
      refine ⟨opened', size', closed.of_perm (List.perm_middle.trans (.of_eq ?_))⟩
      simp [ParserState.attach, Frame.entries, Frame.data, Tree.entriesOfAll, Tree.ofChildren,
        Tree.id]

/-! ## Runs -/

/-- **An action keeps an arena and a state together.** What an action does to the arena is what it
does to the open nodes and the completed trees, in whatever order actions come. -/
theorem Builds.perform {m : Ledger} (builds : b.Builds m.toParserState) (x : Action) :
    (x.construct m b).Builds (x.perform m).toParserState := by
  cases x with
  | bump =>
    cases ahead : m.rest with
    | nil =>
      rw [Action.construct, Action.perform, ahead, ParserState.bump, ahead]
      exact builds
    | cons t rest =>
      rw [Action.construct, ahead]
      have added := builds.token t
      refine Builds.of_agrees ?_ (ParserState.bump_of_cons ahead)
      exact ⟨added.opened, added.size, added.stores⟩
  | note kinds rules =>
    rw [Action.construct, Action.perform, Ledger.note]
    split <;> exact ⟨builds.opened, builds.size, builds.stores⟩
  | complain c => exact builds.of_agrees (m.toParserState.complain_agrees c)
  | overrun | enter | leave => exact ⟨builds.opened, builds.size, builds.stores⟩
  | start r => exact builds.start r
  | wrap r => exact builds.wrapLast r
  | finish => exact builds.finish

/-- A run keeps an arena and a state together. -/
theorem Builds.run {α : Type} {p : Program α} {m : Ledger} (builds : b.Builds m.toParserState) :
    (p.construct m b).Builds (p.run m).2.toParserState := by
  induction p generalizing m b with
  | done x => exact builds
  | look next ih => exact ih m builds
  | act x next ih => exact ih (builds.perform x)

/-- Where no node is left open and all is in one node, the arena is that of the node, which is told
of the whole text. -/
theorem Builds.build {r : Rule} {cs : List Tree} (builds : b.Builds s) (closed : s.frames = [])
    (complete : s.finished = [.ofChildren 0 r cs]) (whole : Span) :
    Stores (b.build whole) (Tree.entries none (.node 0 r (some whole) cs)) := by
  obtain ⟨opened, -, stores⟩ := builds
  rw [closed, complete, Frame.entries, List.nil_append, Tree.entriesOfAll, Tree.entriesOfAll,
    List.append_nil, Tree.entries_eq] at stores
  rw [closed] at opened
  rw [TreeBuilder.build, opened, Tree.entries_eq]
  exact stores.modify _

end TreeBuilder

/-! ## The arena of a file -/

variable {tokens : List Token}

theorem constructFile_builds (tokens : List Token) :
    (constructFile tokens).Builds (runFile tokens none) := by
  let before : ParserState := .ofTokens (visibleTokens tokens) none
  have ran : (Procedure.file.program.run (.of before 0)).2.toParserState = runFile tokens none := by
    rw [(Procedure.file.follows_program 0).run_of before]
    rfl
  have begins : TreeBuilder.empty.Builds (Ledger.of before 0).toParserState :=
    TreeBuilder.builds_empty _ none
  rw [← ran, constructFile]
  exact begins.run

/-- **The arena of a file holds its tree.** What the parser's actions make of an arena has an entry
for each leaf and node of the tree, at its number, with its parent, its children and its span, and
no other entries. -/
theorem parseArena_holds (ends : EndsOnce (visibleTokens tokens)) :
    (parseArena tokens).Holds (parse tokens).tree := by
  obtain ⟨last, n, trees, -, -, -, frames, finished⟩ := runFile_closes ends none
  have root : (parse tokens).tree.root =
      .node 0 .file (some (wholeSpan tokens)) (trees.reverse ++ [.leaf ⟨n, last⟩]) := by
    simp only [parse, finished]
    rfl
  refine ⟨?_, rfl⟩
  rw [parseArena, root]
  dsimp only
  exact (constructFile_builds tokens).build frames finished (wholeSpan tokens)

end XuleLang
