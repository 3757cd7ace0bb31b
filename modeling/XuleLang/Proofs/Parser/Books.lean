import XuleLang.Proofs.Parser.Balance
import XuleLang.Proofs.Parser.Lasting

/-!
The books of every run.

A `Procedure` is a part of the grammar that a run may begin with. From any state, at any depth and
with any stack, it leaves the books as it found them (`Program.KeepsBooks`), and where the stack and
the depth are right it does what the parser does. So a declaration is only ever met at the depth of
the file, and a probe is told of the rules of the nodes that are open around the caret.
-/

namespace XuleLang

/-! ## Moments of a run -/

namespace Program

variable {α : Type}

/-- The books at every moment of a run, up to where it ends. -/
def ledgers (p : Program α) (m : Ledger) : List Ledger := (p.steps m).map (·.2) ++ [(p.run m).2]

theorem ledgers_act (x : Action) (p : Program α) (m : Ledger) :
    (act x p).ledgers m = m :: p.ledgers (x.perform m) := rfl

theorem readsOn_ledgers (p : Program α) (m : Ledger) :
    (m :: p.ledgers m).Pairwise fun now later => now.ReadsOn later.toParserState := by
  induction p generalizing m with
  | done x => exact List.pairwise_pair.mpr (.of_eq rfl rfl)
  | look next ih => exact ih m m
  | act x next ih =>
    obtain ⟨begins, goes⟩ := List.pairwise_cons.mp (ih (x.perform m))
    have on : ∀ now ∈ next.ledgers (x.perform m), m.ReadsOn now.toParserState :=
      fun now member => (x.perform_readsOn m).trans (begins now member)
    rw [ledgers_act]
    exact List.pairwise_cons.mpr
      ⟨List.forall_mem_cons.mpr ⟨.of_eq rfl rfl, on⟩, List.pairwise_cons.mpr ⟨on, goes⟩⟩

/-- A run leaves the books as it found them. -/
structure KeepsBooks (p : Program Unit) (m : Ledger) : Prop where
  /-- In the end the stack and the depth are what they were. -/
  ruleStack : (p.run m).2.ruleStack = m.ruleStack
  depth : (p.run m).2.depth = m.depth
  /-- The same nodes are open, and the innermost has gained children at most. -/
  frames : Widens m.frames (p.run m).2.frames
  /-- All the way the nodes that were open stay open, and whatever has been opened or entered since
  is on the books. -/
  opened : ∀ now ∈ p.ledgers m, ∃ a, m.Opened a now
  /-- The stack goes on to hold the rules of the open nodes. -/
  rules : m.ruleStack = m.rules → ∀ now ∈ p.ledgers m, now.ruleStack = now.rules
  /-- Tokens are read on, one after the other, and the end is not read over. -/
  reads : (m :: p.ledgers m).Pairwise fun now later => now.ReadsOn later.toParserState

theorem Follows.keepsBooks {d : Nat} {D : Pending → Prop} {p : Program Unit} {q : Parser Unit}
    (follows : Follows d D .none p q) (m : Ledger) : p.KeepsBooks m := by
  obtain ⟨steps, returned, -⟩ := follows m m (.refl m)
  have opened : ∀ now ∈ p.ledgers m, ∃ a, m.Opened a now := by
    refine List.forall_mem_append.mpr ⟨List.forall_mem_map.mpr fun step member => ?_,
      List.forall_mem_singleton.mpr ⟨_, returned⟩⟩
    obtain ⟨a, now, -⟩ := steps step member
    exact ⟨a, now⟩
  exact {
    ruleStack := returned.ruleStack
    depth := returned.depth
    frames := returned.frames
    opened := opened
    rules := fun kept now member => (opened now member).elim fun _ since => since.kept kept
    reads := p.readsOn_ledgers m }

/-- With the stack and the depth of a state, a program ends with those of the parser's state. -/
theorem Follows.run_of {d : Nat} {D : Pending → Prop} {p : Program Unit} {q : Parser Unit}
    (follows : Follows d D .none p q) (s : ParserState) :
    p.run (.of s d) = ((), .of (q.run s).2 d) := by
  obtain ⟨-, returned, same⟩ := follows (.of s d) (.of s d) (.refl _)
  have states : (p.run (.of s d)).2.toParserState = (q.run s).2 :=
    congrArg Prod.snd (same rfl rfl)
  have stack : (p.run (.of s d)).2.ruleStack = (q.run s).2.rules := by
    rw [← states]
    exact returned.kept rfl
  have depth : (p.run (.of s d)).2.depth = d := returned.depth
  generalize p.run (.of s d) = result at states stack depth
  obtain ⟨⟨⟩, now, _, _⟩ := result
  cases states
  cases stack
  cases depth
  rfl

end Program

/-! ## Procedures -/

/-- Parts of the grammar that a run may begin with. -/
inductive Procedure where
  | block | assignment | expression | disjunction | conjunction | negatable | comparison | additive
  | multiplicative | signedOperand | access | primary | call | argumentList | qualifiedName
  | stringLiteral | parenthesized | conditional | loop | factset | aspectFilter | whereClause
  | navigation | returnsClause | returnOption | filter | file | assertion | output
  | outputAttributes | function | constant | namespaceDeclaration | separatorDeclaration
  | leafOf (r : Rule)
  | nameDeclaration (r : Rule)
  | skipTo (kinds : List TokenKind)

namespace Procedure

/-- The program, with more calls on the way down than expressions may nest. -/
def program : Procedure → Program Unit :=
  let c := Program.calls (Parser.maxDepth + 1)
  fun
  | block => .block c
  | assignment => .assignment (.block c)
  | expression => c.expression
  | disjunction => .disjunction c
  | conjunction => .conjunction c
  | negatable => .negatable c
  | comparison => .comparison c
  | additive => .additive c
  | multiplicative => .multiplicative c
  | signedOperand => .signedOperand c
  | access => .access c
  | primary => .primary c
  | call => .call c
  | argumentList => .argumentList c
  | qualifiedName => .qualifiedName
  | stringLiteral => .stringLiteral c
  | parenthesized => .parenthesized c
  | conditional => .conditional c
  | loop => .loop c
  | factset => .factset c
  | aspectFilter => .aspectFilter c
  | whereClause => .whereClause c
  | navigation => .navigation c
  | returnsClause => .returnsClause
  | returnOption => .returnOption
  | filter => .filter c
  | file => .file c
  | assertion => .assertion c
  | output => .output c
  | outputAttributes => .outputAttributes c
  | function => .function c
  | constant => .constant c
  | namespaceDeclaration => .namespaceDeclaration c
  | separatorDeclaration => .separatorDeclaration c
  | leafOf r => .leafOf r
  | nameDeclaration r => .nameDeclaration r
  | skipTo kinds => .skipTo kinds

/-- The parser at a level. -/
def parser (l : Level) : Procedure → Parser Unit
  | block => Parser.block l
  | assignment => Parser.assignment (Parser.block l)
  | expression => l.expression
  | disjunction => Parser.disjunction l
  | conjunction => Parser.conjunction l
  | negatable => Parser.negatable l
  | comparison => Parser.comparison l
  | additive => Parser.additive l
  | multiplicative => Parser.multiplicative l
  | signedOperand => Parser.signedOperand l
  | access => Parser.access l
  | primary => Parser.primary l
  | call => Parser.call l
  | argumentList => Parser.argumentList l
  | qualifiedName => Parser.qualifiedName
  | stringLiteral => Parser.stringLiteral l
  | parenthesized => Parser.parenthesized l
  | conditional => Parser.conditional l
  | loop => Parser.loop l
  | factset => Parser.factset l
  | aspectFilter => Parser.aspectFilter l
  | whereClause => Parser.whereClause l
  | navigation => Parser.navigation l
  | returnsClause => Parser.returnsClause
  | returnOption => Parser.returnOption
  | filter => Parser.filter l
  | file => Parser.file l
  | assertion => Parser.assertion l
  | output => Parser.output l
  | outputAttributes => Parser.repeatWhile (Parser.outputAttribute l)
  | function => Parser.function l
  | constant => Parser.constant l
  | namespaceDeclaration => Parser.namespaceDeclaration l
  | separatorDeclaration => Parser.separatorDeclaration l
  | leafOf r => Parser.leafOf r
  | nameDeclaration r => Parser.nameDeclaration r
  | skipTo kinds => Parser.skipTo kinds

open Program in
theorem follows_program (f : Procedure) (d : Nat) {a : Pending} :
    Follows d (fun _ => True) a f.program
      (f.parser (Parser.level (Parser.maxDepth - d))) := by
  have calls : (calls (Parser.maxDepth + 1)).Follow (Parser.level (Parser.maxDepth - d)) d :=
    levelAt_eq_level (Nat.lt_succ_of_le (Nat.sub_le _ _)) ▸ calls_follow _ d
  cases f with
  | block => exact follows_block calls
  | assignment => exact follows_assignment (follows_block calls)
  | expression => exact calls.expression
  | disjunction => exact follows_disjunction calls
  | conjunction => exact follows_conjunction calls
  | negatable => exact follows_negatable calls
  | comparison => exact follows_comparison calls
  | additive => exact follows_additive calls
  | multiplicative => exact follows_multiplicative calls
  | signedOperand => exact follows_signedOperand calls
  | access => exact follows_access calls
  | primary => exact follows_primary calls
  | call => exact follows_call calls
  | argumentList => exact follows_argumentList calls
  | qualifiedName => exact follows_qualifiedName
  | stringLiteral => exact follows_stringLiteral calls
  | parenthesized => exact follows_parenthesized calls
  | conditional => exact follows_conditional calls
  | loop => exact follows_loop calls
  | factset => exact follows_factset calls
  | aspectFilter => exact follows_aspectFilter calls
  | whereClause => exact follows_whereClause calls
  | navigation => exact follows_navigation calls
  | returnsClause => exact follows_returnsClause
  | returnOption => exact follows_returnOption
  | filter => exact follows_filter calls
  | file => exact follows_file calls trivial
  | assertion => exact follows_assertion calls trivial
  | output => exact follows_output calls trivial
  | outputAttributes => exact follows_outputAttributes calls
  | function => exact follows_function calls trivial
  | constant => exact follows_constant calls trivial
  | namespaceDeclaration => exact follows_namespaceDeclaration calls trivial
  | separatorDeclaration => exact follows_separatorDeclaration calls trivial
  | leafOf r => exact follows_leafOf (.inr trivial)
  | nameDeclaration r => exact follows_nameDeclaration r trivial
  | skipTo kinds => exact follows_skipTo kinds

/-- Where a declaration starts, nothing but the file has been opened, and nothing is entered. -/
theorem opened_of_declaration {m : Ledger} {step : Action × Ledger} {r : Rule}
    (member : step ∈ file.program.steps m) (starts : step.1 = .start r)
    (declares : r.isDeclaration = true) : m.Opened (Pending.none.openNode .file) step.2 := by
  have calls := Program.calls_follow (Parser.maxDepth + 1) 0
  obtain ⟨steps, -⟩ := Program.follows_file (D := (· = Pending.none.openNode .file)) calls rfl
    m m (.refl m)
  obtain ⟨_, now, inner | rfl⟩ := steps step member
  · simp [starts, Action.isInner, declares] at inner
  · exact now

end Procedure

/-! ## What a probe is told of -/

namespace ParserState

theorem settle_noted (s : ParserState) :
    s.settle.probe.map (·.rules) = s.probe.map (·.rules) := by
  fun_cases settle s <;> simp [*]

theorem bump_noted (s : ParserState) : s.bump.probe.map (·.rules) = s.probe.map (·.rules) := by
  cases here : s.rest with
  | nil => simp only [bump, here]
  | cons t ts =>
    obtain ⟨u, same, -, read⟩ := bump_eq_settle here
    rw [read]
    split <;> exact (settle_noted u).trans (congrArg _ same.probe)

theorem complain_noted (s : ParserState) (c : Complaint) :
    (s.complain c).probe.map (·.rules) = s.probe.map (·.rules) := by
  obtain ⟨errors, complained⟩ := s.complain_eq_settle c
  rw [complained]
  exact s.settle_noted

end ParserState

/-- The rules that the probe has been told of. -/
def Ledger.noted (m : Ledger) : List Rule := (m.probe.map (·.rules)).getD []

theorem Ledger.mem_noted {m : Ledger} {r : Rule} :
    r ∈ m.noted ↔ ∃ p, m.probe = some p ∧ r ∈ p.rules := by
  cases probe : m.probe <;> simp [noted, probe]

/-- At the caret the probe is told of the rules on the stack, and of those that are predicted. -/
def Ledger.Told (m : Ledger) (x : Action) (r : Rule) : Prop :=
  ∃ kinds predicted, x = .note kinds predicted ∧ m.isAtCaret = true ∧
    (r ∈ m.ruleStack ∨ r ∈ predicted)

theorem Action.mem_noted_perform {x : Action} {m : Ledger} {r : Rule} :
    r ∈ (x.perform m).noted ↔ r ∈ m.noted ∨ m.Told x r := by
  have unchanged (same : (x.perform m).probe.map (·.rules) = m.probe.map (·.rules))
      (other : ∀ kinds rules, x ≠ .note kinds rules) :
      r ∈ (x.perform m).noted ↔ r ∈ m.noted ∨ m.Told x r := by
    have silent : ¬m.Told x r := by
      rintro ⟨kinds, rules, is, -⟩
      exact other kinds rules is
    simp only [Ledger.noted, same, silent, or_false]
  cases x with
  | note kinds rules =>
    have told : m.Told (.note kinds rules) r ↔
        m.isAtCaret = true ∧ (r ∈ m.ruleStack ∨ r ∈ rules) := by
      simp [Ledger.Told]
    rw [told, perform, Ledger.note]
    cases probe : m.probe with
    | none => simp [Ledger.isAtCaret, probe]
    | some p =>
      split
      case isTrue here => simp [Ledger.noted, probe, here, ParserState.mem_rules_note,
        or_comm]
      case isFalse away => simp [away]
  | bump => exact unchanged m.bump_noted (by simp)
  | complain c => exact unchanged (m.complain_noted c) (by simp)
  | wrap r =>
    refine unchanged (congrArg _ ?_) (by simp)
    change (m.wrapNode r).probe = m.probe
    fun_cases ParserState.wrapNode m.toParserState r <;> rfl
  | finish => exact unchanged (congrArg _ m.finish_reseen.1.probe) (by simp)
  | overrun | start | enter | leave => exact unchanged rfl (by simp)

theorem Program.mem_noted_run {α : Type} {p : Program α} {m : Ledger} {r : Rule} :
    r ∈ (p.run m).2.noted ↔ r ∈ m.noted ∨ ∃ step ∈ p.steps m, step.2.Told step.1 r := by
  induction p generalizing m with
  | done x => simp [run, steps]
  | look next ih => exact ih m
  | act x next ih =>
    rw [run, ih, Action.mem_noted_perform, or_assoc, steps]
    simp

/-- No procedure loses count. Whatever the state, it leaves the stack, the depth and the open nodes
as they were, but for what the innermost gains, and all the way the stack holds the rules of the
open nodes and the tokens are only read on. What it does is what the parser does. Every declaration
of a file starts at depth 0 with only the file open, and what the candidates at a place are told by
the stack are the rules of the nodes that are open there. -/
theorem Procedure.books_are_kept :
    (∀ (f : Procedure) (m : Ledger), f.program.KeepsBooks m) ∧
    (∀ (f : Procedure) (s : ParserState) (d : Nat), f.program.run (.of s d) =
      ((), .of ((f.parser (Parser.level (Parser.maxDepth - d))).run s).2 d)) ∧
    (∀ (s : ParserState) (r : Rule), ∀ step ∈ file.program.steps (.of s 0),
      step.1 = .start r → r.isDeclaration = true →
        step.2.depth = 0 ∧ step.2.rules = .file :: s.rules) ∧
    ∀ (tokens : List Token) (index : Nat) (r : Rule), r ∈ (candidatesAt tokens index).rules ↔
      ∃ step ∈ file.program.steps (.of (.ofTokens (visibleTokens tokens)
        (some ⟨caretOf tokens index, false, [], []⟩)) 0), ∃ kinds predicted,
        step.1 = .note kinds predicted ∧ step.2.isAtCaret = true ∧
          (r ∈ step.2.rules ∨ r ∈ predicted) := by
  refine ⟨fun f m => (f.follows_program 0).keepsBooks m,
    fun f s d => (f.follows_program d).run_of s, fun s r step member starts declares => ?_,
    fun tokens index r => ?_⟩
  · have opened := opened_of_declaration member starts declares
    exact ⟨opened.depth, (opened.kept rfl).symm.trans opened.ruleStack⟩
  · generalize begins : ParserState.ofTokens (visibleTokens tokens) _ = s
    have ran : runFile tokens (some ⟨caretOf tokens index, false, [], []⟩) =
        (file.program.run (.of s 0)).2.toParserState := by
      rw [(file.follows_program 0).run_of s, ← begins]
      rfl
    have kept := ((file.follows_program 0).keepsBooks (.of s 0)).rules rfl
    have fresh : (Ledger.of s 0).noted = [] := begins ▸ rfl
    rw [mem_rules_candidatesAt, ran, ← Ledger.mem_noted, Program.mem_noted_run, fresh]
    simp only [List.not_mem_nil, false_or]
    refine exists_congr fun step => and_congr_right fun member => ?_
    rw [Ledger.Told, kept step.2 (List.mem_append_left _ (List.mem_map_of_mem member))]

end XuleLang
