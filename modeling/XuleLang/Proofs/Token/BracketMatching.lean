import XuleLang.Proofs.Token.Scanning
import XuleLang.Proofs.Token.Visible

/-!
The lexer matches brackets.

What a lexer holds for open are the openers that are unmatched among the tokens that it has read
(`Lexer.Follows`), and with every step it scans the text on from there (`Lexer.GoesOn`): it comes to
the end, it reads a token, or it gives up because an opener is scanned where it can hold no more.
This holds before all steps of a run (`Lexer.exists_follows_of_run`), and a scan of a text that can
be read comes by wherever the lexer does (`Lexer.exists_follows_of_scans`).

So the tokens of a text are nested as brackets are, but for closing braces that close nothing, which
are complained of; and a text that cannot be read is one whose scan opens too much
(`brackets_are_matched`).
-/

namespace XuleLang

/-- What an opener opens. -/
def Token.mode (o : Token) : Mode :=
  if o.kind = .stringOpen then .string o.quote else .code

namespace Lexer

variable {text : List Char} {ts : List Token} {n : Nat} {l : Lexer} {x : Lexeme}

/-- A lexer that has scanned the tokens `ts` of a text and stands at the offset `n`. It holds for
open what is unmatched, and leaves it to others to complain of closing braces. -/
structure Follows (text : List Char) (l : Lexer) (ts : List Token) (n : Nat) : Prop where
  stands : l.StandsAt text n
  scans : Scans text ts n
  opened : l.opened = (unmatched ts).map Token.mode
  bounded : l.opened.length ≤ maxOpen
  own : ∀ e ∈ l.complaints, e.what ≠ .extraneousBrace

/-- What comes of the lexeme ahead: it would open one thing too many, or its token is read, which
is remarked on if it is a closing brace where nothing is unmatched. -/
inductive Emits (text : List Char) (ts : List Token) (n : Nat) (x : Lexeme) :
    LexOutcome × Lexer → Prop
  | tooDeep {after : Lexer} (opens : x.kind.opens = true)
      (full : (unmatched ts).length = maxOpen) :
      Emits text ts n x (.tooDeep ⟨positionAt text (n + 1), maxOpen⟩, after)
  | read {outcome : LexOutcome} {after : Lexer}
      (said : outcome = if x.kind = .punctuator .rbrace ∧ unmatched ts = []
        then .unmatched (tokenAt text 0 n x) else .token (tokenAt text 0 n x))
      (follows : Follows text after (ts ++ [tokenAt text ts.length n x]) (n + x.length)) :
      Emits text ts n x (outcome, after)

/-- How a lexer goes on that has scanned the tokens `ts` up to the offset `n`: to the end of the
text, or to a lexeme at `n` or behind it. -/
inductive GoesOn (text : List Char) (ts : List Token) (n : Nat) : LexOutcome × Lexer → Prop
  | ended {after : Lexer} (follows : Follows text after ts text.length) :
      GoesOn text ts n (.token (.endOfInput (positionAt text text.length)), after)
  | emits {m : Nat} {x : Lexeme} {step : LexOutcome × Lexer} (scans : Scans text ts m)
      (ahead : lexemeBehind? ts (text.drop m) = some x) (on : n ≤ m)
      (emits : Emits text ts m x step) : GoesOn text ts n step

theorem follows_ofText (text : List Char) : Follows text (ofText text) [] 0 :=
  { stands := .ofText, scans := .start, opened := rfl, bounded := Nat.zero_le _
    own := fun _ member => nomatch member }

/-! ## One step -/

namespace Follows

/-- The mode of a lexer is what the innermost opener opens. -/
theorem lexemeBehind?_eq (follows : Follows text l ts n) (cs : List Char) :
    lexemeBehind? ts cs = match l.mode with
      | .string quote => Lexeme.inString? quote cs
      | .code => Lexeme.ofChars? cs := by
  rw [mode, follows.opened]
  unfold lexemeBehind?
  cases unmatched ts with
  | nil => rfl
  | cons o outer => by_cases string : o.kind = .stringOpen <;> simp [Token.mode, string]

/-- A lexeme ahead is emitted. -/
theorem next_eq_emit (follows : Follows text l ts n) (ahead : lexemeBehind? ts l.rest = some x) :
    l.next = l.emit x := by
  rw [follows.lexemeBehind?_eq] at ahead
  cases mode : l.mode with
  | string quote =>
    simp only [mode] at ahead
    simp [next, mode, ahead]
  | code =>
    simp only [mode] at ahead
    have here : l.skipUnrecognized = l := by
      cases rest : l.rest with
      | nil => simp [skipUnrecognized, skipUnrecognized.go, rest]
      | cons c cs =>
        rw [rest] at ahead
        simp [skipUnrecognized, skipUnrecognized.go, rest, ahead]
    simp [next, mode, here, ahead]

/-- With no character ahead the end is come upon. -/
theorem next_eq_ended (follows : Follows text l ts n) (rest : l.rest = []) :
    l.next = (.token (.endOfInput (positionAt text text.length)), l) := by
  have place := follows.stands.position
  rw [follows.stands.eq_length rest] at place
  have noPart (quote : Char) : Lexeme.inString? quote [] = none := rfl
  have noText : Lexeme.ofChars? [] = none := rfl
  have here : l.skipUnrecognized = l := by rw [skipUnrecognized, rest]; rfl
  cases mode : l.mode <;> simp [next, mode, here, rest, noPart, noText, place]

/-- A character that begins no token is skipped, and makes no difference to what is read next. -/
theorem skip_one {c : Char} {cs : List Char} (follows : Follows text l ts n)
    (rest : l.rest = c :: cs) (nothing : lexemeBehind? ts (c :: cs) = none) :
    ∃ after, l.next = after.next ∧ Follows text after ts (n + 1) := by
  rw [follows.lexemeBehind?_eq] at nothing
  cases mode : l.mode with
  | string quote =>
    obtain ⟨x, goes⟩ := Lexeme.exists_inString? quote c cs
    simp [mode, goes] at nothing
  | code =>
    simp only [mode] at nothing
    have moved := follows.stands.skip_one rest nothing
    refine ⟨(l.skip 1).complain ⟨.unrecognized c, some ⟨l.position, (l.skip 1).position⟩⟩, ?_, ?_⟩
    · have mode' : ((l.skip 1).complain
          ⟨.unrecognized c, some ⟨l.position, (l.skip 1).position⟩⟩).mode = .code := mode
      have same : l.skipUnrecognized = ((l.skip 1).complain
          ⟨.unrecognized c, some ⟨l.position, (l.skip 1).position⟩⟩).skipUnrecognized := by
        simp [skipUnrecognized, skipUnrecognized.go, rest, nothing, skip, complain]
      simp only [next, mode, mode', same]
    · have ahead : text.drop n = c :: cs := follows.stands.rest.symm.trans rest
      exact
        { stands := moved.complain _
          scans := .skip follows.scans moved.inside
            (by rw [ahead, follows.lexemeBehind?_eq, mode]; exact nothing)
          opened := follows.opened
          bounded := follows.bounded
          own := by simpa [complain, skip] using follows.own }

/-- The lexeme ahead is offered. -/
theorem offers (follows : Follows text l ts n) (ahead : lexemeBehind? ts l.rest = some x) :
    l.Offers x := by
  rw [follows.lexemeBehind?_eq] at ahead
  cases mode : l.mode with
  | string quote =>
    simp only [mode] at ahead
    exact offers_inString? (follows.stands.quotes quote (mem_opened_of_mode mode)) ahead
  | code =>
    simp only [mode] at ahead
    exact offers_ofChars? ahead

/-- Reading a lexeme, a lexer scans its token if it opens and closes as the token does. -/
theorem read (follows : Follows text l ts n) (ahead : lexemeBehind? ts l.rest = some x)
    (opened : List Mode) (es : List SyntaxError)
    (same : opened = (unmatched (ts ++ [tokenAt text ts.length n x])).map Token.mode)
    (bounded : opened.length ≤ maxOpen) (own : ∀ e ∈ es, e.what ≠ .extraneousBrace) :
    Follows text { l.skip x.length with opened := opened, complaints := es ++ l.complaints }
      (ts ++ [tokenAt text ts.length n x]) (n + x.length) := by
  have moved := follows.stands.skip_lexeme (follows.offers ahead)
  have scans : Scans text (ts ++ [tokenAt text ts.length n x]) (n + x.length) :=
    .read follows.scans (follows.stands.rest ▸ ahead)
  refine { stands := { inside := moved.inside, rest := moved.rest, position := moved.position
                       apart := moved.apart, quotes := fun q member => ?_ }
           scans := scans, opened := same, bounded := bounded, own := fun e member => ?_ }
  · obtain ⟨o, there, opens⟩ := List.mem_map.mp (same ▸ member)
    by_cases string : o.kind = .stringOpen
    · obtain rfl : o.quote = q := by simpa [Token.mode, string] using opens
      exact (scans.text_of_stringOpen (opens_of_mem_unmatched there).1 string).2
    · simp [Token.mode, string] at opens
  · exact (List.mem_append.mp member).elim (own e) (follows.own e)

/-- The token of the lexeme ahead. -/
theorem tokenOf_eq (follows : Follows text l ts n) (ahead : lexemeBehind? ts l.rest = some x) :
    l.tokenOf x = tokenAt text 0 n x := by
  have moved := follows.stands.skip_lexeme (follows.offers ahead)
  simp only [tokenOf, tokenAt, spanBetween, follows.stands.rest, follows.stands.position,
    moved.position]

/-- What opens is opened unless too much is open. -/
theorem enter (follows : Follows text l ts n) (ahead : lexemeBehind? ts l.rest = some x)
    (opens : x.kind.opens = true) {m : Mode} (mode : (tokenAt text ts.length n x).mode = m) :
    Emits text ts n x ((l.skip x.length).enter m (l.tokenOf x)) := by
  have moved := follows.stands.skip_lexeme (follows.offers ahead)
  have one := lexemeBehind?_length ahead (.inl opens)
  have bounded := follows.bounded
  unfold Lexer.enter
  split
  next fits =>
    refine .read ?_ (follows.read ahead (m :: l.opened) [] ?_ fits (List.forall_mem_nil _))
    · have noBrace : x.kind ≠ .punctuator .rbrace := by
        intro closes
        simp [closes, TokenKind.opens] at opens
      rw [if_neg (fun both => noBrace both.1), follows.tokenOf_eq ahead]
    · rw [unmatched_concat]
      simp [tokenAt, opens, ← mode, follows.opened]
  next full =>
    rw [moved.position, one]
    have many := congrArg List.length follows.opened
    simp only [skip, List.length_map] at full many
    exact .tooDeep opens (by omega)

/-- The lexeme ahead is read, or would open one thing too many. -/
theorem emit (follows : Follows text l ts n) (ahead : lexemeBehind? ts l.rest = some x) :
    Emits text ts n x (l.emit x) := by
  have token := follows.tokenOf_eq ahead
  have bounded := follows.bounded
  have behind : unmatched (ts ++ [tokenAt text ts.length n x]) =
      if x.kind.opens then tokenAt text ts.length n x :: unmatched ts
      else if x.kind.closes then (unmatched ts).tail else unmatched ts := unmatched_concat ts _
  have others (noOpen : x.kind.opens = false) (noClose : x.kind.closes = false) :
      l.opened = (unmatched (ts ++ [tokenAt text ts.length n x])).map Token.mode := by
    rw [behind, noOpen, noClose]
    exact follows.opened
  fun_cases l.emit x
  case case1 after channel t kind =>
    refine follows.enter ahead (by simp [kind, TokenKind.opens]) ?_
    have one := lexemeBehind?_length ahead (.inl (by simp [kind, TokenKind.opens]))
    cases rest : l.rest with
    | nil => rw [rest, lexemeBehind?_nil] at ahead; cases ahead
    | cons c cs =>
      simp [Token.mode, tokenAt, Token.quote, kind, one, ← follows.stands.rest, rest]
  case case2 after channel t kind =>
    exact follows.enter ahead (by simp [kind, TokenKind.opens])
      (by simp [Token.mode, tokenAt, kind])
  case case3 after channel t kind closed =>
    have nothing : unmatched ts = [] := by simpa [follows.opened] using closed
    refine .read ?_ (follows.read ahead l.opened [] ?_ bounded (List.forall_mem_nil _))
    · rw [if_pos ⟨kind, nothing⟩, ← token]
      rfl
    · rw [behind]
      simp [kind, TokenKind.opens, TokenKind.closes, follows.opened, nothing]
  case case4 after channel t kind inner outer opened =>
    have some : unmatched ts ≠ [] := by
      intro nothing
      simp [follows.opened, nothing] at opened
    refine .read ?_ (follows.read ahead outer [] ?_ ?_ (List.forall_mem_nil _))
    · rw [if_neg (fun both => some both.2), ← token]
      rfl
    · have same := congrArg List.tail (follows.opened.symm.trans opened)
      rw [behind]
      simpa [kind, TokenKind.opens, TokenKind.closes] using same.symm
    · simp [opened] at bounded
      omega
  case case5 after channel t kind =>
    refine .read ?_ (follows.read ahead l.opened.tail [] ?_ ?_ (List.forall_mem_nil _))
    · rw [if_neg (by simp [kind]), ← token]
      rfl
    · rw [behind]
      simp [kind, TokenKind.opens, TokenKind.closes, follows.opened]
    · rw [List.length_tail]
      omega
  case case6 after channel t _ noOpen noLeft noRight noClose =>
    refine .read ?_ (follows.read ahead l.opened [] (others ?_ ?_) bounded (List.forall_mem_nil _))
    · rw [if_neg (fun both => noRight both.1), ← token]
      rfl
    · simpa [TokenKind.opens] using And.intro noOpen noLeft
    · simpa [TokenKind.closes] using And.intro noClose noRight
  case case7 after channel t _ noOpen noLeft noRight noClose =>
    refine .read ?_ (follows.read ahead l.opened [_] (others ?_ ?_) bounded
      (by simp [Located.atPosition]))
    · rw [if_neg (fun both => noRight both.1), ← token]
      rfl
    · simpa [TokenKind.opens] using And.intro noOpen noLeft
    · simpa [TokenKind.closes] using And.intro noClose noRight

theorem goesOn_of_le {k : Nat} {step : LexOutcome × Lexer} (le : k ≤ n)
    (goesOn : GoesOn text ts n step) : GoesOn text ts k step := by
  cases goesOn with
  | ended follows => exact .ended follows
  | emits scans ahead on emits => exact .emits scans ahead (Nat.le_trans le on) emits

/-- A lexer scans on from where it stands. -/
theorem goesOn (follows : Follows text l ts n) : GoesOn text ts n l.next := by
  generalize length : l.rest.length = count
  induction count generalizing l n with
  | zero =>
    have rest := List.eq_nil_of_length_eq_zero length
    rw [follows.next_eq_ended rest]
    exact .ended (follows.stands.eq_length rest ▸ follows)
  | succ count ih =>
    cases ahead : lexemeBehind? ts l.rest with
    | some x =>
      exact .emits follows.scans (follows.stands.rest ▸ ahead) (Nat.le_refl n)
        (follows.next_eq_emit ahead ▸ follows.emit ahead)
    | none =>
      obtain ⟨c, cs, rest⟩ := List.exists_cons_of_length_eq_add_one length
      obtain ⟨after, same, skipped⟩ := follows.skip_one rest (rest ▸ ahead)
      have fewer : after.rest.length = count := by
        rw [follows.stands.rest, List.length_drop] at length
        rw [skipped.stands.rest, List.length_drop]
        omega
      exact same ▸ goesOn_of_le (Nat.le_succ n) (ih skipped fewer)

end Follows

/-! ## All steps -/

variable {raw : List Token} {fuel : Nat} {before rest : List (LexOutcome × Lexer)}
  {outcome : LexOutcome} {after : Lexer}

/-- The tokens that steps have read. -/
def tokensRead (steps : List (LexOutcome × Lexer)) : List Token :=
  (steps.map (·.1)).filterMap LexOutcome.token?

theorem numbered_concat (raw : List Token) (t : Token) :
    numbered (raw ++ [t]) = numbered raw ++ [{ t with index := (numbered raw).length }] := by
  simp [numbered, List.mapIdx_concat]

/-- A token that was read is no end, whether it is complained of or not. -/
theorem said_cases {loose : Prop} [Decidable loose] {t : Token} (inside : t.kind ≠ .endOfInput)
    (said : outcome = if loose then .unmatched t else .token t) :
    outcome.token? = some t ∧ outcome.isFinal = false ∧ (outcome = .unmatched t ↔ loose) := by
  subst said
  by_cases holds : loose
  · simp [holds, LexOutcome.token?, LexOutcome.isFinal]
  · simpa [holds, LexOutcome.token?, LexOutcome.isFinal] using inside

theorem run_succ (fuel : Nat) (l : Lexer) :
    run (fuel + 1) l = l.next :: if l.next.1.isFinal then [] else run fuel l.next.2 := by
  rw [run]
  dsimp only
  split <;> rfl

/-- A step that is not the last reads a token. -/
theorem GoesOn.reads {step : LexOutcome × Lexer} (goesOn : GoesOn text ts n step)
    (goes : step.1.isFinal = false) :
    ∃ t m, step.1.token? = some t ∧ n < m ∧
      Follows text step.2 (ts ++ [{ t with index := ts.length }]) m := by
  cases goesOn with
  | ended => cases goes
  | emits scans ahead on emits =>
    have takes := lexemeBehind?_takes ahead
    cases emits with
    | tooDeep => cases goes
    | read said follows =>
      obtain ⟨token, -⟩ := said_cases takes.inside said
      exact ⟨_, _, token, Nat.lt_of_le_of_lt on (Nat.lt_add_of_pos_right takes.some), follows⟩

/-- At each step of a run the lexer has scanned what the steps before it have read, and after a step
that is not the last there is another one. -/
theorem exists_follows_of_run (follows : Follows text l (numbered raw) n)
    (enough : text.length - n < fuel) (split : run fuel l = before ++ (outcome, after) :: rest) :
    ∃ l' m, Follows text l' (numbered (raw ++ tokensRead before)) m ∧
      l'.next = (outcome, after) ∧ (outcome.isFinal = false → rest ≠ []) := by
  induction before generalizing l raw n fuel with
  | nil =>
    obtain _ | fuel := fuel
    · omega
    rw [run_succ, List.nil_append, List.cons.injEq] at split
    obtain ⟨next, later⟩ := split
    refine ⟨l, n, by simpa [tokensRead] using follows, next, fun goes => ?_⟩
    obtain ⟨t, m, -, on, scanned⟩ := (next ▸ follows.goesOn).reads goes
    have inside := scanned.stands.inside
    obtain ⟨fuel, rfl⟩ := Nat.exists_eq_add_one.mpr (show 0 < fuel by omega)
    simp [← later, next, goes, run_succ]
  | cons first before ih =>
    obtain _ | fuel := fuel
    · omega
    rw [run_succ, List.cons_append, List.cons.injEq] at split
    obtain ⟨rfl, later⟩ := split
    cases goes : l.next.1.isFinal with
    | true => simp [goes] at later
    | false =>
      obtain ⟨t, m, token, on, scanned⟩ := follows.goesOn.reads goes
      rw [← numbered_concat] at scanned
      have inside := scanned.stands.inside
      have behind := ih scanned (show text.length - m < fuel by omega)
        (by simpa [goes] using later)
      have same : tokensRead (l.next :: before) = t :: tokensRead before := by
        simp [tokensRead, token]
      simpa [same] using behind

/-- A lexer that never has to give up comes by wherever the text is scanned. -/
theorem exists_follows_of_scans (scans : Scans text ts n)
    (fine : ∀ step ∈ steps text, ∀ f, step.1 ≠ .tooDeep f) :
    ∃ before fuel start l, steps text = before ++ run fuel start ∧ text.length - n < fuel ∧
      start.next = l.next ∧ Follows text l ts n := by
  induction scans with
  | start =>
    exact ⟨[], text.length + 1, .ofText text, .ofText text, rfl, by omega, rfl,
      follows_ofText text⟩
  | @skip ts n _ inside nothing ih =>
    obtain ⟨before, fuel, start, l, split, enough, same, follows⟩ := ih
    have ahead := follows.stands.rest
    rw [List.drop_eq_getElem_cons inside] at ahead nothing
    obtain ⟨after, next, skipped⟩ := follows.skip_one ahead nothing
    exact ⟨before, fuel, start, after, split, by omega, same.trans next, skipped⟩
  | @read ts n x _ ahead ih =>
    obtain ⟨before, fuel, start, l, split, enough, same, follows⟩ := ih
    obtain ⟨fuel, rfl⟩ := Nat.exists_eq_add_one.mpr (Nat.zero_lt_of_lt enough)
    have ahead' : lexemeBehind? ts l.rest = some x := follows.stands.rest ▸ ahead
    have takes := lexemeBehind?_takes ahead
    have emits := follows.next_eq_emit ahead' ▸ follows.emit ahead'
    rw [run_succ, same] at split
    cases step : l.next with
    | mk outcome after =>
      rw [step] at emits split
      cases emits with
      | tooDeep =>
        exact absurd rfl (fine _ (split ▸ List.mem_append_right _ List.mem_cons_self) _)
      | read said scanned =>
        obtain ⟨-, goes, -⟩ := said_cases takes.inside said
        have inside := scanned.stands.inside
        refine ⟨before ++ [(outcome, after)], fuel, after, after, ?_, ?_, rfl, scanned⟩
        · simpa [goes] using split
        · have some := takes.some
          omega

end Lexer

/-! ## Whole texts -/

/-- Whether a stream complains of a token as a closing brace that closes nothing. -/
def TokenStream.isExtraneous (s : TokenStream) (t : Token) : Bool :=
  decide ((⟨.extraneousBrace, some t.span⟩ : SyntaxError) ∈ s.complaints)

/-- The tokens of a stream are those that its text is scanned into. But for the closing braces that
are complained of, they are nested: each closer has its opener before it, with balanced tokens
between the two. A closing brace is complained of if nothing is unmatched where it stands. The parts
of a string literal stand where the innermost unmatched opener is a quote, and nowhere else. -/
structure TokenStream.MatchesBrackets (s : TokenStream) (text : List Char) : Prop where
  scanned : ∃ ts, Scans text ts text.length ∧ s.tokens = ts ++
    [{ Token.endOfInput (positionAt text text.length) with index := ts.length }]
  nested : LeavesOpen (s.tokens.filter (!s.isExtraneous ·)) (unmatched s.tokens)
  closed : ∀ front t back, s.tokens.filter (!s.isExtraneous ·) = front ++ t :: back →
    t.kind.closes = true →
    ∃ before o inside, front = before ++ o :: inside ∧ o.IsClosedBy t ∧ Balanced inside
  extraneous : ∀ front t back, s.tokens = front ++ t :: back →
    (s.isExtraneous t = true ↔ t.kind = .punctuator .rbrace ∧ unmatched front = [])
  inString : ∀ front t back o outer, s.tokens = front ++ t :: back →
    unmatched front = o :: outer → o.kind = .stringOpen → StringPart front o t
  inCode : ∀ front t back, s.tokens = front ++ t :: back →
    (∀ o ∈ (unmatched front).head?, o.kind ≠ .stringOpen) →
    t.kind ≠ .stringContent ∧ t.kind ≠ .stringClose

section Tokenize

open Lexer

variable {text : List Char} {f : TooDeep} {s : TokenStream} {steps : List (LexOutcome × Lexer)}

/-- A text cannot be read if the lexer gives up at some step, which is the last. -/
theorem exists_step_of_error (failed : tokenize text = .error f) :
    ∃ before after rest, Lexer.steps text = before ++ (.tooDeep f, after) :: rest := by
  cases found : ((Lexer.steps text).map (·.1)).findSome? TokenStream.failure? with
  | none => simp [tokenize_eq, TokenStream.ofSteps, found] at failed
  | some g =>
    simp only [tokenize_eq, TokenStream.ofSteps, found, Except.error.injEq] at failed
    obtain ⟨_, member, said⟩ := List.exists_of_findSome?_eq_some found
    obtain ⟨⟨outcome, after⟩, step, rfl⟩ := List.mem_map.mp member
    cases outcome with
    | token | unmatched => cases said
    | tooDeep =>
      cases said
      obtain ⟨before, rest, split⟩ := List.append_of_mem step
      exact ⟨before, after, rest, failed ▸ split⟩

/-- If a text can be read, the lexer never has to give up. -/
theorem ne_tooDeep_of_ok (read : tokenize text = .ok s) :
    ∀ step ∈ Lexer.steps text, ∀ f, step.1 ≠ .tooDeep f := by
  cases found : ((Lexer.steps text).map (·.1)).findSome? TokenStream.failure? with
  | some g => simp [tokenize_eq, TokenStream.ofSteps, found] at read
  | none =>
    intro step member f deep
    have fine := List.findSome?_eq_none_iff.mp found step.1 (List.mem_map_of_mem member)
    simp [deep, TokenStream.failure?] at fine

theorem exists_step_of_tokensRead {front back : List Token} {u : Token}
    (split : tokensRead steps = front ++ u :: back) :
    ∃ before outcome after rest, steps = before ++ (outcome, after) :: rest ∧
      tokensRead before = front ∧ outcome.token? = some u := by
  rw [tokensRead, List.filterMap_map] at split
  obtain ⟨first, second, rfl, rfl, later⟩ := List.filterMap_eq_append_iff.mp split
  obtain ⟨between, ⟨outcome, after⟩, rest, rfl, nothing, token, -⟩ :=
    List.filterMap_eq_cons_iff.mp later
  refine ⟨first ++ between, outcome, after, rest, by simp, ?_, token⟩
  rw [tokensRead, List.filterMap_map, List.filterMap_append,
    List.filterMap_eq_nil_iff.mpr nothing, List.append_nil]

theorem numbered_append_cons (front back : List Token) (u : Token) :
    ∃ later, numbered (front ++ u :: back) =
      numbered front ++ { u with index := front.length } :: later := by
  simp [numbered, List.mapIdx_append, List.mapIdx_cons]

theorem exists_of_numbered {raw front back : List Token} {t : Token}
    (split : numbered raw = front ++ t :: back) : ∃ first u last, raw = first ++ u :: last ∧
      numbered first = front ∧ t = { u with index := front.length } := by
  obtain ⟨first, second, rfl, rfl, later⟩ := List.mapIdx_eq_append_iff.mp split
  obtain ⟨u, last, rfl, same, -⟩ := List.mapIdx_eq_cons_iff.mp later
  exact ⟨first, u, last, rfl, rfl, by simp [← same]⟩

/-- Tokens in order that cover the same stretch are one. -/
theorem eq_of_span_eq {ts front front' back back' : List Token} {t t' : Token}
    (inOrder : ts.Pairwise fun a b => a.span.stop.offset ≤ b.span.start.offset)
    (some : t.span.start.offset < t.span.stop.offset) (split : ts = front ++ t :: back)
    (split' : ts = front' ++ t' :: back') (same : t'.span = t.span) :
    front' = front ∧ t' = t := by
  have apart {front back : List Token} {t : Token} (split : ts = front ++ t :: back) :
      ∀ u ∈ back, t.span.stop.offset ≤ u.span.start.offset :=
    (List.pairwise_cons.mp (List.pairwise_append.mp (split ▸ inOrder)).2.1).1
  rcases List.append_eq_append_iff.mp (split.symm.trans split') with
    ⟨between, rfl, later⟩ | ⟨between, rfl, later⟩
  · cases between with
    | nil => cases later; exact ⟨List.append_nil _, rfl⟩
    | cons u between =>
      cases later
      have behind := apart split t' (by simp)
      rw [same] at behind
      omega
  · cases between with
    | nil => cases later; exact ⟨(List.append_nil _).symm, rfl⟩
    | cons u between =>
      cases later
      have behind := apart split' t (by simp)
      rw [same] at behind
      omega

theorem tokens_eq_of_ok (read : tokenize text = .ok s) :
    s.tokens = numbered (tokensRead (Lexer.steps text)) := by
  obtain ⟨ts, es, all, tokens, -⟩ := TokenStream.ofSteps_eq_ok (ofSteps_of_tokenize read)
  rw [tokens, id, tokensRead, all.outcomes]

/-- At every step the lexer scans on from the tokens that were read before it. -/
theorem exists_goesOn {before rest : List (LexOutcome × Lexer)} {outcome : LexOutcome}
    {after : Lexer} (split : Lexer.steps text = before ++ (outcome, after) :: rest) :
    (∃ n, Lexer.GoesOn text (numbered (tokensRead before)) n (outcome, after)) ∧
      (outcome.isFinal = false → rest ≠ []) := by
  obtain ⟨l, n, follows, next, goes⟩ :=
    exists_follows_of_run (show Follows text _ (numbered []) 0 from follows_ofText text)
      (by omega) split
  exact ⟨⟨n, next ▸ follows.goesOn⟩, goes⟩

namespace TokenStream

variable {front back : List Token} {t u : Token}

/-- A token of a stream is the end of the scanned text or the token of a lexeme, which a step has
read. -/
theorem token_cases (read : tokenize text = .ok s) (split : s.tokens = front ++ t :: back) :
    (Scans text front text.length ∧
        t = { Token.endOfInput (positionAt text text.length) with index := front.length }) ∨
      ∃ m x, Scans text front m ∧ lexemeBehind? front (text.drop m) = some x ∧
        t = tokenAt text front.length m x ∧
        (x.kind = .punctuator .rbrace → unmatched front = [] →
          .unmatched (tokenAt text 0 m x) ∈ (Lexer.steps text).map (·.1)) := by
  rw [tokens_eq_of_ok read] at split
  obtain ⟨first, u, last, raw, rfl, rfl⟩ := exists_of_numbered split
  obtain ⟨before, outcome, after, rest, steps, rfl, token⟩ := exists_step_of_tokensRead raw
  obtain ⟨⟨n, goesOn⟩, -⟩ := exists_goesOn steps
  have member : outcome ∈ (Lexer.steps text).map (·.1) := by simp [steps]
  cases goesOn with
  | ended follows =>
    cases token
    exact .inl ⟨follows.scans, rfl⟩
  | @emits m x _ scans ahead _ emits =>
    cases emits with
    | tooDeep => cases token
    | read said follows =>
      obtain ⟨same, -⟩ := said_cases (lexemeBehind?_takes ahead).inside said
      cases same.symm.trans token
      refine .inr ⟨m, x, scans, ahead, rfl, fun closes nothing => ?_⟩
      rwa [said, if_pos ⟨closes, nothing⟩] at member

/-- What is complained of as extraneous is a closing brace where nothing is unmatched. -/
theorem exists_token_of_unmatched (read : tokenize text = .ok s)
    (member : .unmatched u ∈ (Lexer.steps text).map (·.1)) :
    ∃ front back, s.tokens = front ++ { u with index := front.length } :: back ∧
      u.kind = .punctuator .rbrace ∧ unmatched front = [] := by
  obtain ⟨⟨_, after⟩, there, rfl⟩ := List.mem_map.mp member
  obtain ⟨before, rest, split⟩ := List.append_of_mem there
  obtain ⟨⟨n, goesOn⟩, -⟩ := exists_goesOn split
  have raw : tokensRead (Lexer.steps text) = tokensRead before ++ u :: tokensRead rest := by
    simp [tokensRead, split, LexOutcome.token?]
  obtain ⟨later, tokens⟩ := numbered_append_cons (tokensRead before) (tokensRead rest) u
  refine ⟨numbered (tokensRead before), later, ?_, ?_⟩
  · rw [tokens_eq_of_ok read, raw, tokens]
    simp [numbered]
  · cases goesOn with
    | emits _ ahead _ emits =>
      cases emits with
      | read said _ =>
        obtain ⟨token, -, iff⟩ := said_cases (lexemeBehind?_takes ahead).inside said
        cases token
        exact iff.mp rfl

/-- The lexer itself does not complain of closing braces. -/
theorem extraneous_mem_iff (read : tokenize text = .ok s) (span : Span) :
    (⟨.extraneousBrace, some span⟩ : SyntaxError) ∈ s.complaints ↔
      ∃ u, .unmatched u ∈ (Lexer.steps text).map (·.1) ∧ u.span = span := by
  obtain ⟨ts, es, all, -, complaints, -⟩ := ofSteps_eq_ok (ofSteps_of_tokenize read)
  have own : ∀ e ∈ es, e.what ≠ .extraneousBrace := by
    obtain ⟨⟨outcome, after⟩, last, said⟩ := all.final
    obtain ⟨before, split⟩ := List.getLast?_eq_some_iff.mp last
    obtain ⟨⟨n, goesOn⟩, -⟩ := exists_goesOn split
    have said : after.complaints = es.reverse := by simpa [ofText] using said
    have follows : ∃ ts m, Follows text after ts m := by
      cases goesOn with
      | ended follows => exact ⟨_, _, follows⟩
      | emits _ _ _ emits =>
        cases emits with
        | tooDeep =>
          have there := split ▸ List.mem_append_right before List.mem_cons_self
          exact absurd rfl (ne_tooDeep_of_ok read _ there _)
        | read _ follows => exact ⟨_, _, follows⟩
    obtain ⟨ts, m, follows⟩ := follows
    exact fun e member => follows.own e (by simpa [said] using member)
  rw [complaints, Located.sort, (List.mergeSort_perm _ _).mem_iff, List.mem_append,
    List.mem_filterMap]
  constructor
  · rintro (early | ⟨outcome, there, said⟩)
    · exact absurd rfl (own _ early)
    · cases outcome with
      | token | tooDeep => cases said
      | unmatched u =>
        cases said
        exact ⟨u, there, rfl⟩
  · rintro ⟨u, there, rfl⟩
    exact .inr ⟨.unmatched u, there, rfl⟩

/-- The tokens of a stream stand one behind the other. -/
theorem tokens_inOrder (read : tokenize text = .ok s) :
    s.tokens.Pairwise fun a b => a.span.stop.offset ≤ b.span.start.offset := by
  obtain ⟨ts, es, all, tokens, -⟩ := ofSteps_eq_ok (ofSteps_of_tokenize read)
  obtain ⟨_, _, -, placed, -⟩ := arranges_id.placed all
  exact tokens ▸ placed.tokens_inOrder

/-- A token is complained of as extraneous if it is a closing brace and nothing is unmatched. -/
theorem isExtraneous_iff (read : tokenize text = .ok s) (split : s.tokens = front ++ t :: back) :
    s.isExtraneous t = true ↔ t.kind = .punctuator .rbrace ∧ unmatched front = [] := by
  rw [isExtraneous, decide_eq_true_iff, extraneous_mem_iff read]
  constructor
  · rintro ⟨u, there, same⟩
    obtain ⟨front', back', split', closes, nothing⟩ := exists_token_of_unmatched read there
    have some : u.span.start.offset < u.span.stop.offset := by
      obtain ⟨-, ends⟩ | ⟨m, x, -, ahead, cut, -⟩ := token_cases read split'
      · have kind := congrArg Token.kind ends
        simp [closes, Token.endOfInput] at kind
      · have span := congrArg Token.span cut
        simp only [tokenAt] at span
        rw [span]
        exact Nat.lt_add_of_pos_right (lexemeBehind?_takes ahead).some
    obtain ⟨rfl, rfl⟩ := eq_of_span_eq (t := { u with index := front'.length })
      (tokens_inOrder read) some split' split same.symm
    exact ⟨closes, nothing⟩
  · rintro ⟨closes, nothing⟩
    obtain ⟨-, rfl⟩ | ⟨m, x, -, -, rfl, said⟩ := token_cases read split
    · cases closes
    · exact ⟨_, said closes nothing, rfl⟩

/-- Each token of a stream is what can stand behind those in front of it. -/
theorem reads (read : tokenize text = .ok s) (split : s.tokens = front ++ t :: back) :
    Reads front t := by
  obtain ⟨-, rfl⟩ | ⟨m, x, scans, ahead, rfl, -⟩ := token_cases read split
  · obtain ⟨o, outer, innermost, string, -⟩ | ⟨code, -⟩ := lexemeBehind?_cases front
    · exact .inString o outer innermost string (.ended rfl)
    · exact .inCode code nofun nofun
  · exact scans.reads ahead

/-- Each token of a stream closes what is innermost if it closes, or is complained of. -/
theorem fits (read : tokenize text = .ok s) (split : s.tokens = front ++ t :: back) :
    IsMatched s.isExtraneous front t := by
  have extraneous := isExtraneous_iff read split
  cases closes : t.kind.closes with
  | false =>
    refine .other closes (Bool.eq_false_iff.mpr fun complained => ?_)
    simp [(extraneous.mp complained).1, TokenKind.closes] at closes
  | true =>
    obtain ⟨brace, nothing⟩ | ⟨o, outer, innermost, closed⟩ := (reads read split).closes closes
    · exact .loose brace nothing (extraneous.mpr ⟨brace, nothing⟩)
    · refine .closes o outer innermost closed (Bool.eq_false_iff.mpr fun complained => ?_)
      simp [(extraneous.mp complained).2] at innermost

/-- The tokens of a text that can be read match as brackets do. -/
theorem matchesBrackets (read : tokenize text = .ok s) : s.MatchesBrackets text := by
  have fits : ∀ front t back, s.tokens = front ++ t :: back → IsMatched s.isExtraneous front t :=
    fun front t back => TokenStream.fits read
  refine { scanned := ?_, nested := leavesOpen_filter fits
           closed := fun front t back split => exists_opener_of_closes fits split
           extraneous := fun front t back => isExtraneous_iff read
           inString := fun front t back o outer split innermost string => ?_
           inCode := fun front t back split code => ?_ }
  · obtain ⟨front, last, tokens, ends, -⟩ := (lexing_is_lossless read).1.ended
    obtain ⟨scans, same⟩ | ⟨m, x, -, ahead, rfl, -⟩ := token_cases read tokens
    · exact ⟨front, scans, same ▸ tokens⟩
    · exact absurd ends (lexemeBehind?_takes ahead).inside
  · cases reads read split with
    | inString o' outer' innermost' _ part => cases innermost.symm.trans innermost'; exact part
    | inCode code => exact absurd string (code o (by simp [innermost]))
  · cases reads read split with
    | inString o outer innermost string => exact absurd string (code o (by simp [innermost]))
    | inCode _ noContent noClose => exact ⟨noContent, noClose⟩

end TokenStream

/-- A text whose scan opens too much cannot be read. -/
theorem exists_error_of_overfull {ts : List Token} {n : Nat} (overfull : Overfull text ts n) :
    ∃ f, tokenize text = .error f := by
  cases read : tokenize text with
  | error f => exact ⟨f, rfl⟩
  | ok s =>
    obtain ⟨before, fuel, start, l, split, enough, same, follows⟩ :=
      exists_follows_of_scans overfull.scans (ne_tooDeep_of_ok read)
    obtain ⟨x, ahead, opens⟩ := overfull.opener
    have ahead' : lexemeBehind? ts l.rest = some x := follows.stands.rest ▸ ahead
    have emits := follows.next_eq_emit ahead' ▸ follows.emit ahead'
    obtain ⟨fuel, rfl⟩ := Nat.exists_eq_add_one.mpr (Nat.zero_lt_of_lt enough)
    rw [run_succ, same] at split
    cases step : l.next with
    | mk outcome after =>
      rw [step] at emits split
      cases emits with
      | tooDeep =>
        have there := split ▸ List.mem_append_right before List.mem_cons_self
        exact absurd rfl (ne_tooDeep_of_ok read _ there _)
      | read _ scanned =>
        -- Otherwise the lexer would hold one thing more for open than it can.
        have many := congrArg List.length scanned.opened
        have bounded := scanned.bounded
        have behind : (tokenAt text ts.length n x).kind.opens = true := opens
        rw [unmatched_concat, if_pos behind, List.length_map, List.length_cons,
          overfull.full] at many
        omega

/-- Where the lexer gives up, the scan opens too much. -/
theorem exists_overfull_of_error (failed : tokenize text = .error f) :
    ∃ ts n, Overfull text ts n ∧ f = ⟨positionAt text (n + 1), maxOpen⟩ := by
  obtain ⟨before, after, rest, split⟩ := exists_step_of_error failed
  obtain ⟨⟨n, goesOn⟩, -⟩ := exists_goesOn split
  cases goesOn with
  | emits scans ahead _ emits =>
    cases emits with
    | tooDeep opens full => exact ⟨_, _, ⟨scans, ⟨_, ahead, opens⟩, full⟩, rfl⟩
    | read said =>
      obtain ⟨token, -⟩ := said_cases (lexemeBehind?_takes ahead).inside said
      cases token

/-- What a lexer holds for open after a step that reads a token are the openers that are unmatched
behind it. The step remarks on the token if it is a closing brace where nothing is unmatched; then
nothing is open, and the lexer goes on. -/
theorem opened_eq_unmatched {before rest : List (LexOutcome × Lexer)} {outcome : LexOutcome}
    {after : Lexer} {t : Token}
    (split : Lexer.steps text = before ++ (outcome, after) :: rest)
    (token : outcome.token? = some t) :
    after.opened = (unmatched (numbered (tokensRead before) ++ [t])).map Token.mode ∧
      (outcome = .unmatched t ↔
        t.kind = .punctuator .rbrace ∧ unmatched (numbered (tokensRead before)) = []) ∧
      (outcome = .unmatched t → after.opened = [] ∧ rest ≠ []) := by
  obtain ⟨⟨n, goesOn⟩, goes⟩ := exists_goesOn split
  generalize numbered (tokensRead before) = front at goesOn ⊢
  rw [unmatched_concat]
  cases goesOn with
  | ended follows =>
    cases token
    exact ⟨follows.opened, by simp [Token.endOfInput], nofun⟩
  | @emits m x _ _ ahead _ emits =>
    cases emits with
    | tooDeep => cases token
    | read said follows =>
      obtain ⟨same, inside, iff⟩ := said_cases (lexemeBehind?_takes ahead).inside said
      cases same.symm.trans token
      -- The number of the token makes no difference to what it opens.
      have opened : after.opened = (if x.kind.opens then tokenAt text 0 m x :: unmatched front
          else if x.kind.closes then (unmatched front).tail else unmatched front).map
            Token.mode := by
        rw [follows.opened, unmatched_concat]
        cases opens : x.kind.opens <;> cases closes : x.kind.closes <;>
          simp [tokenAt, opens, closes, Token.mode, Token.quote]
      refine ⟨opened, iff, fun remarked => ⟨?_, goes inside⟩⟩
      obtain ⟨closes, nothing⟩ := iff.mp remarked
      simp [opened, closes, nothing, TokenKind.opens, TokenKind.closes]

/-- **Modes are bracket matching.** A text cannot be read if and only if its scan comes upon an
opening brace or quote where `maxOpen` openers are unmatched, and it is given up behind such an
opener. What the lexer holds for open are the unmatched openers, at every step; it remarks on a
closing brace if and only if nothing is unmatched there, holds nothing open then, and goes on.
If the text can be read, its tokens match as brackets do. -/
theorem brackets_are_matched (text : List Char) :
    ((∃ f, tokenize text = .error f) ↔ ∃ ts n, Overfull text ts n) ∧
    (∀ f, tokenize text = .error f →
      ∃ ts n, Overfull text ts n ∧ f = ⟨positionAt text (n + 1), maxOpen⟩) ∧
    (∀ before outcome after rest t, Lexer.steps text = before ++ (outcome, after) :: rest →
      outcome.token? = some t →
      after.opened = (unmatched (numbered (tokensRead before) ++ [t])).map Token.mode ∧
        (outcome = .unmatched t ↔
          t.kind = .punctuator .rbrace ∧ unmatched (numbered (tokensRead before)) = []) ∧
        (outcome = .unmatched t → after.opened = [] ∧ rest ≠ [])) ∧
    ∀ s, tokenize text = .ok s → s.MatchesBrackets text := by
  refine ⟨⟨?_, ?_⟩, fun f => exists_overfull_of_error,
    fun before outcome after rest t => opened_eq_unmatched, fun s => TokenStream.matchesBrackets⟩
  · rintro ⟨f, failed⟩
    obtain ⟨ts, n, overfull, -⟩ := exists_overfull_of_error failed
    exact ⟨ts, n, overfull⟩
  · rintro ⟨ts, n, overfull⟩
    exact exists_error_of_overfull overfull

/-- The brace in the inner string literal is text of it, and only the last brace closes nothing. -/
example : (tokenize "'\x7b\"\x7d\"\x7d'\x7d".toList).toOption.map
    (fun s => s.tokens.map fun t => (t.kind.opens, t.kind.closes, s.isExtraneous t)) =
    some [(true, false, false), (true, false, false), (true, false, false), (false, false, false),
      (false, true, false), (false, true, false), (false, true, false), (false, true, true),
      (false, false, false)] := by
  decide +kernel

end Tokenize

end XuleLang
