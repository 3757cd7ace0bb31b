import XuleLang.Proofs.Token.Lexeme
import XuleLang.Token.Stream

/-!
What a source of tokens hands out.

The stream of a text can be told at once from the steps of a lexer over it: the tokens that were
read, with a marker wherever one touches the next (`withSeams`), in order and numbered
(`TokenStream.ofSteps`). A source does not see the steps together. It knows the token handed out
last and perhaps one that waits behind a marker, and either may have been set by any of the ways a
step can go. One step of a lexer makes a source hand out its token, or the marker in front of it and
then the token (`TokenSource.drain_step`). So what it hands out over a whole run is what the run
tells at once (`TokenSource.drain_run`).
-/

namespace XuleLang

/-- Puts a marker wherever a token touches the next. -/
def withSeams : List Token → List Token
  | [] => []
  | a :: rest =>
    match rest with
    | [] => [a]
    | b :: _ =>
      if a.Touches b then a :: .seam b.span.start :: withSeams rest else a :: withSeams rest

/-- Gives each token its number. -/
def numbered (ts : List Token) : List Token := ts.mapIdx fun i t => { t with index := i }

namespace TokenStream

/-- The complaint about a closing brace where nothing is open. -/
def extraneous? : LexOutcome → Option SyntaxError
  | .unmatched t => some ⟨.extraneousBrace, some t.span⟩
  | _ => none

/-- The failure that stopped the lexer. -/
def failure? : LexOutcome → Option TooDeep
  | .tooDeep f => some f
  | _ => none

theorem failure?_of_token? {outcome : LexOutcome} {t : Token} (token : outcome.token? = some t) :
    failure? outcome = none := by
  cases outcome <;> cases token <;> rfl

/-- The stream of the steps of a lexer, where `arrange` places further tokens among those that
were read. -/
def ofSteps (arrange : List Token → List Token) (steps : List (LexOutcome × Lexer)) :
    Except TooDeep TokenStream :=
  let outcomes := steps.map (·.1)
  match outcomes.findSome? failure? with
  | some f => .error f
  | none =>
    let remarks := (steps.getLast?.map fun s => s.2.complaints.reverse).getD []
    .ok ⟨numbered (arrange (outcomes.filterMap LexOutcome.token?)),
      Located.sort (remarks ++ outcomes.filterMap extraneous?)⟩

end TokenStream

/-! ## One step of a lexer -/

theorem operator?_ne_rbrace (cs : List Char) : operator? cs ≠ some .rbrace := by
  fun_cases operator? cs <;> simp

/-- A lexeme that closes a brace is one. -/
theorem Lexeme.text_of_rbrace {cs : List Char} {x : Lexeme}
    (kind : x.kind = .punctuator .rbrace) :
    ofChars? cs = some x → cs.take x.length = ['\x7d'] := by
  fun_cases ofChars? cs <;> intro read
  case case7 => cases read; rfl
  case case10 =>
    cases read
    unfold ofWord at kind
    dsimp only at kind
    split at kind
    · cases kind
    · unfold ofName at kind
      split at kind <;> cases kind
  case case12 =>
    obtain ⟨p, found, rfl⟩ := Option.map_eq_some_iff.mp read
    cases kind
    exact absurd found (operator?_ne_rbrace _)
  all_goals cases read <;> cases kind

namespace Lexer

variable {l after : Lexer} {x : Lexeme} {outcome : LexOutcome} {t : Token}

/-- What closes nothing is a brace. -/
theorem unmatched_of_emit (read : l.emit x = (.unmatched t, after)) :
    x.kind = .punctuator .rbrace ∧ t.kind = x.kind ∧
      t.text = String.ofList (l.rest.take x.length) := by
  revert read
  fun_cases emit l x with
  | case1 | case2 =>
    unfold enter
    split <;> nofun
  | case3 after channel u kind =>
    intro read
    obtain ⟨rfl, -⟩ : u = t ∧ _ := by simpa using read
    exact ⟨kind, rfl, rfl⟩
  | case4 | case5 | case6 | case7 => nofun

theorem unmatched_of_next (read : l.next = (.unmatched t, after)) :
    t.kind = .punctuator .rbrace ∧ t.text = "\x7d" := by
  revert read
  fun_cases next l with
  | case1 quote mode x found =>
    intro read
    obtain ⟨kind, -⟩ := unmatched_of_emit read
    unfold Lexeme.inString? at found
    grind
  | case3 mode l' x found =>
    intro read
    obtain ⟨kind, same, text⟩ := unmatched_of_emit read
    exact ⟨same.trans kind, by rw [text, Lexeme.text_of_rbrace kind found]⟩
  | case2 | case4 =>
    intro read
    cases read

/-- A lexer has no more to say once it reads the end. -/
theorem isFinal_iff_of_next (read : l.next = (outcome, after)) (token : outcome.token? = some t) :
    outcome.isFinal = true ↔ t.kind = .endOfInput := by
  cases outcome with
  | token u => cases token; simp [LexOutcome.isFinal]
  | unmatched u => cases token; simp [LexOutcome.isFinal, (unmatched_of_next read).1]
  | tooDeep f => cases token

end Lexer

/-! ## One step of a source -/

/-- Gives each token its number, from `n` on. -/
def numberedFrom (n : Nat) (ts : List Token) : List Token :=
  ts.mapIdx fun i t => { t with index := n + i }

theorem numberedFrom_append (n : Nat) (ts us : List Token) :
    numberedFrom n (ts ++ us) = numberedFrom n ts ++ numberedFrom (n + ts.length) us := by
  simp only [numberedFrom, List.mapIdx_append, Nat.add_assoc, Nat.add_comm ts.length]

theorem numberedFrom_zero (ts : List Token) : numberedFrom 0 ts = numbered ts := by
  simp [numberedFrom, numbered]

namespace TokenSource

variable {s : TokenSource} {after : Lexer} {outcome : LexOutcome} {t : Token} {f : TooDeep}

/-- With a step of the lexer behind it. -/
def reads (s : TokenSource) (outcome : LexOutcome) (after : Lexer) : TokenSource :=
  { s with
    lexer := after
    complaints := (TokenStream.extraneous? outcome).toList ++ s.complaints }

theorem next_of_tooDeep (free : s.pending = none) (read : s.lexer.next = (.tooDeep f, after)) :
    s.next = .error f := by
  simp only [next, free, read]

theorem next_of_read (free : s.pending = none) (read : s.lexer.next = (outcome, after))
    (token : outcome.token? = some t) : s.next = .ok ((s.reads outcome after).handOut t) := by
  obtain ⟨lexer, marksSeams, pending, previous, complaints⟩ := s
  cases free
  cases outcome with
  | token u =>
    cases token
    simp only [next, read]
    rfl
  | unmatched u =>
    cases token
    simp only [next, read, complain, (Lexer.unmatched_of_next read).2, if_true]
    rfl
  | tooDeep f => cases token

/-- No marker belongs in front of the end of the text. -/
theorem wantsMarker_of_end (s : TokenSource) (ended : t.kind = .endOfInput) :
    s.wantsMarker t = false := by
  simp [wantsMarker, Token.Touches, ended]

/-- The token that waits behind a marker is handed out next. -/
theorem next_of_pending (waits : s.pending = some t) :
    s.next = .ok (t, { s with pending := none, previous := some t }) := by
  simp only [next, waits]

theorem drain_of_next {index fuel : Nat} {u : TokenSource} (given : s.next = .ok (t, u))
    (inside : t.kind ≠ .endOfInput) : s.drain (fuel + 1) index =
      (u.drain fuel (index + 1)).map fun r => ({ t with index := index } :: r.1, r.2) := by
  rw [drain, given]
  change (if t.kind = .endOfInput then _ else _) = _
  rw [if_neg inside]
  cases u.drain fuel (index + 1) <;> rfl

theorem drain_of_next_end {index fuel : Nat} {u : TokenSource} (given : s.next = .ok (t, u))
    (ended : t.kind = .endOfInput) :
    s.drain (fuel + 1) index = .ok ([{ t with index := index }], u) := by
  rw [drain, given]
  change (if t.kind = .endOfInput then _ else _) = _
  rw [if_pos ended]
  rfl

/-- What is handed out of a token that was read: the token, perhaps behind a marker. -/
def handedOut (s : TokenSource) (t : Token) : List Token :=
  if s.wantsMarker t then [.seam t.span.start, t] else [t]

/-- Where the lexer reads a token, it is handed out in one step, or in two with a marker in front
of it. The source then knows it as what was handed out last, and nothing waits. -/
theorem drain_step (free : s.pending = none) (read : s.lexer.next = (outcome, after))
    (token : outcome.token? = some t) (inside : t.kind ≠ .endOfInput) (fuel index : Nat) :
    ∃ more, fuel ≤ more ∧ s.drain (fuel + 2) index =
      ({ s.reads outcome after with previous := some t }.drain more
        (index + (s.handedOut t).length)).map
          fun r : List Token × TokenSource =>
            (numberedFrom index (s.handedOut t) ++ r.1, r.2) := by
  have next := next_of_read free read token
  have same : (s.reads outcome after).wantsMarker t = s.wantsMarker t := rfl
  rw [handOut, same] at next
  rw [handedOut]
  by_cases wanted : s.wantsMarker t
  · rw [if_pos wanted] at next ⊢
    have back : { { s.reads outcome after with
        pending := some t, previous := some (.seam t.span.start) } with
        pending := none, previous := some t } =
        { s.reads outcome after with previous := some t } := by
      rw [← free]
      rfl
    refine ⟨fuel, Nat.le_refl _, ?_⟩
    rw [drain_of_next next nofun, drain_of_next (next_of_pending rfl) inside, back]
    dsimp only [List.length_cons, List.length_nil]
    cases drain fuel (index + 1 + 1) _ <;> rfl
  · rw [if_neg wanted] at next ⊢
    exact ⟨fuel + 1, Nat.le_succ _, drain_of_next next inside⟩

/-- Where the lexer reads the end of the text, it is handed out by itself, and last. -/
theorem drain_step_end (free : s.pending = none) (read : s.lexer.next = (outcome, after))
    (token : outcome.token? = some t) (ended : t.kind = .endOfInput) (fuel index : Nat) :
    s.drain (fuel + 1) index = .ok (numberedFrom index [t],
      { s.reads outcome after with previous := some t }) := by
  have next := next_of_read free read token
  rw [handOut, if_neg (by simp [wantsMarker_of_end _ ended])] at next
  exact drain_of_next_end next ended

/-! ## A whole run -/

/-- What is handed out of tokens that were read, behind the one handed out last. -/
def handedOutBehind (marksSeams : Bool) : Option Token → List Token → List Token
  | _, [] => []
  | previous, t :: ts =>
    (if marksSeams && previous.any (·.Touches t) then [.seam t.span.start, t] else [t]) ++
      handedOutBehind marksSeams (some t) ts

/-- The end of the text is handed out by itself. -/
theorem handedOutBehind_end (marksSeams : Bool) (previous : Option Token)
    (ended : t.kind = .endOfInput) : handedOutBehind marksSeams previous [t] = [t] := by
  cases previous <;> simp [handedOutBehind, Token.Touches, ended]

theorem handedOutBehind_false (previous : Option Token) (ts : List Token) :
    handedOutBehind false previous ts = ts := by
  induction ts generalizing previous with
  | nil => rfl
  | cons t ts ih => simp [handedOutBehind, ih]

theorem cons_handedOutBehind_true (a : Token) (ts : List Token) :
    a :: handedOutBehind true (some a) ts = withSeams (a :: ts) := by
  induction ts generalizing a with
  | nil => rfl
  | cons b ts ih =>
    rw [withSeams, ← ih b, handedOutBehind]
    by_cases touches : a.Touches b <;> simp [touches]

/-- At the start nothing has been handed out, and no marker belongs there. -/
theorem handedOutBehind_none (marksSeams : Bool) (ts : List Token) :
    handedOutBehind marksSeams none ts = if marksSeams then withSeams ts else ts := by
  cases marksSeams with
  | false => exact handedOutBehind_false none ts
  | true =>
    cases ts with
    | nil => rfl
    | cons t ts => exact cons_handedOutBehind_true t ts

/-- With some steps of the lexer behind it, whose tokens have all been handed out. -/
def past (s : TokenSource) (steps : List (LexOutcome × Lexer)) : TokenSource :=
  steps.foldl (fun s step => { s.reads step.1 step.2 with previous := step.1.token? }) s

theorem lexer_past (s : TokenSource) (steps : List (LexOutcome × Lexer)) :
    (s.past steps).lexer = (steps.getLast?.map (·.2)).getD s.lexer := by
  induction steps generalizing s with
  | nil => rfl
  | cons step steps ih =>
    rw [past, List.foldl_cons, ← past, ih, List.getLast?_cons]
    cases steps.getLast? <;> rfl

theorem complaints_past (s : TokenSource) (steps : List (LexOutcome × Lexer)) :
    (s.past steps).complaints.reverse =
      s.complaints.reverse ++ (steps.map (·.1)).filterMap TokenStream.extraneous? := by
  induction steps generalizing s with
  | nil => simp [past]
  | cons step steps ih =>
    rw [past, List.foldl_cons, ← past, ih, List.map_cons, List.filterMap_cons, reads]
    cases TokenStream.extraneous? step.1 <;> simp

/-- Tokens that come to the end of the text come to it behind the first, if that is not the end. -/
theorem ends_behind {ts : List Token}
    (ended : ((t :: ts).getLast?).map (·.kind) = some .endOfInput)
    (inside : t.kind ≠ .endOfInput) : (ts.getLast?).map (·.kind) = some .endOfInput := by
  rw [List.getLast?_cons] at ended
  cases last : ts.getLast? with
  | none =>
    rw [last] at ended
    exact absurd (Option.some.inj ended) inside
  | some u =>
    rw [last] at ended
    exact ended

/-- Where a run of the lexer fails, so does the source. -/
theorem drain_run_error {k : Nat} (fuel index : Nat) (free : s.pending = none)
    (failed : ((Lexer.run k s.lexer).map (·.1)).findSome? TokenStream.failure? = some f)
    (enough : 2 * k ≤ fuel) : s.drain fuel index = .error f := by
  induction k generalizing s fuel index with
  | zero => cases failed
  | succ k ih =>
    obtain ⟨fuel, rfl⟩ : ∃ n, fuel = n + 2 := Nat.exists_eq_add_of_le' (by omega)
    obtain ⟨outcome, after, read⟩ : ∃ o a, s.lexer.next = (o, a) := ⟨_, _, rfl⟩
    rw [Lexer.run, read] at failed
    cases token : outcome.token? with
    | none =>
      cases outcome with
      | token | unmatched => cases token
      | tooDeep g =>
        obtain rfl : g = f := by
          simpa [LexOutcome.isFinal, TokenStream.failure?] using failed
        rw [drain, next_of_tooDeep free read]
        rfl
    | some t =>
      have fine := TokenStream.failure?_of_token? token
      by_cases ends : outcome.isFinal = true
      · simp [ends, fine] at failed
      · simp only [ends, Bool.false_eq_true, if_false, List.map_cons, List.findSome?_cons,
          fine] at failed
        have inside := mt (Lexer.isFinal_iff_of_next read token).mpr ends
        obtain ⟨more, least, step⟩ := drain_step free read token inside fuel index
        have rest := ih (s := { s.reads outcome after with previous := some t }) more
          (index + (s.handedOut t).length) free failed (by omega)
        rw [step, rest]
        rfl

/-- Where a run of the lexer comes to the end of its text, the source hands out what was read, with
the markers that belong there. -/
theorem drain_run {k : Nat} (fuel index : Nat) (free : s.pending = none)
    (succeeds : ((Lexer.run k s.lexer).map (·.1)).findSome? TokenStream.failure? = none)
    (ended : ((((Lexer.run k s.lexer).map (·.1)).filterMap LexOutcome.token?).getLast?).map
      (·.kind) = some .endOfInput) (enough : 2 * k ≤ fuel) :
    s.drain fuel index = .ok
      (numberedFrom index (handedOutBehind s.marksSeams s.previous
        (((Lexer.run k s.lexer).map (·.1)).filterMap LexOutcome.token?)),
      s.past (Lexer.run k s.lexer)) := by
  induction k generalizing s fuel index with
  | zero => cases ended
  | succ k ih =>
    obtain ⟨fuel, rfl⟩ : ∃ n, fuel = n + 2 := Nat.exists_eq_add_of_le' (by omega)
    obtain ⟨outcome, after, read⟩ : ∃ o a, s.lexer.next = (o, a) := ⟨_, _, rfl⟩
    rw [Lexer.run, read] at succeeds ended ⊢
    dsimp only at succeeds ended ⊢
    cases token : outcome.token? with
    | none =>
      cases outcome with
      | token | unmatched => cases token
      | tooDeep f => simp [LexOutcome.isFinal, TokenStream.failure?] at succeeds
    | some t =>
      have fine := TokenStream.failure?_of_token? token
      by_cases ends : outcome.isFinal = true
      · have kind := (Lexer.isFinal_iff_of_next read token).mp ends
        simp only [ends, if_true, List.map_cons, List.map_nil, List.filterMap_cons, token,
          List.filterMap_nil, handedOutBehind_end _ _ kind, past, List.foldl_cons, List.foldl_nil]
        exact drain_step_end free read token kind _ index
      · have inside := mt (Lexer.isFinal_iff_of_next read token).mpr ends
        simp only [ends, Bool.false_eq_true, if_false, List.map_cons, List.findSome?_cons,
          List.filterMap_cons, token, fine, past, List.foldl_cons] at succeeds ended ⊢
        obtain ⟨more, least, step⟩ := drain_step free read token inside fuel index
        have rest := ih (s := { s.reads outcome after with previous := some t }) more
          (index + (s.handedOut t).length) free succeeds (ends_behind ended inside) (by omega)
        rw [step, rest, handedOutBehind, numberedFrom_append]
        rfl

end TokenSource

end XuleLang
