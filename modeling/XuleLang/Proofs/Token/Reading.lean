import XuleLang.Proofs.Token.Lexeme
import XuleLang.Proofs.Token.Piece

/-!
What a lexer reads.

A lexer stands at an offset of a text if what it has not read is what lies behind that offset, and
its position is the one that counting from the start of the text gives. It keeps standing in the
text whatever it reads: characters that begin no token (`Lexer.skipUnrecognized_skips`), a lexeme
(`Lexer.emit_reads`), one token (`Lexer.next_reads`), and all of them (`Lexer.run_reads`). What it
reads are pieces of the text, one behind the other.
-/

namespace XuleLang

/-- A token as it is read from a text, before it is numbered. The token for the end of the text
stands there; any other has characters, and is hidden if it carries no meaning. -/
structure Token.IsReadFrom (t : Token) (text : List Char) : Prop where
  piece : (Piece.token t).IsCutFrom text
  channel : t.channel = if t.kind.isTrivia then .hidden else .visible
  stop : t.kind = .endOfInput → t = .endOfInput (positionAt text text.length)
  some : t.kind ≠ .endOfInput → t.span.start.offset < t.span.stop.offset

theorem endOfInput_isReadFrom (text : List Char) :
    (Token.endOfInput (positionAt text text.length)).IsReadFrom text :=
  { piece := { span := spanBetween_isApartIn (Nat.le_refl _) (Nat.le_refl _) insideBreak_length
                 insideBreak_length
               chars := by simp [Piece.chars, Piece.span, Token.endOfInput, cut, Span.single] }
    channel := rfl
    stop := fun _ => rfl
    some := fun inside => absurd rfl inside }

namespace Lexer

variable {text : List Char} {m n : Nat} {l after : Lexer} {x : Lexeme} {outcome : LexOutcome}

/-- The lexer has read the first `n` characters of a text, and does not stand between the two
characters of one line break. Only quotes open a string literal. -/
structure StandsAt (l : Lexer) (text : List Char) (n : Nat) : Prop where
  inside : n ≤ text.length
  rest : l.rest = text.drop n
  position : l.position = positionAt text n
  apart : insideBreak text n = false
  quotes : ∀ q, Mode.string q ∈ l.opened → q = '"' ∨ q = '\x27'

namespace StandsAt

/-- Before the first character nothing was read. -/
theorem ofText : (ofText text).StandsAt text 0 :=
  { inside := Nat.zero_le _, rest := rfl, position := by simp [Lexer.ofText]
    apart := insideBreak_zero, quotes := by simp [Lexer.ofText] }

/-- Reading some of the characters ahead moves on by their number. -/
theorem skip (stands : l.StandsAt text n) (available : m ≤ l.rest.length)
    (apart : insideBreak text (n + m) = false) : (l.skip m).StandsAt text (n + m) := by
  have inside := stands.inside
  rw [stands.rest, List.length_drop] at available
  refine { inside := by omega, rest := ?_, position := ?_, apart := apart
           quotes := stands.quotes }
  · simp [Lexer.skip, stands.rest]
  · simp only [Lexer.skip, stands.rest, stands.position]
    exact advance_positionAt (by omega)

/-- With no character ahead a lexer stands at the end. -/
theorem eq_length (stands : l.StandsAt text n) (nothing : l.rest = []) : n = text.length := by
  have inside := stands.inside
  have none := congrArg List.length (stands.rest.symm.trans nothing)
  simp only [List.length_drop, List.length_nil] at none
  omega

/-- Complaints are of no account to where a lexer stands. -/
theorem complain (stands : l.StandsAt text n) (e : SyntaxError) :
    (l.complain e).StandsAt text n :=
  { inside := stands.inside, rest := stands.rest, position := stands.position
    apart := stands.apart, quotes := stands.quotes }

end StandsAt

/-! ## Characters that begin no token -/

/-- What a lexer that stands at `n` has skipped when it stands at `m`. -/
structure Skips (text : List Char) (n m : Nat) (l after : Lexer) (es : List SyntaxError)
    (ps : List Piece) : Prop where
  stands : after.StandsAt text m
  opened : after.opened = l.opened
  complaints : after.complaints = es.reverse ++ l.complaints
  arranged : Arrangement text n m [] es ps

/-- What ends a line begins a token, since it is blank. So skipping a character that begins none
does not lead between the two characters of one line break. -/
theorem StandsAt.skip_one {c : Char} {cs : List Char} (stands : l.StandsAt text n)
    (rest : l.rest = c :: cs) (begins : Lexeme.ofChars? (c :: cs) = none) :
    (l.skip 1).StandsAt text (n + 1) := by
  refine stands.skip (by simp [rest]) ?_
  have here : text[n]? = some c := by
    rw [← List.head?_drop, ← stands.rest, rest]
    rfl
  have dark : c ≠ '\r' := by
    rintro rfl
    cases begins
  simp [insideBreak, here, dark]

/-- A character that begins no token is skipped before those behind it. -/
theorem Skips.cons {c : Char} {cs : List Char} {es : List SyntaxError} {ps : List Piece}
    (stands : l.StandsAt text n) (rest : l.rest = c :: cs)
    (begins : Lexeme.ofChars? (c :: cs) = none)
    (skips : Skips text (n + 1) m
      ((l.skip 1).complain ⟨.unrecognized c, some (spanBetween text n (n + 1))⟩) after es ps) :
    Skips text n m l after (⟨.unrecognized c, some (spanBetween text n (n + 1))⟩ :: es)
      (.unrecognized c (spanBetween text n (n + 1)) :: ps) := by
  have moved := stands.skip_one rest begins
  have fromText : (Piece.unrecognized c (spanBetween text n (n + 1))).IsCutFrom text := by
    have ahead : text.drop n = c :: cs := stands.rest.symm.trans rest
    exact { span := spanBetween_isApartIn (Nat.le_succ n) moved.inside stands.apart moved.apart
            chars := by simp [Piece.chars, Piece.span, cut, spanBetween, Span.length, ahead] }
  have here : Arrangement text n (n + 1) [] [⟨.unrecognized c, some (spanBetween text n (n + 1))⟩]
      [.unrecognized c (spanBetween text n (n + 1))] := by
    simpa [Piece.span, spanBetween, Piece.token?, Piece.complaint?] using
      Arrangement.single fromText
  exact { stands := skips.stands
          opened := skips.opened
          complaints := by simp [skips.complaints, complain, skip]
          arranged := here.append skips.arranged }

/-- Skipping leads to a token or to the end, over characters that are complained of. -/
theorem skipUnrecognized_skips (stands : l.StandsAt text n) :
    ∃ m es ps, Skips text n m l l.skipUnrecognized es ps ∧
      (Lexeme.ofChars? l.skipUnrecognized.rest = none → m = text.length) := by
  rw [skipUnrecognized]
  generalize ahead : l.rest = cs
  induction cs generalizing l n with
  | nil => exact ⟨n, [], [], ⟨stands, rfl, rfl, .nil⟩, fun _ => stands.eq_length ahead⟩
  | cons c cs ih =>
    rw [skipUnrecognized.go]
    split
    next begins =>
      refine ⟨n, [], [], ⟨stands, rfl, rfl, .nil⟩, fun none => ?_⟩
      rw [ahead] at none
      simp [none] at begins
    next begins =>
      have moved := stands.skip_one ahead (by simpa using begins)
      have span : Span.mk l.position (l.skip 1).position = spanBetween text n (n + 1) := by
        rw [stands.position, moved.position, spanBetween]
      dsimp only
      rw [span]
      obtain ⟨m, es, ps, skips, ends⟩ := ih (moved.complain _) (by simp [complain, skip, ahead])
      exact ⟨m, _, _, skips.cons stands ahead (by simpa using begins), ends⟩

/-! ## One token -/

/-- A lexeme that can be read ahead: it takes some of the characters there, does not end inside a
line break, opens a string literal only with a quote, and lacks its end only if it is a comment. -/
structure Offers (l : Lexer) (x : Lexeme) : Prop where
  takes : x.Takes l.rest
  apart : insideBreak l.rest x.length = false
  quote : x.kind = .stringOpen → l.rest.headD '"' = '"' ∨ l.rest.headD '"' = '\x27'
  complete : x.complete = false → x.kind = .comment

/-- What is remarked on when a token is read: the complaints of the lexer and that of a closing
brace where nothing is open. There is at most one, about the start of the token. -/
inductive Remarked (t : Token) : List SyntaxError → Option SyntaxError → Prop
  | nothing : Remarked t [] none
  | brace (closes : t.kind = .punctuator .rbrace) :
      Remarked t [] (some ⟨.extraneousBrace, some t.span⟩)
  | comment (comments : t.kind = .comment) :
      Remarked t [.atPosition .unterminatedComment t.span.start] none

namespace Remarked

variable {t : Token} {es : List SyntaxError} {brace? : Option SyntaxError} {e : SyntaxError}

/-- Remarks on a token are about places of the text, and not about characters that begin no
token. -/
theorem located (remarked : Remarked t es brace?) (read : t.span.IsApartIn text) :
    ∀ e ∈ es ++ brace?.toList,
      e.isUnrecognized = false ∧ ∃ s, e.span = some s ∧ s.IsApartIn text := by
  cases remarked with
  | nothing => simp
  | brace closes => simpa [SyntaxError.isUnrecognized] using read
  | comment comments =>
    simpa [SyntaxError.isUnrecognized, Located.atPosition] using read.single_start

/-- The lexer complains of a token once at most. -/
theorem reverse_eq (remarked : Remarked t es brace?) : es.reverse = es := by
  cases remarked <;> rfl

/-- A token is remarked on where it starts. -/
theorem startOffset_eq (remarked : Remarked t es brace?) :
    ∀ e ∈ es ++ brace?.toList, e.startOffset = t.span.start.offset := by
  cases remarked with
  | nothing => simp
  | brace closes => simp [Located.startOffset]
  | comment comments => simp [Located.atPosition, Located.startOffset, Span.single]

end Remarked

/-- What a lexer that stands at `n` has read when it has read a token and stands at `m`. -/
structure ReadsToken (text : List Char) (n m : Nat) (l : Lexer) (outcome : LexOutcome)
    (after : Lexer) (t : Token) : Prop where
  token : outcome.token? = some t
  goesOn : outcome.isFinal = false
  read : t.IsReadFrom text
  inside : t.kind ≠ .endOfInput
  span : t.span = spanBetween text n m
  stands : after.StandsAt text m
  complaints : ∃ es, after.complaints = es ++ l.complaints ∧
    Remarked t es (TokenStream.extraneous? outcome)

/-- The token of a lexeme that is read here. -/
def tokenOf (l : Lexer) (x : Lexeme) : Token :=
  ⟨x.kind, String.ofList (l.rest.take x.length), ⟨l.position, (l.skip x.length).position⟩,
    if x.kind.isTrivia then .hidden else .visible, 0⟩

/-- What emitting a lexeme comes to: it is too much, or its token is read, what is open may have
changed, and the lack of an end may have been complained of. -/
theorem emit_cases (l : Lexer) (x : Lexeme) (complete : x.complete = false → x.kind = .comment) :
    (∃ after, l.emit x = (.tooDeep ⟨(l.skip x.length).position, maxOpen⟩, after)) ∨
      ∃ outcome opened es, l.emit x = (outcome, { l.skip x.length with
          opened := opened, complaints := es ++ l.complaints }) ∧
        (outcome = .token (l.tokenOf x) ∨ outcome = .unmatched (l.tokenOf x)) ∧
        (∀ q, Mode.string q ∈ opened → Mode.string q ∈ l.opened ∨
          x.kind = .stringOpen ∧ q = l.rest.headD '"') ∧
        Remarked (l.tokenOf x) es (TokenStream.extraneous? outcome) := by
  fun_cases l.emit x
  case case1 after channel t kind =>
    unfold enter
    split
    · exact .inr ⟨_, _, [], rfl, .inl rfl, by simp [kind, after, skip, or_comm], .nothing⟩
    · exact .inl ⟨_, rfl⟩
  case case2 after channel t kind =>
    unfold enter
    split
    · exact .inr ⟨_, _, [], rfl, .inl rfl, by simp +contextual [after, skip], .nothing⟩
    · exact .inl ⟨_, rfl⟩
  case case3 after channel t kind closed =>
    exact .inr ⟨_, l.opened, [], rfl, .inr rfl, fun q => .inl, .brace kind⟩
  case case4 after channel t kind inner outer opened =>
    refine .inr ⟨_, outer, [], rfl, .inl rfl, fun q still => .inl ?_, .nothing⟩
    rw [opened]
    exact List.mem_cons_of_mem inner still
  case case5 after channel t kind =>
    exact .inr ⟨_, l.opened.tail, [], rfl, .inl rfl,
      fun q still => .inl (List.mem_of_mem_tail still), .nothing⟩
  case case6 => exact .inr ⟨_, l.opened, [], rfl, .inl rfl, fun q => .inl, .nothing⟩
  case case7 after channel t endless _ _ _ _ =>
    exact .inr ⟨_, l.opened, [_], rfl, .inl rfl, fun q => .inl,
      .comment (complete (by simpa using endless))⟩

/-- A lexeme does not lead between the two characters of one line break. -/
theorem StandsAt.skip_lexeme (stands : l.StandsAt text n) (offers : l.Offers x) :
    (l.skip x.length).StandsAt text (n + x.length) := by
  refine stands.skip offers.takes.available ?_
  rw [← insideBreak_drop offers.takes.some, ← stands.rest]
  exact offers.apart

/-- The token of a lexeme that is offered is read from the text. -/
theorem tokenOf_isReadFrom (stands : l.StandsAt text n) (offers : l.Offers x) :
    (l.tokenOf x).span = spanBetween text n (n + x.length) ∧
      (l.tokenOf x).IsReadFrom text := by
  have moved := stands.skip_lexeme offers
  have span : (l.tokenOf x).span = spanBetween text n (n + x.length) := by
    simp only [tokenOf, spanBetween, stands.position, moved.position]
  refine ⟨span, { piece := { span := ?_, chars := ?_ }, channel := rfl, stop := ?_, some := ?_ }⟩
  · rw [Piece.span, span]
    exact spanBetween_isApartIn (Nat.le_add_right n _) moved.inside stands.apart moved.apart
  · simp only [Piece.chars, Piece.span]
    rw [span]
    simp [tokenOf, cut, spanBetween, Span.length, stands.rest]
  · exact fun ends => absurd ends offers.takes.inside
  · intro _
    rw [span]
    exact Nat.lt_add_of_pos_right offers.takes.some

/-- Giving up at a place of the text, which is not between the two characters of one line break. -/
def GivesUp (text : List Char) (outcome : LexOutcome) : Prop :=
  ∃ f, outcome = .tooDeep f ∧ (Span.single f.position).IsApartIn text

theorem StandsAt.givesUp (stands : l.StandsAt text n) :
    GivesUp text (.tooDeep ⟨l.position, maxOpen⟩) := by
  refine ⟨_, rfl, ?_⟩
  rw [stands.position]
  exact spanBetween_isApartIn (Nat.le_refl n) stands.inside stands.apart stands.apart

/-- Emitting a lexeme reads its token, unless it would open one thing too many. -/
theorem emit_reads (stands : l.StandsAt text n) (offers : l.Offers x) :
    GivesUp text (l.emit x).1 ∨
      ∃ m outcome after t, n < m ∧ l.emit x = (outcome, after) ∧
        ReadsToken text n m l outcome after t := by
  have moved := stands.skip_lexeme offers
  obtain ⟨after, deep⟩ | ⟨outcome, opened, es, emitted, token, quotes, remarked⟩ :=
    emit_cases l x offers.complete
  · rw [deep]
    exact .inl moved.givesUp
  obtain ⟨span, read⟩ := tokenOf_isReadFrom stands offers
  refine .inr ⟨n + x.length, outcome, _, l.tokenOf x, Nat.lt_add_of_pos_right offers.takes.some,
    emitted, { token := ?_, goesOn := ?_, read := read, inside := offers.takes.inside, span := span
               stands := ?_, complaints := ⟨es, rfl, remarked⟩ }⟩
  · rcases token with rfl | rfl <;> rfl
  · rcases token with rfl | rfl
    · simpa [LexOutcome.isFinal, tokenOf] using offers.takes.inside
    · rfl
  · refine { inside := moved.inside, rest := moved.rest, position := moved.position
             apart := moved.apart, quotes := fun q still => ?_ }
    rcases quotes q still with before | ⟨opens, rfl⟩
    · exact stands.quotes q before
    · exact offers.quote opens

/-! ## What is ahead -/

/-- What program text begins with is offered. -/
theorem offers_ofChars? (read : Lexeme.ofChars? l.rest = some x) : l.Offers x :=
  { takes := Lexeme.ofChars?_takes read
    apart := Lexeme.ofChars?_apart read
    quote := Lexeme.quote_of_ofChars? read
    complete := Lexeme.comment_of_ofChars? read }

/-- What the rest of a string literal begins with is offered. -/
theorem offers_inString? {quote : Char} (known : quote = '"' ∨ quote = '\x27')
    (read : Lexeme.inString? quote l.rest = some x) : l.Offers x :=
  { takes := Lexeme.inString?_takes read
    apart := Lexeme.inString?_apart known read
    quote := fun opens => absurd opens (Lexeme.kind_ne_stringOpen_of_inString? read)
    complete := fun endless => absurd endless (Lexeme.complete_of_inString? read) }

/-! ## One step -/

theorem mem_opened_of_mode {quote : Char} (mode : l.mode = .string quote) :
    Mode.string quote ∈ l.opened := by
  unfold Lexer.mode at mode
  cases opened : l.opened with
  | nil => simp [opened] at mode
  | cons m outer => simp_all

/-- A lexer that has come to the end of its text answers with the token that ends it, and any other
reads one token more. Before that it skips the characters that begin none. -/
theorem next_reads (stands : l.StandsAt text n) :
    GivesUp text l.next.1 ∨
      ∃ k es ps outcome after between, l.next = (outcome, after) ∧
        Skips text n k l between es ps ∧
        ((k = text.length ∧ outcome = .token (.endOfInput (positionAt text text.length)) ∧
            after = between) ∨
          ∃ m t, k < m ∧ ReadsToken text k m between outcome after t) := by
  have skips_nothing : Skips text n n l l [] [] := ⟨stands, rfl, rfl, .nil⟩
  fun_cases next l with
  | case1 quote mode x read =>
    have known := stands.quotes quote (mem_opened_of_mode mode)
    obtain deep | ⟨m, outcome, after, t, on, emitted, reads⟩ :=
      emit_reads stands (offers_inString? known read)
    · exact .inl deep
    · exact .inr ⟨n, [], [], outcome, after, l, emitted, skips_nothing, .inr ⟨m, t, on, reads⟩⟩
  | case2 quote mode none =>
    -- Inside a string literal any character begins something.
    have ended : n = text.length := by
      have empty : l.rest = [] := by
        revert none
        fun_cases Lexeme.inString? quote l.rest <;> simp_all
      exact stands.eq_length empty
    subst ended
    exact .inr ⟨text.length, [], [], _, l, l, rfl, skips_nothing,
      .inl ⟨rfl, by rw [stands.position], rfl⟩⟩
  | case3 mode l' x read =>
    obtain ⟨k, es, ps, skips, -⟩ := skipUnrecognized_skips stands
    obtain deep | ⟨m, outcome, after, t, on, emitted, reads⟩ :=
      emit_reads skips.stands (offers_ofChars? read)
    · exact .inl deep
    · exact .inr ⟨k, es, ps, outcome, after, l', emitted, skips, .inr ⟨m, t, on, reads⟩⟩
  | case4 mode l' none =>
    obtain ⟨k, es, ps, skips, ends⟩ := skipUnrecognized_skips stands
    obtain rfl := ends none
    exact .inr ⟨text.length, es, ps, _, l', l', rfl, skips,
      .inl ⟨rfl, by rw [skips.stands.position], rfl⟩⟩

/-! ## A whole text -/

/-- Remarks on the tokens of a text from the offset `n` on, and on the characters that begin none,
one for a place and in the order of the text. The visible tokens that are remarked on are the
closing braces where nothing is open. -/
structure InPlace (n : Nat) (ts : List Token) (rs : List SyntaxError) : Prop where
  behind : ∀ r ∈ rs, n ≤ r.startOffset
  inOrder : rs.Pairwise fun a b => a.startOffset < b.startOffset
  apart : ∀ r ∈ rs, ∀ t ∈ ts, t.isVisible = true → r.startOffset = t.span.start.offset →
    r = ⟨.extraneousBrace, some t.span⟩
  brace : ∀ r ∈ rs, r.what = .extraneousBrace →
    ∃ t ∈ ts, t.isVisible = true ∧ t.kind = .punctuator .rbrace ∧ r.span = some t.span

namespace InPlace

variable {ts : List Token} {t : Token} {rs later es : List SyntaxError} {ps : List Piece}

/-- Remarks on characters that begin no token come before the tokens behind them. -/
theorem of_skipped (arranged : Arrangement text n m [] es ps)
    (behind : ∀ t ∈ ts, m ≤ t.span.start.offset) : InPlace n ts es :=
  { behind := fun r member => (arranged.startOffset_bounds r member).1
    inOrder := arranged.inOrder
    apart := fun r member t there _ here => by
      have before := (arranged.startOffset_bounds r member).2
      have after := behind t there
      omega
    brace := fun r member braces => by
      rw [← arranged.unrecognized] at member
      have strange := (List.mem_filter.mp member).2
      rw [SyntaxError.isUnrecognized, braces] at strange
      cases strange }

/-- The remark on a token, and no tokens that start where it does. -/
theorem of_remarked {brace? : Option SyntaxError} (remarked : Remarked t es brace?)
    (read : t.IsReadFrom text) (behind : ∀ u ∈ ts, t.span.start.offset < u.span.start.offset) :
    InPlace t.span.start.offset (t :: ts) (es ++ brace?.toList) :=
  { behind := fun r member => Nat.le_of_eq (remarked.startOffset_eq r member).symm
    inOrder := by cases remarked <;> simp
    apart := by
      intro r member u there visible here
      rcases List.mem_cons.mp there with rfl | later
      · cases remarked with
        | nothing => cases member
        | brace closes => exact List.mem_singleton.mp member
        | comment comments =>
          rw [Token.isVisible, read.channel, comments] at visible
          cases visible
      · have place := remarked.startOffset_eq r member
        have after := behind u later
        omega
    brace := by
      intro r member braces
      cases remarked with
      | nothing => cases member
      | brace closes =>
        have visible : t.isVisible = true := by rw [Token.isVisible, read.channel, closes]; rfl
        rw [List.mem_singleton.mp member]
        exact ⟨t, .head _, visible, closes, rfl⟩
      | comment comments =>
        rw [List.mem_singleton.mp member] at braces
        cases braces }

/-- A token before all remarks is remarked on by none. -/
theorem cons (inPlace : InPlace n ts rs) (before : t.span.start.offset < n) :
    InPlace n (t :: ts) rs :=
  { behind := inPlace.behind
    inOrder := inPlace.inOrder
    apart := by
      intro r member u there visible here
      rcases List.mem_cons.mp there with rfl | later
      · have after := inPlace.behind r member
        omega
      · exact inPlace.apart r member u later visible here
    brace := fun r member braces =>
      (inPlace.brace r member braces).imp fun u found => ⟨.tail t found.1, found.2⟩ }

/-- Remarks behind others. -/
theorem append (first : InPlace n ts rs) (second : InPlace m ts later)
    (bound : ∀ r ∈ rs, r.startOffset < m) (ordered : n ≤ m) : InPlace n ts (rs ++ later) :=
  { behind := fun r member => (List.mem_append.mp member).elim (first.behind r)
      fun there => Nat.le_trans ordered (second.behind r there)
    inOrder := List.pairwise_append.mpr ⟨first.inOrder, second.inOrder, fun a here b there =>
      Nat.lt_of_lt_of_le (bound a here) (second.behind b there)⟩
    apart := fun r member => (List.mem_append.mp member).elim (first.apart r) (second.apart r)
    brace := fun r member => (List.mem_append.mp member).elim (first.brace r) (second.brace r) }

end InPlace

/-- What a lexer that stands at `n` reads to the end of the text: tokens that are pieces of the
rest of the text, and complaints about places of it, among which those of its unrecognized
characters are in the order of the text, as all remarks together can be put. -/
structure ReadsAll (text : List Char) (n : Nat) (l : Lexer) (steps : List (LexOutcome × Lexer))
    (ts : List Token) (es : List SyntaxError) : Prop where
  outcomes : (steps.map (·.1)).filterMap LexOutcome.token? = ts
  final : ∃ last, steps.getLast? = some last ∧ last.2.complaints = es.reverse ++ l.complaints
  arranged : ∃ ps, Arrangement text n text.length ts (es.filter SyntaxError.isUnrecognized) ps
  located : ∀ e ∈ es, ∃ s, e.span = some s ∧ s.IsApartIn text
  remarks : ∃ rs, rs.Perm (es ++ (steps.map (·.1)).filterMap TokenStream.extraneous?) ∧
    InPlace n ts rs
  read : ∀ t ∈ ts, t.IsReadFrom text
  ended : ∃ front, ts = front ++ [.endOfInput (positionAt text text.length)] ∧
    ∀ t ∈ front, t.kind ≠ .endOfInput

variable {k : Nat} {es : List SyntaxError} {ps : List Piece} {between : Lexer} {t : Token}

/-- The last step comes upon the end of the text. -/
theorem ReadsAll.ended_here (skips : Skips text n text.length l after es ps) :
    ReadsAll text n l [(.token (.endOfInput (positionAt text text.length)), after)]
      [.endOfInput (positionAt text text.length)] es := by
  have last : Arrangement text text.length text.length
      [.endOfInput (positionAt text text.length)] [] _ :=
    Arrangement.single (endOfInput_isReadFrom text).piece
  exact
    { outcomes := rfl
      final := ⟨_, rfl, skips.complaints⟩
      arranged := ⟨_, by simpa [skips.arranged.unrecognized] using skips.arranged.append last⟩
      located := skips.arranged.located
      remarks := ⟨es, .of_eq (List.append_nil es).symm, .of_skipped skips.arranged
        (by simp [Token.endOfInput, Span.single])⟩
      read := by simpa using endOfInput_isReadFrom text
      ended := ⟨[], rfl, by simp⟩ }

/-- A step that reads a token comes before those that read the rest of the text. -/
theorem ReadsAll.cons {steps : List (LexOutcome × Lexer)} {ts : List Token}
    {later : List SyntaxError} (skips : Skips text n k l between es ps)
    (reads : ReadsToken text k m between outcome after t)
    (rest : ReadsAll text m after steps ts later) :
    ∃ all, ReadsAll text n l ((outcome, after) :: steps) (t :: ts) all := by
  obtain ⟨own, complaints, remarked⟩ := reads.complaints
  obtain ⟨last, final, said⟩ := rest.final
  obtain ⟨qs, arranged⟩ := rest.arranged
  obtain ⟨rs, permuted, inPlace⟩ := rest.remarks
  obtain ⟨front, ended, inside⟩ := rest.ended
  have own_located := remarked.located reads.read.piece.span
  have own_filter : own.reverse.filter SyntaxError.isUnrecognized = [] := by
    rw [List.filter_eq_nil_iff]
    intro e member
    simp [(own_located e (List.mem_append_left _ (List.mem_reverse.mp member))).1]
  have here : Arrangement text t.span.start.offset t.span.stop.offset [t] [] [.token t] :=
    Arrangement.single reads.read.piece
  have on := reads.read.some reads.inside
  rw [reads.span] at here
  refine ⟨es ++ own.reverse ++ later,
    { outcomes := ?_, final := ⟨last, ?_, ?_⟩
      arranged := ⟨ps ++ (.token t :: qs), ?_⟩
      located := ?_
      remarks := ⟨es ++ ((own ++ (TokenStream.extraneous? outcome).toList) ++ rs), ?_, ?_⟩
      read := List.forall_mem_cons.mpr ⟨reads.read, rest.read⟩
      ended := ⟨t :: front, by rw [ended]; rfl, List.forall_mem_cons.mpr ⟨reads.inside, inside⟩⟩ }⟩
  · simp [reads.token, ← rest.outcomes]
  · simp [List.getLast?_cons, final]
  · simp [said, complaints, skips.complaints]
  · simpa [own_filter, skips.arranged.unrecognized] using
      skips.arranged.append (here.append arranged)
  · intro e member
    simp only [List.mem_append, List.mem_reverse] at member
    rcases member with (skipped | own) | later
    · exact skips.arranged.located e skipped
    · exact (own_located e (List.mem_append_left _ own)).2
    · exact rest.located e later
  · have split : (((outcome, after) :: steps).map (·.1)).filterMap TokenStream.extraneous? =
        (TokenStream.extraneous? outcome).toList ++
          (steps.map (·.1)).filterMap TokenStream.extraneous? := by
      rw [List.map_cons, List.filterMap_cons]
      cases TokenStream.extraneous? outcome <;> rfl
    rw [remarked.reverse_eq, split, List.append_assoc own, List.append_assoc es,
      List.append_assoc es, List.append_assoc own]
    exact .append_left es (.append_left own
      ((permuted.append_left _).trans (List.perm_append_comm_assoc _ _ _)))
  · have start : t.span.start.offset = k := by rw [reads.span]; rfl
    have starts : k < m := by rwa [reads.span] at on
    have behind (u : Token) (there : u ∈ ts) : m ≤ u.span.start.offset := arranged.le_start there
    have skipped : InPlace n (t :: ts) es := .of_skipped skips.arranged <|
      List.forall_mem_cons.mpr ⟨Nat.le_of_eq start.symm, fun u there =>
        Nat.le_trans (Nat.le_of_lt starts) (behind u there)⟩
    have token : InPlace k (t :: ts) (own ++ (TokenStream.extraneous? outcome).toList) :=
      start ▸ .of_remarked remarked reads.read fun u there =>
        Nat.lt_of_lt_of_le (start ▸ starts) (behind u there)
    have after : InPlace m (t :: ts) rs := inPlace.cons (start ▸ starts)
    refine skipped.append (token.append after (fun r member => ?_) (Nat.le_of_lt starts))
      (fun r member => (skips.arranged.startOffset_bounds r member).2) skips.arranged.tiles.le
    rw [remarked.startOffset_eq r member, start]
    exact starts

/-- With as many steps as there are characters ahead, and one more, the lexer comes to the end of
the text unless it has to give up. -/
theorem run_reads {fuel : Nat} (stands : l.StandsAt text n) (enough : text.length - n < fuel)
    (succeeds : ((run fuel l).map (·.1)).findSome? TokenStream.failure? = none) :
    ∃ ts es, ReadsAll text n l (run fuel l) ts es := by
  -- Every step but the last reads a token, which is not empty, so fewer characters are ahead of the
  -- lexer than it has steps left.
  induction fuel generalizing l n with
  | zero => omega
  | succ fuel ih =>
    rw [run] at succeeds ⊢
    obtain ⟨f, deep, -⟩ | ⟨k, es, ps, outcome, after, between, next, skips, ends | goesOn⟩ :=
      next_reads stands
    · simp [deep, LexOutcome.isFinal, TokenStream.failure?] at succeeds
    · obtain ⟨rfl, rfl, rfl⟩ := ends
      rw [next]
      exact ⟨_, es, ReadsAll.ended_here skips⟩
    · obtain ⟨m, t, on, reads⟩ := goesOn
      have before := skips.arranged.tiles.le
      have inside := reads.stands.inside
      have goes := reads.goesOn
      simp only [next, goes] at succeeds ⊢
      have later : ((run fuel after).map (·.1)).findSome? TokenStream.failure? = none := by
        simp only [Bool.false_eq_true, if_false, List.map_cons, List.findSome?_cons] at succeeds
        split at succeeds
        · cases succeeds
        · exact succeeds
      obtain ⟨ts, later, rest⟩ := ih reads.stands (by omega) later
      obtain ⟨all, read⟩ := rest.cons skips reads
      exact ⟨_, all, read⟩

/-- The lexer gives up at a place of the text. -/
theorem run_givesUp {fuel : Nat} {f : TooDeep} (stands : l.StandsAt text n)
    (failed : ((run fuel l).map (·.1)).findSome? TokenStream.failure? = some f) :
    (Span.single f.position).IsApartIn text := by
  induction fuel generalizing l n with
  | zero => cases failed
  | succ fuel ih =>
    rw [run] at failed
    obtain ⟨g, deep, place⟩ | ⟨k, es, ps, outcome, after, between, next, skips, ends | goesOn⟩ :=
      next_reads stands
    · simp only [deep, LexOutcome.isFinal, TokenStream.failure?, if_true, List.map_cons,
        List.findSome?_cons, Option.some.injEq] at failed
      exact failed ▸ place
    · obtain ⟨rfl, rfl, rfl⟩ := ends
      simp [next, Token.endOfInput, LexOutcome.isFinal, TokenStream.failure?] at failed
    · obtain ⟨m, t, on, reads⟩ := goesOn
      have goes := reads.goesOn
      have fine : TokenStream.failure? outcome = none := by
        cases outcome with
        | tooDeep g => cases goes
        | token | unmatched => rfl
      simp only [next, goes, Bool.false_eq_true, if_false, List.map_cons, List.findSome?_cons,
        fine] at failed
      exact ih reads.stands failed

end Lexer

end XuleLang
