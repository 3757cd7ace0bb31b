import XuleLang.Proofs.Parser.Composition
import XuleLang.Proofs.Token.Visible
import XuleLang.Source.File

/-!
A place is complained of once.

The lexer complains of characters that begin no token, of comments without end and of closing braces
where nothing is open. It does so once for a piece of the text, at its start. The parser complains
of visible tokens, of each once at most and in their order, since it tells the last complaint by
where it starts. Of all tokens that the parser sees only braces have been complained of before, so
that both may find fault with the same place; what the parser says there is left out. The complaints
about a text can therefore be put in order by where they start, and no two start at one place.
-/

namespace XuleLang

variable {text : List Char} {tokens ts us : List Token} {s : TokenStream} {rs : List SyntaxError}

/-! ## The order of remarks -/

/-- Remarks about different places are strictly in order once they are sorted. -/
theorem Located.sort_pairwise {α : Type} {rs : List (Located α)}
    (apart : (rs.map Located.startOffset).Nodup) :
    (sort rs).Pairwise fun a b => a.startOffset < b.startOffset := by
  have sorted : (sort rs).Pairwise fun a b => a.startOffset ≤ b.startOffset := by
    refine (List.pairwise_mergeSort (fun a b c => ?_) (fun a b => ?_) rs).imp of_decide_eq_true
    · simp only [decide_eq_true_eq]
      exact Nat.le_trans
    · simp only [Bool.or_eq_true, decide_eq_true_eq]
      exact Nat.le_total _ _
  have different : (sort rs).Pairwise fun a b => a.startOffset ≠ b.startOffset :=
    List.pairwise_map.mp (((List.mergeSort_perm rs _).map Located.startOffset).nodup_iff.mpr apart)
  exact sorted.imp₂ (fun a b => Nat.lt_of_le_of_ne) different

/-! ## Complaints of the lexer -/

/-- What is visible in a stream is what is visible of the tokens that were read, but for its
numbers. -/
theorem Arranges.visible_numbered {arrange : List Token → List Token} (arranges : Arranges arrange)
    (noMarkers : ∀ t ∈ ts, t.channel ≠ .marker) :
    (visibleTokens (numbered (arrange ts))).map Token.unnumbered =
      (visibleTokens ts).map Token.unnumbered := by
  have same (us : List Token) : (visibleTokens us).map Token.unnumbered =
      visibleTokens (us.map Token.unnumbered) :=
    (List.filter_map (p := Token.isVisible) (f := Token.unnumbered)).symm
  have seen : visibleTokens (arrange ts) = visibleTokens ts := by
    conv => rhs; rw [← arranges.unmarked noMarkers]
    rw [visibleTokens, visibleTokens, List.filter_filter]
    refine List.filter_congr fun t _ => ?_
    cases here : t.channel <;> simp [Token.isVisible, here]
  rw [same, unnumbered_numbered, ← same, seen]

theorem unnumbered_eq_iff {t u : Token} : t.unnumbered = u.unnumbered ↔
    t.kind = u.kind ∧ t.text = u.text ∧ t.span = u.span ∧ t.channel = u.channel := by
  simp [Token.unnumbered]

/-- Numbers are of no account to where remarks are, and tokens that are not visible are neither. -/
theorem Lexer.InPlace.of_unnumbered {n : Nat} (inPlace : InPlace n ts rs)
    (same : us.map Token.unnumbered = (visibleTokens ts).map Token.unnumbered) :
    InPlace n us rs :=
  { behind := inPlace.behind
    inOrder := inPlace.inOrder
    apart := by
      intro r member t there visible here
      obtain ⟨u, seen, alike⟩ := List.mem_map.mp (same ▸ List.mem_map_of_mem there)
      obtain ⟨-, -, span, channel⟩ := unnumbered_eq_iff.mp alike
      obtain ⟨there, visible⟩ := List.mem_filter.mp seen
      rw [← span] at here ⊢
      exact inPlace.apart r member u there visible here
    brace := by
      intro r member braces
      obtain ⟨u, there, visible, kind, span⟩ := inPlace.brace r member braces
      have seen := List.mem_map_of_mem (f := Token.unnumbered)
        (List.mem_filter.mpr ⟨there, visible⟩)
      obtain ⟨t, found, alike⟩ := List.mem_map.mp (same.symm ▸ seen)
      obtain ⟨kind_eq, -, span_eq, channel⟩ := unnumbered_eq_iff.mp alike
      rw [Token.isVisible, ← channel] at visible
      exact ⟨t, found, visible, kind_eq.trans kind, span_eq ▸ span⟩ }

/-- The lexer complains of a place once, and of the visible tokens it complains of stray braces
only. -/
theorem TokenStream.complaints_inPlace {arrange : List Token → List Token}
    (arranges : Arranges arrange) (read : ofSteps arrange (Lexer.steps text) = .ok s) :
    Lexer.InPlace 0 (visibleTokens s.tokens) s.complaints := by
  obtain ⟨ts, es, all, tokens, complaints, -⟩ := ofSteps_eq_ok read
  obtain ⟨rs, permuted, inPlace⟩ := all.remarks
  have visible := arranges.visible_numbered fun t member => (all.read t member).channel_ne_marker
  rw [← tokens] at visible
  have inPlace := inPlace.of_unnumbered visible
  have sorted : s.complaints.Perm rs := by
    rw [complaints]
    exact (List.mergeSort_perm _ _).trans permuted.symm
  have apart : (rs.map Located.startOffset).Nodup :=
    List.pairwise_map.mpr (inPlace.inOrder.imp Nat.ne_of_lt)
  exact
    { behind := fun r member => inPlace.behind r (sorted.mem_iff.mp member)
      inOrder := by
        rw [complaints]
        exact Located.sort_pairwise ((permuted.map Located.startOffset).nodup_iff.mp apart)
      apart := fun r member => inPlace.apart r (sorted.mem_iff.mp member)
      brace := fun r member => inPlace.brace r (sorted.mem_iff.mp member) }

/-! ## Complaints of the parser -/

/-- The complaints are about some of the tokens, about each once at most and in their order. -/
def AreAbout (visible : List Token) (es : List SyntaxError) : Prop :=
  ∃ us : List Token, us.Sublist visible ∧ es.map (·.span) = us.map (some ·.span)

theorem AreAbout.exists_token {visible : List Token} {es : List SyntaxError}
    (about : AreAbout visible es) : ∀ e ∈ es, ∃ t ∈ visible, e.span = some t.span := by
  obtain ⟨us, fewer, spans⟩ := about
  intro e member
  have listed : e.span ∈ us.map (some ·.span) := spans ▸ List.mem_map_of_mem member
  obtain ⟨t, there, same⟩ := List.mem_map.mp listed
  exact ⟨t, fewer.subset there, same.symm⟩

namespace ParserState

/-- The tokens that were complained of are some of those that were read and the one ahead, each once
and in their order. -/
def ComplainsOf (s : ParserState) (visible : List Token) : Prop :=
  EndsOnce s.rest ∧ ∃ read us : List Token, visible = read ++ s.rest ∧
    us.Sublist (read ++ s.rest.head?.toList) ∧
    s.errors.reverse.map (·.span) = us.map (some ·.span)

variable {visible : List Token} {s t : ParserState}

theorem ComplainsOf.of_same (complains : s.ComplainsOf visible) (rest : t.rest = s.rest)
    (errors : t.errors = s.errors) : t.ComplainsOf visible := by
  rw [ComplainsOf, rest, errors]
  exact complains

/-- Reading leads on to a token of which nothing was said yet. -/
theorem ComplainsOf.bump (complains : s.ComplainsOf visible) : s.bump.ComplainsOf visible := by
  cases here : s.rest with
  | nil =>
    have still : s.bump = s := by simp [ParserState.bump, here]
    exact still.symm ▸ complains
  | cons t rest =>
    obtain ⟨u, same, -, read⟩ := bump_eq_settle here
    have errors : u.settle.errors = s.errors := u.settle_errors.trans same.errors
    rw [read]
    split
    case isTrue =>
      exact complains.of_same (u.settle_agrees.rest.trans same.rest) errors
    case isFalse inside =>
      obtain ⟨ends, before, us, visible_eq, fewer, spans⟩ := complains
      rw [here] at ends visible_eq fewer
      refine ⟨ends.tail inside, before ++ [t], us, by rw [visible_eq, List.append_cons],
        fewer.trans (List.sublist_append_left _ _), ?_⟩
      rw [← errors] at spans
      exact spans

/-- The last complaint was about the token ahead, or there is none about it. -/
theorem ComplainsOf.complain (complains : s.ComplainsOf visible) (c : Complaint) :
    (s.complain c).ComplainsOf visible := by
  have settled : s.settle.ComplainsOf visible :=
    complains.of_same s.settle_agrees.rest s.settle_errors
  unfold ParserState.complain
  dsimp only
  split
  case isTrue => exact settled
  case isFalse fresh =>
    obtain ⟨ends, before, us, visible_eq, fewer, spans⟩ := settled
    obtain ⟨t, rest, here⟩ : ∃ t rest, s.settle.rest = t :: rest := by
      obtain ⟨front, last, rest_eq, -⟩ := ends
      cases front with
      | nil => exact ⟨last, [], rest_eq⟩
      | cons f front => exact ⟨f, front ++ [last], rest_eq⟩
    have ahead : s.settle.span = t.span := by simp [span, here]
    refine ⟨ends, before, us ++ [t], visible_eq, ?_, by simp [spans, ahead]⟩
    rw [here] at fewer ⊢
    -- Nothing was said of the token ahead, since that would have been said last.
    obtain ⟨early, late, rfl, early_fewer, late_fewer⟩ := List.sublist_append_iff.mp fewer
    cases late with
    | nil =>
      rw [List.append_nil]
      exact early_fewer.append (.refl _)
    | cons u late =>
      obtain ⟨rfl, rfl⟩ : u = t ∧ late = [] := by simpa using late_fewer.eq_of_length_le (by simp)
      have last := congrArg List.getLast? spans
      obtain ⟨e, latest, about⟩ : ∃ e, s.settle.errors.head? = some e ∧ e.span = some u.span := by
        simpa using last
      simp [latest, about, ahead] at fresh

/-- Every operation keeps to it. -/
theorem kept_complainsOf (visible : List Token) : Kept (ComplainsOf · visible) := by
  intro f op s complains
  cases op with
  | note kinds rules =>
    exact complains.of_same (s.note_agrees kinds rules).rest (s.note_errors kinds rules)
  | bump => exact complains.bump
  | complain c => exact complains.complain c
  | overrun => exact complains
  | start r =>
    obtain ⟨u, started, same, -⟩ := s.start_eq_note r
    change (s.start r).ComplainsOf visible
    rw [started]
    exact (complains.of_same same.rest same.errors).of_same (u.note_agrees [] []).rest
      (u.note_errors [] [])
  | wrap r =>
    obtain ⟨u, wrapped, same, -⟩ := s.wrap_eq_note r
    change (s.wrap r).ComplainsOf visible
    rw [wrapped]
    exact (complains.of_same same.rest same.errors).of_same (u.note_agrees [] []).rest
      (u.note_errors [] [])
  | finish => exact complains.of_same s.finish_reseen.1.rest s.finish_reseen.1.errors

theorem ComplainsOf.areAbout (complains : s.ComplainsOf visible) :
    AreAbout visible s.errors.reverse := by
  obtain ⟨-, read, us, rfl, fewer, spans⟩ := complains
  have ahead : s.rest.head?.toList.Sublist s.rest := by cases s.rest <;> simp
  exact ⟨us, fewer.trans ((List.Sublist.refl read).append ahead), spans⟩

end ParserState

/-- The parser complains of visible tokens, of each once at most and in their order. -/
theorem parse_complains_of_tokens (ends : EndsOnce (visibleTokens tokens)) :
    AreAbout (visibleTokens tokens) (parse tokens).errors := by
  have complains : (runFile tokens none).ComplainsOf (visibleTokens tokens) :=
    (Parser.wholeFile_alike.keeps (ParserState.kept_complainsOf (visibleTokens tokens))).1 _
      ⟨ends, [], [], rfl, List.nil_sublist _, rfl⟩
  have errors : (parse tokens).errors = (runFile tokens none).errors.reverse := rfl
  rw [errors]
  exact complains.areAbout

/-! ## Both together -/

/-- A visible token starts behind all that are before it. -/
theorem TokenStream.visible_starts {arrange : List Token → List Token}
    (arranges : Arranges arrange) (read : ofSteps arrange (Lexer.steps text) = .ok s) :
    (visibleTokens s.tokens).Pairwise fun a b => a.span.start.offset < b.span.start.offset := by
  obtain ⟨-, follow, front, last, visible, -, others⟩ := visible_of_ofSteps arranges read
  have lossless := isLossless_of_ofSteps arranges read
  have long : ∀ t ∈ front, t.span.start.offset < t.span.stop.offset := by
    intro t member
    have seen : t ∈ visibleTokens s.tokens := by simp [visible, member]
    obtain ⟨there, seen_here⟩ := List.mem_filter.mp seen
    have counted := (follow.piece t seen).length_chars
    have written : t.text ≠ "" := fun none =>
      ((lossless.empty t there).mp none).elim (others t member) fun marks => by
        simp [Token.isVisible, marks] at seen_here
    have some := List.length_pos_iff.mpr (mt String.toList_eq_nil_iff.mp written)
    simp only [Piece.chars, Piece.span] at counted
    omega
  have inOrder := follow.inOrder
  rw [visible, List.pairwise_append] at inOrder ⊢
  refine ⟨inOrder.1.imp_of_mem fun here _ before => Nat.lt_of_lt_of_le (long _ here) before,
    List.pairwise_singleton .., fun a here b there => ?_⟩
  exact Nat.lt_of_lt_of_le (long a here) (inOrder.2.2 a here b there)

/-- The stretches of the closing braces that were complained of. -/
def strayBraces (es : List SyntaxError) : List (Option Span) :=
  (es.filter (·.what == .extraneousBrace)).map (·.span)

/-- All complaints about a text, made up of those of the lexer and those of the parser. Each is
about a place, and they are in the order of these, no two about places that start at one offset.
Those of the lexer are all there, and those of the parser unless they are about a brace that the
lexer complained of. The parser complained of visible tokens, of each once at most and in their
order. -/
structure ComplaintsOf (visible : List Token) (lexer parser all : List SyntaxError) : Prop where
  located : ∀ e ∈ all, e.span.isSome
  inOrder : all.Pairwise fun a b => a.startOffset < b.startOffset
  both : all.Perm (lexer ++ parser.filter fun e => e.span ∉ strayBraces lexer)
  stray : ∀ span ∈ strayBraces lexer,
    ∃ t ∈ visible, t.kind = .punctuator .rbrace ∧ span = some t.span
  own : AreAbout visible parser
  nothing : all = [] ↔ lexer = [] ∧ parser = []

section Merge

variable {visible : List Token} {lexer parser : List SyntaxError} {e : SyntaxError}

theorem mem_strayBraces {span : Option Span} : span ∈ strayBraces lexer ↔
    ∃ e ∈ lexer, e.what = .extraneousBrace ∧ e.span = span := by
  simp [strayBraces, and_assoc]

/-- Where the lexer and the parser find fault with one place, a brace stands there. -/
theorem span_mem_strayBraces (inPlace : Lexer.InPlace 0 visible lexer)
    (seen : ∀ t ∈ visible, t.isVisible = true) {t : Token} (there : t ∈ visible)
    (member : e ∈ lexer) (here : e.startOffset = t.span.start.offset) :
    some t.span ∈ strayBraces lexer := by
  obtain rfl := inPlace.apart e member t there (seen t there) here
  exact mem_strayBraces.mpr ⟨_, member, rfl, rfl⟩

/-- Of the complaints of the parser those are left out that are about stray braces. -/
theorem merge_eq (inPlace : Lexer.InPlace 0 visible lexer)
    (seen : ∀ t ∈ visible, t.isVisible = true)
    (own : ∀ e ∈ parser, ∃ t ∈ visible, e.span = some t.span) :
    Located.merge lexer parser =
      Located.sort (lexer ++ parser.filter fun e => e.span ∉ strayBraces lexer) := by
  refine congrArg (fun kept => Located.sort (lexer ++ kept)) (List.filter_congr fun e member => ?_)
  obtain ⟨t, there, about⟩ := own e member
  have reported : t.span ∈ lexer.filterMap (·.span) ↔ some t.span ∈ strayBraces lexer := by
    rw [List.mem_filterMap]
    constructor
    · rintro ⟨l, listed, same⟩
      exact span_mem_strayBraces inPlace seen there listed (by simp [Located.startOffset, same])
    · intro stray
      obtain ⟨l, listed, -, same⟩ := mem_strayBraces.mp stray
      exact ⟨l, listed, same⟩
  simp only [about, List.contains_eq_mem, reported, decide_not]

/-- Complaints that are about tokens in their order start at different offsets. -/
theorem startOffsets_nodup_of_tokens {us : List Token}
    (starts : us.Pairwise fun a b => a.span.start.offset < b.span.start.offset)
    (spans : parser.map (·.span) = us.map (some ·.span)) :
    (parser.map Located.startOffset).Nodup := by
  have places : parser.map Located.startOffset = us.map (·.span.start.offset) := by
    have started := congrArg (List.map fun span => (span.map (·.start.offset)).getD 0) spans
    rwa [List.map_map, List.map_map] at started
  rw [places]
  exact List.pairwise_map.mpr (starts.imp Nat.ne_of_lt)

/-- No two complaints that are kept start at one offset. -/
theorem startOffsets_nodup (inPlace : Lexer.InPlace 0 visible lexer)
    (seen : ∀ t ∈ visible, t.isVisible = true)
    (starts : visible.Pairwise fun a b => a.span.start.offset < b.span.start.offset)
    (own : AreAbout visible parser) :
    ((lexer ++ parser.filter fun e => e.span ∉ strayBraces lexer).map
      Located.startOffset).Nodup := by
  have about := own.exists_token
  obtain ⟨us, fewer, spans⟩ := own
  have first : (lexer.map Located.startOffset).Nodup :=
    List.pairwise_map.mpr (inPlace.inOrder.imp Nat.ne_of_lt)
  have second := startOffsets_nodup_of_tokens (starts.sublist fewer) spans
  rw [List.map_append]
  refine List.nodup_append.mpr ⟨first, second.sublist (List.filter_sublist.map _), ?_⟩
  rintro _ found _ kept rfl
  obtain ⟨l, listed, same⟩ := List.mem_map.mp found
  obtain ⟨e, member, rfl⟩ := List.mem_map.mp kept
  obtain ⟨member, fresh⟩ := List.mem_filter.mp member
  obtain ⟨t, there, same_span⟩ := about e member
  have stray := span_mem_strayBraces inPlace seen there listed
    (by rw [same, Located.startOffset, same_span]; rfl)
  rw [same_span] at fresh
  exact of_decide_eq_true fresh stray

theorem merge_complaintsOf (located : ∀ e ∈ lexer, e.span.isSome)
    (inPlace : Lexer.InPlace 0 visible lexer) (seen : ∀ t ∈ visible, t.isVisible = true)
    (starts : visible.Pairwise fun a b => a.span.start.offset < b.span.start.offset)
    (own : AreAbout visible parser) :
    ComplaintsOf visible lexer parser (Located.merge lexer parser) := by
  have about := own.exists_token
  have sorted : (Located.sort (lexer ++ parser.filter fun e => e.span ∉ strayBraces lexer)).Perm
      (lexer ++ parser.filter fun e => e.span ∉ strayBraces lexer) := List.mergeSort_perm ..
  rw [merge_eq inPlace seen about]
  exact
    { located := by
        intro e member
        rcases List.mem_append.mp (sorted.mem_iff.mp member) with first | second
        · exact located e first
        · obtain ⟨t, -, same⟩ := about e (List.mem_filter.mp second).1
          rw [same]
          rfl
      inOrder := Located.sort_pairwise (startOffsets_nodup inPlace seen starts own)
      both := sorted
      stray := by
        intro span listed
        obtain ⟨e, member, braces, rfl⟩ := mem_strayBraces.mp listed
        obtain ⟨t, there, -, kind, same⟩ := inPlace.brace e member braces
        exact ⟨t, there, kind, same⟩
      own := own
      nothing := by
        rw [← List.length_eq_zero_iff, sorted.length_eq, List.length_eq_zero_iff,
          List.append_eq_nil_iff]
        refine and_congr_right fun none => ?_
        simp [none, strayBraces, List.eq_nil_iff_forall_not_mem] }

end Merge

/-- **A place is complained of once.** If a text can be read into tokens, with markers or without
them, the complaints about it are in the order of the places where they start, and no two start at
one place. They are those of the lexer, and those of the parser but for the ones about a closing
brace that the lexer found to be too much. The parser complains of visible tokens, of each once at
most and in their order. There are no complaints just if neither has any. These are the complaints
of a file, be it imported or edited. -/
theorem places_are_complained_of_once
    (read : tokenize text = .ok s ∨ tokenizeWithSeams text = .ok s) :
    ComplaintsOf (visibleTokens s.tokens) s.complaints (parse s.tokens).errors
      (parseStream s).errors ∧
    ∀ origin, (tokenize text = .ok s →
        (RuleFile.imported? ⟨origin, text⟩).map (·.errors) = some (parseStream s).errors) ∧
      (tokenizeWithSeams text = .ok s →
        (RuleFile.edited ⟨origin, text⟩).errors = (parseStream s).errors) := by
  obtain ⟨arrange, arranges, steps⟩ : ∃ arrange, Arranges arrange ∧
      TokenStream.ofSteps arrange (Lexer.steps text) = .ok s :=
    read.elim (fun plain => ⟨id, arranges_id, ofSteps_of_tokenize plain⟩)
      fun seamed => ⟨withSeams, arranges_withSeams, ofSteps_of_tokenizeWithSeams seamed⟩
  obtain ⟨-, -, ends⟩ := TokenStream.visible_of_ofSteps arranges steps
  refine ⟨merge_complaintsOf (fun e member => ?_) (TokenStream.complaints_inPlace arranges steps)
    (fun t member => (List.mem_filter.mp member).2) (TokenStream.visible_starts arranges steps)
    (parse_complains_of_tokens ends), fun origin => ⟨fun plain => ?_, fun seamed => ?_⟩⟩
  · obtain ⟨span, about, -⟩ := (TokenStream.isLossless_of_ofSteps arranges steps).complaint e member
    rw [about]
    rfl
  · simp only [RuleFile.imported?, plain]
    rfl
  · simp only [RuleFile.edited, seamed]
    rfl

/-- A closing brace too many, and an equals sign for an expression. -/
def strayBraceText : List Char := "\x7d output a =".toList

/-- The lexer and the parser both complain of the brace, which is told once. -/
theorem stray_brace_is_complained_of_once : ∃ s, tokenizeWithSeams strayBraceText = .ok s ∧
    s.complaints.map Located.startOffset = [0] ∧
    (parse s.tokens).errors.map Located.startOffset = [0, 11] ∧
    (parseStream s).errors.length = 2 ∧
    ComplaintsOf (visibleTokens s.tokens) s.complaints (parse s.tokens).errors
      (parseStream s).errors := by
  have complaints : (tokenizeWithSeams strayBraceText).toOption.map (fun s =>
      (s.complaints.map Located.startOffset, (parse s.tokens).errors.map Located.startOffset,
        (parse s.tokens).errors.countP fun e => e.span ∉ strayBraces s.complaints)) =
      some ([0], [0, 11], 1) := by
    decide +kernel
  cases read : tokenizeWithSeams strayBraceText with
  | error failure => simp [read, Except.toOption] at complaints
  | ok s =>
    simp only [read, Except.toOption, Option.map_some, Option.some.injEq, Prod.mk.injEq]
      at complaints
    obtain ⟨lexer, parser, own⟩ := complaints
    have told := (places_are_complained_of_once (.inr read)).1
    refine ⟨s, rfl, lexer, parser, ?_, told⟩
    have first := congrArg List.length lexer
    rw [List.length_map] at first
    rw [told.both.length_eq, List.length_append, ← List.countP_eq_length_filter, first, own]
    rfl

end XuleLang
