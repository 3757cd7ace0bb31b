import XuleLang.Proofs.Token.Reading

/-!
Lexing loses nothing.

The tokens of a text, with the characters that begin none, make it up again, and every place that
is told of a token or a complaint is the one that counting from the start of the text gives. This
is so with markers between the tokens that touch and without them.
-/

namespace XuleLang

/-- The tokens and complaints of a stream are all of a text. The tokens, in their order, and the
characters that were complained of as unrecognized, in theirs, tile the text and make it up again.
A token has the characters that its span covers, and only the end of the text and markers have
none; the end of the text stands at its end and nowhere else. All spans are those that counting
from the start of the text gives. -/
structure TokenStream.IsLossless (s : TokenStream) (text : List Char) : Prop where
  pieces : ∃ ps : List Piece, ps.filterMap Piece.token? = s.tokens ∧
    ps.filterMap Piece.complaint? = s.complaints.filter SyntaxError.isUnrecognized ∧
    ps.flatMap Piece.chars = text ∧ Tiles 0 ps text.length
  token : ∀ t ∈ s.tokens, t.span.IsIn text ∧ t.text.toList = cut text t.span
  empty : ∀ t ∈ s.tokens, t.text = "" ↔ t.kind = .endOfInput ∨ t.channel = .marker
  ended : ∃ front last, s.tokens = front ++ [last] ∧ last.kind = .endOfInput ∧
    last.span = .single (positionAt text text.length) ∧ ∀ t ∈ front, t.kind ≠ .endOfInput
  complaint : ∀ e ∈ s.complaints, ∃ span, e.span = some span ∧ span.IsIn text

variable {text : List Char} {s : TokenStream}

/-- What a stream is made of, if the text could be read. Whether it can does not depend on what is
put among its tokens, and its complaints do not either. -/
theorem TokenStream.ofSteps_eq_ok {arrange : List Token → List Token}
    (read : ofSteps arrange (Lexer.steps text) = .ok s) :
    ∃ ts es, Lexer.ReadsAll text 0 (.ofText text) (Lexer.steps text) ts es ∧
      s.tokens = numbered (arrange ts) ∧
      s.complaints =
        Located.sort (es ++ ((Lexer.steps text).map (·.1)).filterMap extraneous?) ∧
      ∀ place, ofSteps place (Lexer.steps text) = .ok ⟨numbered (place ts), s.complaints⟩ := by
  cases succeeds : ((Lexer.steps text).map (·.1)).findSome? failure? with
  | some f => simp [ofSteps, succeeds] at read
  | none =>
    obtain ⟨ts, es, all⟩ := Lexer.run_reads .ofText (by omega) succeeds
    obtain ⟨last, final, said⟩ := all.final
    have remarks : (((Lexer.steps text).getLast?.map
        fun step => step.2.complaints.reverse).getD []) = es := by
      rw [Lexer.steps, final]
      simp [said, Lexer.ofText]
    have outcomes : ((Lexer.steps text).map (·.1)).filterMap LexOutcome.token? = ts := all.outcomes
    simp only [ofSteps, succeeds, remarks, outcomes] at read ⊢
    cases read
    exact ⟨ts, es, all, rfl, rfl, fun _ => rfl⟩

/-! ## Both readings of a text -/

/-- A source comes to the end of its text and hands out the stream of the lexer's steps, or fails
where the lexer does. -/
theorem TokenSource.stream_eq (marksSeams : Bool) (text : List Char) : stream marksSeams text =
    TokenStream.ofSteps (if marksSeams then withSeams else id) (Lexer.steps text) := by
  cases succeeds : ((Lexer.steps text).map (·.1)).findSome? TokenStream.failure? with
  | some f =>
    have failed := drain_run_error (s := ofText marksSeams text) _ 0 rfl succeeds (Nat.le_refl _)
    rw [stream, failed, TokenStream.ofSteps, succeeds]
    rfl
  | none =>
    obtain ⟨ts, es, all⟩ := Lexer.run_reads .ofText (by omega) succeeds
    obtain ⟨front, ended, -⟩ := all.ended
    have last : (((Lexer.steps text).map (·.1)).filterMap
        LexOutcome.token?).getLast?.map (·.kind) = some .endOfInput := by
      rw [Lexer.steps, all.outcomes, ended, List.getLast?_concat]
      rfl
    have drained := drain_run (s := ofText marksSeams text) _ 0 rfl succeeds last (Nat.le_refl _)
    have arranged : handedOutBehind marksSeams none = if marksSeams then withSeams else id := by
      funext ts
      cases marksSeams <;> exact handedOutBehind_none _ ts
    have own : ((ofText marksSeams text).past (Lexer.steps text)).lexer.complaints.reverse =
        ((Lexer.steps text).getLast?.map fun step => step.2.complaints.reverse).getD [] := by
      rw [lexer_past]
      cases (Lexer.steps text).getLast? <;> rfl
    have braces : ((ofText marksSeams text).past (Lexer.steps text)).complaints.reverse =
        ((Lexer.steps text).map (·.1)).filterMap TokenStream.extraneous? :=
      complaints_past _ _
    rw [numberedFrom_zero] at drained
    rw [stream, drained, TokenStream.ofSteps, succeeds, ← arranged, ← own, ← braces]
    rfl

theorem tokenize_eq (text : List Char) :
    tokenize text = TokenStream.ofSteps id (Lexer.steps text) :=
  TokenSource.stream_eq false text

theorem tokenizeWithSeams_eq (text : List Char) :
    tokenizeWithSeams text = TokenStream.ofSteps withSeams (Lexer.steps text) :=
  TokenSource.stream_eq true text

theorem ofSteps_of_tokenize (read : tokenize text = .ok s) :
    TokenStream.ofSteps id (Lexer.steps text) = .ok s :=
  (tokenize_eq text).symm.trans read

theorem ofSteps_of_tokenizeWithSeams (read : tokenizeWithSeams text = .ok s) :
    TokenStream.ofSteps withSeams (Lexer.steps text) = .ok s :=
  (tokenizeWithSeams_eq text).symm.trans read

/-! ## Numbers and markers -/

/-- A token without its number. -/
def Token.unnumbered (t : Token) : Token := { t with index := 0 }

theorem numbered_unnumbered (ts : List Token) :
    numbered (ts.map Token.unnumbered) = numbered ts := by
  refine List.ext_getElem? fun i => ?_
  simp only [numbered, List.getElem?_map, List.getElem?_mapIdx, Option.map_map]
  rfl

@[simp] theorem unnumbered_numbered (ts : List Token) :
    (numbered ts).map Token.unnumbered = ts.map Token.unnumbered := by
  refine List.ext_getElem? fun i => ?_
  simp only [numbered, List.getElem?_map, List.getElem?_mapIdx, Option.map_map]
  rfl

theorem mem_numbered {t : Token} {ts : List Token} (member : t ∈ numbered ts) :
    ∃ u ∈ ts, t = { u with index := t.index } := by
  obtain ⟨i, bound, rfl⟩ := List.mem_mapIdx.mp member
  exact ⟨ts[i], List.getElem_mem bound, rfl⟩

/-- Leaving out markers and numbering anew forgets the numbers from before. -/
theorem numbered_filter_numbered (ts : List Token) :
    numbered ((numbered ts).filter (·.channel != .marker)) =
      numbered (ts.filter (·.channel != .marker)) := by
  have same (us : List Token) : (us.filter (·.channel != .marker)).map Token.unnumbered =
      (us.map Token.unnumbered).filter (·.channel != .marker) := by
    simp [List.filter_map, Function.comp_def, Token.unnumbered]
  rw [← numbered_unnumbered, same, unnumbered_numbered, ← same, numbered_unnumbered]

/-- No marker stands before the end of the text. -/
theorem withSeams_append_endOfInput {last : Token} (ends : last.kind = .endOfInput)
    (front : List Token) : ∃ marked, withSeams (front ++ [last]) = marked ++ [last] ∧
      ∀ t ∈ marked, t ∈ front ∨ ∃ u ∈ front, t = .seam u.span.start := by
  induction front with
  | nil => exact ⟨[], rfl, by simp⟩
  | cons a front ih =>
    obtain ⟨marked, same, members⟩ := ih
    have kept : ∀ t ∈ marked, t ∈ a :: front ∨ ∃ u ∈ a :: front, t = .seam u.span.start := by
      intro t member
      rcases members t member with there | ⟨u, there, rfl⟩
      · exact .inl (List.mem_cons_of_mem a there)
      · exact .inr ⟨u, List.mem_cons_of_mem a there, rfl⟩
    cases front with
    | nil =>
      have apart : ¬a.Touches last := fun touches => touches.2.2.1 ends
      exact ⟨[a], by simp [withSeams, apart], by simp⟩
    | cons b front =>
      simp only [List.cons_append] at same ⊢
      rw [withSeams]
      split
      · refine ⟨a :: .seam b.span.start :: marked, by simp [same], ?_⟩
        simpa using kept
      · exact ⟨a :: marked, by simp [same], by simpa using kept⟩

/-- Without the markers the tokens are those that were read. -/
theorem filter_withSeams {ts : List Token} (noMarkers : ∀ t ∈ ts, t.channel ≠ .marker) :
    (withSeams ts).filter (·.channel != .marker) = ts := by
  fun_induction withSeams ts <;> simp_all [Token.seam]

/-! ## Losslessness -/

/-- What is in front of the token for the end of the text, where markers were put among the tokens
that were read. -/
structure Arranges (arrange : List Token → List Token) : Prop where
  pieces : ∀ {text m n ts es ps}, Arrangement text m n ts es ps →
    ∃ qs, Arrangement text m n (arrange ts) es qs
  ended : ∀ last : Token, last.kind = .endOfInput → ∀ front,
    ∃ marked, arrange (front ++ [last]) = marked ++ [last] ∧
      ∀ t ∈ marked, t ∈ front ∨ ∃ u ∈ front, t = .seam u.span.start
  unmarked : ∀ {ts : List Token}, (∀ t ∈ ts, t.channel ≠ .marker) →
    (arrange ts).filter (·.channel != .marker) = ts

theorem arranges_id : Arranges id :=
  { pieces := fun arranged => ⟨_, arranged⟩
    ended := fun _ _ front => ⟨front, rfl, fun _ => .inl⟩
    unmarked := fun noMarkers => by simpa using noMarkers }

theorem arranges_withSeams : Arranges withSeams :=
  { pieces := fun arranged => arranged.withSeams
    ended := fun _ => withSeams_append_endOfInput
    unmarked := filter_withSeams }

/-- A token that was read has no characters only at the end of the text. -/
theorem Token.IsReadFrom.text_eq_empty {t : Token} (read : t.IsReadFrom text) :
    t.text = "" ↔ t.kind = .endOfInput := by
  constructor
  · intro empty
    refine Decidable.byContradiction fun inside => ?_
    have some := read.some inside
    have counted := read.piece.length_chars
    simp only [Piece.chars, Piece.span, empty, String.toList_empty, List.length_nil] at counted
    omega
  · intro ends
    rw [read.stop ends]
    rfl

/-- A token that was read is no marker. -/
theorem Token.IsReadFrom.channel_ne_marker {t : Token} (read : t.IsReadFrom text) :
    t.channel ≠ .marker := by
  rw [read.channel]
  split <;> exact nofun

/-- The complaints of closing braces are about places of the text. -/
theorem TokenStream.extraneous_located {ts : List Token} {outcomes : List LexOutcome}
    (tokens : outcomes.filterMap LexOutcome.token? = ts) (read : ∀ t ∈ ts, t.IsReadFrom text) :
    ∀ e ∈ outcomes.filterMap extraneous?, e.isUnrecognized = false ∧
      ∃ span, e.span = some span ∧ span.IsApartIn text := by
  intro e member
  obtain ⟨outcome, there, said⟩ := List.mem_filterMap.mp member
  cases outcome with
  | token t => cases said
  | tooDeep f => cases said
  | unmatched t =>
    cases said
    have found : t ∈ ts := by
      rw [← tokens]
      exact List.mem_filterMap.mpr ⟨_, there, rfl⟩
    exact ⟨rfl, t.span, rfl, (read t found).piece.span⟩

/-- A numbered token was read, but for its number, or is a marker. -/
def Token.IsPlaced (t : Token) (text : List Char) : Prop :=
  ∃ u : Token, t = { u with index := t.index } ∧ (u.IsReadFrom text ∨ ∃ p, u = .seam p)

/-- The tokens of a stream tile the text with what begins none, and the end stands behind all of
them. -/
theorem Arranges.placed {arrange : List Token → List Token} (arranges : Arranges arrange)
    {l : Lexer} {steps : List (LexOutcome × Lexer)} {ts : List Token} {es : List SyntaxError}
    (all : Lexer.ReadsAll text 0 l steps ts es) :
    ∃ marked ps, numbered (arrange ts) = numbered marked ++
        [{ Token.endOfInput (positionAt text text.length) with index := marked.length }] ∧
      Arrangement text 0 text.length (numbered (arrange ts))
        (es.filter SyntaxError.isUnrecognized) ps ∧
      ∀ t ∈ numbered marked, t.kind ≠ .endOfInput ∧ t.IsPlaced text := by
  obtain ⟨ps, arranged⟩ := all.arranged
  obtain ⟨front, ts_eq, inside⟩ := all.ended
  obtain ⟨marked, arrange_eq, members⟩ := arranges.ended
    (.endOfInput (positionAt text text.length)) rfl front
  rw [← ts_eq] at arrange_eq
  obtain ⟨qs, placed⟩ := arranges.pieces arranged
  obtain ⟨rs, numbers⟩ := placed.mapIdx (f := fun i t => { t with index := i })
    (fun _ _ => rfl) (fun _ _ => rfl)
  refine ⟨marked, rs, ?_, numbers, ?_⟩
  · rw [arrange_eq, numbered, List.mapIdx_concat]
    rfl
  · intro t member
    obtain ⟨u, placed, same⟩ := mem_numbered member
    have kind_eq : t.kind = u.kind := by rw [same]
    rw [kind_eq]
    rcases members u placed with there | ⟨v, -, rfl⟩
    · exact ⟨inside u there, u, same, .inl (all.read u (by simp [ts_eq, there]))⟩
    · exact ⟨(fun ended => by cases ended), _, same, .inr ⟨_, rfl⟩⟩

/-- Complaints are about stretches of the text that take no line break apart. -/
theorem TokenStream.complaint_isApartIn {arrange : List Token → List Token}
    (read : ofSteps arrange (Lexer.steps text) = .ok s) :
    ∀ e ∈ s.complaints, ∃ span, e.span = some span ∧ span.IsApartIn text := by
  obtain ⟨ts, es, all, -, complaints, -⟩ := ofSteps_eq_ok read
  intro e member
  rw [complaints] at member
  rcases List.mem_append.mp ((List.mergeSort_perm _ _).mem_iff.mp member) with own | brace
  · exact all.located e own
  · exact (extraneous_located all.outcomes all.read e brace).2

/-- Tokens, and markers among them, take no line break apart. -/
theorem TokenStream.token_isApartIn {arrange : List Token → List Token}
    (arranges : Arranges arrange) (read : ofSteps arrange (Lexer.steps text) = .ok s) :
    ∀ t ∈ s.tokens, t.span.IsApartIn text := by
  obtain ⟨ts, es, all, tokens, -, -⟩ := ofSteps_eq_ok read
  obtain ⟨marked, ps, -, placed, -⟩ := arranges.placed all
  rw [tokens]
  exact fun t member => (placed.isCutFrom member).span

/-- A text that cannot be read is given up at a place of it. -/
theorem TokenStream.failure_isApartIn {arrange : List Token → List Token} {f : TooDeep}
    (failed : ofSteps arrange (Lexer.steps text) = .error f) :
    (Span.single f.position).IsApartIn text := by
  cases found : ((Lexer.steps text).map (·.1)).findSome? failure? with
  | none => simp [ofSteps, found] at failed
  | some g =>
    simp only [ofSteps, found, Except.error.injEq] at failed
    exact failed ▸ Lexer.run_givesUp .ofText found

/-- A stream whose text could be read loses nothing. -/
theorem TokenStream.isLossless_of_ofSteps {arrange : List Token → List Token}
    (arranges : Arranges arrange) (read : ofSteps arrange (Lexer.steps text) = .ok s) :
    s.IsLossless text := by
  obtain ⟨ts, es, all, tokens, complaints, -⟩ := ofSteps_eq_ok read
  obtain ⟨ps, arranged⟩ := all.arranged
  obtain ⟨marked, qs, tokens_eq, placed, members⟩ := arranges.placed all
  rw [← tokens] at tokens_eq placed
  have braces := extraneous_located all.outcomes all.read
  -- Complaints are sorted by place, and those of unrecognized characters are in order before.
  have unrecognized : s.complaints.filter SyntaxError.isUnrecognized =
      es.filter SyntaxError.isUnrecognized := by
    have none : (((Lexer.steps text).map (·.1)).filterMap extraneous?).filter
        SyntaxError.isUnrecognized = [] := by
      rw [List.filter_eq_nil_iff]
      intro e member
      simp [(braces e member).1]
    have only : (es ++ ((Lexer.steps text).map (·.1)).filterMap extraneous?).filter
        SyntaxError.isUnrecognized = es.filter SyntaxError.isUnrecognized := by
      rw [List.filter_append, none, List.append_nil]
    rw [complaints, Located.filter_sort (only ▸ arranged.inOrder.imp Nat.le_of_lt), only]
  refine { pieces := ⟨qs, placed.tokens, ?_, ?_, placed.tiles⟩, token := ?_, empty := ?_
           ended := ⟨numbered marked, _, tokens_eq, rfl, rfl, fun t member => (members t member).1⟩
           complaint := ?_ }
  · rw [placed.complaints, unrecognized]
  · simpa using placed.tiles.flatMap_chars placed.fromText
  · intro t member
    have piece := placed.isCutFrom member
    exact ⟨piece.span.toIsIn, piece.chars⟩
  · intro t member
    rw [tokens_eq, List.mem_append, List.mem_singleton] at member
    rcases member with early | rfl
    · obtain ⟨-, u, same, there⟩ := members t early
      have text_eq : t.text = u.text := by rw [same]
      have kind_eq : t.kind = u.kind := by rw [same]
      have channel_eq : t.channel = u.channel := by rw [same]
      rw [text_eq, kind_eq, channel_eq]
      rcases there with read | ⟨p, rfl⟩
      · rw [read.text_eq_empty]
        exact ⟨.inl, fun h => h.resolve_right read.channel_ne_marker⟩
      · exact ⟨fun _ => .inr rfl, fun _ => rfl⟩
    · exact ⟨fun _ => .inl rfl, fun _ => rfl⟩
  · intro e member
    obtain ⟨span, about, apart⟩ := complaint_isApartIn read e member
    exact ⟨span, about, apart.toIsIn⟩

/-- **Lexing loses nothing.** If a text can be read into tokens, its tokens and the characters that
begin none make it up again, one behind the other, and all that is told of places in it is what
counting from its start gives. It can then be read with markers too, where the same holds; but for
the markers, which are empty, its tokens are the same, and so are the complaints. -/
theorem lexing_is_lossless (read : tokenize text = .ok s) :
    s.IsLossless text ∧ (∀ t ∈ s.tokens, t.channel ≠ .marker) ∧
    ∃ marked, tokenizeWithSeams text = .ok marked ∧ marked.IsLossless text ∧
      numbered (marked.tokens.filter (·.channel != .marker)) = s.tokens ∧
      marked.complaints = s.complaints := by
  have read := ofSteps_of_tokenize read
  have plain := TokenStream.isLossless_of_ofSteps arranges_id read
  obtain ⟨ts, es, all, tokens, -, others⟩ := TokenStream.ofSteps_eq_ok read
  have noMarkers : ∀ t ∈ ts, t.channel ≠ .marker := fun t member =>
    (all.read t member).channel_ne_marker
  refine ⟨plain, ?_, ?_⟩
  · intro t member
    rw [tokens] at member
    obtain ⟨u, there, same⟩ := mem_numbered member
    have channel : t.channel = u.channel := by rw [same]
    exact channel ▸ noMarkers u there
  · let marked : TokenStream := ⟨numbered (withSeams ts), s.complaints⟩
    refine ⟨marked, (tokenizeWithSeams_eq text).trans (others withSeams),
      TokenStream.isLossless_of_ofSteps arranges_withSeams (others withSeams), ?_, rfl⟩
    rw [numbered_filter_numbered, filter_withSeams noMarkers, tokens]
    rfl

/-- A character that begins no token, a line break of two characters inside a string literal with
a block in it, a brace too many, a lone carriage return and a comment without its end. -/
def faultyText : List Char := "a€\"\r\n\x7bb\x7d\"\x7d+\r/*".toList

/-- A text with faults of every kind loses nothing either. -/
theorem faulty_text_loses_nothing : ∃ s marked, tokenize faultyText = .ok s ∧
    tokenizeWithSeams faultyText = .ok marked ∧
    s.tokens.map (·.span.start.offset) = [0, 2, 3, 5, 6, 7, 8, 9, 10, 11, 12, 14] ∧
    s.IsLossless faultyText ∧ marked.IsLossless faultyText := by
  have starts : (tokenize faultyText).toOption.map (·.tokens.map (·.span.start.offset)) =
      some [0, 2, 3, 5, 6, 7, 8, 9, 10, 11, 12, 14] := by decide +kernel
  cases read : tokenize faultyText with
  | error failure => simp [read, Except.toOption] at starts
  | ok s =>
    obtain ⟨lossless, -, marked, readMarked, losslessMarked, -⟩ := lexing_is_lossless read
    exact ⟨s, marked, rfl, readMarked, by simpa [read, Except.toOption] using starts, lossless,
      losslessMarked⟩

end XuleLang
