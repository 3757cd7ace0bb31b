import XuleLang.Proofs.Token.Seams

/-!
Where markers stand.

A marker stands wherever one visible token touches the next, and nowhere else. What the recursion
puts in is told as a predicate on lists with a constructor for each of its cases; numbering does
not change it, and what it says of neighbours anywhere in a list goes by induction on it.
-/

namespace XuleLang

variable {ts before markers behind : List Token} {a b m : Token}

/-- The marker at a place, whatever its number. -/
def Token.IsMarkerAt (m : Token) (p : Position) : Prop := m.unnumbered = .seam p

theorem Token.IsMarkerAt.channel {p : Position} (marks : m.IsMarkerAt p) : m.channel = .marker :=
  congrArg Token.channel marks

/-! ## What the recursion puts in -/

/-- Tokens among which a marker stands behind each that touches the next, and behind no other. -/
inductive Marked : List Token → Prop where
  | nil : Marked []
  | last {a : Token} (read : a.channel ≠ .marker) : Marked [a]
  | apart {a b : Token} {ts : List Token} (read : a.channel ≠ .marker) (apart : ¬ a.Touches b)
      (others : Marked (b :: ts)) : Marked (a :: b :: ts)
  | seam {a m b : Token} {ts : List Token} (read : a.channel ≠ .marker) (touches : a.Touches b)
      (marks : m.IsMarkerAt b.span.start) (others : Marked (b :: ts)) : Marked (a :: m :: b :: ts)

/-- No marker stands at the front. -/
theorem Marked.head (marked : Marked (a :: ts)) : a.channel ≠ .marker := by
  cases marked <;> assumption

/-- Nothing is put before the first token. -/
theorem withSeams_cons (a : Token) (ts : List Token) : ∃ us, withSeams (a :: ts) = a :: us := by
  cases ts with
  | nil => exact ⟨[], rfl⟩
  | cons b ts =>
    rw [withSeams]
    split <;> exact ⟨_, rfl⟩

theorem withSeams_marked (noMarkers : ∀ t ∈ ts, t.channel ≠ .marker) : Marked (withSeams ts) := by
  fun_induction withSeams ts with
  | case1 => exact .nil
  | case2 a => exact .last (noMarkers a List.mem_cons_self)
  | case3 a b rest touches ih =>
    obtain ⟨read, others⟩ := List.forall_mem_cons.mp noMarkers
    obtain ⟨us, same⟩ := withSeams_cons b rest
    rw [same] at ih ⊢
    exact .seam read touches rfl (ih others)
  | case4 a b rest apart ih =>
    obtain ⟨read, others⟩ := List.forall_mem_cons.mp noMarkers
    obtain ⟨us, same⟩ := withSeams_cons b rest
    rw [same] at ih ⊢
    exact .apart read apart (ih others)

/-- Numbers say nothing about markers. -/
theorem Marked.renumber (marked : Marked ts) (place : Nat → Nat) :
    Marked (ts.mapIdx fun i t => { t with index := place i }) := by
  induction marked generalizing place with
  | nil => exact .nil
  | last read => exact .last read
  | apart read apart others ih =>
    have rest := ih fun i => place (i + 1)
    simp only [List.mapIdx_cons] at rest ⊢
    exact .apart read apart rest
  | seam read touches marks others ih =>
    have rest := ih fun i => place (i + 2)
    simp only [List.mapIdx_cons] at rest ⊢
    exact .seam read touches marks rest

/-! ## Neighbours anywhere -/

/-- What is so of all tokens, is so of those from one on that is no marker. -/
theorem Marked.of_append (marked : Marked (before ++ a :: behind)) (read : a.channel ≠ .marker) :
    Marked (a :: behind) := by
  generalize same : before ++ a :: behind = ts at marked
  induction marked generalizing before with
  | nil => simp at same
  | last other =>
    cases before with
    | nil => exact (List.nil_append _).symm.trans same ▸ .last other
    | cons c before => simp at same
  | apart other apart others ih =>
    cases before with
    | nil => exact (List.nil_append _).symm.trans same ▸ .apart other apart others
    | cons c before => exact ih (List.cons.inj same).2
  | seam other touches marks others ih =>
    match before, same with
    | [], same => exact (List.nil_append _).symm.trans same ▸ .seam other touches marks others
    | [c], same =>
      obtain ⟨-, rfl, -⟩ : _ ∧ a = _ ∧ _ := by simpa using same
      exact absurd marks.channel read
    | c :: d :: before, same => exact ih (List.cons.inj (List.cons.inj same).2).2

/-- What stands between two tokens that are no markers, if nothing but markers do: one where they
touch, at that place, and none where they do not. -/
theorem Marked.between (marked : Marked (before ++ a :: (markers ++ b :: behind)))
    (first : a.channel ≠ .marker) (second : b.channel ≠ .marker)
    (only : ∀ m ∈ markers, m.channel = .marker) :
    (a.Touches b ∧ ∃ m, markers = [m] ∧ m.IsMarkerAt b.span.start) ∨
      (¬ a.Touches b ∧ markers = []) := by
  have here := marked.of_append first
  match markers, only, here with
  | [], _, here =>
    cases here with
    | apart _ apart _ => exact .inr ⟨apart, rfl⟩
    | seam _ _ marks _ => exact absurd marks.channel second
  | [m], only, here =>
    cases here with
    | apart _ _ others => exact absurd (only m List.mem_cons_self) others.head
    | seam _ touches marks _ => exact .inl ⟨touches, m, rfl, marks⟩
  | m :: n :: markers, only, here =>
    cases here with
    | apart _ _ others => exact absurd (only m List.mem_cons_self) others.head
    | seam _ _ _ others => exact absurd (only n (by simp)) others.head

/-- A marker stands behind a token that touches the one behind the marker. -/
theorem Marked.around (marked : Marked (before ++ m :: behind)) (marks : m.channel = .marker) :
    ∃ front a b rest, before = front ++ [a] ∧ behind = b :: rest ∧
      a.channel ≠ .marker ∧ b.channel ≠ .marker ∧ a.Touches b ∧ m.IsMarkerAt b.span.start := by
  generalize same : before ++ m :: behind = ts at marked
  induction marked generalizing before with
  | nil => simp at same
  | last read =>
    cases before with
    | nil => exact absurd marks ((List.cons.inj same).1 ▸ read)
    | cons c before => simp at same
  | apart read apart others ih =>
    cases before with
    | nil => exact absurd marks ((List.cons.inj same).1 ▸ read)
    | cons c before =>
      obtain ⟨front, a, b, rest, rfl, there⟩ := ih (List.cons.inj same).2
      exact ⟨c :: front, a, b, rest, rfl, there⟩
  | @seam a n b ts read touches marksSeam others ih =>
    match before, same with
    | [], same => exact absurd marks ((List.cons.inj same).1 ▸ read)
    | [c], same =>
      obtain ⟨rfl, rfl, rfl⟩ : c = a ∧ m = n ∧ behind = b :: ts := by simpa using same
      exact ⟨[], c, b, ts, rfl, rfl, read, others.head, touches, marksSeam⟩
    | c :: d :: before, same =>
      obtain ⟨front, a, b, rest, rfl, there⟩ := ih (List.cons.inj (List.cons.inj same).2).2
      exact ⟨c :: d :: front, a, b, rest, rfl, there⟩

/-! ## Both readings of a text -/

/-- A stream with markers at its seams. Between a token that is no marker and the next that is none
stands a marker where they touch, empty and at that place, and nothing where they do not. Each
marker stands between two such tokens, and none stands next to another. -/
structure MarksSeams (tokens : List Token) : Prop where
  between : ∀ {before a markers b behind}, tokens = before ++ a :: (markers ++ b :: behind) →
    a.channel ≠ .marker → b.channel ≠ .marker → (∀ m ∈ markers, m.channel = .marker) →
    (a.Touches b → ∃ m, markers = [m] ∧ m.text = "" ∧ m.span = .single b.span.start) ∧
      (¬ a.Touches b → markers = [])
  around : ∀ {before m behind}, tokens = before ++ m :: behind → m.channel = .marker →
    ∃ front a b rest, before = front ++ [a] ∧ behind = b :: rest ∧
      a.channel ≠ .marker ∧ b.channel ≠ .marker ∧ a.Touches b
  alone : tokens.IsChain fun m n => m.channel = .marker → n.channel ≠ .marker

/-- No marker is followed by another. -/
theorem Marked.isChain (marked : Marked ts) :
    ts.IsChain fun m n => m.channel = .marker → n.channel ≠ .marker := by
  induction marked with
  | nil => exact .nil
  | last => exact .singleton _
  | apart read _ _ ih => exact .cons_cons (fun marks => absurd marks read) ih
  | seam read _ _ others ih =>
    exact .cons_cons (fun marks => absurd marks read) (.cons_cons (fun _ => others.head) ih)

theorem Marked.marksSeams (marked : Marked ts) : MarksSeams ts := by
  refine { between := ?_, around := ?_, alone := marked.isChain }
  · intro before a markers b behind same first second only
    obtain ⟨touches, m, rfl, marks⟩ | ⟨apart, rfl⟩ :=
      (same ▸ marked).between first second only
    · exact ⟨fun _ => ⟨m, rfl, congrArg Token.text marks, congrArg Token.span marks⟩,
        fun apart => absurd touches apart⟩
    · exact ⟨fun touches => absurd touches apart, fun _ => rfl⟩
  · intro before m behind same marks
    obtain ⟨front, a, b, rest, here, there, first, second, touches, -⟩ :=
      (same ▸ marked).around marks
    exact ⟨front, a, b, rest, here, there, first, second, touches⟩

/-- **Markers are just the seams.** A text that cannot be read without markers cannot be read with
them, for the same reason. One that can is read to the same tokens and complaints both ways, but
for the markers and the numbers, and these are the places in each stream. The markers are empty and
stand just where a visible token touches the next. -/
theorem markers_are_the_seams (text : List Char) :
    (∃ failure, tokenize text = .error failure ∧ tokenizeWithSeams text = .error failure) ∨
    ∃ plain seamed, tokenize text = .ok plain ∧ tokenizeWithSeams text = .ok seamed ∧
      seamed.complaints = plain.complaints ∧
      numbered (seamed.tokens.filter (·.channel != .marker)) = plain.tokens ∧
      (∀ t ∈ plain.tokens, t.channel ≠ .marker) ∧
      IsNumbered plain.tokens ∧ IsNumbered seamed.tokens ∧ MarksSeams seamed.tokens := by
  cases read : tokenizeWithSeams text with
  | error failure => exact .inl ⟨failure, tokenize_eq_error read, rfl⟩
  | ok seamed =>
    obtain ⟨ts, es, all, tokens, -, others⟩ :=
      TokenStream.ofSteps_eq_ok (ofSteps_of_tokenizeWithSeams read)
    have noMarkers : ∀ t ∈ ts, t.channel ≠ .marker := fun t member =>
      (all.read t member).channel_ne_marker
    refine .inr ⟨⟨numbered ts, seamed.complaints⟩, seamed,
      (tokenize_eq text).trans (others id), rfl, rfl, ?_, ?_, numbered_isNumbered ts,
      tokens ▸ numbered_isNumbered _, ?_⟩
    · rw [tokens, numbered_filter_numbered, filter_withSeams noMarkers]
    · intro t member
      obtain ⟨u, there, same⟩ := mem_numbered member
      have channel : t.channel = u.channel := by rw [same]
      exact channel ▸ noMarkers u there
    · rw [tokens]
      exact ((withSeams_marked noMarkers).renumber id).marksSeams

example : (tokenizeWithSeams "a+ 1".toList).toOption.map (·.tokens.map (·.channel)) =
    some [.visible, .marker, .visible, .hidden, .visible, .visible] := by decide +kernel

end XuleLang
