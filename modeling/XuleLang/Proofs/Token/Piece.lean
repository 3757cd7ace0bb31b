import XuleLang.Proofs.Text.Position
import XuleLang.Proofs.Token.Source

/-!
The pieces of a text.

A piece is a token or a character that begins none. Pieces tile a stretch of a text if each starts
where the one before it stops. Pieces that are cut from the text, and tile it, make it up again
(`Tiles.flatMap_chars`). Numbering the tokens and putting markers where two of them touch changes
nothing about that.
-/

namespace XuleLang

/-- The characters of a text that a span covers. -/
def cut (text : List Char) (s : Span) : List Char := (text.drop s.start.offset).take s.length

/-- A stretch that stops in the text has all its characters. -/
theorem length_cut {text : List Char} {s : Span} (inside : s.stop.offset ≤ text.length) :
    (cut text s).length = s.length := by
  rw [cut, List.length_take, List.length_drop, Span.length]
  omega

/-- A piece of a text: a token, or a character that begins none. -/
inductive Piece where
  | token (t : Token)
  | unrecognized (c : Char) (span : Span)

/-- Complaints of characters that begin no token. -/
def SyntaxError.isUnrecognized (e : SyntaxError) : Bool :=
  match e.what with
  | .unrecognized _ => true
  | _ => false

namespace Piece

def span : Piece → Span
  | token t => t.span
  | unrecognized _ s => s

def chars : Piece → List Char
  | token t => t.text.toList
  | unrecognized c _ => [c]

def token? : Piece → Option Token
  | token t => some t
  | unrecognized _ _ => none

/-- The complaint of a character that begins no token. -/
def complaint? : Piece → Option SyntaxError
  | token _ => none
  | unrecognized c s => some ⟨.unrecognized c, some s⟩

/-- A piece whose span lies in the text, and which has the characters that its span covers. It takes
no line break apart. -/
structure IsCutFrom (p : Piece) (text : List Char) : Prop where
  span : p.span.IsApartIn text
  chars : p.chars = cut text p.span

variable {p : Piece} {text : List Char}

/-- A piece has as many characters as its span covers. -/
theorem IsCutFrom.length_chars (h : p.IsCutFrom text) :
    p.span.start.offset + p.chars.length = p.span.stop.offset := by
  rw [h.chars, length_cut h.span.inside, Span.length]
  exact Nat.add_sub_cancel' h.span.ordered

end Piece

/-- Each piece starts where the one before it stops, from offset `m` to offset `n`. -/
def Tiles : Nat → List Piece → Nat → Prop
  | m, [], n => m = n
  | m, p :: ps, n =>
    p.span.start.offset = m ∧ m ≤ p.span.stop.offset ∧ Tiles p.span.stop.offset ps n

namespace Tiles

variable {l m n : Nat} {ps qs : List Piece} {text : List Char}

theorem append (first : Tiles l ps m) (second : Tiles m qs n) : Tiles l (ps ++ qs) n := by
  induction ps generalizing l with
  | nil => exact (show l = m from first) ▸ second
  | cons p ps ih => exact ⟨first.1, first.2.1, ih first.2.2⟩

theorem le (tiles : Tiles m ps n) : m ≤ n := by
  induction ps generalizing m with
  | nil => exact Nat.le_of_eq tiles
  | cons p ps ih => exact Nat.le_trans tiles.2.1 (ih tiles.2.2)

/-- No piece begins before the stretch does. -/
theorem le_start (tiles : Tiles m ps n) : ∀ p ∈ ps, m ≤ p.span.start.offset := by
  induction ps generalizing m with
  | nil => simp
  | cons q ps ih =>
    intro p member
    rcases List.mem_cons.mp member with rfl | later
    · exact Nat.le_of_eq tiles.1.symm
    · exact Nat.le_trans tiles.2.1 (ih tiles.2.2 p later)

/-- No piece stops behind the stretch. -/
theorem stop_le (tiles : Tiles m ps n) : ∀ p ∈ ps, p.span.stop.offset ≤ n := by
  induction ps generalizing m with
  | nil => simp
  | cons q ps ih => exact List.forall_mem_cons.mpr ⟨tiles.2.2.le, ih tiles.2.2⟩

/-- Of two pieces the earlier one stops before the later one starts. -/
theorem pairwise (tiles : Tiles m ps n) :
    ps.Pairwise fun p q => p.span.stop.offset ≤ q.span.start.offset := by
  induction ps generalizing m with
  | nil => exact .nil
  | cons p ps ih => exact .cons (tiles.2.2.le_start) (ih tiles.2.2)

/-- Pieces that tile a stretch of a text make it up. -/
theorem flatMap_chars (tiles : Tiles m ps n) (fromText : ∀ p ∈ ps, p.IsCutFrom text) :
    ps.flatMap Piece.chars = (text.drop m).take (n - m) := by
  induction ps generalizing m with
  | nil => simp [show m = n from tiles]
  | cons p ps ih =>
    obtain ⟨starts, ordered, rest⟩ := tiles
    have here := fromText p List.mem_cons_self
    have there := ih rest fun q later => fromText q (List.mem_cons_of_mem p later)
    have last := rest.le
    have split : n - m = (p.span.stop.offset - m) + (n - p.span.stop.offset) := by omega
    rw [List.flatMap_cons, there, here.chars, cut, Span.length, starts, split, List.take_add,
      List.drop_drop, Nat.add_sub_cancel' ordered]

end Tiles

/-! ## Other tokens in place of the tokens -/

/-- Pieces that tile a stretch of a text, and whose tokens and complaints are the given ones. -/
structure Arrangement (text : List Char) (m n : Nat) (tokens : List Token)
    (complaints : List SyntaxError) (ps : List Piece) : Prop where
  tiles : Tiles m ps n
  fromText : ∀ p ∈ ps, p.IsCutFrom text
  tokens : ps.filterMap Piece.token? = tokens
  complaints : ps.filterMap Piece.complaint? = complaints

namespace Arrangement

variable {text : List Char} {l m n : Nat} {tokens others : List Token}
  {complaints further : List SyntaxError} {ps qs : List Piece}

theorem nil : Arrangement text m m [] [] [] :=
  { tiles := rfl, fromText := by simp, tokens := rfl, complaints := rfl }

theorem append (first : Arrangement text l m tokens complaints ps)
    (second : Arrangement text m n others further qs) :
    Arrangement text l n (tokens ++ others) (complaints ++ further) (ps ++ qs) :=
  { tiles := first.tiles.append second.tiles
    fromText := fun p member => (List.mem_append.mp member).elim (first.fromText p)
      (second.fromText p)
    tokens := by rw [List.filterMap_append, first.tokens, second.tokens]
    complaints := by rw [List.filterMap_append, first.complaints, second.complaints] }

/-- One piece by itself. -/
theorem single {p : Piece} (fromText : p.IsCutFrom text) :
    Arrangement text p.span.start.offset p.span.stop.offset p.token?.toList p.complaint?.toList
      [p] :=
  { tiles := ⟨rfl, fromText.span.ordered, rfl⟩
    fromText := by simpa using fromText
    tokens := by cases p <;> rfl
    complaints := by cases p <;> rfl }

/-- The first piece, and those behind it. -/
theorem uncons {p : Piece} (arranged : Arrangement text m n tokens complaints (p :: ps)) :
    ∃ others further, m = p.span.start.offset ∧ p.IsCutFrom text ∧
      tokens = p.token?.toList ++ others ∧ complaints = p.complaint?.toList ++ further ∧
      Arrangement text p.span.stop.offset n others further ps := by
  obtain ⟨⟨starts, -, tiles⟩, fromText, rfl, rfl⟩ := arranged
  obtain ⟨here, later⟩ := List.forall_mem_cons.mp fromText
  refine ⟨_, _, starts.symm, here, ?_, ?_, ⟨tiles, later, rfl, rfl⟩⟩
  · cases p <;> rfl
  · cases p <;> rfl

/-- A function that changes neither text nor span of tokens leaves the arrangement. -/
theorem mapIdx {f : Nat → Token → Token} (text_f : ∀ i t, (f i t).text = t.text)
    (span_f : ∀ i t, (f i t).span = t.span)
    (arranged : Arrangement text m n tokens complaints ps) :
    ∃ qs, Arrangement text m n (tokens.mapIdx f) complaints qs := by
  induction ps generalizing m tokens complaints f with
  | nil =>
    obtain ⟨tiles, -, rfl, rfl⟩ := arranged
    exact ⟨[], tiles, by simp, rfl, rfl⟩
  | cons p ps ih =>
    obtain ⟨others, further, rfl, here, rfl, rfl, rest⟩ := arranged.uncons
    cases p with
    | token t =>
      obtain ⟨qs, rest⟩ := ih (fun i => text_f (i + 1)) (fun i => span_f (i + 1)) rest
      have same : (Piece.token (f 0 t)).IsCutFrom text :=
        { span := by simpa [Piece.span, span_f] using here.span
          chars := by simpa [Piece.chars, Piece.span, text_f, span_f] using here.chars }
      have first := single same
      simp only [Piece.span, span_f] at first
      refine ⟨.token (f 0 t) :: qs, ?_⟩
      rw [List.mapIdx_append]
      exact first.append rest
    | unrecognized c s =>
      obtain ⟨qs, rest⟩ := ih text_f span_f rest
      exact ⟨_, (single here).append rest⟩

/-- Every token is a piece of the text. -/
theorem isCutFrom {t : Token} (arranged : Arrangement text m n tokens complaints ps)
    (member : t ∈ tokens) : (Piece.token t).IsCutFrom text := by
  rw [← arranged.tokens] at member
  obtain ⟨p, there, same⟩ := List.mem_filterMap.mp member
  cases p with
  | token u => cases same; exact arranged.fromText _ there
  | unrecognized => cases same

/-- The complaints of pieces are about characters that begin no token. -/
theorem unrecognized (arranged : Arrangement text m n tokens complaints ps) :
    complaints.filter SyntaxError.isUnrecognized = complaints := by
  rw [List.filter_eq_self, ← arranged.complaints]
  intro e member
  obtain ⟨p, -, same⟩ := List.mem_filterMap.mp member
  cases p with
  | token t => cases same
  | unrecognized c s => cases same; rfl

/-- The complaints of pieces are about places of the text. -/
theorem located (arranged : Arrangement text m n tokens complaints ps) :
    ∀ e ∈ complaints, ∃ s, e.span = some s ∧ s.IsApartIn text := by
  rw [← arranged.complaints]
  intro e member
  obtain ⟨p, there, same⟩ := List.mem_filterMap.mp member
  cases p with
  | token t => cases same
  | unrecognized c s =>
    cases same
    exact ⟨s, rfl, (arranged.fromText _ there).span⟩

/-- The complaints of pieces are in the order of the text, and no two are about one place. -/
theorem inOrder (arranged : Arrangement text m n tokens complaints ps) :
    complaints.Pairwise fun a b => a.startOffset < b.startOffset := by
  rw [← arranged.complaints, List.pairwise_filterMap]
  refine arranged.tiles.pairwise.imp_of_mem ?_
  intro p q first second apart e here e' there
  cases p with
  | token t => cases here
  | unrecognized c s =>
    cases q with
    | token t => cases there
    | unrecognized c' s' =>
      cases here
      cases there
      have one := (arranged.fromText _ first).length_chars
      exact Nat.lt_of_lt_of_le (Nat.lt_of_succ_le (Nat.le_of_eq one)) apart

/-- The complaints of pieces are about places of the stretch that the pieces tile. -/
theorem startOffset_bounds (arranged : Arrangement text m n tokens complaints ps) :
    ∀ e ∈ complaints, m ≤ e.startOffset ∧ e.startOffset < n := by
  rw [← arranged.complaints]
  intro e member
  obtain ⟨p, there, same⟩ := List.mem_filterMap.mp member
  cases p with
  | token t => cases same
  | unrecognized c s =>
    cases same
    have one := (arranged.fromText _ there).length_chars
    have bound := arranged.tiles.stop_le _ there
    exact ⟨arranged.tiles.le_start _ there,
      Nat.lt_of_lt_of_le (Nat.lt_of_succ_le (Nat.le_of_eq one)) bound⟩

/-- The tokens of a stretch start in it. -/
theorem le_start {t : Token} (arranged : Arrangement text m n tokens complaints ps)
    (member : t ∈ tokens) : m ≤ t.span.start.offset := by
  rw [← arranged.tokens] at member
  obtain ⟨p, there, same⟩ := List.mem_filterMap.mp member
  cases p with
  | token u => cases same; exact arranged.tiles.le_start _ there
  | unrecognized => cases same

/-- The empty token at the start of a token of the text is a piece of the text too. -/
theorem isCutFrom_seam {t : Token} (arranged : Arrangement text m n tokens complaints ps)
    (member : t ∈ tokens) : (Piece.token (.seam t.span.start)).IsCutFrom text :=
  { span := (arranged.isCutFrom member).span.single_start
    chars := by simp [Piece.chars, Piece.span, Token.seam, cut, Span.single, Span.length] }

/-- Markers between tokens that touch leave the rest of the arrangement. -/
theorem withSeams (arranged : Arrangement text m n tokens complaints ps) :
    ∃ qs, Arrangement text m n (withSeams tokens) complaints qs := by
  induction ps generalizing m tokens complaints with
  | nil =>
    obtain ⟨tiles, -, rfl, rfl⟩ := arranged
    exact ⟨[], tiles, by simp, rfl, rfl⟩
  | cons p ps ih =>
    obtain ⟨others, further, rfl, here, rfl, rfl, behind⟩ := arranged.uncons
    obtain ⟨qs, rest⟩ := ih behind
    have first := single here
    cases p with
    | unrecognized c s => exact ⟨_, first.append rest⟩
    | token a =>
      cases others with
      | nil => exact ⟨_, first.append rest⟩
      | cons b more =>
        by_cases touches : a.Touches b
        case neg =>
          refine ⟨.token a :: qs, ?_⟩
          have same : XuleLang.withSeams (a :: b :: more) = [a] ++ XuleLang.withSeams (b :: more) :=
            if_neg touches
          change Arrangement text _ n (XuleLang.withSeams (a :: b :: more)) _ _
          rw [same]
          exact first.append rest
        case pos =>
          have place : a.span.stop.offset = b.span.start.offset := touches.2.2.2
          -- The marker covers nothing and stands where the two tokens touch: all tiles as before.
          have marker := single (behind.isCutFrom_seam List.mem_cons_self)
          have ends : a.span.stop.offset = (Token.seam b.span.start).span.stop.offset := place
          refine ⟨.token a :: .token (.seam b.span.start) :: qs, ?_⟩
          have split : XuleLang.withSeams (a :: b :: more) =
              [a] ++ ([.seam b.span.start] ++ XuleLang.withSeams (b :: more)) := if_pos touches
          change Arrangement text _ n (XuleLang.withSeams (a :: b :: more)) _ _
          rw [split]
          exact first.append (place ▸ marker.append (ends ▸ rest))

end Arrangement

end XuleLang
