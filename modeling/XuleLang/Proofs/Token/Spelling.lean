import XuleLang.Proofs.Token.Lossless

/-!
How names are spelled.

An identifier begins with a letter or an underscore, and a variable with a dollar sign. So the two
never share a name, whichever files they are read in. All characters of names, keywords included,
are single units of every encoding, and none of them ends a line.
-/

namespace XuleLang

/-- The characters may be those of a token of the kind, as far as names are concerned. -/
def TokenKind.Spells : TokenKind → List Char → Prop
  | .identifier, cs => ∃ c rest, cs = c :: rest ∧ isNameStart c
  | .variableName, cs => ∃ rest, cs = '$' :: rest
  | _, _ => True

/-- No characters are those of an identifier and of a variable. -/
theorem TokenKind.Spells.apart {cs : List Char} (identifier : TokenKind.identifier.Spells cs) :
    ¬TokenKind.variableName.Spells cs := by
  rintro ⟨rest, rfl⟩
  obtain ⟨c, rest', same, starts⟩ := identifier
  cases same
  cases starts

namespace Lexeme

variable {cs : List Char} {x : Lexeme} {quote : Char}

theorem ofWord_spells {c : Char} (starts : isNameStart c = true) :
    (ofWord (c :: cs)).kind.Spells ((c :: cs).take (ofWord (c :: cs)).length) := by
  fun_cases ofWord (c :: cs) with
  | case1 => trivial
  | case2 length _ =>
    have taken : (c :: cs).take length = c :: cs.take (length - 1) := by
      have some : 0 < length := nameLength_pos starts
      rw [← List.take_succ_cons, Nat.sub_add_cancel some]
    dsimp only [ofName]
    split
    · trivial
    · exact ⟨c, _, taken, starts⟩

theorem ofChars?_spells : ofChars? cs = some x → x.kind.Spells (cs.take x.length) := by
  fun_cases ofChars? cs <;> intro read
  case case9 c rest _ _ _ _ _ _ _ dollar =>
    cases read
    simp only [Bool.and_eq_true, beq_iff_eq] at dollar
    exact ⟨_, by rw [dollar.1]; rfl⟩
  case case10 c rest _ _ _ _ _ _ _ _ starts =>
    cases read
    exact ofWord_spells starts
  case case12 =>
    obtain ⟨p, -, rfl⟩ := Option.map_eq_some_iff.mp read
    trivial
  all_goals first | trivial | (cases read; trivial)

theorem inString?_spells : inString? quote cs = some x → x.kind.Spells (cs.take x.length) := by
  fun_cases inString? quote cs <;> intro read <;> cases read <;> trivial

/-- Something that holds of all lexemes, whether in program text or inside of a string, and of what
is empty. -/
structure Tells (S : TokenKind → List Char → Prop) : Prop where
  program : ∀ {cs x}, ofChars? cs = some x → S x.kind (cs.take x.length)
  string : ∀ {quote cs x}, inString? quote cs = some x → S x.kind (cs.take x.length)
  ending : S .endOfInput []
  seam : S .whitespace []

theorem tells_spells : Tells TokenKind.Spells :=
  ⟨ofChars?_spells, inString?_spells, trivial, trivial⟩

end Lexeme

namespace Lexer

variable {S : TokenKind → List Char → Prop} {l : Lexer} {x : Lexeme} {t : Token}

/-- The token of a lexeme is spelled as the lexeme is. -/
theorem emit_tells (complete : x.complete = false → x.kind = .comment)
    (tells : S x.kind (l.rest.take x.length)) (read : (l.emit x).1.token? = some t) :
    S t.kind t.text.toList := by
  obtain ⟨after, deep⟩ | ⟨outcome, opened, es, emitted, token, -⟩ := emit_cases l x complete
  · rw [deep] at read
    cases read
  · rw [emitted] at read
    have same : t = l.tokenOf x := by
      rcases token with rfl | rfl <;> exact (Option.some.inj read).symm
    subst same
    simpa [tokenOf] using tells

theorem next_tells (tells : Lexeme.Tells S) (read : l.next.1.token? = some t) :
    S t.kind t.text.toList := by
  revert read
  fun_cases next l with
  | case1 quote mode x found =>
    exact emit_tells (fun endless => absurd endless (by simp [Lexeme.complete_of_inString? found]))
      (tells.string found)
  | case2 => rintro ⟨⟩; exact tells.ending
  | case3 mode l' x found =>
    exact emit_tells (Lexeme.comment_of_ofChars? found) (tells.program found)
  | case4 => rintro ⟨⟩; exact tells.ending

theorem run_tells (tells : Lexeme.Tells S) {fuel : Nat} :
    ∀ t ∈ ((run fuel l).map (·.1)).filterMap LexOutcome.token?, S t.kind t.text.toList := by
  induction fuel generalizing l with
  | zero => simp [run]
  | succ fuel ih =>
    intro t member
    obtain ⟨outcome, step, read⟩ := List.mem_filterMap.mp member
    rw [run] at step
    dsimp only at step
    split at step
    · cases List.mem_singleton.mp step
      exact next_tells tells read
    · rcases List.mem_cons.mp step with rfl | later
      · exact next_tells tells read
      · exact ih t (List.mem_filterMap.mpr ⟨outcome, later, read⟩)

end Lexer

namespace TokenStream

variable {text : List Char} {s : TokenStream} {arrange : List Token → List Token}

/-- What holds of all lexemes holds of the tokens of a stream. -/
theorem tells_of_ofSteps {S : TokenKind → List Char → Prop} (tells : Lexeme.Tells S)
    (arranges : Arranges arrange) (read : ofSteps arrange (Lexer.steps text) = .ok s) :
    ∀ t ∈ s.tokens, S t.kind t.text.toList := by
  obtain ⟨ts, es, all, tokens, -, -⟩ := ofSteps_eq_ok read
  have tells_read : ∀ t ∈ ts, S t.kind t.text.toList := all.outcomes ▸ Lexer.run_tells tells
  obtain ⟨front, ts_eq, -⟩ := all.ended
  obtain ⟨marked, arranged, members⟩ := arranges.ended
    (.endOfInput (positionAt text text.length)) rfl front
  rw [← ts_eq] at arranged
  intro t member
  rw [tokens, arranged] at member
  obtain ⟨u, there, same⟩ := mem_numbered member
  rw [same]
  rcases List.mem_append.mp there with inside | last
  · rcases members u inside with own | ⟨v, -, rfl⟩
    · exact tells_read u (by simp [ts_eq, own])
    · exact tells.seam
  · cases List.mem_singleton.mp last
    exact tells.ending

/-- All names of a stream are spelled as names are. -/
theorem spells_of_ofSteps (arranges : Arranges arrange)
    (read : ofSteps arrange (Lexer.steps text) = .ok s) :
    ∀ t ∈ s.tokens, t.kind.Spells t.text.toList :=
  tells_of_ofSteps Lexeme.tells_spells arranges read

end TokenStream

/-! ## The characters of names -/

/-- A character that stands in a name of any kind. -/
def isNamePart (c : Char) : Bool := isNameChar c || c == '-' || c == '$'

/-- If the kind reads as a name, the characters are those of names. -/
def TokenKind.PlainName (k : TokenKind) (cs : List Char) : Prop :=
  k.isIdentifierLike = true → ∀ c ∈ cs, isNamePart c = true

theorem TokenKind.plainName_of_other {k : TokenKind} {cs : List Char}
    (other : k.isIdentifierLike = false) : k.PlainName cs :=
  fun named => absurd named (by simp [other])

theorem isNamePart_plain {c : Char} (part : isNamePart c = true) :
    c.toNat < 128 ∧ c ≠ '\n' ∧ c ≠ '\r' := by
  refine ⟨?_, ?_, ?_⟩
  · change (decide (c.val ≥ 'A'.val ∧ c.val ≤ 'Z'.val) || (c.val ≥ 'a'.val && c.val ≤ 'z'.val) ||
      (c.val ≥ '0'.val && c.val ≤ '9'.val) || c == '_' || c == '-' || c == '$') = true at part
    simp only [Bool.or_eq_true, Bool.and_eq_true, decide_eq_true_eq, beq_iff_eq] at part
    have bounded {d : Char} (below : c.val ≤ d.val) (plain : d.toNat < 128) : c.toNat < 128 :=
      Nat.lt_of_le_of_lt (UInt32.le_iff_toNat_le.mp below) plain
    rcases part with ((((⟨-, upper⟩ | ⟨-, lower⟩) | ⟨-, digit⟩) | rfl) | rfl) | rfl
    · exact bounded upper (by decide)
    · exact bounded lower (by decide)
    · exact bounded digit (by decide)
    all_goals decide
  · rintro rfl
    exact absurd part (by decide)
  · rintro rfl
    exact absurd part (by decide)

theorem isNamePart_of_mem_nameLength {cs : List Char} :
    ∀ c ∈ cs.take (nameLength cs), isNamePart c = true := by
  fun_induction nameLength cs with
  | case1 => simp
  | case2 c cs part ih =>
    rw [List.take_succ_cons]
    refine List.forall_mem_cons.mpr ⟨?_, ih⟩
    simp only [Bool.or_eq_true, Bool.and_eq_true, beq_iff_eq] at part
    rcases part with named | ⟨rfl, -⟩
    · simp [isNamePart, named]
    · rfl
  | case3 => simp

namespace Lexeme

theorem ofWord_plainName {cs : List Char} :
    (ofWord cs).kind.PlainName (cs.take (ofWord cs).length) := by
  fun_cases ofWord cs with
  | case1 => exact TokenKind.plainName_of_other rfl
  | case2 => exact fun _ => isNamePart_of_mem_nameLength

theorem ofChars?_plainName {cs : List Char} {x : Lexeme} :
    ofChars? cs = some x → x.kind.PlainName (cs.take x.length) := by
  fun_cases ofChars? cs <;> intro read
  case case9 c rest _ _ _ _ _ _ _ dollar =>
    cases read
    simp only [Bool.and_eq_true, beq_iff_eq] at dollar
    intro _
    rw [List.take_succ_cons]
    exact List.forall_mem_cons.mpr ⟨by rw [dollar.1]; rfl, isNamePart_of_mem_nameLength⟩
  case case10 =>
    cases read
    exact ofWord_plainName
  case case12 =>
    obtain ⟨p, -, rfl⟩ := Option.map_eq_some_iff.mp read
    exact TokenKind.plainName_of_other rfl
  all_goals first | (cases read; done) | (cases read; exact TokenKind.plainName_of_other rfl)

theorem inString?_plainName {quote : Char} {cs : List Char} {x : Lexeme} :
    inString? quote cs = some x → x.kind.PlainName (cs.take x.length) := by
  fun_cases inString? quote cs <;> rintro ⟨⟩ <;> exact TokenKind.plainName_of_other rfl

theorem tells_plainName : Tells TokenKind.PlainName :=
  ⟨ofChars?_plainName, inString?_plainName, TokenKind.plainName_of_other rfl,
    TokenKind.plainName_of_other rfl⟩

end Lexeme

end XuleLang
