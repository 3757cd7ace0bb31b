import XuleLang.Proofs.Text.Position
import XuleLang.Token.Lexer

/-!
How much a lexeme takes.

A lexeme takes at least one of the characters ahead and no more than there are (`Takes`), so that
the lexer moves on with every token and never past the end of the text. No lexeme is the token for
the end of the text.
-/

namespace XuleLang

variable {cs : List Char} {quote : Char}

theorem nameLength_le (cs : List Char) : nameLength cs ≤ cs.length := by
  fun_induction nameLength cs with
  | case1 => exact Nat.le_refl 0
  | case2 c cs _ ih => exact Nat.succ_le_succ ih
  | case3 => exact Nat.zero_le _

theorem nameLength_pos {c : Char} (starts : isNameStart c = true) : 0 < nameLength (c :: cs) := by
  have stands : isNameChar c = true := by
    simp only [isNameStart, isNameChar, Char.isAlphanum, Bool.or_eq_true] at starts ⊢
    exact starts.imp_left .inl
  simp [nameLength, stands]

theorem digitsLength_le (cs : List Char) : digitsLength cs ≤ cs.length :=
  (List.takeWhile_prefix _).length_le

theorem fractionLength_le (cs : List Char) : fractionLength cs ≤ cs.length := by
  fun_cases fractionLength cs with
  | case1 cs _ => exact Nat.zero_le _
  | case2 cs _ => exact Nat.succ_le_succ (digitsLength_le cs)
  | case3 => exact Nat.zero_le _

theorem signLength_le (cs : List Char) : signLength cs ≤ cs.length := by
  fun_cases signLength cs <;> simp

/-- A sign and the digits behind it fit into the characters that they are read from. -/
private theorem signed_digits_le (cs : List Char) :
    signLength cs + digitsLength (cs.drop (signLength cs)) ≤ cs.length := by
  have sign := signLength_le cs
  have digits := digitsLength_le (cs.drop (signLength cs))
  rw [List.length_drop] at digits
  omega

theorem exponentLength_le (cs : List Char) : exponentLength cs ≤ cs.length := by
  fun_cases exponentLength cs with
  | case1 => exact Nat.zero_le _
  | case2 cs digits _ =>
    have := signed_digits_le cs
    simp only [List.length_cons]
    omega
  | case3 => exact Nat.zero_le _
  | case4 cs digits _ =>
    have := signed_digits_le cs
    simp only [List.length_cons]
    omega
  | case5 => exact Nat.zero_le _

theorem numberLength_le (cs : List Char) : numberLength cs ≤ cs.length := by
  have whole := digitsLength_le cs
  have fraction := fractionLength_le (cs.drop (digitsLength cs))
  have exponent := exponentLength_le
    (cs.drop (digitsLength cs + fractionLength (cs.drop (digitsLength cs))))
  rw [List.length_drop] at fraction exponent
  simp only [numberLength]
  omega

theorem numberLength_pos {c : Char} (digit : c.isDigit = true) : 0 < numberLength (c :: cs) := by
  have one : 0 < digitsLength (c :: cs) := by simp [digitsLength, digit]
  rw [numberLength]
  omega

theorem blockCommentLength_le (cs : List Char) : (blockCommentLength cs).1 ≤ cs.length := by
  fun_induction blockCommentLength cs with
  | case1 => exact Nat.le_refl 0
  | case2 rest => simp
  | case3 c cs _ length closed _ ih => simp_all

theorem contentLength_le (quote : Char) (cs : List Char) : contentLength quote cs ≤ cs.length := by
  fun_induction contentLength quote cs with
  | case1 => exact Nat.le_refl 0
  | case2 => exact Nat.le_refl 1
  | case3 c cs ih => exact Nat.add_le_add_right ih 2
  | case4 => exact Nat.zero_le _
  | case5 c cs _ _ _ ih => exact Nat.succ_le_succ ih

theorem contentLength_pos {c : Char} (noQuote : c ≠ quote) (noBrace : c ≠ '\x7b') :
    0 < contentLength quote (c :: cs) := by
  unfold contentLength
  split <;> simp_all

/-- The characters begin with the spelling of the operator that is read. -/
theorem spelling_prefix_of_operator? {p : Punctuator} (read : operator? cs = some p) :
    p.spelling.toList <+: cs := by
  fun_cases operator? cs <;> simp_all [operator?] <;> subst read <;> simp [Punctuator.spelling]

theorem spelling_length_pos (p : Punctuator) : 0 < p.spelling.length := by
  cases p <;> decide

namespace Lexeme

/-- A lexeme that takes some of the characters ahead, and is not the end of the text. -/
structure Takes (x : Lexeme) (cs : List Char) : Prop where
  some : 0 < x.length
  available : x.length ≤ cs.length
  inside : x.kind ≠ .endOfInput

theorem ofName_ne_endOfInput (name : List Char) : ofName name ≠ .endOfInput := by
  unfold ofName
  split <;> simp

/-- A word takes what its first character begins. -/
theorem ofWord_takes {c : Char} (starts : isNameStart c = true) :
    (ofWord (c :: cs)).Takes (c :: cs) := by
  have pos : 0 < nameLength (c :: cs) := nameLength_pos starts
  have le := nameLength_le (c :: cs)
  fun_cases ofWord (c :: cs) with
  | case1 length rest ahead =>
    -- the scheme, the two slashes with the colon before them, and what runs to the next blank
    have behind := congrArg List.length ahead
    have runs := (List.takeWhile_prefix (p := (!isBlank ·)) (l := rest)).length_le
    simp only [List.length_drop, List.length_cons, length] at behind le ⊢
    exact { some := by simp only; omega, available := by simp only [List.length_cons]; omega
            inside := nofun }
  | case2 length _ =>
    exact { some := pos, available := le, inside := ofName_ne_endOfInput _ }

/-- What program text begins with takes some of it. -/
theorem ofChars?_takes {x : Lexeme} : ofChars? cs = some x → x.Takes cs := by
  have single (kind : TokenKind) (c : Char) (rest : List Char) (inside : kind ≠ .endOfInput) :
      (⟨kind, 1, true⟩ : Lexeme).Takes (c :: rest) :=
    { some := Nat.one_pos, available := by simp, inside := inside }
  fun_cases ofChars? cs <;> intro read
  case case1 => cases read
  case case2 rest =>
    cases read
    exact { some := by simp, available := (List.takeWhile_prefix _).length_le, inside := nofun }
  case case3 rest length closed runs =>
    cases read
    have := blockCommentLength_le rest
    simp only [runs] at this
    exact { some := by simp, available := by simpa using this, inside := nofun }
  case case4 rest => cases read; exact single _ _ rest nofun
  case case5 rest => cases read; exact single _ _ rest nofun
  case case6 rest => cases read; exact single _ _ rest nofun
  case case7 rest => cases read; exact single _ _ rest nofun
  case case8 c rest _ _ _ _ _ _ blank =>
    cases read
    exact { some := by simp [blank], available := (List.takeWhile_prefix _).length_le
            inside := nofun }
  case case9 c rest _ _ _ _ _ _ _ _ =>
    cases read
    exact { some := Nat.succ_pos _, available := Nat.succ_le_succ (nameLength_le rest)
            inside := nofun }
  case case10 c rest _ _ _ _ _ _ _ _ starts => cases read; exact ofWord_takes starts
  case case11 c rest _ _ _ _ _ _ _ _ _ digit =>
    cases read
    exact { some := numberLength_pos digit, available := numberLength_le _, inside := nofun }
  case case12 c rest _ _ _ _ _ _ _ _ _ _ =>
    obtain ⟨p, operator, rfl⟩ := Option.map_eq_some_iff.mp read
    have spelled := (spelling_prefix_of_operator? operator).length_le
    rw [String.length_toList] at spelled
    exact { some := spelling_length_pos p, available := spelled, inside := nofun }

/-- What the rest of a string literal begins with takes some of it. -/
theorem inString?_takes {x : Lexeme} : inString? quote cs = some x → x.Takes cs := by
  fun_cases inString? quote cs <;> intro read <;> cases read
  case case2 c rest _ => exact { some := Nat.one_pos, available := by simp, inside := nofun }
  case case3 c rest _ _ => exact { some := Nat.one_pos, available := by simp, inside := nofun }
  case case4 c rest noQuote noBrace =>
    exact { some := contentLength_pos (by simpa using noQuote) (by simpa using noBrace)
            available := contentLength_le quote _, inside := nofun }

/-- Only quotes open a string literal. -/
theorem quote_of_ofChars? {x : Lexeme} : ofChars? cs = some x → x.kind = .stringOpen →
    cs.headD '"' = '"' ∨ cs.headD '"' = '\x27' := by
  fun_cases ofChars? cs <;> intro read opens
  case case1 => cases read
  case case4 => exact .inl rfl
  case case5 => exact .inr rfl
  case case10 c rest _ _ _ _ _ _ _ _ _ =>
    cases read
    revert opens
    fun_cases ofWord (c :: rest) with
    | case1 => exact nofun
    | case2 =>
      simp only [ofName]
      split <;> exact nofun
  case case12 =>
    obtain ⟨p, -, rfl⟩ := Option.map_eq_some_iff.mp read
    cases opens
  all_goals cases read; cases opens

/-- Only comments lack their end. -/
theorem comment_of_ofChars? {x : Lexeme} :
    ofChars? cs = some x → x.complete = false → x.kind = .comment := by
  fun_cases ofChars? cs <;> intro read endless
  case case1 => cases read
  case case3 => cases read; rfl
  case case10 c rest _ _ _ _ _ _ _ _ _ =>
    cases read
    revert endless
    fun_cases ofWord (c :: rest) <;> exact nofun
  case case12 =>
    obtain ⟨p, -, rfl⟩ := Option.map_eq_some_iff.mp read
    cases endless
  all_goals cases read; cases endless

/-- No part of a string literal lacks its end. -/
theorem complete_of_inString? {x : Lexeme} :
    inString? quote cs = some x → x.complete ≠ false := by
  fun_cases inString? quote cs <;> intro read <;> cases read <;> exact nofun

/-- Inside a string literal no other one is opened. -/
theorem kind_ne_stringOpen_of_inString? {x : Lexeme} :
    inString? quote cs = some x → x.kind ≠ .stringOpen := by
  fun_cases inString? quote cs <;> intro read <;> cases read <;> exact nofun

end Lexeme

/-! ## Line breaks

Only blanks, comments and the text of string literals run over the end of a line. Such a text goes
on to a quote, to a brace or to the end of everything, blanks to a character that is none, and
comments to a slash or to the end of everything, so that no token ends between the two characters of
one line break. -/

/-- The first `n` characters hold no line break. -/
def StaysOnLine (n : Nat) (cs : List Char) : Prop := ∀ c ∈ cs.take n, c ≠ '\n' ∧ c ≠ '\r'

theorem StaysOnLine.add {m n : Nat} (first : StaysOnLine m cs)
    (second : StaysOnLine n (cs.drop m)) : StaysOnLine (m + n) cs := by
  intro c taken
  rw [List.take_add, List.mem_append] at taken
  exact taken.elim (first c) (second c)

/-- Characters that stay on their line do not end inside a line break. -/
theorem StaysOnLine.insideBreak {n : Nat} (stays : StaysOnLine n cs)
    (some : 0 < n) : insideBreak cs n = false := by
  rw [XuleLang.insideBreak, Bool.and_eq_false_iff]
  left
  rw [beq_eq_false_iff_ne]
  intro last
  have taken : '\r' ∈ cs.take n := by
    refine List.mem_of_getElem? (i := n - 1) ?_
    rw [List.getElem?_take_of_lt (by omega), last]
  exact (stays _ taken).2 rfl

/-- Characters of a class stay on the line if the class holds no line break. -/
theorem staysOnLine_takeWhile {p : Char → Bool}
    (apart : ∀ c, p c = true → c ≠ '\n' ∧ c ≠ '\r') :
    StaysOnLine (cs.takeWhile p).length cs := by
  intro c taken
  rw [← List.prefix_iff_eq_take.mp (List.takeWhile_prefix p)] at taken
  exact apart c (List.all_eq_true.mp List.all_takeWhile c taken)

theorem isNameChar_apart {c : Char} (stands : isNameChar c = true) : c ≠ '\n' ∧ c ≠ '\r' := by
  constructor <;> rintro rfl <;> revert stands <;> decide

theorem isDigit_apart {c : Char} (digit : c.isDigit = true) : c ≠ '\n' ∧ c ≠ '\r' := by
  constructor <;> rintro rfl <;> revert digit <;> decide

theorem not_isBlank_apart {c : Char} (dark : (!isBlank c) = true) : c ≠ '\n' ∧ c ≠ '\r' := by
  constructor <;> rintro rfl <;> revert dark <;> decide

theorem staysOnLine_cons {c : Char} {n : Nat} (apart : c ≠ '\n' ∧ c ≠ '\r')
    (rest : StaysOnLine n cs) : StaysOnLine (n + 1) (c :: cs) := by
  intro d taken
  rcases List.mem_cons.mp taken with rfl | later
  · exact apart
  · exact rest d later

theorem staysOnLine_zero : StaysOnLine 0 cs := by simp [StaysOnLine]

theorem staysOnLine_name (cs : List Char) : StaysOnLine (nameLength cs) cs := by
  fun_induction nameLength cs with
  | case1 => exact staysOnLine_zero
  | case2 c cs stands ih =>
    refine staysOnLine_cons ?_ ih
    simp only [Bool.or_eq_true, Bool.and_eq_true, beq_iff_eq] at stands
    rcases stands with name | ⟨rfl, -⟩
    · exact isNameChar_apart name
    · decide
  | case3 => exact staysOnLine_zero

theorem staysOnLine_digits (cs : List Char) : StaysOnLine (digitsLength cs) cs :=
  staysOnLine_takeWhile fun _ => isDigit_apart

theorem staysOnLine_fraction (cs : List Char) : StaysOnLine (fractionLength cs) cs := by
  fun_cases fractionLength cs with
  | case1 => exact staysOnLine_zero
  | case2 cs _ => exact staysOnLine_cons (by decide) (staysOnLine_digits cs)
  | case3 => exact staysOnLine_zero

theorem staysOnLine_sign (cs : List Char) : StaysOnLine (signLength cs) cs := by
  fun_cases signLength cs with
  | case1 => exact staysOnLine_cons (by decide) staysOnLine_zero
  | case2 => exact staysOnLine_cons (by decide) staysOnLine_zero
  | case3 => exact staysOnLine_zero

theorem staysOnLine_exponent (cs : List Char) : StaysOnLine (exponentLength cs) cs := by
  have behind (cs : List Char) :
      StaysOnLine (signLength cs + digitsLength (cs.drop (signLength cs))) cs :=
    (staysOnLine_sign cs).add (staysOnLine_digits _)
  fun_cases exponentLength cs with
  | case1 => exact staysOnLine_zero
  | case2 cs digits _ =>
    rw [Nat.add_assoc, Nat.add_comm 1]
    exact staysOnLine_cons (by decide) (behind cs)
  | case3 => exact staysOnLine_zero
  | case4 cs digits _ =>
    rw [Nat.add_assoc, Nat.add_comm 1]
    exact staysOnLine_cons (by decide) (behind cs)
  | case5 => exact staysOnLine_zero

theorem staysOnLine_number (cs : List Char) : StaysOnLine (numberLength cs) cs :=
  ((staysOnLine_digits cs).add (staysOnLine_fraction _)).add (staysOnLine_exponent _)

theorem spelling_apart (p : Punctuator) : ∀ c ∈ p.spelling.toList, c ≠ '\n' ∧ c ≠ '\r' := by
  have all : p.spelling.toList.all fun c => c ≠ '\n' ∧ c ≠ '\r' := by cases p <;> decide
  exact fun c member => of_decide_eq_true (List.all_eq_true.mp all c member)

/-- Blanks run up to a character that is none, which ends no line. -/
theorem blanks_apart (cs : List Char) : insideBreak cs (cs.takeWhile isBlank).length = false := by
  rw [insideBreak, Bool.and_eq_false_iff]
  right
  rw [beq_eq_false_iff_ne]
  intro next
  have rest := congrArg (List.drop (cs.takeWhile isBlank).length)
    (List.takeWhile_append_dropWhile (p := isBlank) (l := cs))
  have dark := List.head?_dropWhile_not isBlank cs
  rw [List.drop_left] at rest
  rw [rest, List.head?_drop, next] at dark
  cases dark

/-- A block comment ends with a slash or with the text. -/
theorem blockComment_apart (c : Char) (cs : List Char) :
    insideBreak (c :: cs) ((blockCommentLength cs).1 + 1) = false := by
  fun_induction blockCommentLength cs generalizing c with
  | case1 => simp [insideBreak]
  | case2 rest => simp [insideBreak]
  | case3 d cs _ length closed runs ih =>
    rw [Nat.add_comm _ 1, ← insideBreak_drop (Nat.succ_pos length)]
    simpa [runs] using ih d

/-- The text of a string literal ends where a quote, a brace or nothing is ahead. -/
theorem head?_drop_contentLength {c : Char} (quote : Char) (cs : List Char)
    (ahead : (cs.drop (contentLength quote cs)).head? = some c) : c = quote ∨ c = '\x7b' := by
  fun_induction contentLength quote cs with
  | case1 => cases ahead
  | case2 => cases ahead
  | case3 d rest ih => exact ih ahead
  | case4 d rest _ _ stops =>
    cases ahead
    simpa using stops
  | case5 d rest _ _ goes ih => exact ih ahead

namespace Lexeme

theorem staysOnLine_word (cs : List Char) : StaysOnLine (ofWord cs).length cs := by
  fun_cases ofWord cs with
  | case1 length rest ahead =>
    rw [Nat.add_assoc]
    refine (staysOnLine_name cs).add ?_
    rw [show List.drop (nameLength cs) cs = _ from ahead, Nat.add_comm 3]
    have runs : StaysOnLine (rest.takeWhile (!isBlank ·)).length rest :=
      staysOnLine_takeWhile fun _ => not_isBlank_apart
    exact staysOnLine_cons (by decide) <| staysOnLine_cons (by decide) <|
      staysOnLine_cons (by decide) runs
  | case2 => exact staysOnLine_name cs

/-- A visible lexeme of program text stays on its line. -/
theorem ofChars?_staysOnLine {x : Lexeme} :
    ofChars? cs = some x → x.kind.isTrivia = false → StaysOnLine x.length cs := by
  have single (c : Char) (rest : List Char) (apart : c ≠ '\n' ∧ c ≠ '\r') :
      StaysOnLine 1 (c :: rest) := staysOnLine_cons apart staysOnLine_zero
  fun_cases ofChars? cs <;> intro read visible
  case case1 => cases read
  case case2 => cases read; cases visible
  case case3 => cases read; cases visible
  case case4 rest => cases read; exact single _ rest (by decide)
  case case5 rest => cases read; exact single _ rest (by decide)
  case case6 rest => cases read; exact single _ rest (by decide)
  case case7 rest => cases read; exact single _ rest (by decide)
  case case8 => cases read; cases visible
  case case9 c rest _ _ _ _ _ _ dark _ =>
    cases read
    exact staysOnLine_cons (not_isBlank_apart (by simpa using dark)) (staysOnLine_name rest)
  case case10 c rest _ _ _ _ _ _ _ _ starts => cases read; exact staysOnLine_word _
  case case11 c rest _ _ _ _ _ _ _ _ _ digit => cases read; exact staysOnLine_number _
  case case12 c rest _ _ _ _ _ _ _ _ _ _ =>
    obtain ⟨p, operator, rfl⟩ := Option.map_eq_some_iff.mp read
    intro d taken
    have spelled := List.prefix_iff_eq_take.mp (spelling_prefix_of_operator? operator)
    rw [String.length_toList] at spelled
    exact spelling_apart p d (spelled ▸ taken)

theorem ofWord_visible (cs : List Char) : (ofWord cs).kind.isTrivia = false := by
  fun_cases ofWord cs with
  | case1 => rfl
  | case2 length _ =>
    unfold ofName
    split <;> rfl

/-- Blanks and comments may run over line breaks, but do not end inside one: blanks run up to a
character that is none, and a block comment up to a slash or to the end of the text. -/
theorem ofChars?_trivia_apart {x : Lexeme} :
    ofChars? cs = some x → x.kind.isTrivia = true → insideBreak cs x.length = false := by
  fun_cases ofChars? cs <;> intro read trivia
  case case1 => cases read
  case case2 rest =>
    cases read
    refine StaysOnLine.insideBreak (staysOnLine_takeWhile fun c dark => ?_) (by simp)
    simpa using dark
  case case3 rest length closed runs =>
    cases read
    have ends := blockComment_apart '*' rest
    rw [runs] at ends
    rw [show length + 2 = 1 + (length + 1) by omega, ← insideBreak_drop (Nat.succ_pos length)]
    exact ends
  case case8 => cases read; exact blanks_apart _
  case case10 => cases read; rw [ofWord_visible] at trivia; cases trivia
  case case12 =>
    obtain ⟨p, -, rfl⟩ := Option.map_eq_some_iff.mp read
    cases trivia
  all_goals cases read; cases trivia

/-- No lexeme of program text ends inside a line break. -/
theorem ofChars?_apart {x : Lexeme} (read : ofChars? cs = some x) :
    insideBreak cs x.length = false := by
  cases trivia : x.kind.isTrivia with
  | false => exact (ofChars?_staysOnLine read trivia).insideBreak (ofChars?_takes read).some
  | true => exact ofChars?_trivia_apart read trivia

/-- A part of a string literal does not end inside a line break either: text in it ends at a quote
or a brace, which are no line feeds. -/
theorem inString?_apart {x : Lexeme} (known : quote = '"' ∨ quote = '\x27') :
    inString? quote cs = some x → insideBreak cs x.length = false := by
  fun_cases inString? quote cs <;> intro read <;> cases read
  case case2 c rest closes =>
    rw [beq_iff_eq] at closes
    have apart : c ≠ '\n' ∧ c ≠ '\r' := by rcases known with rfl | rfl <;> simp [closes]
    exact (staysOnLine_cons apart staysOnLine_zero).insideBreak Nat.one_pos
  case case3 c rest _ opens =>
    rw [eq_of_beq opens]
    exact (staysOnLine_cons (by decide) staysOnLine_zero).insideBreak Nat.one_pos
  case case4 c rest _ _ =>
    rw [insideBreak, Bool.and_eq_false_iff]
    right
    rw [beq_eq_false_iff_ne]
    intro next
    rw [← List.head?_drop] at next
    have stops := head?_drop_contentLength quote _ next
    rcases known with rfl | rfl <;> simp at stops

end Lexeme

end XuleLang
