import XuleLang.Proofs.Token.BracketMatching
import XuleLang.Proofs.Token.Seams
import XuleLang.Proofs.Token.Spelling

/-!
The kind of a token tells its text.

What names, numbers, operators and blanks are is told here by their grammar, without a lexer. The
text of a token is of the form of its kind, and it is the longest front of the text ahead that is,
so that no character more could have been taken.
-/

namespace XuleLang

variable {cs more tail : List Char} {x : Lexeme} {p : Char → Bool}

/-! ## The forms of texts -/

/-- The longest front of the characters ahead that has a form. -/
structure IsLongestFront (P : List Char → Prop) (taken ahead : List Char) : Prop where
  front : taken <+: ahead
  holds : P taken
  longest : ∀ more, more <+: ahead → P more → more.length ≤ taken.length

/-- Name characters, with single hyphens before some of them. -/
inductive IsNameRest : List Char → Prop where
  | nil : IsNameRest []
  | char {c : Char} {cs : List Char} (stands : isNameChar c = true) (rest : IsNameRest cs) :
      IsNameRest (c :: cs)
  | hyphen {c : Char} {cs : List Char} (stands : isNameChar c = true) (rest : IsNameRest cs) :
      IsNameRest ('-' :: c :: cs)

/-- A letter or an underscore, with the rest of a name behind it. -/
def IsName (cs : List Char) : Prop :=
  ∃ c rest, cs = c :: rest ∧ isNameStart c = true ∧ IsNameRest rest

/-- A name with a dollar sign before it. -/
def IsVariable (cs : List Char) : Prop := ∃ name, cs = '$' :: name ∧ IsName name

def IsDigits (cs : List Char) : Prop := cs ≠ [] ∧ ∀ c ∈ cs, c.isDigit = true

/-- Nothing, or a point with digits behind it. -/
inductive IsFraction : List Char → Prop where
  | none : IsFraction []
  | some {ds : List Char} (digits : IsDigits ds) : IsFraction ('.' :: ds)

/-- Nothing, or an `e` with digits behind it, perhaps after a sign. -/
inductive IsExponent : List Char → Prop where
  | none : IsExponent []
  | some {e : Char} {sign ds : List Char} (letter : e = 'e' ∨ e = 'E')
      (signed : sign = [] ∨ sign = ['+'] ∨ sign = ['-']) (digits : IsDigits ds) :
      IsExponent (e :: (sign ++ ds))

/-- Digits, perhaps a fraction, perhaps an exponent. -/
def IsNumber (cs : List Char) : Prop :=
  ∃ whole fraction exponent, cs = whole ++ (fraction ++ exponent) ∧ IsDigits whole ∧
    IsFraction fraction ∧ IsExponent exponent

def IsBlankRun (cs : List Char) : Prop := cs ≠ [] ∧ ∀ c ∈ cs, isBlank c = true

/-- The spelling of a punctuator that is no brace. -/
def IsOperator (cs : List Char) : Prop :=
  ∃ p : Punctuator, p ≠ .lbrace ∧ p ≠ .rbrace ∧ cs = p.spelling.toList

/-- What the text of a token of a kind is, with the characters ahead where it begins. -/
def TokenKind.Describes (k : TokenKind) (taken ahead : List Char) : Prop :=
  match k with
  | .keyword w => taken = w.spelling.toList ∧ IsLongestFront IsName taken ahead
  | .identifier =>
    (∀ w : Keyword, taken ≠ w.spelling.toList) ∧ IsLongestFront IsName taken ahead
  | .variableName => IsLongestFront IsVariable taken ahead
  | .number => IsLongestFront IsNumber taken ahead
  | .punctuator p => taken = p.spelling.toList ∧
    (p ≠ .lbrace → p ≠ .rbrace → IsLongestFront IsOperator taken ahead)
  | .whitespace => IsLongestFront IsBlankRun taken ahead
  | .url => taken <+: ahead ∧ ∀ c ∈ taken, isBlank c = false
  | .stringOpen | .stringClose => taken = ['"'] ∨ taken = ['\x27']
  | .stringContent | .comment | .endOfInput => taken <+: ahead

/-! ## Lengths are those of the longest fronts -/

/-- The characters of a class at the front, with a tail that does not begin with one. The run is
the whole run ahead unless there is no tail. -/
theorem run_cases {run : List Char} (inside : ∀ c ∈ run, p c = true)
    (stops : ∀ c ∈ tail.head?, p c = false) (front : run ++ tail <+: cs) :
    tail = [] ∧ run.length ≤ (cs.takeWhile p).length ∨
      run.length = (cs.takeWhile p).length ∧ tail <+: cs.drop (cs.takeWhile p).length := by
  induction run generalizing cs with
  | nil =>
    cases tail with
    | nil => exact .inl ⟨rfl, Nat.zero_le _⟩
    | cons c tail =>
      obtain ⟨rest, rfl⟩ := front
      have other : p c = false := stops c rfl
      right
      simp [other]
  | cons d run ih =>
    obtain ⟨digit, others⟩ := List.forall_mem_cons.mp inside
    cases cs with
    | nil => simp at front
    | cons c cs =>
      rw [List.cons_append] at front
      obtain ⟨rfl, behind⟩ := List.cons_prefix_cons.mp front
      simpa [digit] using ih others behind

theorem length_le_takeWhile {run : List Char} (inside : ∀ c ∈ run, p c = true)
    (front : run <+: cs) : run.length ≤ (cs.takeWhile p).length := by
  have whole : run ++ [] <+: cs := by simpa using front
  obtain ⟨-, le⟩ | ⟨same, -⟩ := run_cases inside (by simp) whole
  · exact le
  · exact Nat.le_of_eq same

theorem isLongestFront_takeWhile {c : Char} (first : p c = true) :
    IsLongestFront (fun run => run ≠ [] ∧ ∀ c ∈ run, p c = true) ((c :: cs).takeWhile p)
      (c :: cs) where
  front := List.takeWhile_prefix p
  holds := ⟨by simp [first], fun d member => List.all_eq_true.mp List.all_takeWhile d member⟩
  longest more front run := length_le_takeWhile run.2 front

theorem IsNameRest.length_le (rest : IsNameRest more) (front : more <+: cs) :
    more.length ≤ nameLength cs := by
  induction rest generalizing cs with
  | nil => exact Nat.zero_le _
  | char stands _ ih =>
    obtain ⟨behind, rfl⟩ := front
    simpa [nameLength, stands] using ih (List.prefix_append _ _)
  | hyphen stands _ ih =>
    obtain ⟨behind, rfl⟩ := front
    simpa [nameLength, stands] using ih (List.prefix_append _ _)

theorem isNameRest_take (cs : List Char) : IsNameRest (cs.take (nameLength cs)) := by
  fun_induction nameLength cs with
  | case1 => exact .nil
  | case2 c cs part ih =>
    rw [List.take_succ_cons]
    simp only [Bool.or_eq_true, Bool.and_eq_true, beq_iff_eq] at part
    rcases part with named | ⟨rfl, next⟩
    · exact .char named ih
    · -- A name character follows the hyphen, and the rest behind it begins with it.
      obtain ⟨d, ahead, named⟩ := (Option.any_eq_true _ _).mp next
      obtain ⟨ds, rfl⟩ := List.head?_eq_some_iff.mp ahead
      simp only [nameLength, named, Bool.true_or, if_true, List.take_succ_cons] at ih ⊢
      generalize ds.take (nameLength ds) = rest at ih ⊢
      cases ih with
      | char _ rest => exact .hyphen named rest
      | hyphen => exact absurd named (by decide)
  | case3 => exact .nil

theorem isLongestFront_name {c : Char} (starts : isNameStart c = true) :
    IsLongestFront IsName ((c :: cs).take (nameLength (c :: cs))) (c :: cs) := by
  have stands : isNameChar c = true := by
    simp only [isNameStart, isNameChar, Char.isAlphanum, Bool.or_eq_true] at starts ⊢
    exact starts.imp_left .inl
  have one : nameLength (c :: cs) = nameLength cs + 1 := by simp [nameLength, stands]
  rw [one, List.take_succ_cons]
  refine { front := ?_, holds := ⟨c, _, rfl, starts, isNameRest_take cs⟩, longest := ?_ }
  · exact List.cons_prefix_cons.mpr ⟨rfl, List.take_prefix _ _⟩
  · rintro _ front ⟨d, rest, rfl, -, named⟩
    have fits := named.length_le (List.cons_prefix_cons.mp front).2
    simpa [Nat.min_eq_left (nameLength_le cs)] using fits

theorem isLongestFront_variable {c : Char} (starts : isNameStart c = true) :
    IsLongestFront IsVariable ('$' :: (c :: cs).take (nameLength (c :: cs))) ('$' :: c :: cs) := by
  have name : IsLongestFront IsName ((c :: cs).take (nameLength (c :: cs))) (c :: cs) :=
    isLongestFront_name starts
  refine { front := ?_, holds := ⟨_, rfl, name.holds⟩, longest := ?_ }
  · exact List.cons_prefix_cons.mpr ⟨rfl, name.front⟩
  · rintro _ front ⟨named, rfl, holds⟩
    exact Nat.succ_le_succ (name.longest named (List.cons_prefix_cons.mp front).2 holds)

/-! ## Numbers -/

section Numbers

variable {whole fraction exponent : List Char}

theorem isDigits_take (some : digitsLength cs ≠ 0) : IsDigits (cs.take (digitsLength cs)) := by
  have taken : cs.takeWhile Char.isDigit = cs.take (digitsLength cs) :=
    List.prefix_iff_eq_take.mp (List.takeWhile_prefix _)
  rw [← taken]
  refine ⟨fun nothing => some ?_, fun c member => ?_⟩
  · rw [digitsLength, nothing]
    rfl
  · exact List.all_eq_true.mp List.all_takeWhile c member

theorem isFraction_take (cs : List Char) : IsFraction (cs.take (fractionLength cs)) := by
  fun_cases fractionLength cs with
  | case1 => exact .none
  | case2 cs some => exact .some (isDigits_take some)
  | case3 => exact .none

theorem take_signLength (cs : List Char) : cs.take (signLength cs) = [] ∨
    cs.take (signLength cs) = ['+'] ∨ cs.take (signLength cs) = ['-'] := by
  fun_cases signLength cs <;> simp

theorem isExponent_take (cs : List Char) : IsExponent (cs.take (exponentLength cs)) := by
  have behind (e : Char) (cs : List Char) (letter : e = 'e' ∨ e = 'E')
      (some : digitsLength (cs.drop (signLength cs)) ≠ 0) :
      IsExponent ((e :: cs).take
        (1 + signLength cs + digitsLength (cs.drop (signLength cs)))) := by
    rw [Nat.add_assoc, Nat.add_comm 1, List.take_succ_cons, List.take_add]
    exact .some letter (take_signLength cs) (isDigits_take some)
  fun_cases exponentLength cs with
  | case1 => exact .none
  | case2 cs digits some => exact behind 'e' cs (.inl rfl) some
  | case3 => exact .none
  | case4 cs digits some => exact behind 'E' cs (.inr rfl) some
  | case5 => exact .none

/-- A fraction with a tail that begins with neither a digit nor a point is the whole fraction ahead
unless there is no tail. -/
theorem IsFraction.cases (form : IsFraction fraction)
    (stops : ∀ c ∈ tail.head?, c.isDigit = false ∧ c ≠ '.') (front : fraction ++ tail <+: cs) :
    tail = [] ∧ fraction.length ≤ fractionLength cs ∨
      fraction.length = fractionLength cs ∧ tail <+: cs.drop (fractionLength cs) := by
  cases form with
  | none =>
    cases tail with
    | nil => exact .inl ⟨rfl, Nat.zero_le _⟩
    | cons c tail =>
      obtain ⟨rest, rfl⟩ := front
      have other : c ≠ '.' := (stops c rfl).2
      right
      simp [fractionLength, other]
  | @some ds digits =>
    cases cs with
    | nil => simp at front
    | cons c cs =>
      rw [List.cons_append] at front
      obtain ⟨rfl, behind⟩ := List.cons_prefix_cons.mp front
      have one : 0 < ds.length := List.length_pos_iff.mpr digits.1
      have run := run_cases digits.2 (fun c next => (stops c next).1) behind
      have some : digitsLength cs ≠ 0 := by
        rw [digitsLength]
        omega
      have length : fractionLength ('.' :: cs) = digitsLength cs + 1 := by
        simp [fractionLength, some]
      rw [length]
      simpa [digitsLength] using run

theorem IsExponent.length_le (form : IsExponent exponent) (front : exponent <+: cs) :
    exponent.length ≤ exponentLength cs := by
  cases form with
  | none => exact Nat.zero_le _
  | @some e sign ds letter signed digits =>
    obtain ⟨rest, rfl⟩ := front
    have one : 0 < ds.length := List.length_pos_iff.mpr digits.1
    obtain ⟨d, others, rfl⟩ := List.exists_cons_of_ne_nil digits.1
    have digit : d.isDigit = true := digits.2 d List.mem_cons_self
    have ahead : signLength (sign ++ (d :: others ++ rest)) = sign.length := by
      rcases signed with rfl | rfl | rfl
      · have noSign : d ≠ '+' ∧ d ≠ '-' := by
          constructor <;> rintro rfl <;> revert digit <;> decide
        simp [signLength, noSign]
      · rfl
      · rfl
    have run : (d :: others).length ≤ digitsLength (d :: others ++ rest) :=
      length_le_takeWhile digits.2 (List.prefix_append _ rest)
    rw [List.cons_append, List.append_assoc]
    rcases letter with rfl | rfl <;>
    · simp only [exponentLength, ahead, List.drop_left]
      rw [if_neg (by omega)]
      simp only [List.length_cons, List.length_append] at run ⊢
      omega

theorem isLongestFront_number (some : digitsLength cs ≠ 0) :
    IsLongestFront IsNumber (cs.take (numberLength cs)) cs := by
  refine { front := List.take_prefix _ _, holds := ?_, longest := ?_ }
  · refine ⟨_, _, _, ?_, isDigits_take some, isFraction_take (cs.drop (digitsLength cs)),
      isExponent_take
        (cs.drop (digitsLength cs + fractionLength (cs.drop (digitsLength cs))))⟩
    rw [numberLength, List.take_add, List.take_add, List.append_assoc]
  · rintro _ front ⟨whole, fraction, exponent, rfl, digits, ofFraction, ofExponent⟩
    rw [List.length_take, Nat.min_eq_left (numberLength_le cs), numberLength]
    have behindFraction : ∀ c ∈ exponent.head?, c.isDigit = false ∧ c ≠ '.' := by
      cases ofExponent with
      | none => rintro _ ⟨⟩
      | some letter =>
        rintro _ ⟨⟩
        rcases letter with rfl | rfl <;> decide
    have behindWhole : ∀ c ∈ (fraction ++ exponent).head?, c.isDigit = false := by
      cases ofFraction with
      | none => exact fun c next => (behindFraction c next).1
      | some => rintro _ ⟨⟩; decide
    have counted : (whole ++ (fraction ++ exponent)).length =
        whole.length + (fraction.length + exponent.length) := by simp
    rw [counted]
    obtain ⟨nothing, le⟩ | ⟨same, behind⟩ := run_cases digits.2 behindWhole front
    · obtain ⟨rfl, rfl⟩ := List.append_eq_nil_iff.mp nothing
      simp only [digitsLength, List.length_nil]
      omega
    · obtain ⟨rfl, le⟩ | ⟨same', behind'⟩ := ofFraction.cases behindFraction behind
      · simp only [digitsLength, List.length_nil]
        omega
      · rw [List.drop_drop] at behind'
        have le := ofExponent.length_le behind'
        simp only [digitsLength] at same' le ⊢
        omega

end Numbers

/-! ## Operators -/

/-- No front of the characters ahead spells a longer operator than the one that is read. -/
theorem spelling_le_of_operator? {p q : Punctuator} (read : operator? cs = some p)
    (front : q.spelling.toList <+: cs) : q.spelling.length ≤ p.spelling.length := by
  by_cases one : q.spelling.length = 1
  · exact one ▸ spelling_length_pos p
  · obtain ⟨rest, rfl⟩ := front
    cases q <;> first | exact absurd rfl one | simp [Punctuator.spelling, operator?] at read
    -- These two begin longer operators, so that what is read depends on what is behind them.
    case addLeft | subLeft =>
      rcases rest with _ | ⟨c, rest⟩
      · cases read
        decide
      · by_cases closes : c = '>' <;> simp [closes] at read <;> subst read <;> decide
    all_goals subst read; decide

theorem isOperator_of_operator? {p : Punctuator} (read : operator? cs = some p) :
    IsOperator p.spelling.toList := by
  refine ⟨p, ?_, ?_, rfl⟩ <;> rintro rfl <;> revert read <;>
    fun_cases operator? cs <;> simp

theorem isLongestFront_operator {p : Punctuator} (read : operator? cs = some p) :
    IsLongestFront IsOperator p.spelling.toList cs where
  front := spelling_prefix_of_operator? read
  holds := isOperator_of_operator? read
  longest := by
    rintro _ front ⟨q, -, -, rfl⟩
    simpa only [String.length_toList] using spelling_le_of_operator? read front

/-! ## What lexemes are of -/

theorem le_toNat_of_isAlphanum {c : Char} (stands : c.isAlphanum = true) : 0x30 ≤ c.toNat := by
  change (c.isUpper || c.isLower || c.isDigit) = true at stands
  rw [Bool.or_eq_true, Bool.or_eq_true] at stands
  rcases stands with (upper | lower) | digit
  · have upper : 'A'.val ≤ c.val ∧ c.val ≤ 'Z'.val := of_decide_eq_true upper
    exact Nat.le_trans (by decide) (UInt32.le_iff_toNat_le.mp upper.1)
  · have lower : 'a'.val ≤ c.val := of_decide_eq_true (Bool.and_eq_true_iff.mp lower).1
    exact Nat.le_trans (by decide) (UInt32.le_iff_toNat_le.mp lower)
  · exact (Char.isDigit_iff_toNat.mp digit).1

theorem isBlank_of_isNamePart {c : Char} (part : isNamePart c = true) : isBlank c = false := by
  have plain : c.toNat < 128 := (isNamePart_plain part).1
  have bounds : c.toNat = 0x24 ∨ c.toNat = 0x2D ∨ 0x30 ≤ c.toNat := by
    simp only [isNamePart, isNameChar, Bool.or_eq_true, beq_iff_eq] at part
    rcases part with ((stands | rfl) | rfl) | rfl
    · exact .inr (.inr (le_toNat_of_isAlphanum stands))
    all_goals decide
  simp only [isBlank, Bool.or_eq_false_iff, Bool.and_eq_false_iff, decide_eq_false_iff_not,
    beq_eq_false_iff_ne]
  omega

theorem Keyword.mem_all (k : Keyword) : k ∈ Keyword.all := by
  cases k <;> decide

/-- A name is a reserved word just if it is spelled like one. -/
theorem ofName_describes {taken : List Char} (name : IsLongestFront IsName taken cs) :
    (Lexeme.ofName taken).Describes taken cs := by
  unfold Lexeme.ofName Keyword.ofSpelling?
  split
  case h_1 k found =>
    have spelled : k.spelling = String.ofList taken := by simpa using List.find?_some found
    exact ⟨by simp [spelled], name⟩
  case h_2 none =>
    refine ⟨fun k same => ?_, name⟩
    have other := List.find?_eq_none.mp none k k.mem_all
    simp [same] at other

namespace Lexeme

theorem ofWord_describes {c : Char} (starts : isNameStart c = true) :
    (ofWord (c :: cs)).kind.Describes ((c :: cs).take (ofWord (c :: cs)).length) (c :: cs) := by
  fun_cases ofWord (c :: cs) with
  | case1 length rest ahead =>
    refine ⟨List.take_prefix _ _, fun d member => ?_⟩
    rw [Nat.add_assoc, List.take_add, List.mem_append] at member
    rcases member with inName | behind
    · exact isBlank_of_isNamePart (isNamePart_of_mem_nameLength d inName)
    · rw [show List.drop _ (c :: cs) = _ from ahead, Nat.add_comm 3] at behind
      simp only [List.take_succ_cons, List.mem_cons,
        ← List.prefix_iff_eq_take.mp (List.takeWhile_prefix (!isBlank ·))] at behind
      rcases behind with rfl | rfl | rfl | inRun
      · rfl
      · rfl
      · rfl
      · simpa using List.all_eq_true.mp List.all_takeWhile d inRun
  | case2 length _ => exact ofName_describes (isLongestFront_name starts)

/-- The lexeme that program text begins with is described by its kind. -/
theorem ofChars?_describes :
    ofChars? cs = some x → x.kind.Describes (cs.take x.length) cs := by
  fun_cases ofChars? cs <;> intro read
  case case1 => cases read
  case case2 => cases read; exact List.take_prefix _ _
  case case3 => cases read; exact List.take_prefix _ _
  case case4 => cases read; exact .inl rfl
  case case5 => cases read; exact .inr rfl
  case case6 => cases read; exact ⟨rfl, fun other => absurd rfl other⟩
  case case7 => cases read; exact ⟨rfl, fun _ other => absurd rfl other⟩
  case case8 c rest _ _ _ _ _ _ blank =>
    cases read
    dsimp only
    rw [← List.prefix_iff_eq_take.mp (List.takeWhile_prefix isBlank)]
    exact isLongestFront_takeWhile blank
  case case9 c rest _ _ _ _ _ _ _ dollar =>
    cases read
    simp only [Bool.and_eq_true, beq_iff_eq] at dollar
    obtain ⟨rfl, named⟩ := dollar
    obtain ⟨d, ahead, starts⟩ := (Option.any_eq_true _ _).mp named
    obtain ⟨ds, rfl⟩ := List.head?_eq_some_iff.mp ahead
    exact isLongestFront_variable starts
  case case10 c rest _ _ _ _ _ _ _ _ starts => cases read; exact ofWord_describes starts
  case case11 c rest _ _ _ _ _ _ _ _ _ digit =>
    cases read
    exact isLongestFront_number (by simp [digitsLength, digit])
  case case12 c rest _ _ _ _ _ _ _ _ _ _ =>
    obtain ⟨p, operator, rfl⟩ := Option.map_eq_some_iff.mp read
    have taken : (c :: rest).take p.spelling.length = p.spelling.toList := by
      have spelled := List.prefix_iff_eq_take.mp (spelling_prefix_of_operator? operator)
      rw [String.length_toList] at spelled
      exact spelled.symm
    dsimp only
    rw [taken]
    exact ⟨rfl, fun _ _ => isLongestFront_operator operator⟩

/-- So is the one that the rest of a string literal begins with. -/
theorem inString?_describes {quote : Char} (quotes : quote = '"' ∨ quote = '\x27') :
    inString? quote cs = some x → x.kind.Describes (cs.take x.length) cs := by
  fun_cases inString? quote cs <;> intro read <;> cases read
  case case2 c rest closes =>
    obtain rfl : c = quote := by simpa using closes
    rcases quotes with rfl | rfl
    · exact .inl rfl
    · exact .inr rfl
  case case3 c rest _ opens =>
    obtain rfl : c = '\x7b' := by simpa using opens
    exact ⟨rfl, fun other => absurd rfl other⟩
  case case4 => exact List.take_prefix _ _

end Lexeme

/-! ## Blanks between tokens -/

theorem IsNameRest.isNamePart (rest : IsNameRest cs) : ∀ c ∈ cs, isNamePart c = true := by
  induction rest with
  | nil => exact nofun
  | char stands _ ih => exact List.forall_mem_cons.mpr ⟨by simp [XuleLang.isNamePart, stands], ih⟩
  | hyphen stands _ ih =>
    exact List.forall_mem_cons.mpr ⟨rfl, List.forall_mem_cons.mpr
      ⟨by simp [XuleLang.isNamePart, stands], ih⟩⟩

theorem IsName.isNamePart (name : IsName cs) : ∀ c ∈ cs, isNamePart c = true := by
  obtain ⟨c, rest, rfl, starts, behind⟩ := name
  refine List.forall_mem_cons.mpr ⟨?_, behind.isNamePart⟩
  simp only [isNameStart, XuleLang.isNamePart, isNameChar, Char.isAlphanum,
    Bool.or_eq_true] at starts ⊢
  exact .inl (.inl (starts.imp_left .inl))

theorem IsNumber.noBlank (number : IsNumber cs) : ∀ c ∈ cs, isBlank c = false := by
  have digits {ds : List Char} (digits : IsDigits ds) : ∀ c ∈ ds, isBlank c = false :=
    fun c member => isBlank_of_isNamePart (by
      simp [XuleLang.isNamePart, isNameChar, Char.isAlphanum, digits.2 c member])
  obtain ⟨whole, fraction, exponent, rfl, ofWhole, ofFraction, ofExponent⟩ := number
  refine List.forall_mem_append.mpr ⟨digits ofWhole, List.forall_mem_append.mpr ⟨?_, ?_⟩⟩
  · cases ofFraction with
    | none => rintro _ ⟨⟩
    | some behind => exact List.forall_mem_cons.mpr ⟨rfl, digits behind⟩
  · cases ofExponent with
    | none => rintro _ ⟨⟩
    | some letter signed behind =>
      refine List.forall_mem_cons.mpr ⟨?_, List.forall_mem_append.mpr ⟨?_, digits behind⟩⟩
      · rcases letter with rfl | rfl <;> rfl
      · rcases signed with rfl | rfl | rfl <;> simp <;> rfl

/-- Only trivia and the text of string literals hold blanks. -/
theorem TokenKind.Describes.noBlank {k : TokenKind} {taken ahead : List Char}
    (describes : k.Describes taken ahead) (visible : k.isTrivia = false)
    (noContent : k ≠ .stringContent) (inside : k ≠ .endOfInput) :
    ∀ c ∈ taken, isBlank c = false := by
  cases k with
  | punctuator p =>
    have all : p.spelling.toList.all fun c => isBlank c = false := by cases p <;> decide
    intro c member
    exact of_decide_eq_true (List.all_eq_true.mp all c (describes.1 ▸ member))
  | keyword => exact fun c member => isBlank_of_isNamePart (describes.2.holds.isNamePart c member)
  | identifier =>
    exact fun c member => isBlank_of_isNamePart (describes.2.holds.isNamePart c member)
  | variableName =>
    obtain ⟨name, rfl, named⟩ := describes.holds
    exact List.forall_mem_cons.mpr
      ⟨rfl, fun c member => isBlank_of_isNamePart (named.isNamePart c member)⟩
  | number => exact describes.holds.noBlank
  | url => exact describes.2
  | stringOpen | stringClose => rcases describes with rfl | rfl <;> simp <;> rfl
  | stringContent => exact absurd rfl noContent
  | whitespace | comment => cases visible
  | endOfInput => exact absurd rfl inside

/-- A blank begins a token. -/
theorem Lexeme.exists_ofChars?_of_isBlank {c : Char} (first : c ∈ cs.head?)
    (blank : isBlank c = true) : ∃ x, ofChars? cs = some x := by
  fun_cases ofChars? cs
  case case1 => cases first
  case case12 dark _ _ _ => cases first; exact absurd blank dark
  all_goals exact ⟨_, rfl⟩

namespace Scans

variable {text : List Char} {ts : List Token} {n : Nat}

/-- What is scanned is described by its kind. -/
theorem describes (scans : Scans text ts n) (ahead : lexemeBehind? ts (text.drop n) = some x) :
    x.kind.Describes ((text.drop n).take x.length) (text.drop n) := by
  obtain ⟨o, outer, innermost, string, same⟩ | ⟨-, same⟩ := lexemeBehind?_cases ts
  · have quotes := (scans.text_of_stringOpen
      (opens_of_mem_unmatched (innermost ▸ List.mem_cons_self)).1 string).2
    exact Lexeme.inString?_describes quotes ((same _).symm.trans ahead)
  · exact Lexeme.ofChars?_describes ((same _).symm.trans ahead)

/-- A blank behind which a scan stands is the end of a token, and that is no visible one but the
text of a string literal. -/
theorem token_of_blank (scans : Scans text ts n) {c : Char} (last : c ∈ (text.take n).getLast?)
    (blank : isBlank c = true) : ∃ u ∈ ts.getLast?, u.span.stop.offset = n ∧
      (u.kind = .whitespace ∨ u.kind = .comment ∨ u.kind = .stringContent) := by
  cases scans with
  | start => simp at last
  | @skip ts n _ inside nothing =>
    rw [List.take_succ_eq_append_getElem inside, List.getLast?_concat] at last
    cases last
    rw [List.drop_eq_getElem_cons inside] at nothing
    obtain ⟨o, outer, -, -, same⟩ | ⟨-, same⟩ := lexemeBehind?_cases ts
    · obtain ⟨x, goes⟩ := Lexeme.exists_inString? o.quote text[n] (text.drop (n + 1))
      rw [same, goes] at nothing
      cases nothing
    · obtain ⟨x, goes⟩ : ∃ x, Lexeme.ofChars? (text[n] :: text.drop (n + 1)) = some x :=
        Lexeme.exists_ofChars?_of_isBlank rfl blank
      rw [same, goes] at nothing
      cases nothing
  | @read ts n x scans ahead =>
    refine ⟨_, List.getLast?_concat, rfl, ?_⟩
    have takes := lexemeBehind?_takes ahead
    have inLexeme : c ∈ (text.drop n).take x.length := by
      have some : (text.drop n).take x.length ≠ [] := by
        have one := takes.some
        have available := takes.available
        rw [ne_eq, ← List.length_eq_zero_iff, List.length_take]
        omega
      rw [List.take_add, List.getLast?_append, Option.or_of_isSome (by simpa using some)] at last
      exact List.mem_of_mem_getLast? last
    refine Decidable.byContradiction fun other => ?_
    obtain ⟨noBlanks, noComment, noContent⟩ : x.kind ≠ .whitespace ∧ x.kind ≠ .comment ∧
        x.kind ≠ .stringContent := by simpa [tokenAt] using other
    have visible : x.kind.isTrivia = false := by
      cases kind : x.kind <;> simp_all [TokenKind.isTrivia]
    have dark := (scans.describes ahead).noBlank visible noContent takes.inside c inLexeme
    simp [blank] at dark

/-- Two runs of blanks in a row would have been one. -/
theorem not_whitespace_twice {u : Token} (scans : Scans text ts n)
    (ahead : lexemeBehind? ts (text.drop n) = some x) (blanks : x.kind = .whitespace)
    (ends : u ∈ ts.getLast?) (stops : u.span.stop.offset = n) : u.kind ≠ .whitespace := by
  intro white
  obtain ⟨front, rfl⟩ := List.getLast?_eq_some_iff.mp ends
  obtain ⟨m, y, before, earlier, rfl⟩ := scans.exists_before rfl
  obtain rfl : m + y.length = n := stops
  have first := before.describes earlier
  have second := scans.describes ahead
  rw [show y.kind = .whitespace from white] at first
  rw [blanks, ← List.drop_drop] at second
  obtain ⟨some, run⟩ := second.holds
  have both : IsBlankRun ((text.drop m).take (y.length + x.length)) := by
    rw [List.take_add]
    exact ⟨fun nothing => some (List.append_eq_nil_iff.mp nothing).2,
      List.forall_mem_append.mpr ⟨first.holds.2, run⟩⟩
  have longest := first.longest _ (List.take_prefix _ _) both
  rw [List.take_add, List.length_append] at longest
  have one : 0 < _ := List.length_pos_iff.mpr some
  omega

/-- Before a token of blanks stands no blank, unless it ends a comment. -/
theorem comment_of_blank (scans : Scans text ts n)
    (ahead : lexemeBehind? ts (text.drop n) = some x) (blanks : x.kind = .whitespace) {c : Char}
    (last : c ∈ (text.take n).getLast?) (blank : isBlank c = true) :
    ∃ u ∈ ts.getLast?, u.kind = .comment ∧ u.span.stop.offset = n := by
  obtain ⟨u, ends, stops, kind⟩ := scans.token_of_blank last blank
  refine ⟨u, ends, ?_, stops⟩
  rcases kind with white | comment | content
  · exact absurd white (scans.not_whitespace_twice ahead blanks ends stops)
  · exact comment
  · obtain ⟨o, outer, innermost, string, -⟩ := scans.stops_behind_content ends content
    simp only [lexemeBehind?, innermost, string, if_true] at ahead
    cases Lexeme.inString?_cases ahead with
    | closes kind | opens kind | content kind => simp [blanks] at kind

end Scans

/-! ## Streams -/

/-- The tokens of a stream of a text are what their kinds tell. -/
structure TokenStream.TellsTexts (s : TokenStream) (text : List Char) : Prop where
  /-- The text of a token is of the form of its kind, and no longer one is ahead. White space is
  that of the text, and not a marker. -/
  described : ∀ t ∈ s.tokens, (t.kind = .whitespace → t.channel = .hidden) →
    t.kind.Describes t.text.toList (text.drop t.span.start.offset)
  /-- No blank stands before a run of blanks, unless it ends a comment. -/
  separated : ∀ t ∈ s.tokens, t.kind = .whitespace → t.channel = .hidden →
    ∀ c ∈ (text.take t.span.start.offset).getLast?, isBlank c = true →
      ∃ u ∈ s.tokens, u.kind = .comment ∧ u.span.stop.offset = t.span.start.offset

variable {text : List Char} {s : TokenStream}

theorem TokenStream.tellsTexts (read : tokenize text = .ok s) : s.TellsTexts text where
  described t member _ := by
    obtain ⟨front, back, split⟩ := List.append_of_mem member
    obtain ⟨-, rfl⟩ | ⟨m, x, scans, ahead, rfl, -⟩ := token_cases read split
    · exact List.nil_prefix
    · simpa [tokenAt, spanBetween] using scans.describes ahead
  separated t member white _ c last blank := by
    obtain ⟨front, back, split⟩ := List.append_of_mem member
    obtain ⟨-, rfl⟩ | ⟨m, x, scans, ahead, rfl, -⟩ := token_cases read split
    · cases white
    · obtain ⟨u, ends, comment, stops⟩ := scans.comment_of_blank ahead white last blank
      exact ⟨u, split ▸ List.mem_append_left _ (List.mem_of_mem_getLast? ends), comment, stops⟩

/-- Markers count as white space. -/
theorem TokenStream.kind_of_marker (read : tokenizeWithSeams text = .ok s) {t : Token}
    (member : t ∈ s.tokens) (marks : t.channel = .marker) : t.kind = .whitespace := by
  obtain ⟨ts, es, all, tokens, -, -⟩ := ofSteps_eq_ok (ofSteps_of_tokenizeWithSeams read)
  obtain ⟨front, ts_eq, -⟩ := all.ended
  obtain ⟨marked, arranged, members⟩ := arranges_withSeams.ended
    (.endOfInput (positionAt text text.length)) rfl front
  rw [tokens, ts_eq, arranged] at member
  obtain ⟨u, there, same⟩ := mem_numbered member
  rw [same] at marks ⊢
  rcases List.mem_append.mp there with inside | last
  · rcases members u inside with own | ⟨v, -, rfl⟩
    · exact absurd marks (all.read u (by simp [ts_eq, own])).channel_ne_marker
    · rfl
  · cases List.mem_singleton.mp last
    cases marks

/-- **Kinds tell the texts of tokens.** In a text that can be read, with or without markers, a
reserved word is spelled as it is and no identifier is spelled like one, an operator is the longest
one ahead, and names, variables, numbers and blanks are as long as their forms let them be. -/
theorem kinds_tell_texts
    (read : tokenize text = .ok s ∨ tokenizeWithSeams text = .ok s) : s.TellsTexts text := by
  rcases read with read | readSeams
  · exact TokenStream.tellsTexts read
  · obtain ⟨failure, -, failed⟩ | ⟨plain, seamed, readPlain, same, -, beside⟩ :=
      tokenize_beside_tokenizeWithSeams text
    · cases failed.symm.trans readSeams
    · cases same.symm.trans readSeams
      have tells := TokenStream.tellsTexts readPlain
      -- What is no marker is a token of the other stream, with another number.
      let place := placeWithoutMarkers s.tokens
      have plain_eq : plain.tokens =
        (s.tokens.filter (·.channel != .marker)).map (·.renumbered place) := beside.tokens
      have among {t : Token} (member : t ∈ s.tokens) (read : t.channel ≠ .marker) :
          t.renumbered place ∈ plain.tokens :=
        plain_eq ▸ List.mem_map_of_mem (List.mem_filter.mpr ⟨member, by simpa using read⟩)
      refine { described := fun t member whole => ?_, separated := fun t member white hidden => ?_ }
      · have read : t.channel ≠ .marker := fun marks => by
          have hidden := whole (TokenStream.kind_of_marker readSeams member marks)
          exact absurd (marks.symm.trans hidden) (by decide)
        exact tells.described (t.renumbered place) (among member read) whole
      · intro c last blank
        obtain ⟨v, there, comment, stops⟩ :=
          tells.separated _ (among member (by simp [hidden])) white hidden c last blank
        rw [plain_eq] at there
        obtain ⟨u, kept, rfl⟩ := List.mem_map.mp there
        exact ⟨u, (List.mem_filter.mp kept).1, comment, stops⟩

/-- Operators, numbers and names that are near to longer ones. -/
def nearMisses : List Char := "if-not if<+>1.5e+ $a-b--c // x \n<+-1.".toList

/-- What is visible of them, with the end of the text. -/
def nearMissesRead : List (TokenKind × String) :=
  [(.identifier, "if-not"), (.keyword .ifKw, "if"), (.punctuator .addBoth, "<+>"),
   (.number, "1.5"), (.identifier, "e"), (.punctuator .plus, "+"), (.variableName, "$a-b"),
   (.punctuator .minus, "-"), (.punctuator .minus, "-"), (.identifier, "c"),
   (.punctuator .addLeft, "<+"), (.punctuator .minus, "-"), (.number, "1"),
   (.punctuator .dot, "."), (.endOfInput, "")]

theorem near_misses_are_not_extended : ∃ s, tokenizeWithSeams nearMisses = .ok s ∧
    s.TellsTexts nearMisses ∧
    (visibleTokens s.tokens).map (fun t => (t.kind, t.text)) = nearMissesRead := by
  have told : (tokenizeWithSeams nearMisses).toOption.map (fun s =>
      (visibleTokens s.tokens).map fun t => (t.kind, t.text)) = some nearMissesRead := by
    decide +kernel
  cases read : tokenizeWithSeams nearMisses with
  | error failure => simp [read, Except.toOption] at told
  | ok s =>
    exact ⟨s, rfl, kinds_tell_texts (.inr read), by simpa [read, Except.toOption] using told⟩

end XuleLang
