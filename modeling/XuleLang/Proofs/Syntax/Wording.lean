import XuleLang.Proofs.Parser.Composition
import XuleLang.Proofs.Token.LongestMatch
import XuleLang.Source.File

/-!
Complaints in words.

A complaint is told in one line: no blanks but spaces stand in it. Most words are fixed, and the
numbers among them are digits. Only the complaint about a character that begins no token repeats
what stands in the text, and a blank always begins a token (`Complaint.NamesNoBlank`). Neither the
lexer nor the parser makes up complaints of its own accord: those of the lexer are about characters
that it skips and comments without end, and the parser only wants what the grammar wants. So all
complaints about a file are in one line, whatever its text.
-/

namespace XuleLang

variable {text : List Char}

/-! ## One line -/

/-- The only blanks are spaces, so that nothing ends a line. -/
def IsOneLine (s : String) : Prop := ∀ c ∈ s.toList, isBlank c = true → c = ' '

instance (s : String) : Decidable (IsOneLine s) := List.decidableBAll _ s.toList

theorem isOneLine_append {s t : String} : IsOneLine (s ++ t) ↔ IsOneLine s ∧ IsOneLine t := by
  simp only [IsOneLine, String.toList_append, List.forall_mem_append]

theorem IsOneLine.of_noBlank {s : String} (dark : ∀ c ∈ s.toList, isBlank c = false) :
    IsOneLine s :=
  fun c member blank => absurd blank (by simp [dark c member])

theorem isOneLine_toString (n : Nat) : IsOneLine (toString n) := by
  refine .of_noBlank fun c member => isBlank_of_isNamePart ?_
  rw [show toString n = n.repr from rfl, Nat.toList_repr] at member
  have digit := Nat.isDigit_of_mem_toDigits (by decide) (by decide) member
  simp [isNamePart, isNameChar, Char.isAlphanum, digit]

/-! ## Words -/

theorem TokenKind.isOneLine_describe (k : TokenKind) : IsOneLine k.describe := by
  cases k with
  | punctuator p => cases p <;> decide +kernel
  | keyword k => cases k <;> decide +kernel
  | _ => decide +kernel

theorem Wanted.isOneLine_describe (w : Wanted) : IsOneLine w.describe := by
  cases w with
  | token kind => exact kind.isOneLine_describe
  | _ => decide +kernel

theorem TooDeep.isOneLine_message (f : TooDeep) : IsOneLine f.message := by
  have counts := isOneLine_toString
  unfold message Position.display
  simp only [isOneLine_append]
  exact ⟨⟨⟨by decide +kernel, counts _⟩, by decide +kernel⟩, ⟨counts _, by decide +kernel⟩,
    counts _⟩

namespace Complaint

/-- A character that is complained of is no blank. -/
def NamesNoBlank (c : Complaint) : Prop := ∀ strange, c = .unrecognized strange →
  isBlank strange = false

theorem NamesNoBlank.of_isOfGrammar {c : Complaint} (own : c.isOfGrammar = true) :
    c.NamesNoBlank := by
  rintro strange rfl
  cases own

theorem NamesNoBlank.isOneLine_message {c : Complaint} (names : c.NamesNoBlank) :
    IsOneLine c.message := by
  cases c with
  | unrecognized strange =>
    have dark : IsOneLine strange.toString := by
      refine .of_noBlank fun c member => ?_
      rw [Char.toString_eq_singleton, String.toList_singleton, List.mem_singleton] at member
      exact member ▸ names strange rfl
    unfold message
    simp only [isOneLine_append]
    exact ⟨⟨by decide +kernel, dark⟩, by decide +kernel⟩
  | expected wanted found =>
    unfold message
    simp only [isOneLine_append]
    exact ⟨⟨⟨by decide +kernel, wanted.isOneLine_describe⟩, by decide +kernel⟩,
      found.isOneLine_describe⟩
  | unreadable failure => exact failure.isOneLine_message
  | _ => decide +kernel

end Complaint

/-! ## Complaints of the parser -/

namespace ParserState

/-- What was complained of so far is what the grammar wants. -/
def KeepsToGrammar (s : ParserState) : Prop := ∀ e ∈ s.errors, e.what.isOfGrammar = true

variable {s t : ParserState}

theorem KeepsToGrammar.of_same (keeps : s.KeepsToGrammar) (errors : t.errors = s.errors) :
    t.KeepsToGrammar := by
  rw [KeepsToGrammar, errors]
  exact keeps

theorem KeepsToGrammar.note (keeps : s.KeepsToGrammar) (kinds : List TokenKind)
    (rules : List Rule) : (s.note kinds rules).KeepsToGrammar :=
  keeps.of_same (s.note_errors kinds rules)

theorem KeepsToGrammar.bump (keeps : s.KeepsToGrammar) : s.bump.KeepsToGrammar := by
  cases here : s.rest with
  | nil => simpa only [ParserState.bump, here] using keeps
  | cons t rest =>
    obtain ⟨u, same, -, read⟩ := bump_eq_settle here
    refine keeps.of_same ?_
    rw [read]
    split <;> exact u.settle_errors.trans same.errors

theorem KeepsToGrammar.complain (keeps : s.KeepsToGrammar) {c : Complaint}
    (own : c.isOfGrammar = true) : (s.complain c).KeepsToGrammar := by
  have settled : s.settle.KeepsToGrammar := keeps.of_same s.settle_errors
  unfold ParserState.complain
  dsimp only
  split
  case isTrue => exact settled
  case isFalse => exact List.forall_mem_cons.mpr ⟨own, settled⟩

theorem KeepsToGrammar.start (keeps : s.KeepsToGrammar) (r : Rule) :
    (s.start r).KeepsToGrammar := by
  obtain ⟨u, started, same, -⟩ := s.start_eq_note r
  rw [started]
  exact (keeps.of_same same.errors).note [] []

theorem KeepsToGrammar.wrap (keeps : s.KeepsToGrammar) (r : Rule) : (s.wrap r).KeepsToGrammar := by
  obtain ⟨u, wrapped, same, -⟩ := s.wrap_eq_note r
  rw [wrapped]
  exact (keeps.of_same same.errors).note [] []

theorem KeepsToGrammar.finish (keeps : s.KeepsToGrammar) : s.finish.KeepsToGrammar :=
  keeps.of_same s.finish_reseen.1.errors

end ParserState

/-- Parsers complain of nothing but what the grammar wants. -/
theorem Parser.Alike.keepsToGrammar {α : Type} {deep : Bool} {p q : Parser α}
    (alike : Alike deep p q) :
    ∀ s : ParserState, s.KeepsToGrammar → (p.run s).2.KeepsToGrammar := by
  induction alike with
  | answer a => exact fun _ => id
  | andThen first next ihFirst ihNext => exact fun s keeps => ihNext _ _ (ihFirst s keeps)
  | ask next ih => exact fun s => ih s s rfl s
  | note kinds rules => exact fun _ keeps => keeps.note kinds rules
  | bump => exact fun _ keeps => keeps.bump
  | complain c own => exact fun _ keeps => keeps.complain own
  | within r body ih => exact fun s keeps => (ih _ (keeps.start r)).finish
  | wrapping r body ih => exact fun s keeps => (ih _ (keeps.wrap r)).finish
  | overrun => exact fun _ => id
  | overrunFirst other ih => exact fun _ => id
  | overrunSecond other ih => exact ih

theorem parse_keepsToGrammar (tokens : List Token) :
    ∀ e ∈ (parse tokens).errors, e.what.isOfGrammar = true := by
  have begin : (ParserState.ofTokens (visibleTokens tokens) none).KeepsToGrammar :=
    List.forall_mem_nil _
  have keeps : (runFile tokens none).KeepsToGrammar :=
    Parser.wholeFile_alike.keepsToGrammar _ begin
  exact fun e member => keeps e (List.mem_reverse.mp member)

/-! ## Complaints of the lexer -/

namespace Lexer

/-- Characters that were complained of so far are no blanks. -/
def NamesNoBlank (l : Lexer) : Prop := ∀ e ∈ l.complaints, e.what.NamesNoBlank

variable {l : Lexer}

theorem NamesNoBlank.complain (names : l.NamesNoBlank) {e : SyntaxError}
    (own : e.what.NamesNoBlank) : (l.complain e).NamesNoBlank :=
  List.forall_mem_cons.mpr ⟨own, names⟩

/-- What is skipped begins no token, and is therefore no blank. -/
theorem NamesNoBlank.skipUnrecognized (names : l.NamesNoBlank) :
    l.skipUnrecognized.NamesNoBlank := by
  rw [Lexer.skipUnrecognized]
  generalize l.rest = cs
  induction cs generalizing l with
  | nil => exact names
  | cons c cs ih =>
    rw [skipUnrecognized.go]
    split
    case isTrue => exact names
    case isFalse nothing =>
      refine ih (NamesNoBlank.complain names ?_)
      rintro _ ⟨⟩
      refine Bool.eq_false_iff.mpr fun blank => nothing ?_
      obtain ⟨x, begins⟩ :=
        Lexeme.exists_ofChars?_of_isBlank (show c ∈ (c :: cs).head? from rfl) blank
      rw [begins]
      rfl

theorem enter_complaints (l : Lexer) (m : Mode) (t : Token) :
    (l.enter m t).2.complaints = l.complaints := by
  unfold enter
  split <;> rfl

theorem NamesNoBlank.emit (names : l.NamesNoBlank) (x : Lexeme) : (l.emit x).2.NamesNoBlank := by
  have same {after : Lexer} (complaints : after.complaints = l.complaints) :
      after.NamesNoBlank := by
    rw [NamesNoBlank, complaints]
    exact names
  unfold Lexer.emit
  dsimp only
  split
  case h_1 | h_2 => exact same (enter_complaints ..)
  case h_3 => split <;> exact names
  case h_4 => exact names
  case h_5 =>
    split
    case isTrue => exact names
    case isFalse => exact NamesNoBlank.complain names nofun

theorem NamesNoBlank.next (names : l.NamesNoBlank) : l.next.2.NamesNoBlank := by
  unfold Lexer.next
  split
  case h_1 =>
    split
    case h_1 x _ => exact names.emit x
    case h_2 => exact names
  case h_2 =>
    dsimp only
    split
    case h_1 x _ => exact names.skipUnrecognized.emit x
    case h_2 => exact names.skipUnrecognized

theorem NamesNoBlank.run (names : l.NamesNoBlank) (fuel : Nat) :
    ∀ step ∈ Lexer.run fuel l, step.2.NamesNoBlank := by
  induction fuel generalizing l with
  | zero => exact nofun
  | succ fuel ih =>
    rw [Lexer.run]
    dsimp only
    split
    · exact List.forall_mem_singleton.mpr names.next
    · exact List.forall_mem_cons.mpr ⟨names.next, ih names.next⟩

end Lexer

theorem TokenStream.namesNoBlank {s : TokenStream} {arrange : List Token → List Token}
    (read : ofSteps arrange (Lexer.steps text) = .ok s) :
    ∀ e ∈ s.complaints, e.what.NamesNoBlank := by
  have begin : (Lexer.ofText text).NamesNoBlank := List.forall_mem_nil _
  have steps : ∀ step ∈ Lexer.steps text, step.2.NamesNoBlank := begin.run (text.length + 1)
  unfold ofSteps at read
  dsimp only at read
  split at read
  case h_1 => cases read
  case h_2 =>
    cases read
    intro e member
    rcases List.mem_append.mp (List.mem_mergeSort.mp member) with remark | extraneous
    · cases last : (Lexer.steps text).getLast? with
      | none => simp [last] at remark
      | some step =>
        have there : e ∈ step.2.complaints := by simpa [last] using remark
        exact steps step (List.mem_of_getLast? last) e there
    · obtain ⟨outcome, -, braces⟩ := List.mem_filterMap.mp extraneous
      cases outcome <;> cases braces
      exact nofun

/-! ## Complaints about files -/

theorem Located.mem_of_mem_merge {α : Type} {first second : List (Located α)} {r : Located α}
    (member : r ∈ merge first second) : r ∈ first ∨ r ∈ second := by
  rcases List.mem_append.mp (List.mem_mergeSort.mp member) with early | late
  · exact .inl early
  · exact .inr (List.mem_filter.mp late).1

/-- All complaints about the edited file are in one line. -/
theorem RuleFile.isOneLine_message_of_mem (s : SourceText) :
    ∀ e ∈ (edited s).errors, IsOneLine e.what.message := by
  unfold edited
  split
  case h_1 stream read =>
    intro e member
    rcases Located.mem_of_mem_merge member with lexer | parser
    · have steps := ofSteps_of_tokenizeWithSeams read
      exact (TokenStream.namesNoBlank steps e lexer).isOneLine_message
    · have own := parse_keepsToGrammar stream.tokens e parser
      exact (Complaint.NamesNoBlank.of_isOfGrammar own).isOneLine_message
  case h_2 failure _ =>
    exact List.forall_mem_singleton.mpr failure.isOneLine_message

end XuleLang
