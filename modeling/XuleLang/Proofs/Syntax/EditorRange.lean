import XuleLang.Proofs.Syntax.Complaints
import XuleLang.Proofs.Text.Editor

/-!
An editor and the lexer agree on lines.

The lexer counts lines and columns in characters as it reads, `positionAt` does so from the start of
a text, and an editor counts lines from zero and UTF-16 units behind the beginning of a line. All
three tell a place by the line breaks before it. So an editor's place leads back to where it was
made from, unless that is between the two characters of one line break. No token and no complaint
starts or stops there, whether the text could be read or not: what is shown in an editor leads back
to the stretch that it was made from.
-/

namespace XuleLang

variable {text : List Char} {tokens : List Token} {s : TokenStream} {span : Span}

/-- In an editor the ends of the span are places that lead back to the span's own ends. -/
def Span.LeadsBack (s : Span) (text : List Char) : Prop :=
  offsetAt text (editorRangeOf text s).start = s.start.offset ∧
  offsetAt text (editorRangeOf text s).stop = s.stop.offset ∧
  positionOfEditor text (editorRangeOf text s).start = s.start ∧
  positionOfEditor text (editorRangeOf text s).stop = s.stop

theorem Span.IsApartIn.leadsBack (apart : span.IsApartIn text) : span.LeadsBack text := by
  have first := offsetAt_editorPositionAt (Nat.le_trans apart.ordered apart.inside)
    apart.start_apart
  have last := offsetAt_editorPositionAt apart.inside apart.stop_apart
  refine ⟨first, last, ?_, ?_⟩
  · exact (positionOfEditor_eq _ _).trans ((congrArg _ first).trans apart.start.symm)
  · exact (positionOfEditor_eq _ _).trans ((congrArg _ last).trans apart.stop.symm)

/-- What is told of a text, by its tokens and by complaints about it, takes no line break apart. -/
structure TellsApart (text : List Char) (tokens : List Token) (es : List SyntaxError) : Prop where
  token : ∀ t ∈ tokens, t.span.IsApartIn text
  complaint : ∀ e ∈ es, ∃ span, e.span = some span ∧ span.IsApartIn text

/-- The parser complains of tokens. -/
theorem parse_tellsApart (ends : EndsOnce (visibleTokens tokens))
    (token : ∀ t ∈ tokens, t.span.IsApartIn text) :
    TellsApart text tokens (parse tokens).errors := by
  refine { token := token, complaint := fun e member => ?_ }
  obtain ⟨t, there, about⟩ := (parse_complains_of_tokens ends).exists_token e member
  exact ⟨t.span, about, token t (List.mem_filter.mp there).1⟩

/-- What the lexer and the parser tell of a text that could be read. -/
theorem parseStream_tellsApart {arrange : List Token → List Token} (arranges : Arranges arrange)
    (read : TokenStream.ofSteps arrange (Lexer.steps text) = .ok s) :
    TellsApart text s.tokens (parseStream s).errors := by
  obtain ⟨-, -, ends⟩ := TokenStream.visible_of_ofSteps arranges read
  have own := parse_tellsApart ends (TokenStream.token_isApartIn arranges read)
  refine { token := own.token, complaint := fun e member => ?_ }
  rcases List.mem_append.mp ((List.mergeSort_perm _ _).mem_iff.mp member) with first | second
  · exact TokenStream.complaint_isApartIn read e first
  · exact own.complaint e (List.mem_filter.mp second).1

/-- What is told of the edited text, whether it could be read or not. -/
theorem RuleFile.edited_tellsApart (s : SourceText) :
    TellsApart s.text (edited s).tree.tokens (edited s).errors := by
  cases read : tokenizeWithSeams s.text with
  | ok stream =>
    have file : edited s = .ofStream s stream := by simp only [edited, read]
    rw [file]
    exact parseStream_tellsApart arranges_withSeams (ofSteps_of_tokenizeWithSeams read)
  | error failure =>
    have file : edited s = .ofFailure s failure := by simp only [edited, read]
    rw [file]
    refine { token := fun t member => ?_, complaint := fun e member => ?_ }
    · obtain rfl := List.mem_singleton.mp member
      have start : (Token.endOfInput .start).span = spanBetween s.text 0 0 := by
        simp [spanBetween, Token.endOfInput, Span.single]
      rw [start]
      exact spanBetween_isApartIn (Nat.le_refl 0) (Nat.zero_le _) insideBreak_zero insideBreak_zero
    · obtain rfl := List.mem_singleton.mp member
      exact ⟨_, rfl, TokenStream.failure_isApartIn
        ((tokenizeWithSeams_eq s.text).symm.trans read)⟩

/-- **An editor and the lexer agree on lines.** An editor's place and the lexer's have as many lines
before them as there are line breaks, and what stands before them on their line is counted in UTF-16
units by the one, in characters by the other. Unless it is between the two characters of one line
break, an editor's place leads back to its offset and to the lexer's place. Later places are later
for an editor too. All tokens of a file and all complaints about it, whether the file is edited or
imported and could be read or not, are shown where they lead back to their own ends. -/
theorem editor_and_lexer_agree_on_lines (text : List Char) :
    (∀ i ≤ text.length,
      editorPositionAt text i = ⟨breaksBefore text i, utf16Length (lineBefore text i)⟩ ∧
      positionAt text i = ⟨breaksBefore text i + 1, (lineBefore text i).length + 1, i⟩ ∧
      (insideBreak text i = false → offsetAt text (editorPositionAt text i) = i ∧
        positionOfEditor text (editorPositionAt text i) = positionAt text i)) ∧
    (∀ i j, i < j → j ≤ text.length →
      (editorPositionAt text i).Precedes (editorPositionAt text j)) ∧
    ∀ origin f, f = RuleFile.edited ⟨origin, text⟩ ∨ RuleFile.imported? ⟨origin, text⟩ = some f →
      (∀ t ∈ f.tree.tokens, t.span.LeadsBack text) ∧
      ∀ e ∈ f.errors, ∃ span, e.span = some span ∧ span.LeadsBack text := by
  refine ⟨fun i inside => ⟨editorPositionAt_eq inside, ?_, fun apart => ?_⟩,
    fun i j before inside => editorPositionAt_precedes before inside, fun origin f file => ?_⟩
  · rw [positionAt_eq inside, lineBefore_length inside]
  · have back := offsetAt_editorPositionAt inside apart
    exact ⟨back, by rw [positionOfEditor_eq, back]⟩
  · have tells : TellsApart text f.tree.tokens f.errors := by
      rcases file with rfl | imported
      · exact RuleFile.edited_tellsApart ⟨origin, text⟩
      · cases read : tokenize text with
        | error failure => simp [RuleFile.imported?, read] at imported
        | ok stream =>
          simp only [RuleFile.imported?, read, Option.some.injEq] at imported
          rw [← imported]
          exact parseStream_tellsApart arranges_id (ofSteps_of_tokenize read)
    exact ⟨fun t member => (tells.token t member).leadsBack, fun e member =>
      (tells.complaint e member).imp fun span found => ⟨found.1, found.2.leadsBack⟩⟩

end XuleLang
