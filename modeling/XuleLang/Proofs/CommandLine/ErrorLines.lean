import XuleLang.CommandLine
import XuleLang.Proofs.Analysis.UnknownName
import XuleLang.Proofs.Syntax.Wording
import XuleLang.Proofs.Text.Split

/-!
Errors line by line.

Whatever is found is told in one line. Complaints are, and a name that means nothing is a token that
reads as a name, and so has no blanks. As all findings are errors, the output has one line for each
diagnostic, and they are found again by splitting it at its line feeds.
-/

namespace XuleLang

variable {edited : SourceText} {imports : List SourceText} {settings : CheckSettings}
  {ds : List Diagnostic} {d : Diagnostic}

/-! ## Messages -/

/-- What ends a line by one convention or another. -/
def lineBreaks : List Char := ['\n', '\x0B', '\x0C', '\r', '\u0085', '\u2028', '\u2029']

theorem IsOneLine.not_mem_lineBreaks {s : String} (line : IsOneLine s) :
    ∀ c ∈ s.toList, c ∉ lineBreaks := by
  have blanks : lineBreaks.all fun c => isBlank c && c != ' ' := by decide +kernel
  intro c member breaks
  have blank := List.all_eq_true.mp blanks c breaks
  rw [Bool.and_eq_true, bne_iff_ne] at blank
  exact blank.2 (line c member blank.1)

namespace RuleFile

/-- What reads as a name in the tree of the edited file is spelled like one. -/
theorem plainName_of_mem_tokens (s : SourceText) :
    ∀ t ∈ (RuleFile.edited s).tree.root.tokens, t.kind.PlainName t.text.toList := by
  unfold RuleFile.edited
  split
  case h_1 stream read =>
    obtain ⟨-, -, ends⟩ := visible_of_tokenizeWithSeams read
    intro t member
    have seen : t ∈ visibleTokens stream.tokens := leaves_parse ends ▸ member
    exact TokenStream.tells_of_ofSteps Lexeme.tells_plainName arranges_withSeams
      (ofSteps_of_tokenizeWithSeams read) t
      (List.mem_filter.mp seen).1
  case h_2 failure _ =>
    have ends : EndsOnce (visibleTokens [.endOfInput .start]) := by decide
    intro t member
    have seen : t ∈ visibleTokens [.endOfInput .start] := leaves_parse ends ▸ member
    obtain rfl := List.mem_singleton.mp seen
    exact TokenKind.plainName_of_other rfl

end RuleFile

theorem RuleSet.MeansNothing.message {s : RuleSet} {v : Vocabulary} {c : Cursor} {name : String}
    {f : Finding} (nothing : s.MeansNothing v c name f) :
    ∃ words, IsOneLine words ∧ f.message = words ++ name ++ "'" := by
  cases nothing with
  | function => exact ⟨"Unknown function '", by decide +kernel, rfl⟩
  | property => exact ⟨"Unknown property '", by decide +kernel, rfl⟩
  | outputAttribute => exact ⟨"Unknown output attribute '", by decide +kernel, rfl⟩
  | variableName => exact ⟨"Unknown variable '", by decide +kernel, rfl⟩

/-- That a name means nothing is told in one line. -/
theorem UnknownName.isOneLine_message {v : Vocabulary} {u : UnknownName} :
    let s := RuleSet.ofTexts edited imports
    u ∈ NameContext.unknownNames ⟨v, .ofRuleSet s⟩ settings s.edited.tree.root →
      IsOneLine u.finding.message := by
  intro s unknown
  obtain ⟨place, sole, -, nothing⟩ := mem_unknownNames_iff.mp unknown
  obtain ⟨r, uses, rule⟩ := nothing.exists_rule
  have shape := (RuleFile.edited_isRead edited).shape_of_mem place
  have named : u.leaf.token.kind.isIdentifierLike = true := by
    obtain missing | ⟨l, same, named⟩ := shape.children_of_namesUsed rule uses
    · rw [missing] at sole
      cases sole
    · rw [sole] at same
      cases same
      exact named
  have inTree : u.leaf.token ∈ s.edited.tree.root.tokens := by
    refine List.mem_map_of_mem ?_
    refine (Tree.leaves_sublist_of_mem_cursorsUnder _ _ place).subset ?_
    rw [Tree.leaves_of_rule? rule, sole]
    exact List.mem_singleton_self _
  have dark : IsOneLine u.leaf.token.text := .of_noBlank fun c member =>
    isBlank_of_isNamePart (RuleFile.plainName_of_mem_tokens edited _ inTree named c member)
  obtain ⟨words, line, message⟩ := nothing.message
  rw [message]
  exact isOneLine_append.mpr ⟨isOneLine_append.mpr ⟨line, dark⟩, by decide +kernel⟩

/-- All diagnostics are told in one line. -/
theorem Analysis.isOneLine_message_of_mem (i : AnalysisInput) (settings : CheckSettings) :
    ∀ d ∈ (ofInput i).diagnostics settings, IsOneLine d.finding.message := by
  have diagnostics : (ofInput i).diagnostics settings = _ := check_eq
  rw [diagnostics]
  intro d member
  rcases List.mem_append.mp member with complaint | name
  · obtain ⟨e, listed, rfl⟩ := List.mem_map.mp complaint
    exact RuleFile.isOneLine_message_of_mem i.edited e listed
  · obtain ⟨u, unknown, rfl⟩ := List.mem_map.mp name
    exact UnknownName.isOneLine_message unknown

/-! ## Lines -/

namespace CommandLine

theorem isOneLine_errorLine (line : IsOneLine d.finding.message) : IsOneLine (errorLine d) := by
  have counts := isOneLine_toString
  unfold errorLine
  simp only [isOneLine_append]
  exact ⟨⟨⟨⟨⟨by decide +kernel, counts _⟩, by decide +kernel⟩, counts _⟩, by decide +kernel⟩, line⟩

/-- Whatever is found is an error. -/
theorem errorLines_eq (ds : List Diagnostic) :
    errorLines ds = if ds = [] then "No errors found" else "\n".intercalate (ds.map errorLine) := by
  have all : ds.filter (fun d => d.finding.severity = .error) = ds :=
    List.filter_eq_self.mpr fun _ _ => rfl
  rw [errorLines, all]
  cases ds <;> rfl

/-- The lines are found again by splitting the output. -/
theorem splitWhere_errorLines (some : ds ≠ [])
    (lines : ∀ d ∈ ds, IsOneLine d.finding.message) :
    splitWhere (· == '\n') (errorLines ds).toList = ds.map fun d => (errorLine d).toList := by
  have joined : (errorLines ds).toList = joinWith '\n' (ds.map fun d => (errorLine d).toList) := by
    rw [errorLines_eq, if_neg some, String.toList_intercalate, List.map_map,
      joinWith_eq_intercalate]
    rfl
  rw [joined, splitWhere_joinWith rfl (by simpa using some)]
  intro line member c inside
  obtain ⟨d, there, rfl⟩ := List.mem_map.mp member
  refine beq_eq_false_iff_ne.mpr ?_
  rintro rfl
  cases isOneLine_errorLine (lines d there) _ inside rfl

/-- No line reads as if nothing had been found. -/
theorem errorLines_eq_iff (lines : ∀ d ∈ ds, IsOneLine d.finding.message) :
    errorLines ds = "No errors found" ↔ ds = [] := by
  refine ⟨fun same => ?_, fun none => by rw [errorLines_eq, if_pos none]⟩
  cases ds with
  | nil => rfl
  | cons d ds =>
    have split := splitWhere_errorLines (List.cons_ne_nil d ds) lines
    rw [same] at split
    have first : (splitWhere (· == '\n') "No errors found".toList).head?.bind List.head? =
        some 'N' := by decide +kernel
    have begins : (errorLine d).toList.head? = some 'L' := by
      simp only [errorLine, String.toList_append]
      rfl
    rw [split, List.map_cons, List.head?_cons, Option.bind_some, begins] at first
    cases first

/-- **Errors are written one to a line.** For every text and its imports, whatever is checked, the
output says that there are no errors just if there are no diagnostics. Else its lines, split at line
feeds, are as many as the diagnostics and in their order, each with the line and the column where
the diagnostic starts, counted from one, and its message. No message holds what ends a line by any
convention, whatever characters stand in the text. -/
theorem errors_are_written_one_to_a_line (i : AnalysisInput) (settings : CheckSettings) :
    let ds := (Analysis.ofInput i).diagnostics settings
    (errorLines ds = "No errors found" ↔ ds = []) ∧
      (ds ≠ [] → splitWhere (· == '\n') (errorLines ds).toList = ds.map fun d =>
        ("Line " ++ toString (d.range.start.line + 1) ++ ":" ++
          toString (d.range.start.character + 1) ++ ": " ++ d.finding.message).toList) ∧
      ∀ d ∈ ds, ∀ c ∈ d.finding.message.toList, c ∉ lineBreaks := by
  intro ds
  have lines : ∀ d ∈ ds, IsOneLine d.finding.message := Analysis.isOneLine_message_of_mem i settings
  exact ⟨errorLines_eq_iff lines, fun some => splitWhere_errorLines some lines,
    fun d member => (lines d member).not_mem_lineBreaks⟩

/-- A character that begins no token between separators of lines, and a variable that means
nothing. -/
def strangeCharacter : AnalysisInput :=
  ⟨⟨"a.xule", "\u2028€\u2029output a $b".toList⟩, [], .empty⟩

theorem strange_character_is_told_in_two_lines :
    let ds := (Analysis.ofInput strangeCharacter).diagnostics .all
    splitWhere (· == '\n') (errorLines ds).toList =
      ["Line 1:2: Unrecognized character '€'".toList,
        "Line 1:13: Unknown variable '$b'".toList] := by
  intro ds
  have found : ds = [⟨⟨⟨0, 1⟩, ⟨0, 2⟩⟩, .syntaxError (.unrecognized '€')⟩,
      ⟨⟨⟨0, 12⟩, ⟨0, 14⟩⟩, .unknownVariable "$b"⟩] := by decide +kernel
  have some : ds ≠ [] := found ▸ List.cons_ne_nil _ _
  refine ((errors_are_written_one_to_a_line strangeCharacter .all).2.1 some).trans ?_
  change ds.map _ = _
  rw [found]
  decide +kernel

end CommandLine

end XuleLang
