import XuleLang.Proofs.Analysis.Caret
import XuleLang.Proofs.Text.Clamping

/-!
Places of an editor in trees.

Whatever place an editor names, it stands for an offset of the text, and the line and column of that
offset touch the root of every tree that is made of the text. An editor and a reader of tokens count
lines apart from each other; they agree since both end a line where `breaksLine` says.
-/

namespace XuleLang

variable {text : List Char} {o : Nat} {s : TokenStream}

/-- A caret in a text that was read is always resolved. -/
theorem isSome_caretAt?_of_ofSteps {arrange : List Token → List Token}
    (arranges : Arranges arrange) (read : TokenStream.ofSteps arrange (Lexer.steps text) = .ok s)
    (inside : o ≤ text.length) :
    ((parse s.tokens).tree.caretAt? (positionAt text o).line
      (positionAt text o).column).isSome := by
  obtain ⟨-, -, ends⟩ := TokenStream.visible_of_ofSteps arranges read
  obtain ⟨last, n, trees, -, -, root⟩ := parse_root ends
  have covers : (parse s.tokens).tree.root.span? = some (wholeSpan s.tokens) :=
    congrArg Tree.span? root
  rw [caretAt?_of_touches covers (wholeSpan_touches_of_ofSteps arranges read inside)]
  rfl

/-- **Places of an editor are clamped.** A place on a line that does not exist stands for the end of
the text, and any other for the last place on its line that is at most as many UTF-16 units behind
the beginning of the line. Lines of plain characters may be measured instead of walked along, and
in what pieces a text lies makes no difference. Both counts of lines agree on the offset, and where
the text can be read, with markers or without, it always has a caret. -/
theorem editor_places_are_clamped (text : List Char) (inOnePiece : Nat → Bool)
    (p : EditorPosition) :
    let o := offsetInPieces inOnePiece text p
    (breaksBefore text text.length < p.line → o = text.length) ∧
      (p.line ≤ breaksBefore text text.length →
        IsGreatest {n | OnLine text p.line n ∧ utf16Length (lineBefore text n) ≤ p.character} o) ∧
      (∀ rest, isPlainLine (firstLine rest) →
        plainFittingLength (firstLine rest) p.character =
          fittingLength (firstLine rest) p.character) ∧
      o = offsetAt text p ∧
      positionOfEditor text p = ⟨breaksBefore text o + 1, o - lineStart text o + 1, o⟩ ∧
      ∀ s, tokenize text = .ok s ∨ tokenizeWithSeams text = .ok s →
        ((parse s.tokens).tree.caretAt? (positionOfEditor text p).line
          (positionOfEditor text p).column).isSome := by
  intro o
  have whole : o = offsetAt text p := offsetInPieces_eq inOnePiece text p
  have inside : o ≤ text.length := whole ▸ offsetAt_le text p
  refine ⟨fun missing => ?_, fun present => ?_, fun rest plain => ?_, whole, ?_, fun s read => ?_⟩
  · rw [whole, offsetAt_of_missing missing]
  · rw [whole]
    exact offsetAt_isGreatest present
  · exact plainFittingLength_eq rest plain p.character
  · rw [positionOfEditor_eq, ← whole, positionAt_eq inside]
  · rw [positionOfEditor_eq, ← whole]
    rcases read with unmarked | marked
    · exact isSome_caretAt?_of_ofSteps arranges_id (ofSteps_of_tokenize unmarked) inside
    · exact isSome_caretAt?_of_ofSteps arranges_withSeams
        (ofSteps_of_tokenizeWithSeams marked) inside

/-- A clef takes two units, of which the second begins inside of it. -/
def clef : List Char := "a = '𝄞x'\nnext".toList

/-- A place in the middle of the clef stands for the one before it, and one on the tenth line for
the end. -/
theorem places_around_a_clef_are_clamped :
    IsGreatest {n | OnLine clef 0 n ∧ utf16Length (lineBefore clef n) ≤ 6} 5 ∧
      offsetInPieces (fun _ => true) clef ⟨9, 0⟩ = clef.length ∧
      plainFittingLength (firstLine "next".toList) 6 = fittingLength (firstLine "next".toList) 6 ∧
      ∃ s, tokenizeWithSeams clef = .ok s ∧
        ((parse s.tokens).tree.caretAt? (positionOfEditor clef ⟨0, 6⟩).line
          (positionOfEditor clef ⟨0, 6⟩).column).isSome := by
  obtain ⟨-, present, plain, -, -, resolved⟩ :=
    editor_places_are_clamped clef (fun _ => true) ⟨0, 6⟩
  have rounded : offsetInPieces (fun _ => true) clef ⟨0, 6⟩ = 5 := by decide +kernel
  refine ⟨rounded ▸ present (by decide +kernel), ?_, plain _ (by decide +kernel), ?_⟩
  · exact (editor_places_are_clamped clef (fun _ => true) ⟨9, 0⟩).1 (by decide +kernel)
  · have readable : (tokenizeWithSeams clef).toOption.isSome = true := by decide +kernel
    cases read : tokenizeWithSeams clef with
    | error failure => simp [read, Except.toOption] at readable
    | ok s => exact ⟨s, rfl, resolved s (.inr read)⟩

end XuleLang
