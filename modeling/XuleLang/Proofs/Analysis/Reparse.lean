import XuleLang.Analysis.Completion
import XuleLang.Analysis.Definition

/-!
Reading a text anew against the imports of an analysis.

There are two ways to an analysis of a text: from the texts that are imported, or from an analysis
of another text, of which only the edited file is read again. They lead to the same analysis, file
by file and name by name. What one way leaves out of the imports, the other never sees; and of the
namespaces of the other text nothing stays behind, because those that are configured are kept
apart from those that files declare.
-/

namespace XuleLang

/-- The same input with another edited text from the same place. -/
def AnalysisInput.withText (i : AnalysisInput) (text : List Char) : AnalysisInput :=
  { i with edited := ⟨i.edited.origin, text⟩ }

variable {i : AnalysisInput}

@[simp] theorem AnalysisInput.withText_withText (text other : List Char) :
    (i.withText text).withText other = i.withText other := rfl

namespace RuleSet

/-- Reading the edited text anew gives the rule set of the new texts. The imports that were left
out before are those that would be left out now, as the edited text comes from the same place. -/
theorem withText_ofTexts (edited : SourceText) (imports : List SourceText) (text : List Char) :
    (ofTexts edited imports).withText text = ofTexts ⟨edited.origin, text⟩ imports := by
  simp only [withText, ofTexts, RuleFile.edited_origin]

end RuleSet

namespace Analysis

/-- Reading one text anew is analysing it from scratch. -/
theorem withText_ofInput (text : List Char) :
    (ofInput i).withText text = ofInput (i.withText text) := by
  have rules : (ofInput i).rules.withText text =
      RuleSet.ofTexts ⟨i.edited.origin, text⟩ i.imports :=
    RuleSet.withText_ofTexts i.edited i.imports text
  have configured : (ofInput i).configured = i.configured := rfl
  rw [withText, rules, configured]
  rfl

/-- Reading the same text anew changes nothing. -/
theorem withText_same : (ofInput i).withText i.edited.text = ofInput i :=
  withText_ofInput i.edited.text

/-- After any texts only the last one counts. -/
theorem foldl_withText_ofInput (texts : List (List Char)) (last : List Char) :
    (texts ++ [last]).foldl withText (ofInput i) = ofInput (i.withText last) := by
  induction texts generalizing i with
  | nil => exact withText_ofInput last
  | cons text rest ih =>
    rw [List.cons_append, List.foldl_cons, withText_ofInput, ih, AnalysisInput.withText_withText]

/-- **Both ways lead to the same analysis.** A text that is read anew, after any others, is known
as if it were analysed from scratch with the same imports and namespaces: its analysis has the same
files with their trees and complaints, the same environments and scopes, and the same namespaces.
So the answers about it are the same too, at every place. -/
theorem rereading_is_analysing (i : AnalysisInput) (texts : List (List Char))
    (last : List Char) :
    let reread := (texts ++ [last]).foldl withText (ofInput i)
    let analysed := ofInput { i with edited := ⟨i.edited.origin, last⟩ }
    reread = analysed ∧
    ∀ place, reread.completions place = analysed.completions place ∧
      reread.definition? place = analysed.definition? place := by
  intro reread analysed
  have same : reread = analysed := foldl_withText_ofInput texts last
  refine ⟨same, fun place => ?_⟩
  rw [same]
  exact ⟨rfl, rfl⟩

end Analysis

end XuleLang
