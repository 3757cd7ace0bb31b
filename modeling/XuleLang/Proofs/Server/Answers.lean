import XuleLang.Proofs.Server.Record

/-!
Requests are answered about the text that a document has.

What a request is answered with is the analysis that was committed last, read anew with the text
of now. The hash only decides whether it has to be read anew, and where it says no, that would
change nothing.
-/

namespace XuleLang

variable {past : List Moment} {s : Server}

/-- The answer is the last commit, read anew with the text that the document has. -/
theorem Run.analysisFor?_eq (run : Run past s) (apart : ToldApart past) (url : Url) :
    s.documents.analysisFor? url = (s.documents.find? url).bind fun d =>
      (lastCommit? url past).map fun c => c.analysis.withText d.text := by
  have recorded := run.recorded url
  cases found : s.documents.find? url with
  | none => simp [Documents.analysisFor?, found]
  | some d =>
    have analysis := recorded.analysis d found
    simp only [Documents.analysisFor?, found, Option.bind_some, Document.currentAnalysis?]
    cases last : lastCommit? url past with
    | none => simp [analysis, last]
    | some c =>
      simp only [analysis, last, Option.map_some, Option.some.injEq]
      cases analyzed : d.isAnalyzed with
      | false => rfl
      | true =>
        obtain ⟨other, again, same⟩ := recorded.text_of_isAnalyzed apart found analyzed
        cases last.symm.trans again
        rw [← same]
        exact Analysis.withText_same.symm

/-- **Requests are answered about the text of now.** After any run a request changes nothing. It
has no answer exactly where the document is not open or nothing was committed since it was opened.
Else the answer is about the text that the document has, with the imports and the configured
namespaces of the last commit, as if that text were analysed from scratch with them. -/
theorem requests_see_the_text_of_now (run : Run past s) (apart : ToldApart past) (url : Url) :
    let answered := Id.run ((Server.ask url).run s)
    answered.2 = s ∧
    (answered.1 = none ↔ s.documents.find? url = none ∨ lastCommit? url past = none) ∧
    ∀ a, answered.1 = some a → ∃ d c, s.documents.find? url = some d ∧
      lastCommit? url past = some c ∧ a.rules.edited.text = d.text ∧
      a.rules.imports = c.analysis.rules.imports ∧ a.configured = c.analysis.configured ∧
      a = .ofInput { c.input with edited := ⟨url.toString, d.text⟩ } := by
  intro answered
  have answer : answered.1 = (s.documents.find? url).bind fun d =>
      (lastCommit? url past).map fun c => c.analysis.withText d.text :=
    run.analysisFor?_eq apart url
  refine ⟨rfl, ?_, ?_⟩
  · rw [answer]
    cases s.documents.find? url <;> cases lastCommit? url past <;> simp
  · intro a given
    rw [answer] at given
    obtain ⟨d, found, reread⟩ := Option.bind_eq_some_iff.mp given
    obtain ⟨c, last, rfl⟩ := Option.map_eq_some_iff.mp reread
    have here : c.pass.document = url := ((run.recorded url).commit c last).1
    refine ⟨d, c, found, last, RuleFile.edited_text _, rfl, rfl, ?_⟩
    rw [← here]
    exact Analysis.withText_ofInput d.text

/-- While a changed text waits to be analysed, requests are answered about it already. -/
theorem changed_text_is_answered_about_at_once :
    ∃ past s a, Run past s ∧ ToldApart past ∧ s.flying = [] ∧
      (Id.run ((Server.ask .untitled).run s)).1 = some a ∧ a.rules.edited.text = ['b'] := by
  let events : List ServerEvent := [.opened .untitled 1 ['a'], .woke 0, .finished 0,
    .changed .untitled 2 [['b']]]
  have run := Run.start.play .bare events
  have apart : ToldApart (play .bare [] .start events).1 := by decide +kernel
  have flying : (play .bare [] .start events).2.flying = [] := by decide +kernel
  have kept : ((play .bare [] .start events).2.documents.find? .untitled).map (·.text) =
      some ['b'] := by decide +kernel
  have answered : (Id.run ((Server.ask .untitled).run
      (play .bare [] .start events).2)).1.isSome := by decide +kernel
  obtain ⟨a, given⟩ := Option.isSome_iff_exists.mp answered
  obtain ⟨-, -, answers⟩ := requests_see_the_text_of_now run apart .untitled
  obtain ⟨d, c, found, -, text, -⟩ := answers a given
  have now : d.text = ['b'] := by simpa [found] using kept
  exact ⟨_, _, a, run, apart, flying, given, text.trans now⟩

end XuleLang
