import XuleLang.Proofs.Server.Record

/-!
No validation is ever lost.

For every open document something answers at any time: either its text was analysed, or a pass for
it still sleeps, or a pass in flight will commit, since it holds the stamp and the text of the
document. Which of the three it is changes from event to event; `Accounted` says that it is one of
them, and an event keeps that. A pass may be skipped or come to nothing only where another one of
the three holds.
-/

namespace XuleLang

/-- Something answers for a document: what is known of it, a pass that sleeps, or one in flight. -/
def Accounted (s : Server) (url : Url) : Prop :=
  ∀ d, s.documents.find? url = some d → d.isAnalyzed = true ∨
    (∃ q ∈ s.sleeping, q.document = url) ∨
    ∃ p ∈ s.flying, p.document = url ∧ p.snapshot = d.snapshot

/-- The last commit to a document is an analysis of the text that it has, which it keeps with the
hash of that text, and the diagnostics that were published last are those of this analysis. -/
structure Validated (past : List Moment) (url : Url) (d : Document) (c : Commit) : Prop where
  last : lastCommit? url past = some c
  input : c.input.edited = ⟨url.toString, d.text⟩
  analysis : d.analysis = some c.analysis
  text : c.analysis.rules.edited.text = d.text
  hash : d.analyzedHash = some (contentHash d.text)
  published : lastPublished? url past = some (some c.pass.snapshot.version, c.diagnostics)

variable {past : List Moment} {s : Server} {url : Url} {m : Moment}

namespace Accounted

/-- One event leaves a document accounted for. -/
theorem after (fresh : Fresh past m.server url) (accounted : Accounted m.server url) :
    Accounted m.after url := by
  intro d found
  cases m.turn url with
  | renewed other renewed silent => exact .inr (.inl renewed.scheduled)
  | closed gone flying forgotten silent => cases gone.symm.trans found
  | tookOff p woke documents here taken flying remembered silent =>
    obtain ⟨before, there, -, same⟩ := Documents.snapshot?_eq_some_iff.mp taken
    rw [documents] at found
    cases there.symm.trans found
    exact .inr (.inr ⟨p, by simp [flying], here, same.symm⟩)
  | skipped documents needless flying remembered silent =>
    -- a pass is skipped only where the text was analysed, whoever answered for it before
    rw [documents] at found
    have known := Documents.snapshot?_eq_none_iff.mp needless d found
    exact .inl (Bool.and_eq_true_iff.mp known).2
  | committed p before flew here there current document flying remembered commit published =>
    have same : before.snapshot = p.snapshot := fresh.current p flew here before there current
    have text : before.text = p.snapshot.text := congrArg Snapshot.text same
    cases document.symm.trans found
    left
    simp [Document.isAnalyzed, Document.analyzed, text]
  | spared spared silent =>
    rw [spared.document] at found
    rcases accounted d found with analyzed | ⟨q, sleeps, about⟩ | ⟨p, flies, about, same⟩
    · exact .inl analyzed
    · exact .inr (.inl ⟨q, spared.sleeping q sleeps about, about⟩)
    · have current : d.stamp = p.snapshot.stamp := congrArg Snapshot.stamp same.symm
      exact .inr (.inr ⟨p, spared.current p flies about d found current, about, same⟩)

end Accounted

/-- Every document of a run is accounted for. -/
theorem Run.accounted (run : Run past s) (url : Url) : Accounted s url := by
  induction run with
  | start =>
    intro d found
    cases found
  | rooted run folders root ih => exact ih
  | asked run document ih => exact ih
  | next run w e ih => exact Accounted.after (m := ⟨_, w, e⟩) (run.fresh url) ih

/-- A document whose hash is that of its text is validated. -/
theorem Recorded.validated {d : Document} (recorded : Recorded past s url)
    (apart : ToldApart past) (found : s.documents.find? url = some d)
    (analyzed : d.isAnalyzed = true) : ∃ c, Validated past url d c := by
  obtain ⟨c, last, same⟩ := recorded.text_of_isAnalyzed apart found analyzed
  obtain ⟨here, -, published⟩ := recorded.commit c last
  refine ⟨c, { last := last, input := ?_, analysis := ?_, text := ?_, hash := ?_
               published := published }⟩
  · rw [c.input_edited, here, same]
  · rw [recorded.analysis d found, last]
    rfl
  · exact c.analysis_text.trans same
  · simpa [Document.isAnalyzed] using analyzed

/-- **No validation is ever lost.** After any run every open document is validated, or a pass for
it has not woken yet, or a pass in flight holds its stamp and its text. So once no pass for a
document is under way, what is known of it and what was published last belong to its text. -/
theorem no_validation_is_lost (run : Run past s) (apart : ToldApart past) :
    (∀ url d, s.documents.find? url = some d → (∃ c, Validated past url d c) ∨
      (∃ q ∈ s.sleeping, q.document = url) ∨
      ∃ p ∈ s.flying, p.document = url ∧ p.snapshot.stamp = d.stamp ∧
        p.snapshot.text = d.text) ∧
    ∀ url, (∀ q ∈ s.sleeping, q.document ≠ url) → (∀ p ∈ s.flying, p.document ≠ url) →
      ∀ d, s.documents.find? url = some d → ∃ c, Validated past url d c := by
  have accounted : ∀ url d, s.documents.find? url = some d → (∃ c, Validated past url d c) ∨
      (∃ q ∈ s.sleeping, q.document = url) ∨
      ∃ p ∈ s.flying, p.document = url ∧ p.snapshot.stamp = d.stamp ∧
        p.snapshot.text = d.text := by
    intro url d found
    rcases run.accounted url d found with analyzed | sleeps | ⟨p, flies, about, same⟩
    · exact .inl ((run.recorded url).validated apart found analyzed)
    · exact .inr (.inl sleeps)
    · exact .inr (.inr ⟨p, flies, about, congrArg Snapshot.stamp same,
        congrArg Snapshot.text same⟩)
  refine ⟨accounted, ?_⟩
  intro url none_sleeps none_flies d found
  rcases accounted url d found with validated | ⟨q, sleeps, about⟩ | ⟨p, flies, about, -, -⟩
  · exact validated
  · exact absurd about (none_sleeps q sleeps)
  · exact absurd about (none_flies p flies)

/-- A text comes back before anyone looked at the one between. Both passes that were scheduled are
skipped, and the document is validated with its new version. -/
theorem text_that_came_back_is_validated :
    ∃ past s d c, Run past s ∧ ToldApart past ∧ s.sleeping = [] ∧ s.flying = [] ∧
      s.documents.find? .untitled = some d ∧ d.snapshot = ⟨['a'], 3, 3⟩ ∧
      Validated past .untitled d c := by
  let events : List ServerEvent := [.opened .untitled 1 ['a'], .woke 0, .finished 0,
    .changed .untitled 2 [['b']], .changed .untitled 3 [['a']], .woke 0, .woke 0]
  have run := Run.start.play .bare events
  have apart : ToldApart (play .bare [] .start events).1 := by decide +kernel
  have sleeping : (play .bare [] .start events).2.sleeping = [] := by decide +kernel
  have flying : (play .bare [] .start events).2.flying = [] := by decide +kernel
  have kept : ((play .bare [] .start events).2.documents.find? .untitled).map (·.snapshot) =
      some ⟨['a'], 3, 3⟩ := by decide +kernel
  obtain ⟨d, found, same⟩ := Option.map_eq_some_iff.mp kept
  obtain ⟨c, validated⟩ := (no_validation_is_lost run apart).2 .untitled (by simp [sleeping])
    (by simp [flying]) d found
  exact ⟨_, _, d, c, run, apart, sleeping, flying, found, same, validated⟩

end XuleLang
