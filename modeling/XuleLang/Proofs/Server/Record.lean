import XuleLang.Proofs.Analysis.Reparse
import XuleLang.Proofs.Server.Freshness

/-!
What an open document knows of its run.

The analysis that a document keeps is the one that was committed last for it since it was opened.
The hash beside it, when there is one, is that of the text of this commit, and the diagnostics
that were published last are those of this commit. When settings change the hash goes and the
analysis stays, and when a text comes back both are as they were. `Recorded` says so, one event
keeps it (`Recorded.after`), and so does a run (`Run.recorded`).
-/

namespace XuleLang

/-- What is known of a document is what was committed last for it, and what was published last
says the same. -/
structure Recorded (past : List Moment) (s : Server) (url : Url) : Prop where
  analysis : ∀ d, s.documents.find? url = some d →
    d.analysis = (lastCommit? url past).map (·.analysis)
  hash : ∀ d h, s.documents.find? url = some d → d.analyzedHash = some h →
    ∃ c, lastCommit? url past = some c ∧ h = contentHash c.text
  commit : ∀ c, lastCommit? url past = some c → c.pass.document = url ∧ c.text ∈ givenTexts past ∧
    lastPublished? url past = some (some c.pass.snapshot.version, c.diagnostics)
  closed : s.documents.find? url = none → lastCommit? url past = none
  text : ∀ d, s.documents.find? url = some d → d.text ∈ givenTexts past

/-- No two texts of a run have the same hash. -/
def ToldApart (past : List Moment) : Prop :=
  ∀ t ∈ givenTexts past, ∀ t' ∈ givenTexts past, contentHash t = contentHash t' → t = t'

instance (past : List Moment) : Decidable (ToldApart past) :=
  inferInstanceAs (Decidable (∀ t ∈ givenTexts past, ∀ t' ∈ givenTexts past, _))

variable {past : List Moment} {s : Server} {url : Url} {m : Moment}

theorem mem_givenTexts_cons {t : List Char} (given : t ∈ givenTexts past) :
    t ∈ givenTexts (m :: past) := by
  unfold givenTexts at given ⊢
  rw [List.filterMap_cons]
  split
  · exact given
  · exact List.mem_cons_of_mem _ given

theorem lastPublished?_cons :
    lastPublished? url (m :: past) = (m.published url).getLast?.or (lastPublished? url past) :=
  List.getLast?_append

namespace Recorded

/-- A document that is closed has nothing to know, if no commit counts for it. -/
private theorem of_closed (closed : s.documents.find? url = none)
    (last : lastCommit? url past = none) : Recorded past s url where
  analysis d found := by cases closed.symm.trans found
  hash d h found := by cases closed.symm.trans found
  commit c committed := by cases last.symm.trans committed
  closed _ := last
  text d found := by cases closed.symm.trans found

/-- Where a document stays and nothing is said or committed about it, its record stays. -/
private theorem after_silence (recorded : Recorded past m.server url)
    (document : m.after.documents.find? url = m.server.documents.find? url)
    (remembered : m.forgets url = false) (silent : Silent m url) :
    Recorded (m :: past) m.after url := by
  have last : lastCommit? url (m :: past) = lastCommit? url past := by
    simp [lastCommit?, remembered, silent.commit]
  have published : lastPublished? url (m :: past) = lastPublished? url past := by
    simp [lastPublished?_cons, silent.published]
  refine { analysis := ?_, hash := ?_, commit := ?_, closed := ?_, text := ?_ }
  · rw [document, last]
    exact recorded.analysis
  · rw [document, last]
    exact recorded.hash
  · rw [last, published]
    intro c committed
    obtain ⟨here, given, same⟩ := recorded.commit c committed
    exact ⟨here, mem_givenTexts_cons given, same⟩
  · rw [document, last]
    exact recorded.closed
  · rw [document]
    exact fun d found => mem_givenTexts_cons (recorded.text d found)

private theorem after_renewal {d : Document} (recorded : Recorded past m.server url)
    (renewed : Renewed m url d) (silent : Silent m url) : Recorded (m :: past) m.after url := by
  have only : ∀ other, m.after.documents.find? url = some other → other = d :=
    fun other found => Option.some.inj (found.symm.trans renewed.document)
  have open_now : m.after.documents.find? url ≠ none := by simp [renewed.document]
  have given : d.text ∈ givenTexts (m :: past) := by
    rcases renewed.text with new | ⟨before, found, same⟩
    · exact List.mem_filterMap.mpr ⟨m, List.mem_cons_self, new⟩
    · exact same ▸ mem_givenTexts_cons (recorded.text before found)
  have published : lastPublished? url (m :: past) = lastPublished? url past := by
    simp [lastPublished?_cons, silent.published]
  have known := renewed.known
  cases forgotten : m.forgets url with
  | true =>
    have last : lastCommit? url (m :: past) = none := by simp [lastCommit?, forgotten]
    simp only [forgotten, ↓reduceIte] at known
    refine { analysis := ?_, hash := ?_, commit := ?_, closed := fun _ => last, text := ?_ }
    · intro other found
      rw [only other found, last, known.1]
      rfl
    · intro other h found hashed
      rw [only other found, known.2] at hashed
      cases hashed
    · intro c committed
      cases last.symm.trans committed
    · exact fun other found => only other found ▸ given
  | false =>
    have last : lastCommit? url (m :: past) = lastCommit? url past := by
      simp [lastCommit?, forgotten, silent.commit]
    simp only [forgotten, Bool.false_eq_true, ↓reduceIte] at known
    refine { analysis := ?_, hash := ?_, commit := ?_, closed := fun gone => absurd gone open_now
             text := ?_ }
    · intro other found
      rw [only other found, last, known.1]
      cases before : m.server.documents.find? url with
      | none => simp [recorded.closed before]
      | some old => exact recorded.analysis old before
    · intro other h found hashed
      rw [only other found] at hashed
      obtain ⟨old, before, same⟩ := Option.bind_eq_some_iff.mp (known.2 h hashed)
      rw [last]
      exact recorded.hash old h before same
    · rw [last, published]
      intro c committed
      obtain ⟨here, was_given, same⟩ := recorded.commit c committed
      exact ⟨here, mem_givenTexts_cons was_given, same⟩
    · exact fun other found => only other found ▸ given

/-- One event keeps the record of a document. -/
theorem after (fresh : Fresh past m.server url) (recorded : Recorded past m.server url) :
    Recorded (m :: past) m.after url := by
  cases m.turn url with
  | renewed d renewed silent => exact recorded.after_renewal renewed silent
  | closed gone flying forgotten silent =>
    have last : lastCommit? url (m :: past) = none := by simp [lastCommit?, forgotten]
    exact .of_closed gone last
  | tookOff p woke documents here taken flying remembered silent =>
    exact recorded.after_silence (by rw [documents]) remembered silent
  | skipped documents needless flying remembered silent =>
    exact recorded.after_silence (by rw [documents]) remembered silent
  | committed p d flew here found current document flying remembered commit published =>
    have same : d.snapshot = p.snapshot := fresh.current p flew here d found current
    have text : d.text = p.snapshot.text := congrArg Snapshot.text same
    have given : p.snapshot.text ∈ givenTexts past := text ▸ recorded.text d found
    have last : lastCommit? url (m :: past) = some ⟨m.around, p⟩ := by
      simp [lastCommit?, remembered, commit]
    have only : ∀ other, m.after.documents.find? url = some other →
        other = d.analyzed p.snapshot.text (Server.analysisOf m.around p) :=
      fun other there => Option.some.inj (there.symm.trans document)
    refine { analysis := ?_, hash := ?_, commit := ?_, closed := ?_, text := ?_ }
    · intro other there
      rw [only other there, last]
      rfl
    · intro other h there hashed
      rw [only other there] at hashed
      exact ⟨⟨m.around, p⟩, last, (Option.some.inj hashed).symm⟩
    · intro c committed
      cases last.symm.trans committed
      refine ⟨here, mem_givenTexts_cons given, ?_⟩
      rw [lastPublished?_cons, published]
      rfl
    · exact fun gone => absurd (gone.symm.trans document) (Option.some_ne_none _).symm
    · intro other there
      rw [only other there]
      exact mem_givenTexts_cons (recorded.text d found)
  | spared spared silent =>
    exact recorded.after_silence spared.document spared.remembered silent

/-- A document whose hash is that of its text has the text of its last commit, if texts are told
apart by their hashes. -/
theorem text_of_isAnalyzed {d : Document} (recorded : Recorded past s url)
    (apart : ToldApart past) (found : s.documents.find? url = some d)
    (analyzed : d.isAnalyzed = true) :
    ∃ c, lastCommit? url past = some c ∧ c.text = d.text := by
  have hashed : d.analyzedHash = some (contentHash d.text) := by
    simpa [Document.isAnalyzed] using analyzed
  obtain ⟨c, last, same⟩ := recorded.hash d _ found hashed
  obtain ⟨-, given, -⟩ := recorded.commit c last
  exact ⟨c, last, apart c.text given d.text (recorded.text d found) same.symm⟩

end Recorded

/-- Documents know their run. -/
theorem Run.recorded (run : Run past s) (url : Url) : Recorded past s url := by
  induction run with
  | start => exact .of_closed rfl rfl
  | rooted run folders root ih => exact ⟨ih.analysis, ih.hash, ih.commit, ih.closed, ih.text⟩
  | asked run document ih => exact ih
  | next run w e ih => exact Recorded.after (m := ⟨_, w, e⟩) (run.fresh url) ih

end XuleLang
