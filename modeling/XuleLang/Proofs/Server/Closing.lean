import XuleLang.Proofs.Server.Turn

/-!
A document that was closed stays cleared.

When a document is closed it goes, and the empty list is published for it. Passes for it may sleep
or be in flight at that moment, and the settings may change afterwards. As long as the document is
not edited again, none of this brings anything back: a pass that wakes is skipped, one that comes
through is refused, and no new one begins. `Cleared` says so of the server, one event keeps it
(`Cleared.after`), and so does all that follows the closing (`Run.cleared`).
-/

namespace XuleLang

/-- Whether an event gives a text to a document. Without texts nothing is changed. -/
def ServerEvent.edits (url : Url) : ServerEvent → Bool
  | .opened document _ _ => decide (document = url)
  | .changed document _ texts => decide (document = url) && !texts.isEmpty
  | _ => false

namespace Server

/-- The passes for a document that sleep. -/
def sleepingFor (s : Server) (url : Url) : List SleepingPass :=
  s.sleeping.filter fun q => decide (q.document = url)

/-- The passes for a document that are in flight. -/
def flyingFor (s : Server) (url : Url) : List FlyingPass :=
  s.flying.filter fun p => decide (p.document = url)

variable {s : Server} {url : Url} {w : Surroundings} {index : Nat}

/-- A pass that wakes for a closed document is skipped. -/
theorem step_woke_of_closed {q : SleepingPass} (there : s.sleeping[index]? = some q)
    (closed : s.documents.find? q.document = none) :
    s.step w (.woke index) = ({ s with sleeping := s.sleeping.eraseIdx index }, []) := by
  have needless : s.documents.snapshot? q.document = none :=
    Documents.snapshot?_eq_none_iff.mpr fun d found => by cases closed.symm.trans found
  simp [step, there, takeOff, needless]

/-- A pass that comes through for a closed document is refused. -/
theorem step_finished_of_closed {p : FlyingPass} (there : s.flying[index]? = some p)
    (closed : s.documents.find? p.document = none) :
    s.step w (.finished index) = ({ s with flying := s.flying.eraseIdx index }, []) :=
  step_finished_of_refused there <|
    Documents.commit?_eq_none_iff.mpr fun d found => by cases closed.symm.trans found

/-- Settings that change schedule no pass for a document that is not open. -/
theorem sleepingFor_scheduleAll (closed : s.documents.find? url = none) (due : Nat) :
    (s.scheduleAll due).sleepingFor url = s.sleepingFor url := by
  have others : ∀ e ∈ s.documents.entries, e.1 ≠ url := by
    intro e member here
    exact absurd (List.lookup_eq_none_iff.mp closed e member) (by simp [here])
  have none_new : (s.documents.entries.map fun e => (⟨e.1, due, s.root⟩ : SleepingPass)).filter
      (fun q => decide (q.document = url)) = [] := by
    rw [List.filter_eq_nil_iff, List.forall_mem_map]
    exact fun e member => by simpa using others e member
  rw [scheduleAll_eq, sleepingFor, List.filter_append, none_new, List.append_nil]
  rfl

end Server

/-- A document is closed, and the only passes for it are those that were under way before. -/
structure Cleared (before s : Server) (url : Url) : Prop where
  closed : s.documents.find? url = none
  sleeping : (s.sleepingFor url).Sublist (before.sleepingFor url)
  flying : (s.flyingFor url).Sublist (before.flyingFor url)

/-- Nothing is committed to a document at an event, and nothing is published for it but the empty
list, and that only if it is closed once more. -/
structure Clears (m : Moment) (url : Url) : Prop where
  commit : m.commit? url = none
  published : m.published url = if m.event = .closed url then [(none, [])] else []

variable {before s : Server} {url : Url} {m : Moment}

namespace Cleared

variable {w : Surroundings}

/-- What happens to other documents leaves the passes for a closed one as they are. -/
private theorem of_same {s' : Server} (cleared : Cleared before s url)
    (closed : s'.documents.find? url = s.documents.find? url)
    (sleeping : (s'.sleepingFor url).Sublist (s.sleepingFor url))
    (flying : (s'.flyingFor url).Sublist (s.flyingFor url)) : Cleared before s' url :=
  ⟨closed.trans cleared.closed, sleeping.trans cleared.sleeping, flying.trans cleared.flying⟩

private theorem after_woke (cleared : Cleared before s url) (index : Nat) :
    Cleared before (Moment.mk s w (.woke index)).after url ∧ Clears ⟨s, w, .woke index⟩ url := by
  cases there : s.sleeping[index]? with
  | none =>
    have same : s.step w (.woke index) = (s, []) := by simp [Server.step, there]
    exact ⟨by simpa [Moment.after, same] using cleared,
      rfl, by simp [Moment.published, Moment.said, same]⟩
  | some q =>
    have shrinks : ((s.sleeping.eraseIdx index).filter fun q => decide (q.document = url)).Sublist
        (s.sleepingFor url) := (List.eraseIdx_sublist _ _).filter _
    refine ⟨?_, rfl, by simp [Moment.published, Moment.said, Server.step, there]⟩
    by_cases here : q.document = url
    · subst here
      simp only [Moment.after, Server.step_woke_of_closed there cleared.closed]
      exact cleared.of_same rfl shrinks (.refl _)
    · refine cleared.of_same ?_ ?_ ?_
      · simp [Moment.after, Server.step, there, Server.takeOff_documents]
      · simpa [Moment.after, Server.step, there, Server.sleepingFor, Server.takeOff_sleeping]
          using shrinks
      · simp only [Moment.after, Server.step, there, Server.takeOff]
        split <;> simp [Server.flyingFor, List.filter_append, here]

private theorem after_finished (cleared : Cleared before s url) (index : Nat) :
    Cleared before (Moment.mk s w (.finished index)).after url ∧
      Clears ⟨s, w, .finished index⟩ url := by
  cases there : s.flying[index]? with
  | none =>
    have same : s.step w (.finished index) = (s, []) := by simp [Server.step, there]
    exact ⟨by simpa [Moment.after, same] using cleared,
      by simp [Moment.commit?, there], by simp [Moment.published, Moment.said, same]⟩
  | some p =>
    have shrinks : ((s.flying.eraseIdx index).filter fun p => decide (p.document = url)).Sublist
        (s.flyingFor url) := (List.eraseIdx_sublist _ _).filter _
    cases kept : s.documents.commit? p.document p.snapshot (Server.analysisOf w p) with
    | none =>
      have dropped := Server.step_finished_of_refused there kept
      refine ⟨?_, by simp [Moment.commit?, there, kept], ?_⟩
      · simp only [Moment.after, dropped]
        exact cleared.of_same rfl (.refl _) shrinks
      · simp [Moment.published, Moment.said, dropped]
    | some documents =>
      obtain ⟨d, found, -, -, finds⟩ := Documents.find?_of_commit? kept
      have other : p.document ≠ url := by
        rintro rfl
        cases cleared.closed.symm.trans found
      refine ⟨?_, by simp [Moment.commit?, there, other], ?_⟩
      · simp only [Moment.after, Server.step_finished_of_kept there kept]
        exact cleared.of_same ((finds url).trans (if_neg other.symm)) (.refl _) shrinks
      · exact (Server.published_of_kept there kept url).trans (if_neg other)

/-- One event leaves a closed document cleared, unless it gives the document a text. -/
theorem after (cleared : Cleared before m.server url) (untouched : m.event.edits url = false) :
    Cleared before m.after url ∧ Clears m url := by
  obtain ⟨s, w, e⟩ := m
  cases e with
  | opened document version text =>
    have other : document ≠ url := by simpa [ServerEvent.edits] using untouched
    refine ⟨cleared.of_same ?_ ?_ (.refl _), rfl, rfl⟩
    · simp [Moment.after, Server.step, Server.schedule, Ne.symm other]
    · simp [Moment.after, Server.step, Server.schedule, Server.sleepingFor, other]
  | changed document version texts =>
    cases last : texts.getLast? with
    | none =>
      have same : s.step w (.changed document version texts) = (s, []) := by
        simp [Server.step, last]
      exact ⟨by simpa [Moment.after, same] using cleared,
        rfl, by simp [Moment.published, Moment.said, same]⟩
    | some text =>
      have some_text : texts ≠ [] := by
        rintro rfl
        cases last
      have other : document ≠ url := by simpa [ServerEvent.edits, some_text] using untouched
      refine ⟨cleared.of_same ?_ ?_ ?_, rfl, ?_⟩
      · simp [Moment.after, Server.step, last, Server.schedule, Ne.symm other]
      · simp [Moment.after, Server.step, last, Server.schedule, Server.sleepingFor, other]
      · simp [Moment.after, Server.step, last, Server.schedule, Server.flyingFor]
      · simp [Moment.published, Moment.said, Server.step, last]
  | closed document =>
    refine ⟨cleared.of_same ?_ (.refl _) (.refl _), rfl, ?_⟩
    · have closed := cleared.closed
      simp_all [Moment.after, Server.step]
    · by_cases here : document = url <;>
        simp [Moment.published, Moment.said, Server.step, Message.about?, here]
  | configured =>
    have still : s.documents.outdated.find? url = none :=
      Documents.find?_outdated_eq_none.mpr cleared.closed
    refine ⟨cleared.of_same ?_ ?_ ?_, rfl, rfl⟩
    · simpa [Moment.after, Server.step, Server.scheduleAll_eq, still] using cleared.closed.symm
    · have scheduled := Server.sleepingFor_scheduleAll
        (s := { s with documents := s.documents.outdated }) still w.now
      simp only [Moment.after, Server.step, scheduled]
      exact .refl _
    · simp [Moment.after, Server.step, Server.scheduleAll_eq, Server.flyingFor]
  | woke index => exact cleared.after_woke index
  | finished index => exact cleared.after_finished index

end Cleared

/-- All that follows the closing of a document leaves it cleared, until it is edited again. -/
theorem Run.cleared {past later earlier : List Moment} {w : Surroundings} (run : Run past s)
    (shape : past = later ++ ⟨before, w, .closed url⟩ :: earlier)
    (untouched : ∀ m ∈ later, m.event.edits url = false) :
    Cleared before s url ∧ ∀ m ∈ later, Clears m url := by
  induction run generalizing later with
  | start => simp at shape
  | rooted run folders root ih =>
    obtain ⟨cleared, clears⟩ := ih shape untouched
    exact ⟨⟨cleared.closed, cleared.sleeping, cleared.flying⟩, clears⟩
  | asked run document ih => exact ih shape untouched
  | next run w' e ih =>
    cases later with
    | nil =>
      obtain ⟨same, -⟩ := List.cons.inj shape
      cases same
      refine ⟨⟨?_, ?_, ?_⟩, List.forall_mem_nil _⟩
      · simp [Server.step]
      · simp [Server.step, Server.sleepingFor]
      · simp [Server.step, Server.flyingFor]
    | cons m later =>
      obtain ⟨rfl, rfl⟩ := List.cons.inj shape
      obtain ⟨untouched_here, untouched⟩ := List.forall_mem_cons.mp untouched
      obtain ⟨cleared, clears⟩ := ih rfl untouched
      obtain ⟨after, here⟩ := cleared.after (m := ⟨_, w', e⟩) untouched_here
      exact ⟨after, List.forall_mem_cons.mpr ⟨here, clears⟩⟩

/-- The empty list that is published when a document is closed is the last one. -/
theorem lastPublished?_of_clears {later earlier : List Moment} {w : Surroundings}
    (clears : ∀ m ∈ later, Clears m url) :
    lastPublished? url (later ++ ⟨before, w, .closed url⟩ :: earlier) = some (none, []) := by
  unfold lastPublished?
  induction later with
  | nil => simp [publishedFor, Moment.published, Moment.said, Server.step, Message.about?]
  | cons m later ih =>
    obtain ⟨here, clears⟩ := List.forall_mem_cons.mp clears
    rw [List.cons_append, publishedFor, List.getLast?_append, ih clears, here.published]
    split <;> rfl

/-- **A document that was closed stays cleared.** Whatever happens behind its closing, as long as it
is not opened or changed again: it is not open, and requests about it have no answer. No pass for it
begins; those that were asleep or in flight come to their ends without a commit and without a word.
What was published last for it is the empty list. -/
theorem closed_documents_stay_cleared {later earlier : List Moment} {w : Surroundings}
    (run : Run (later ++ ⟨before, w, .closed url⟩ :: earlier) s)
    (untouched : ∀ m ∈ later, m.event.edits url = false) :
    s.documents.find? url = none ∧
    (Id.run ((Server.ask url).run s)).1 = none ∧ (∀ p, s.completions url p = []) ∧
    (∀ p, s.definition? url p = none) ∧
    (s.sleepingFor url).Sublist (before.sleepingFor url) ∧
    (s.flyingFor url).Sublist (before.flyingFor url) ∧
    (∀ w index q, s.sleeping[index]? = some q → q.document = url →
      s.step w (.woke index) = ({ s with sleeping := s.sleeping.eraseIdx index }, [])) ∧
    (∀ w index p, s.flying[index]? = some p → p.document = url →
      s.step w (.finished index) = ({ s with flying := s.flying.eraseIdx index }, [])) ∧
    (∀ m ∈ later, m.commit? url = none ∧
      m.published url = if m.event = .closed url then [(none, [])] else []) ∧
    lastPublished? url (later ++ ⟨before, w, .closed url⟩ :: earlier) = some (none, []) := by
  obtain ⟨cleared, clears⟩ := run.cleared rfl untouched
  have unanswered : s.documents.analysisFor? url = none := by
    simp [Documents.analysisFor?, cleared.closed]
  have asked : (Id.run ((Server.ask url).run s)).1 = none := unanswered
  refine ⟨cleared.closed, asked, fun p => ?_, fun p => ?_, cleared.sleeping, cleared.flying,
    ?_, ?_, fun m there => ⟨(clears m there).commit, (clears m there).published⟩,
    lastPublished?_of_clears clears⟩
  · simp only [Server.completions, asked]
  · simp only [Server.definition?, asked]
    rfl
  · rintro w index q there rfl
    exact Server.step_woke_of_closed there cleared.closed
  · rintro w index p there rfl
    exact Server.step_finished_of_closed there cleared.closed

/-- A document is closed with one pass asleep and one in flight, and then the settings change. Both
passes come to nothing, and there are no others. -/
theorem passes_under_way_are_outlasted :
    ∃ past s, Run past s ∧ s.sleeping = [⟨.untitled, 250, none⟩] ∧
      s.flying = [⟨.untitled, ⟨['a'], 1, 1⟩, none⟩] ∧
      s.step .bare (.woke 0) = ({ s with sleeping := [] }, []) ∧
      s.step .bare (.finished 0) = ({ s with flying := [] }, []) ∧
      lastPublished? .untitled past = some (none, []) := by
  let opened := play .bare [] .start
    [.opened .untitled 1 ['a'], .woke 0, .changed .untitled 2 [['b']]]
  let closed := opened.2.step .bare (.closed .untitled)
  have run : Run ([⟨closed.1, .bare, .configured⟩] ++
      ⟨opened.2, .bare, .closed .untitled⟩ :: opened.1) (closed.1.step .bare .configured).1 :=
    ((Run.start.play .bare _).next .bare _).next .bare _
  obtain ⟨-, -, -, -, -, -, skipped, refused, -, published⟩ :=
    closed_documents_stay_cleared run (by simp [ServerEvent.edits])
  exact ⟨_, _, run, rfl, rfl, skipped .bare 0 _ rfl rfl, refused .bare 0 _ rfl rfl, published⟩

end XuleLang
