import XuleLang.Proofs.Server.Closing
import XuleLang.Proofs.Server.Freshness
import XuleLang.Server.Session

/-!
Which passes are overtaken.

At its end a pass asks whether the document still has the stamp that it had when the pass woke. When
a document is edited or closed, or when the settings change, the document gets another stamp or
goes, and the passes for it that are in flight come to nothing. Nothing else overtakes a pass. One
that sleeps is not overtaken either: it learns the stamp only when it wakes, and then it validates
the text that the document has by then, so that an edit does not put off what was scheduled before.
-/

namespace XuleLang

/-- Whether an event gives a document another stamp or takes it away. -/
def ServerEvent.overtakes (url : Url) : ServerEvent → Bool
  | .closed document => decide (document = url)
  | .configured => true
  | e => e.edits url

variable {past later earlier : List Moment} {s : Server} {url : Url} {m : Moment}

namespace Moment

/-- A document that is not overtaken keeps its text, its version and its stamp. -/
theorem snapshot_kept (spares : m.event.overtakes url = false) :
    (m.after.documents.find? url).map (·.snapshot) =
      (m.server.documents.find? url).map (·.snapshot) := by
  obtain ⟨s, w, e⟩ := m
  cases e with
  | opened document version text =>
    have other : document ≠ url := by simpa [ServerEvent.overtakes, ServerEvent.edits] using spares
    simp [after, Server.step, Server.schedule, Ne.symm other]
  | changed document version texts =>
    cases last : texts.getLast? with
    | none => simp [after, Server.step, last]
    | some text =>
      have some_text : texts ≠ [] := by
        rintro rfl
        cases last
      have other : document ≠ url := by
        simpa [ServerEvent.overtakes, ServerEvent.edits, some_text] using spares
      simp [after, Server.step, last, Server.schedule, Ne.symm other]
  | closed document =>
    have other : document ≠ url := by simpa [ServerEvent.overtakes] using spares
    simp [after, Server.step, Ne.symm other]
  | configured => cases spares
  | woke index =>
    cases there : s.sleeping[index]? <;>
      simp [after, Server.step, there, Server.takeOff_documents]
  | finished index =>
    cases there : s.flying[index]? with
    | none => simp [after, Server.step, there]
    | some p =>
      cases kept : s.documents.commit? p.document p.snapshot (Server.analysisOf w p) with
      | none => simp [after, Server.step_finished_of_refused there kept]
      | some documents =>
        obtain ⟨d, found, -, -, finds⟩ := Documents.find?_of_commit? kept
        simp only [after, Server.step_finished_of_kept there kept, finds]
        by_cases here : url = p.document
        · simp [here, found, Document.analyzed, Document.snapshot]
        · simp [here]

/-- A document that is overtaken and still open has a stamp that was never used. -/
theorem stamp_renewed (overtakes : m.event.overtakes url = true) {d : Document}
    (found : m.after.documents.find? url = some d) : m.server.documents.nextStamp ≤ d.stamp := by
  obtain ⟨s, w, e⟩ := m
  cases e with
  | opened document version text =>
    obtain rfl : document = url := by
      simpa [ServerEvent.overtakes, ServerEvent.edits] using overtakes
    have same : Document.unknown text version s.documents.nextStamp = d := by
      simpa [after, Server.step, Server.schedule] using found
    exact same ▸ Nat.le_refl _
  | changed document version texts =>
    obtain ⟨rfl, some_text⟩ : document = url ∧ texts ≠ [] := by
      simpa [ServerEvent.overtakes, ServerEvent.edits] using overtakes
    obtain ⟨text, last⟩ := Option.isSome_iff_exists.mp (List.getLast?_isSome.mpr some_text)
    simp only [after, Server.step, last, Server.schedule, Documents.find?_changed, ↓reduceIte,
      Option.some.injEq] at found
    exact found ▸ Nat.le_refl _
  | closed document =>
    obtain rfl : document = url := by simpa [ServerEvent.overtakes] using overtakes
    simp [after, Server.step] at found
  | configured =>
    rw [after, Server.step, Server.scheduleAll_eq] at found
    obtain ⟨before, given, -, rfl, fresh, -⟩ := Documents.find?_outdated found
    exact fresh
  | woke index => cases overtakes
  | finished index => cases overtakes

/-- A document that is edited has the text of the edit. -/
theorem text_of_edits (edits : m.event.edits url = true) :
    ∃ d, m.after.documents.find? url = some d ∧ m.event.text? = some d.text := by
  obtain ⟨s, w, e⟩ := m
  cases e with
  | opened document version text =>
    obtain rfl : document = url := by simpa [ServerEvent.edits] using edits
    exact ⟨.unknown text version s.documents.nextStamp,
      by simp [after, Server.step, Server.schedule], rfl⟩
  | changed document version texts =>
    obtain ⟨rfl, some_text⟩ : document = url ∧ texts ≠ [] := by
      simpa [ServerEvent.edits] using edits
    obtain ⟨text, last⟩ := Option.isSome_iff_exists.mp (List.getLast?_isSome.mpr some_text)
    refine ⟨((s.documents.find? document).getD
      (.unknown text version s.documents.nextStamp)).changed text version s.documents.nextStamp,
      ?_, last⟩
    simp [after, Server.step, last, Server.schedule]
  | closed | configured | woke | finished => cases edits

end Moment

/-- A pass took off at one of the events `past`, and its document has the stamp of the pass now if
and only if nothing behind that event has overtaken it. -/
def FlyingPass.TookOff (past : List Moment) (s : Server) (p : FlyingPass) : Prop :=
  ∃ later m earlier, past = later ++ m :: earlier ∧ (∃ index, m.event = .woke index) ∧
    m.server.documents.snapshot? p.document = some p.snapshot ∧
    ((s.documents.find? p.document).map (·.stamp) = some p.snapshot.stamp ↔
      ∀ other ∈ later, other.event.overtakes p.document = false)

/-- One more event overtakes a pass or leaves its document alone. The stamp of the pass was given
out before, so that no event gives it out again. -/
theorem FlyingPass.TookOff.next {p : FlyingPass} (last : Moment) (flew : p.TookOff past last.server)
    (old : p.snapshot.stamp < last.server.documents.nextStamp) :
    p.TookOff (last :: past) last.after := by
  obtain ⟨later, m, earlier, shape, woke, taken, current⟩ := flew
  refine ⟨last :: later, m, earlier, by rw [shape]; rfl, woke, taken, ?_⟩
  rw [List.forall_mem_cons, ← current]
  cases overtakes : last.event.overtakes p.document with
  | false =>
    have kept := congrArg (·.map Snapshot.stamp) (Moment.snapshot_kept overtakes)
    simp only [Option.map_map] at kept
    exact ⟨fun now => ⟨rfl, kept ▸ now⟩, fun both => kept.symm ▸ both.2⟩
  | true =>
    refine ⟨fun now => ?_, fun both => absurd both.1 (by simp)⟩
    obtain ⟨d, found, same⟩ := Option.map_eq_some_iff.mp now
    have renewed := Moment.stamp_renewed overtakes found
    omega

namespace Run

/-- A document that is not overtaken behind an event has the text, the version and the stamp that
it had after the event. -/
theorem snapshot_kept (run : Run past s) (shape : past = later ++ m :: earlier)
    (spared : ∀ other ∈ later, other.event.overtakes url = false) :
    (s.documents.find? url).map (·.snapshot) =
      (m.after.documents.find? url).map (·.snapshot) := by
  induction run generalizing later with
  | start => simp at shape
  | rooted run folders root ih => exact ih shape spared
  | asked run document ih => exact ih shape spared
  | next run w e ih =>
    cases later with
    | nil =>
      obtain ⟨rfl, -⟩ := List.cons.inj shape
      rfl
    | cons last later =>
      obtain ⟨rfl, rfl⟩ := List.cons.inj shape
      obtain ⟨spares, spared⟩ := List.forall_mem_cons.mp spared
      exact (Moment.snapshot_kept spares).trans (ih rfl spared)

/-- A pass in flight took off at an event of the run, and its document has the stamp of the pass as
long as nothing behind that event has overtaken it. -/
theorem tookOff (run : Run past s) {p : FlyingPass} (flies : p ∈ s.flying) : p.TookOff past s := by
  induction run with
  | start => cases flies
  | rooted run folders root ih => exact ih flies
  | asked run document ih => exact ih flies
  | @next past s run w e ih =>
    let last : Moment := ⟨s, w, e⟩
    have flew_on (flew : p ∈ s.flying) : p.TookOff (last :: past) last.after :=
      (ih flew).next last ((run.fresh p.document).pass p flew rfl)
    cases last.turn p.document with
    | renewed d renewed silent => exact flew_on (renewed.flying ▸ flies)
    | closed gone flying forgotten silent => exact flew_on (flying ▸ flies)
    | skipped documents needless flying remembered silent => exact flew_on (flying ▸ flies)
    | committed q d flew there found current document flying remembered commit published =>
      exact flew_on (flying p flies)
    | spared spared silent => exact flew_on (spared.flying p flies rfl)
    | tookOff q woke documents there taken flying remembered silent =>
      have flown : p ∈ s.flying ++ [q] := flying ▸ flies
      rcases List.mem_append.mp flown with flew | new
      · exact flew_on flew
      · obtain rfl := List.mem_singleton.mp new
        obtain ⟨d, found, -, same⟩ := Documents.snapshot?_eq_some_iff.mp taken
        have stamp : d.stamp = p.snapshot.stamp := congrArg Snapshot.stamp same
        have current : (last.after.documents.find? p.document).map (·.stamp) =
            some p.snapshot.stamp := by
          rw [documents, found, Option.map_some, stamp]
        exact ⟨[], last, past, rfl, woke, taken, iff_of_true current (List.forall_mem_nil _)⟩

end Run

/-- **Edits overtake the passes in flight and no others.** A pass in flight took its snapshot when
it woke. If the document was not edited or closed and the settings did not change since then, the
pass commits and publishes, and otherwise nothing comes of it, whatever happened while it slept. So
an edit does not overtake the passes that sleep: whichever of them wakes next, before the document
is overtaken once more, takes off with the text of the edit, unless that was analysed already. -/
theorem edits_overtake_passes_in_flight_only (run : Run past s) :
    (∀ index p, s.flying[index]? = some p → ∃ later m earlier, past = later ++ m :: earlier ∧
      (∃ i, m.event = .woke i) ∧ m.server.documents.snapshot? p.document = some p.snapshot ∧
      ∀ w, ((∀ other ∈ later, other.event.overtakes p.document = false) →
          (Moment.mk s w (.finished index)).commit? p.document = some ⟨w, p⟩ ∧
          (Moment.mk s w (.finished index)).published p.document =
            [(some p.snapshot.version, (Commit.mk w p).diagnostics)]) ∧
        ((∃ other ∈ later, other.event.overtakes p.document = true) →
          s.step w (.finished index) = ({ s with flying := s.flying.eraseIdx index }, []))) ∧
    ∀ later m earlier url, past = later ++ m :: earlier → m.event.edits url = true →
      (∀ other ∈ later, other.event.overtakes url = false) →
      ∃ d, s.documents.find? url = some d ∧ m.event.text? = some d.text ∧
        ∀ w index q, s.sleeping[index]? = some q → q.document = url →
          (s.step w (.woke index)).1.flying =
            if d.analysis.isSome && d.isAnalyzed then s.flying
            else s.flying ++ [⟨url, d.snapshot, q.root⟩] := by
  constructor
  · intro index p there
    obtain ⟨later, m, earlier, shape, woke, taken, current⟩ :=
      run.tookOff (List.mem_of_getElem? there)
    refine ⟨later, m, earlier, shape, woke, taken, fun w => ⟨fun spared => ?_, fun overtaken => ?_⟩⟩
    · obtain ⟨d, found, same⟩ := Option.map_eq_some_iff.mp (current.mpr spared)
      obtain ⟨documents, kept⟩ := Option.ne_none_iff_exists'.mp fun refused =>
        Documents.commit?_eq_none_iff (a := Server.analysisOf w p).mp refused d found same
      exact ⟨by simp [Moment.commit?, there, kept],
        (Server.published_of_kept there kept p.document).trans (if_pos rfl)⟩
    · refine Server.step_finished_of_refused there (Documents.commit?_eq_none_iff.mpr ?_)
      intro d found same
      obtain ⟨other, behind, overtakes⟩ := overtaken
      have spared := current.mp (by rw [found, Option.map_some, same]) other behind
      exact Bool.false_ne_true (spared.symm.trans overtakes)
  · intro later m earlier url shape edits spared
    obtain ⟨edited, there, text⟩ := Moment.text_of_edits edits
    have kept := run.snapshot_kept shape spared
    rw [there] at kept
    obtain ⟨d, found, same⟩ := Option.map_eq_some_iff.mp kept
    refine ⟨d, found, text.trans (congrArg (some ·.text) same.symm), ?_⟩
    rintro w index q asleep rfl
    simp only [Server.step, asleep, Server.takeOff]
    cases known : (d.analysis.isSome && d.isAnalyzed) with
    | true =>
      have needless : s.documents.snapshot? q.document = none :=
        Documents.snapshot?_eq_none_iff.mpr fun other there => by
          cases found.symm.trans there
          exact known
      simp [needless]
    | false =>
      have taken := Documents.snapshot?_eq_some_iff.mpr ⟨d, found, known, rfl⟩
      simp [taken]

/-- An edit comes while the pass of the opening sleeps. That pass wakes, takes off with the text of
the edit, and its analysis is committed and published. -/
theorem sleeping_pass_outlasts_an_edit :
    ∃ past s p, Run past s ∧ s.flying = [p] ∧ p.snapshot = ⟨['b'], 2, 2⟩ ∧
      (Moment.mk s .bare (.finished 0)).published .untitled =
        [(some 2, (Commit.mk .bare p).diagnostics)] := by
  let edited := play .bare [] .start [.opened .untitled 1 ['a'], .changed .untitled 2 [['b']]]
  have run : Run edited.1 edited.2 := Run.start.play .bare _
  obtain ⟨d, found, -, wakes⟩ := (edits_overtake_passes_in_flight_only run).2 [] _ _ .untitled
    rfl rfl (List.forall_mem_nil _)
  obtain ⟨later, m, earlier, shape, ⟨i, woke⟩, -, ends⟩ :=
    (edits_overtake_passes_in_flight_only (run.next .bare (.woke 0))).1 0
      ⟨.untitled, ⟨['b'], 2, 2⟩, none⟩ rfl
  have spared : ∀ other ∈ later, other.event.overtakes .untitled = false := by
    cases later with
    | nil => exact List.forall_mem_nil _
    | cons first later =>
      -- what is behind the last event is no pass that wakes
      have early : m ∈ edited.1 := by simp [(List.cons.inj shape).2]
      obtain rfl | rfl : m = _ ∨ m = _ := by simpa [edited, play] using early
      all_goals cases woke
  cases found
  exact ⟨_, _, _, run.next .bare (.woke 0), wakes .bare 0 _ rfl rfl, rfl, ((ends .bare).1 spared).2⟩

/-- A document is opened, and changed 100 ms later. The pass of the opening still sleeps then, and
the one of the change will not wake for another 250 ms. After 60 ms the first one has published the
diagnostics of the changed text, and the second one sleeps on. -/
theorem earlier_pass_publishes_a_later_edit :
    let opened := (Session.start (FileTree.access ⟨[], []⟩) .standard).after
      (.opened .untitled 1 ['a'])
    let changed := (opened.wait 100).after (.changed .untitled 2 [['b']])
    let later := changed.wait 60
    changed.around.now = 100 ∧ changed.outbox = [] ∧
      changed.server.sleeping = [⟨.untitled, 150, none⟩, ⟨.untitled, 350, none⟩] ∧
      later.around.now = 160 ∧ later.server.flying = [] ∧
      later.server.sleeping = [⟨.untitled, 350, none⟩] ∧
      ∃ diagnostics, later.outbox = [.publish .untitled (some 2) diagnostics] :=
  ⟨rfl, rfl, rfl, rfl, rfl, rfl, _, rfl⟩

end XuleLang
