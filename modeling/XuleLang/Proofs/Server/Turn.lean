import XuleLang.Proofs.Server.Run

/-!
What an event does to one document.

Every event is one of six things to a document (`Moment.turn`). It renews the document, which then
has a stamp that was never used and a pass that sleeps; it closes it; it wakes a pass for it, which
takes off or is skipped; it commits an analysis to it; or it spares it. What is proved of runs
follows from these six, and nothing below opens an event again.
-/

namespace XuleLang

namespace Server

variable {s : Server} {due : Nat}

private theorem schedule_each (entries : List (Url × Document)) :
    entries.foldl (fun s e => s.schedule e.1 due) s =
      { s with sleeping := s.sleeping ++ entries.map fun e => ⟨e.1, due, s.root⟩ } := by
  induction entries generalizing s with
  | nil => simp
  | cons entry rest ih =>
    rw [List.foldl_cons, ih]
    simp [schedule]

/-- A pass is scheduled for every open document, behind those that sleep already. -/
theorem scheduleAll_eq : s.scheduleAll due =
    { s with sleeping := s.sleeping ++ s.documents.entries.map fun e => ⟨e.1, due, s.root⟩ } :=
  schedule_each s.documents.entries

variable {p : SleepingPass} {q : FlyingPass}

theorem takeOff_documents : (s.takeOff p).documents = s.documents := by
  unfold takeOff
  split <;> rfl

theorem takeOff_sleeping : (s.takeOff p).sleeping = s.sleeping := by
  unfold takeOff
  split <;> rfl

theorem flying_subset_takeOff : s.flying ⊆ (s.takeOff p).flying := by
  unfold takeOff
  split
  · exact List.subset_append_left _ _
  · exact List.Subset.refl _

/-- The only pass that can take off is one for the document of the pass that woke. -/
theorem flew_or_takes_off (flies : q ∈ (s.takeOff p).flying) :
    q ∈ s.flying ∨ q.document = p.document := by
  unfold takeOff at flies
  split at flies
  · rcases List.mem_append.mp flies with flew | new
    · exact .inl flew
    · exact .inr (by rw [List.mem_singleton.mp new])
  · exact .inl flies

variable {w : Surroundings} {index : Nat} {documents : Documents}

/-- A pass that is refused leaves nothing behind. -/
theorem step_finished_of_refused (there : s.flying[index]? = some q)
    (refused : s.documents.commit? q.document q.snapshot (analysisOf w q) = none) :
    s.step w (.finished index) = ({ s with flying := s.flying.eraseIdx index }, []) := by
  simp [step, there, land, refused]

/-- A pass that is committed leaves its analysis behind. -/
theorem step_finished_of_kept (there : s.flying[index]? = some q)
    (kept : s.documents.commit? q.document q.snapshot (analysisOf w q) = some documents) :
    (s.step w (.finished index)).1 =
      { s with documents := documents, flying := s.flying.eraseIdx index } := by
  simp [step, there, land, kept]

/-- A pass that is committed publishes its diagnostics for its own document, once. -/
theorem published_of_kept (there : s.flying[index]? = some q)
    (kept : s.documents.commit? q.document q.snapshot (analysisOf w q) = some documents)
    (url : Url) : (s.step w (.finished index)).2.filterMap (·.about? url) =
      if q.document = url then
        [(some q.snapshot.version, (analysisOf w q).diagnostics w.settings.checks)] else [] := by
  simp only [step, there, land, kept]
  cases verbose : w.settings.verbose <;> by_cases here : q.document = url <;>
    simp [Message.about?, here]

end Server

/-- Nothing is committed to a document at an event, and nothing is published for it. -/
structure Silent (m : Moment) (url : Url) : Prop where
  commit : m.commit? url = none
  published : m.published url = []

/-- A document has become `d`, which has to be validated: its stamp was never used, a pass sleeps
for it, and no analysis is known of it but one that was known before. -/
structure Renewed (m : Moment) (url : Url) (d : Document) : Prop where
  document : m.after.documents.find? url = some d
  fresh : m.server.documents.nextStamp ≤ d.stamp
  used : d.stamp < m.after.documents.nextStamp
  scheduled : ∃ q ∈ m.after.sleeping, q.document = url
  flying : m.after.flying = m.server.flying
  known : if m.forgets url then d.analysis = none ∧ d.analyzedHash = none
    else d.analysis = (m.server.documents.find? url).bind (·.analysis) ∧
      ∀ h, d.analyzedHash = some h → (m.server.documents.find? url).bind (·.analyzedHash) = some h
  text : m.event.text? = some d.text ∨
    ∃ before, m.server.documents.find? url = some before ∧ before.text = d.text

/-- Nothing changes for a document, save that a pass may come to nothing whose stamp the document
does not have. -/
structure Spared (m : Moment) (url : Url) : Prop where
  document : m.after.documents.find? url = m.server.documents.find? url
  sleeping : ∀ q ∈ m.server.sleeping, q.document = url → q ∈ m.after.sleeping
  flying : ∀ q ∈ m.after.flying, q.document = url → q ∈ m.server.flying
  current : ∀ q ∈ m.server.flying, q.document = url →
    ∀ d, m.server.documents.find? url = some d → d.stamp = q.snapshot.stamp → q ∈ m.after.flying
  remembered : m.forgets url = false

/-- What an event is to a document. -/
inductive Turn (m : Moment) (url : Url) : Prop where
  | renewed (d : Document) (renewed : Renewed m url d) (silent : Silent m url)
  | closed (gone : m.after.documents.find? url = none) (flying : m.after.flying = m.server.flying)
      (forgotten : m.forgets url = true) (silent : m.commit? url = none)
  | tookOff (p : FlyingPass) (woke : ∃ index, m.event = .woke index)
      (documents : m.after.documents = m.server.documents) (here : p.document = url)
      (taken : m.server.documents.snapshot? url = some p.snapshot)
      (flying : m.after.flying = m.server.flying ++ [p]) (remembered : m.forgets url = false)
      (silent : Silent m url)
  | skipped (documents : m.after.documents = m.server.documents)
      (needless : m.server.documents.snapshot? url = none)
      (flying : m.after.flying = m.server.flying) (remembered : m.forgets url = false)
      (silent : Silent m url)
  | committed (p : FlyingPass) (d : Document) (flew : p ∈ m.server.flying)
      (here : p.document = url) (found : m.server.documents.find? url = some d)
      (current : d.stamp = p.snapshot.stamp)
      (document : m.after.documents.find? url =
        some (d.analyzed p.snapshot.text (Server.analysisOf m.around p)))
      (flying : ∀ q ∈ m.after.flying, q ∈ m.server.flying) (remembered : m.forgets url = false)
      (commit : m.commit? url = some ⟨m.around, p⟩)
      (published : m.published url =
        [(some p.snapshot.version, (Commit.mk m.around p).diagnostics)])
  | spared (spared : Spared m url) (silent : Silent m url)

namespace Moment

variable {s : Server} {w : Surroundings} {url document : Url}

/-- Stamps are only ever given out. -/
theorem nextStamp_le (m : Moment) :
    m.server.documents.nextStamp ≤ m.after.documents.nextStamp := by
  obtain ⟨s, w, e⟩ := m
  cases e with
  | opened document version text => exact Nat.le_succ _
  | changed document version texts =>
    simp only [after, Server.step]
    split
    · exact Nat.le_refl _
    · exact Nat.le_succ _
  | closed document => exact Nat.le_refl _
  | configured => simp [after, Server.step, Server.scheduleAll_eq, Documents.outdated]
  | woke index =>
    simp only [after, Server.step]
    split
    · exact Nat.le_refl _
    · simp only [Server.takeOff]
      split <;> exact Nat.le_refl _
  | finished index =>
    simp only [after, Server.step]
    split
    · exact Nat.le_refl _
    · simp only [Server.land]
      split
      · exact Nat.le_refl _
      · rename_i committed
        obtain ⟨d, found, current, same, finds⟩ := Documents.find?_of_commit? committed
        exact Nat.le_of_eq same.symm

/-- Nothing changes for a document where only passes for others are scheduled. -/
private theorem spared_by_scheduling {m : Moment}
    (document : m.after.documents.find? url = m.server.documents.find? url)
    (sleeping : m.server.sleeping ⊆ m.after.sleeping)
    (flying : m.after.flying = m.server.flying) (remembered : m.forgets url = false) :
    Spared m url where
  document := document
  sleeping _ sleeps _ := sleeping sleeps
  flying _ flies _ := flying ▸ flies
  current _ flies _ _ _ _ := flying ▸ flies
  remembered := remembered

private theorem spared_by_rest {m : Moment} (same : m.after = m.server)
    (remembered : m.forgets url = false) : Spared m url :=
  spared_by_scheduling (by rw [same]) (by rw [same]; exact List.Subset.refl _) (by rw [same])
    remembered

private theorem opened_turn (version : Int) (text : List Char) :
    Turn ⟨s, w, .opened document version text⟩ url := by
  by_cases here : document = url
  · subst here
    refine .renewed (.unknown text version s.documents.nextStamp)
      { document := ?_, fresh := Nat.le_refl _, used := Nat.lt_succ_self _, scheduled := ?_
        flying := rfl, known := ?_, text := .inl rfl } ⟨rfl, rfl⟩
    · simp [after, Server.step, Server.schedule]
    · exact ⟨_, List.mem_append_right _ List.mem_cons_self, rfl⟩
    · simp [forgets, Document.unknown]
  · refine .spared (spared_by_scheduling ?_ (List.subset_append_left _ _) rfl ?_) ⟨rfl, rfl⟩
    · simp [after, Server.step, Server.schedule, Ne.symm here]
    · simp [forgets, here]

private theorem changed_turn (version : Int) (texts : List (List Char)) :
    Turn ⟨s, w, .changed document version texts⟩ url := by
  cases last : texts.getLast? with
  | none =>
    have same : (Moment.mk s w (.changed document version texts)).after = s := by
      simp [after, Server.step, last]
    exact .spared (spared_by_rest same rfl)
      ⟨rfl, by simp [published, said, Server.step, last]⟩
  | some text =>
    have same : (Moment.mk s w (.changed document version texts)).after =
        { s with documents := s.documents.changed document version text }.schedule document
          (w.now + Server.changeDelay) := by
      simp [after, Server.step, last]
    have silent : Silent ⟨s, w, .changed document version texts⟩ url :=
      ⟨rfl, by simp [published, said, Server.step, last]⟩
    by_cases here : document = url
    · subst here
      let before := (s.documents.find? document).getD (.unknown text version s.documents.nextStamp)
      refine .renewed (before.changed text version s.documents.nextStamp)
        { document := ?_, fresh := Nat.le_refl _, used := ?_, scheduled := ?_, flying := ?_
          known := ?_, text := .inl last } silent
      · simp [same, Server.schedule, before]
      · rw [same]
        exact Nat.lt_succ_self _
      · rw [same]
        exact ⟨_, List.mem_append_right _ List.mem_cons_self, rfl⟩
      · rw [same]
        rfl
      · cases found : s.documents.find? document <;>
          simp [forgets, before, found, Document.changed, Document.unknown]
    · refine .spared (spared_by_scheduling ?_ ?_ ?_ rfl) silent
      · simp [same, Server.schedule, Ne.symm here]
      · simp [same, Server.schedule]
      · simp [same, Server.schedule]

private theorem closed_turn : Turn ⟨s, w, .closed document⟩ url := by
  by_cases here : document = url
  · subst here
    refine .closed ?_ rfl ?_ rfl
    · simp [after, Server.step]
    · simp [forgets]
  · refine .spared (spared_by_scheduling ?_ (List.Subset.refl _) rfl ?_) ⟨rfl, ?_⟩
    · simp [after, Server.step, Ne.symm here]
    · simp [forgets, here]
    · simp [published, said, Server.step, Message.about?, here]

private theorem configured_turn : Turn ⟨s, w, .configured⟩ url := by
  have same : (Moment.mk s w .configured).after =
      { s with documents := s.documents.outdated }.scheduleAll w.now := rfl
  rw [Server.scheduleAll_eq] at same
  cases found : s.documents.outdated.find? url with
  | none =>
    have closed : s.documents.find? url = none := Documents.find?_outdated_eq_none.mp found
    refine .spared (spared_by_scheduling ?_ ?_ ?_ rfl) ⟨rfl, rfl⟩
    · rw [same]
      exact found.trans closed.symm
    · simp [same]
    · simp [same]
  | some d =>
    obtain ⟨before, given, there, rfl, low, high⟩ := Documents.find?_outdated found
    refine .renewed (before.outdated given)
      { document := by rw [same]; exact found, fresh := low, used := by rw [same]; exact high
        scheduled := ?_, flying := by rw [same], known := ?_, text := .inr ⟨before, there, rfl⟩ }
      ⟨rfl, rfl⟩
    · obtain ⟨front, back, split, -⟩ := List.lookup_eq_some_iff.mp found
      refine ⟨⟨url, w.now, s.root⟩, ?_, rfl⟩
      rw [same]
      refine List.mem_append_right _ (List.mem_map.mpr ⟨(url, before.outdated given), ?_, rfl⟩)
      rw [split]
      simp
    · simp [forgets, there, Document.outdated]

private theorem mem_eraseIdx_of_ne {α : Type} {items : List α} {index : Nat} {item other : α}
    (there : items[index]? = some item) (member : other ∈ items) (differ : other ≠ item) :
    other ∈ items.eraseIdx index := by
  obtain ⟨position, found⟩ := List.mem_iff_getElem?.mp member
  refine List.mem_eraseIdx_iff_getElem?.mpr ⟨position, ?_, found⟩
  rintro rfl
  exact differ (Option.some.inj (found.symm.trans there))

private theorem woke_turn (index : Nat) : Turn ⟨s, w, .woke index⟩ url := by
  cases there : s.sleeping[index]? with
  | none =>
    refine .spared (spared_by_rest ?_ rfl) ⟨rfl, ?_⟩
    · simp [after, Server.step, there]
    · simp [published, said, Server.step, there]
  | some p =>
    have silent : Silent ⟨s, w, .woke index⟩ url :=
      ⟨rfl, by simp [published, said, Server.step, there]⟩
    have woken : (Moment.mk s w (.woke index)).after =
        { s with sleeping := s.sleeping.eraseIdx index }.takeOff p := by
      simp [after, Server.step, there]
    by_cases here : p.document = url
    · subst here
      cases taken : s.documents.snapshot? p.document with
      | none =>
        refine .skipped ?_ taken ?_ rfl silent <;> simp [woken, Server.takeOff, taken]
      | some snapshot =>
        refine .tookOff ⟨p.document, snapshot, p.root⟩ ⟨index, rfl⟩ ?_ rfl taken ?_ rfl silent <;>
          simp [woken, Server.takeOff, taken]
    · refine .spared
        { document := ?_, sleeping := ?_, flying := ?_, current := ?_, remembered := rfl } silent
      · rw [woken, Server.takeOff_documents]
      · intro q sleeps about
        rw [woken, Server.takeOff_sleeping]
        exact mem_eraseIdx_of_ne there sleeps (fun same => here (same ▸ about))
      · intro q flies about
        rw [woken] at flies
        exact (Server.flew_or_takes_off flies).resolve_right
          (fun same => here (same.symm.trans about))
      · intro q flies _ _ _ _
        rw [woken]
        exact Server.flying_subset_takeOff flies

private theorem stale_turn {index : Nat} {p : FlyingPass} (there : s.flying[index]? = some p)
    (refused : s.documents.commit? p.document p.snapshot (Server.analysisOf w p) = none) :
    Turn ⟨s, w, .finished index⟩ url := by
  have dropped := Server.step_finished_of_refused there refused
  refine .spared
    { document := ?_, sleeping := ?_, flying := ?_, current := ?_, remembered := rfl } ⟨?_, ?_⟩
  · simp [after, dropped]
  · exact fun q sleeps _ => by simpa [after, dropped] using sleeps
  · intro q flies _
    simp only [after, dropped] at flies
    exact List.mem_of_mem_eraseIdx flies
  · intro q flies about d found current
    simp only [after, dropped]
    refine mem_eraseIdx_of_ne there flies ?_
    -- a pass that is refused does not have the stamp of its document
    rintro rfl
    exact Documents.commit?_eq_none_iff.mp refused d (about ▸ found) current
  · simp [commit?, there, refused]
  · simp [published, said, dropped]

private theorem current_turn {index : Nat} {p : FlyingPass} {documents : Documents}
    (there : s.flying[index]? = some p)
    (kept : s.documents.commit? p.document p.snapshot (Server.analysisOf w p) = some documents) :
    Turn ⟨s, w, .finished index⟩ url := by
  obtain ⟨d, found, current, -, finds⟩ := Documents.find?_of_commit? kept
  have landed : (Moment.mk s w (.finished index)).after =
      { s with documents := documents, flying := s.flying.eraseIdx index } :=
    Server.step_finished_of_kept there kept
  have flying : ∀ q ∈ (Moment.mk s w (.finished index)).after.flying, q ∈ s.flying := by
    rw [landed]
    exact fun q flies => List.mem_of_mem_eraseIdx flies
  have published := Server.published_of_kept there kept url
  by_cases here : p.document = url
  · subst here
    refine .committed p d (List.mem_of_getElem? there) rfl found current ?_ flying rfl ?_
      (published.trans (if_pos rfl))
    · rw [landed]
      exact (finds p.document).trans (if_pos rfl)
    · simp [commit?, there, kept]
  · refine .spared
      { document := ?_, sleeping := ?_, flying := fun q flies _ => flying q flies, current := ?_
        remembered := rfl } ⟨?_, published.trans (if_neg here)⟩
    · rw [landed]
      exact (finds url).trans (if_neg (Ne.symm here))
    · exact fun q sleeps _ => by simpa [landed] using sleeps
    · intro q flies about _ _ _
      rw [landed]
      exact mem_eraseIdx_of_ne there flies (fun same => here (same ▸ about))
    · simp [commit?, there, here]

private theorem finished_turn (index : Nat) : Turn ⟨s, w, .finished index⟩ url := by
  cases there : s.flying[index]? with
  | none =>
    refine .spared (spared_by_rest ?_ rfl) ⟨?_, ?_⟩
    · simp [after, Server.step, there]
    · simp [commit?, there]
    · simp [published, said, Server.step, there]
  | some p =>
    cases kept : s.documents.commit? p.document p.snapshot (Server.analysisOf w p) with
    | none => exact stale_turn there kept
    | some documents => exact current_turn there kept

/-- Every event is one of six things to a document. -/
theorem turn (m : Moment) (url : Url) : Turn m url := by
  obtain ⟨s, w, e⟩ := m
  cases e with
  | opened document version text => exact opened_turn version text
  | changed document version texts => exact changed_turn version texts
  | closed document => exact closed_turn
  | configured => exact configured_turn
  | woke index => exact woke_turn index
  | finished index => exact finished_turn index

end Moment

end XuleLang
