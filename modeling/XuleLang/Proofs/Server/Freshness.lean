import XuleLang.Proofs.Server.Turn

/-!
Why a stale pass never commits.

A stamp is given out once, and a text reaches a document only together with a new one. So a pass
whose stamp the document has was not overtaken: the document still is what the pass took its
snapshot of, however often it was edited, closed and opened before. The invariant is `Fresh`, one
event keeps it (`Fresh.after`), and so does a run (`Run.fresh`).
-/

namespace XuleLang

/-- The stamps of a document and of its passes were given out, and a pass with the stamp of the
document has a snapshot of the document as it is. -/
structure Fresh (past : List Moment) (s : Server) (url : Url) : Prop where
  document : ∀ d, s.documents.find? url = some d → d.stamp < s.documents.nextStamp
  pass : ∀ p ∈ s.flying, p.document = url → p.snapshot.stamp < s.documents.nextStamp
  current : ∀ p ∈ s.flying, p.document = url →
    ∀ d, s.documents.find? url = some d → d.stamp = p.snapshot.stamp → d.snapshot = p.snapshot
  taken : ∀ p ∈ s.flying, p.document = url → ∃ m ∈ past, (∃ index, m.event = .woke index) ∧
    m.server.documents.snapshot? url = some p.snapshot

variable {past : List Moment} {s : Server} {url : Url}

namespace Fresh

variable {m : Moment}

/-- Passes that were in flight keep what is known of them while stamps are only given out. -/
private theorem kept_pass (fresh : Fresh past m.server url)
    (flew : ∀ q ∈ m.after.flying, q.document = url → q ∈ m.server.flying) :
    (∀ p ∈ m.after.flying, p.document = url →
      p.snapshot.stamp < m.after.documents.nextStamp) ∧
    ∀ p ∈ m.after.flying, p.document = url → ∃ earlier ∈ m :: past,
      (∃ index, earlier.event = .woke index) ∧
        earlier.server.documents.snapshot? url = some p.snapshot := by
  constructor
  · intro p flies here
    exact Nat.lt_of_lt_of_le (fresh.pass p (flew p flies here) here) m.nextStamp_le
  · intro p flies here
    obtain ⟨earlier, before, taken⟩ := fresh.taken p (flew p flies here) here
    exact ⟨earlier, List.mem_cons_of_mem m before, taken⟩

/-- Where the document stays or is closed, and no pass takes off, nothing has to be shown. -/
private theorem after_stillness (fresh : Fresh past m.server url)
    (document : ∀ d, m.after.documents.find? url = some d →
      ∃ before, m.server.documents.find? url = some before ∧ before.snapshot = d.snapshot)
    (flew : ∀ q ∈ m.after.flying, q.document = url → q ∈ m.server.flying) :
    Fresh (m :: past) m.after url := by
  obtain ⟨pass, taken⟩ := fresh.kept_pass flew
  refine { document := ?_, pass := pass, current := ?_, taken := taken }
  · intro d found
    obtain ⟨before, there, same⟩ := document d found
    have stamp : before.stamp = d.stamp := congrArg Snapshot.stamp same
    exact stamp ▸ Nat.lt_of_lt_of_le (fresh.document before there) m.nextStamp_le
  · intro p flies here d found current
    obtain ⟨before, there, same⟩ := document d found
    have stamp : before.stamp = d.stamp := congrArg Snapshot.stamp same
    exact same ▸ fresh.current p (flew p flies here) here before there (stamp.trans current)

/-- One event keeps stamps fresh. -/
theorem after (fresh : Fresh past m.server url) : Fresh (m :: past) m.after url := by
  cases m.turn url with
  | renewed d renewed silent =>
    have flew : ∀ q ∈ m.after.flying, q.document = url → q ∈ m.server.flying :=
      fun q flies _ => renewed.flying ▸ flies
    obtain ⟨pass, taken⟩ := fresh.kept_pass flew
    refine { document := ?_, pass := pass, current := ?_, taken := taken }
    · intro other found
      cases renewed.document.symm.trans found
      exact renewed.used
    · -- no pass can have a stamp that was given out only now
      intro p flies here other found current
      cases renewed.document.symm.trans found
      have old := fresh.pass p (flew p flies here) here
      have new := renewed.fresh
      omega
  | closed gone flying forgotten silent =>
    refine fresh.after_stillness ?_ (fun q flies _ => flying ▸ flies)
    intro d found
    cases gone.symm.trans found
  | tookOff p woke documents here taken flying remembered silent =>
    obtain ⟨before, there, -, same⟩ := Documents.snapshot?_eq_some_iff.mp taken
    have stamp : before.stamp = p.snapshot.stamp := congrArg Snapshot.stamp same
    refine { document := ?_, pass := ?_, current := ?_, taken := ?_ }
    · rw [documents]
      exact fresh.document
    · intro q flies about
      rw [flying, List.mem_append, List.mem_singleton] at flies
      rw [documents]
      rcases flies with flew | rfl
      · exact fresh.pass q flew about
      · exact stamp ▸ fresh.document before there
    · intro q flies about d found current
      rw [flying, List.mem_append, List.mem_singleton] at flies
      rw [documents] at found
      rcases flies with flew | rfl
      · exact fresh.current q flew about d found current
      · cases there.symm.trans found
        exact same
    · intro q flies about
      rw [flying, List.mem_append, List.mem_singleton] at flies
      rcases flies with flew | rfl
      · obtain ⟨earlier, before, seen⟩ := fresh.taken q flew about
        exact ⟨earlier, List.mem_cons_of_mem m before, seen⟩
      · exact ⟨m, List.mem_cons_self, woke, taken⟩
  | skipped documents needless flying remembered silent =>
    refine fresh.after_stillness ?_ (fun q flies _ => flying ▸ flies)
    intro d found
    exact ⟨d, documents ▸ found, rfl⟩
  | committed p d flew here found current document flying remembered commit published =>
    refine fresh.after_stillness ?_ (fun q flies _ => flying q flies)
    intro other there
    cases document.symm.trans there
    exact ⟨d, found, rfl⟩
  | spared spared silent =>
    refine fresh.after_stillness ?_ spared.flying
    intro d found
    exact ⟨d, spared.document ▸ found, rfl⟩

end Fresh

/-- Stamps are fresh in every run. -/
theorem Run.fresh (run : Run past s) (url : Url) : Fresh past s url := by
  induction run with
  | start =>
    exact { document := fun d found => by cases found
            pass := fun p flies => by cases flies
            current := fun p flies => by cases flies
            taken := fun p flies => by cases flies }
  | rooted run folders root ih => exact ⟨ih.document, ih.pass, ih.current, ih.taken⟩
  | asked run document ih => exact ih
  | next run w e ih => exact Fresh.after (m := ⟨_, w, e⟩) ih

/-- **A stale pass never commits.** Whenever the analysis of a pass is committed, after any run,
the document has the text and the version that the pass took its snapshot of when it woke. So what
is published is the analysis of the text of now, with the version of now, and the document keeps
that analysis with the hash of its text; no other document changes. Where the analysis is refused
no document changes at all, and nothing is said. -/
theorem stale_passes_never_commit {index : Nat} {p : FlyingPass} (run : Run past s)
    (flies : s.flying[index]? = some p) (w : Surroundings) :
    let m : Moment := ⟨s, w, .finished index⟩
    let c : Commit := ⟨w, p⟩
    (∃ earlier ∈ past, (∃ index, earlier.event = .woke index) ∧
      earlier.server.documents.snapshot? p.document = some p.snapshot) ∧
    (∀ documents, s.documents.commit? p.document p.snapshot c.analysis = some documents →
      m.after.documents = documents ∧
      (∃ d d', s.documents.find? p.document = some d ∧ d.text = p.snapshot.text ∧
        d.version = p.snapshot.version ∧ c.input.edited = ⟨p.document.toString, d.text⟩ ∧
        m.published p.document = [(some d.version, c.diagnostics)] ∧
        documents.find? p.document = some d' ∧ d'.snapshot = d.snapshot ∧
        d'.analysis = some c.analysis ∧ c.analysis.rules.edited.text = d'.text ∧
        d'.analyzedHash = some (contentHash d'.text)) ∧
      ∀ other, other ≠ p.document → documents.find? other = s.documents.find? other) ∧
    (s.documents.commit? p.document p.snapshot c.analysis = none →
      m.after.documents = s.documents ∧ m.said = []) := by
  intro m c
  have fresh := run.fresh p.document
  have flew : p ∈ s.flying := List.mem_of_getElem? flies
  refine ⟨fresh.taken p flew rfl, ?_, ?_⟩
  · intro documents kept
    obtain ⟨d, found, current, -, finds⟩ := Documents.find?_of_commit? kept
    have same : d.snapshot = p.snapshot := fresh.current p flew rfl d found current
    have text : p.snapshot.text = d.text := congrArg Snapshot.text same.symm
    have version : p.snapshot.version = d.version := congrArg Snapshot.version same.symm
    have landed := Server.step_finished_of_kept flies kept
    have published := Server.published_of_kept flies kept p.document
    have after := (finds p.document).trans (if_pos rfl)
    rw [if_pos rfl, version] at published
    rw [text] at after
    refine ⟨congrArg Server.documents landed,
      ⟨d, _, found, text.symm, version.symm, ?_, published, after, rfl, rfl, ?_, rfl⟩,
      fun other differs => (finds other).trans (if_neg differs)⟩
    · rw [← text]
      exact c.input_edited
    · exact c.analysis_text.trans text
  · intro refused
    have dropped := Server.step_finished_of_refused flies refused
    exact ⟨congrArg (·.1.documents) dropped, congrArg Prod.snd dropped⟩

/-- A document is closed and opened again with the same text while a pass is in flight. Nothing
comes of that pass, and all of the next one, which has the new version. -/
theorem pass_of_a_closed_document_never_commits :
    ∃ past s p q, Run past s ∧ s.flying = [p, q] ∧ p.document = .untitled ∧
      q.document = .untitled ∧ p.snapshot.text = q.snapshot.text ∧
      (Moment.mk s .bare (.finished 0)).after.documents = s.documents ∧
      (Moment.mk s .bare (.finished 1)).published .untitled =
        [(some 2, (Commit.mk .bare q).diagnostics)] := by
  let events : List ServerEvent := [.opened .untitled 1 ['a'], .woke 0, .closed .untitled,
    .opened .untitled 2 ['a'], .woke 0]
  let s := (play .bare [] .start events).2
  let p : FlyingPass := ⟨.untitled, ⟨['a'], 1, 1⟩, none⟩
  let q : FlyingPass := ⟨.untitled, ⟨['a'], 2, 2⟩, none⟩
  have run := Run.start.play .bare events
  have flying : s.flying = [p, q] := by decide +kernel
  have first : s.flying[0]? = some p := by rw [flying]; rfl
  have second : s.flying[1]? = some q := by rw [flying]; rfl
  have refused : s.documents.commit? p.document p.snapshot (Commit.mk .bare p).analysis = none :=
    rfl
  have kept : (s.documents.commit? q.document q.snapshot
      (Commit.mk .bare q).analysis).isSome := by decide +kernel
  obtain ⟨documents, kept⟩ := Option.isSome_iff_exists.mp kept
  obtain ⟨-, -, dropped⟩ := stale_passes_never_commit run first .bare
  obtain ⟨-, committed, -⟩ := stale_passes_never_commit run second .bare
  obtain ⟨-, ⟨d, _, -, -, version, -, published, -⟩, -⟩ := committed documents kept
  rw [version] at published
  exact ⟨_, s, p, q, run, flying, rfl, rfl, rfl, (dropped refused).1, published⟩

end XuleLang
