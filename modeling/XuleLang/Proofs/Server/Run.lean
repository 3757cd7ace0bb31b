import XuleLang.Server.Request
import XuleLang.Source.FileTree

/-!
Runs of the server, and what a run leaves behind for one document.

A run is any order of events, with any surroundings at each of them: passes wake and come through
in whatever order, settings and files are whatever they are at the time. Between events the server
may learn the root of its workspace and may answer requests. What was said, given and committed is
read off the events of a run, not off the state, so that statements about the state compare it
with what really happened.
-/

namespace XuleLang

/-- An event of a run: the server that met it, and what surrounded that server. -/
structure Moment where
  server : Server
  around : Surroundings
  event : ServerEvent

/-- A pass whose analysis was committed, and what surrounded the server then. -/
structure Commit where
  around : Surroundings
  pass : FlyingPass

namespace Commit

/-- The text that was analysed. -/
def text (c : Commit) : List Char := c.pass.snapshot.text

/-- The texts that were taken into account. -/
def input (c : Commit) : AnalysisInput := Server.inputOf c.around c.pass

/-- The analysis that was committed. -/
def analysis (c : Commit) : Analysis := Server.analysisOf c.around c.pass

/-- The diagnostics of the analysis, under the settings of the time. -/
def diagnostics (c : Commit) : List Diagnostic :=
  c.analysis.diagnostics c.around.settings.checks

theorem input_edited (c : Commit) :
    c.input.edited = ⟨c.pass.document.toString, c.text⟩ := rfl

/-- What is committed is an analysis of the text that the pass took its snapshot of. -/
theorem analysis_text (c : Commit) : c.analysis.rules.edited.text = c.text :=
  RuleFile.edited_text _

end Commit

/-- What a message publishes for a document: the version it speaks of, and diagnostics. -/
def Message.about? (url : Url) : Message → Option (Option Int × List Diagnostic)
  | .publish document version diagnostics =>
    if document = url then some (version, diagnostics) else none
  | .log _ _ => none

/-- The text that an event gives to a document. -/
def ServerEvent.text? : ServerEvent → Option (List Char)
  | .opened _ _ text => some text
  | .changed _ _ texts => texts.getLast?
  | _ => none

namespace Moment

/-- The server after the event. -/
def after (m : Moment) : Server := (m.server.step m.around m.event).1

/-- What the server says at the event. -/
def said (m : Moment) : List Message := (m.server.step m.around m.event).2

/-- What is published for a document at the event. -/
def published (m : Moment) (url : Url) : List (Option Int × List Diagnostic) :=
  m.said.filterMap (·.about? url)

/-- What is committed for a document at the event. -/
def commit? (m : Moment) (url : Url) : Option Commit :=
  match m.event with
  | .finished index =>
    (m.server.flying[index]?.filter fun p => decide (p.document = url) &&
      (m.server.documents.commit? p.document p.snapshot (Server.analysisOf m.around p)).isSome).map
        (⟨m.around, ·⟩)
  | _ => none

/-- Whether a document is opened or closed, so that no earlier commit counts for it. -/
def forgets (m : Moment) (url : Url) : Bool :=
  match m.event with
  | .opened document _ _ | .closed document => decide (document = url)
  | _ => false

end Moment

/-- The events that led to a server, the latest first. -/
inductive Run : List Moment → Server → Prop where
  | start : Run [] .start
  | rooted {past : List Moment} {s : Server} (run : Run past s) (folders : List Url)
      (root : Option Url) : Run past (s.rooted folders root)
  | asked {past : List Moment} {s : Server} (run : Run past s) (document : Url) :
      Run past (Id.run ((Server.ask document).run s)).2
  | next {past : List Moment} {s : Server} (run : Run past s) (w : Surroundings)
      (e : ServerEvent) : Run (⟨s, w, e⟩ :: past) (s.step w e).1

/-- A server that meets some events one after the other in the same surroundings, and all that
happened until then. -/
def play (w : Surroundings) (past : List Moment) (s : Server) :
    List ServerEvent → List Moment × Server
  | [] => (past, s)
  | e :: events => play w (⟨s, w, e⟩ :: past) (s.step w e).1 events

/-- Any events make a run. -/
theorem Run.play {past : List Moment} {s : Server} (run : Run past s) (w : Surroundings)
    (events : List ServerEvent) : Run (play w past s events).1 (play w past s events).2 := by
  induction events generalizing past s with
  | nil => exact run
  | cons e events ih => exact ih (run.next w e)

/-- Surroundings without files, in which nothing is configured. -/
def Surroundings.bare : Surroundings := ⟨0, .standard, FileTree.access ⟨[], []⟩⟩

/-- A document that was never saved. -/
def Url.untitled : Url := ⟨"untitled".toList, none, .solid ['a'], none, none⟩

/-- The texts that documents were given in a run. -/
def givenTexts (past : List Moment) : List (List Char) := past.filterMap (·.event.text?)

/-- All that was published for a document, in order. -/
def publishedFor (url : Url) : List Moment → List (Option Int × List Diagnostic)
  | [] => []
  | m :: past => publishedFor url past ++ m.published url

/-- What was published last for a document. -/
def lastPublished? (url : Url) (past : List Moment) : Option (Option Int × List Diagnostic) :=
  (publishedFor url past).getLast?

/-- What was committed last for a document since it was opened. -/
def lastCommit? (url : Url) : List Moment → Option Commit
  | [] => none
  | m :: past => if m.forgets url then none else (m.commit? url).or (lastCommit? url past)

end XuleLang
