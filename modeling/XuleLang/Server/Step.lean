import XuleLang.Server.Document
import XuleLang.Server.Workspace

/-!
The server, event by event.

An editor opens documents, changes and closes them, and says that the settings changed. Whatever
makes a validation necessary schedules a pass, which sleeps for a while. When it wakes, it takes a
snapshot of its document, unless that is closed or was analysed already, and is in flight from then
on. When it is through, its analysis is committed and its diagnostics are published, unless the
document moved on in the meantime; then nothing comes of it.

The order of events is not fixed here: any pass that sleeps may wake next, and any that is in
flight may be through next. `Server.step` says what follows from an event.
-/

namespace XuleLang

/-- A validation that will begin. -/
structure SleepingPass where
  document : Url
  /-- The time in milliseconds at which it wakes. -/
  due : Nat
  /-- The root of the workspace when it was scheduled. -/
  root : Option Path
deriving DecidableEq, Repr

/-- A validation that has begun. -/
structure FlyingPass where
  document : Url
  snapshot : Snapshot
  root : Option Path
deriving DecidableEq, Repr

/-- Documents and the validations that are under way. -/
structure Server where
  documents : Documents
  root : Option Path
  /-- In the order in which they were scheduled. -/
  sleeping : List SleepingPass
  /-- In the order in which they woke. -/
  flying : List FlyingPass
deriving Repr

/-- How much a logged line matters. -/
inductive LogLevel where
  | info
  | log
deriving DecidableEq, Repr

/-- How editors number levels. -/
def LogLevel.number : LogLevel → Nat
  | info => 3
  | log => 4

/-- What the server says without being asked. -/
inductive Message where
  | log (level : LogLevel) (text : String)
  /-- The diagnostics of a document, which replace those published before. -/
  | publish (document : Url) (version : Option Int) (diagnostics : List Diagnostic)
deriving DecidableEq, Repr

/-- What surrounds the server when an event happens. -/
structure Surroundings where
  /-- The time in milliseconds. -/
  now : Nat
  settings : Settings
  files : FileAccess Id

/-- What may happen. -/
inductive ServerEvent where
  | opened (document : Url) (version : Int) (text : List Char)
  /-- The last of the texts counts; without any, nothing happened. -/
  | changed (document : Url) (version : Int) (texts : List (List Char))
  | closed (document : Url)
  /-- The settings changed. -/
  | configured
  /-- The sleeping pass with a number woke. -/
  | woke (index : Nat)
  /-- The pass in flight with a number is through. -/
  | finished (index : Nat)
deriving DecidableEq, Repr

namespace Server

/-- The server before it is told anything. -/
def start : Server := ⟨.empty, none, [], []⟩

/-- How long a pass sleeps after a document was opened, in milliseconds. -/
def openDelay : Nat := 150

/-- How long a pass sleeps after a document was changed, in milliseconds. -/
def changeDelay : Nat := 250

/-- The folder that a workspace is rooted in: the first of its folders, or else its root. -/
def rootOf? (folders : List Url) (root : Option Url) : Option Path :=
  (folders.head?.or root).bind Url.toFilePath?

/-- The server with a root. The first root stays. -/
def rooted (s : Server) (folders : List Url) (root : Option Url) : Server :=
  { s with root := s.root.or (rootOf? folders root) }

/-- The server with another pass that sleeps. -/
def schedule (s : Server) (document : Url) (due : Nat) : Server :=
  { s with sleeping := s.sleeping ++ [⟨document, due, s.root⟩] }

/-- The server with a pass for every document. -/
def scheduleAll (s : Server) (due : Nat) : Server :=
  s.documents.entries.foldl (fun s e => s.schedule e.1 due) s

/-- Puts a sleeping pass into flight, if its document has to be analysed. -/
def takeOff (s : Server) (p : SleepingPass) : Server :=
  match s.documents.snapshot? p.document with
  | some snapshot => { s with flying := s.flying ++ [⟨p.document, snapshot, p.root⟩] }
  | none => s

/-- The texts that a pass in flight takes into account. -/
def inputOf (w : Surroundings) (p : FlyingPass) : AnalysisInput :=
  Id.run (w.files.inputFor w.settings p.root p.document p.snapshot.text)

/-- The analysis that a pass in flight makes. -/
def analysisOf (w : Surroundings) (p : FlyingPass) : Analysis := .ofInput (inputOf w p)

/-- What is said about a validation that went through. -/
def validated (p : FlyingPass) (count : Nat) : String :=
  "validated " ++ p.document.toString ++ " v" ++ toString p.snapshot.version ++ ": " ++
    toString count ++ " diagnostics"

/-- Ends a pass in flight. -/
def land (w : Surroundings) (s : Server) (p : FlyingPass) : Server × List Message :=
  let analysis := analysisOf w p
  match s.documents.commit? p.document p.snapshot analysis with
  | none => (s, [])
  | some documents =>
    let diagnostics := analysis.diagnostics w.settings.checks
    ({ s with documents := documents },
      .publish p.document (some p.snapshot.version) diagnostics ::
        if w.settings.verbose then [.log .log (validated p diagnostics.length)] else [])

/-- What follows from an event: the server afterwards, and what it says. -/
def step (w : Surroundings) (s : Server) : ServerEvent → Server × List Message
  | .opened document version text =>
    let s := { s with documents := s.documents.opened document version text }
    (s.schedule document (w.now + openDelay), [])
  | .changed document version texts =>
    match texts.getLast? with
    | none => (s, [])
    | some text =>
      let s := { s with documents := s.documents.changed document version text }
      (s.schedule document (w.now + changeDelay), [])
  | .closed document =>
    ({ s with documents := s.documents.closed document }, [.publish document none []])
  | .configured => ({ s with documents := s.documents.outdated }.scheduleAll w.now, [])
  | .woke index =>
    match s.sleeping[index]? with
    | none => (s, [])
    | some p => ({ s with sleeping := s.sleeping.eraseIdx index }.takeOff p, [])
  | .finished index =>
    match s.flying[index]? with
    | none => (s, [])
    | some p => land w { s with flying := s.flying.eraseIdx index } p

end Server

end XuleLang
