import XuleLang.Server.Step

/-!
Sessions: the server as time goes by.

A session is the server with what surrounds it and the messages that it sent. Time passes when it is
waited for. In it, passes wake when they are due, those that are due first before all others. All
that are due at one time wake before the first of them is through, and then they are through in the
order in which they woke.
-/

namespace XuleLang

/-- The server with what surrounds it and the messages that nobody took yet. -/
structure Session where
  server : Server
  around : Surroundings
  outbox : List Message

namespace Session

/-- The session that begins with some files, and an editor with some settings. -/
def start (files : FileAccess Id) (settings : Settings) : Session :=
  ⟨.start, ⟨0, settings, files⟩, []⟩

/-- The session after an event. -/
def after (s : Session) (e : ServerEvent) : Session :=
  let (server, messages) := s.server.step s.around e
  { s with server := server, outbox := s.outbox ++ messages }

/-- The session with a message of its own. -/
def say (s : Session) (m : Message) : Session := { s with outbox := s.outbox ++ [m] }

/-- What the server says when the editor is ready. -/
def greet (s : Session) : Session := s.say (.log .info "XULE Language Server started")

/-- The session with the root of its workspace. -/
def rooted (s : Session) (folders : List Url) (root : Option Url) : Session :=
  { s with server := s.server.rooted folders root }

/-- The session after the editor said that it has other settings. -/
def configured (s : Session) (settings : Settings) : Session :=
  { s with around := { s.around with settings := settings } }.after .configured

/-- The session without its messages. -/
def emptied (s : Session) : Session := { s with outbox := [] }

/-! ## Time -/

/-- Wakes at most `n` passes that are due at a time. -/
def wakeUpTo (time : Nat) : Nat → Session → Session
  | 0, s => s
  | n + 1, s =>
    match s.server.sleeping.findIdx? (·.due == time) with
    | none => s
    | some i => wakeUpTo time n (s.after (.woke i))

/-- Ends `n` passes in flight. -/
def finishUpTo : Nat → Session → Session
  | 0, s => s
  | n + 1, s => finishUpTo n (s.after (.finished 0))

/-- All that is due at a time. -/
def liveThrough (time : Nat) (s : Session) : Session :=
  let s := { s with around := { s.around with now := time } }
  let awake := wakeUpTo time s.server.sleeping.length s
  finishUpTo awake.server.flying.length awake

/-- The next time at which a pass is due. -/
def nextDue? (s : Session) : Option Nat := (s.server.sleeping.map (·.due)).min?

/-- At most `n` of the times at which something is due, up to a last one. -/
def liveUntil (last : Nat) : Nat → Session → Session
  | 0, s => s
  | n + 1, s =>
    match s.nextDue? with
    | some time => if time ≤ last then liveUntil last n (s.liveThrough time) else s
    | none => s

/-- The session some milliseconds later. -/
def wait (s : Session) (milliseconds : Nat) : Session :=
  let last := s.around.now + milliseconds
  let s := liveUntil last s.server.sleeping.length s
  { s with around := { s.around with now := last } }

end Session

end XuleLang
