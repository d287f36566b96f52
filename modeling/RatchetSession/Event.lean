import RatchetSession.Channel
import RatchetSession.Identity
import RatchetSession.SessionId

/-!
# Events, listeners and the log

A session tells its listener about milestones. A listener may ignore them, write them to the log,
or record them and refuse some. Log records are kept as data and have a level, a source and a text.
-/

set_option autoImplicit false
set_option relaxedAutoImplicit false

namespace RatchetSession

inductive Milestone
  | newSessionInitiated
  | responderSessionEstablished
  | initiatorSessionEstablished
  | firstFourDhMessageReceived
deriving DecidableEq

namespace Milestone

def name : Milestone → String
  | .newSessionInitiated => "new_session_initiated"
  | .responderSessionEstablished => "responder_session_established"
  | .initiatorSessionEstablished => "initiator_session_established"
  | .firstFourDhMessageReceived => "first_4dh_message_received"

def all : List Milestone :=
  [.newSessionInitiated, .responderSessionEstablished, .initiatorSessionEstablished,
    .firstFourDhMessageReceived]

end Milestone

inductive Hook
  | milestone (m : Milestone)
  | messagesSkipped
deriving DecidableEq

namespace Hook

def name : Hook → String
  | .milestone m => m.name
  | .messagesSkipped => "messages_skipped"

def ofName? (s : String) : Option Hook :=
  (messagesSkipped :: Milestone.all.map milestone).find? (·.name = s)

end Hook

structure Summary where
  id : SessionId
  role : Role
  phase : Phase
  peer : Identity
deriving DecidableEq

namespace Summary

def text (s : Summary) : String :=
  s!"{s.id.text} ({s.role.text}, {s.phase.text}, peer={s.peer.text})"

def describe (s : Summary) : String :=
  let peer := Quoted.text s.peer.text
  s!"DHSession(id={s.id.text}, role={s.role.text}, state={s.phase.text}, peer={peer})"

end Summary

inductive Event
  /-- A milestone, with the session as it is at that moment. -/
  | milestone (m : Milestone) (session : Summary)
  | skipped (id : SessionId) (peer : Identity) (turns : Nat)
deriving DecidableEq

namespace Event

def hook : Event → Hook
  | .milestone m _ => .milestone m
  | .skipped _ _ _ => .messagesSkipped

def text : Event → String
  | .milestone m s =>
    let session := s.text
    let peer := s.peer.text
    match m with
    | .newSessionInitiated =>
      s!"[ForwardSecurity] New initiator DH session {session}, contact: {peer}"
    | .responderSessionEstablished =>
      s!"[ForwardSecurity] Responder session established {session}, contact: {peer}"
    | .initiatorSessionEstablished =>
      s!"[ForwardSecurity] Initiator session established {session}, contact: {peer}"
    | .firstFourDhMessageReceived =>
      s!"[ForwardSecurity] First 4DH message received in session {session} with contact: {peer}"
  | .skipped id peer turns =>
    s!"[ForwardSecurity] Skipped {turns} messages in session {id.text} with contact: {peer.text}"

end Event

inductive Level
  | debug
  | info
  | warning
deriving DecidableEq

inductive LogSource
  | session
  | ratchet
  | status
deriving DecidableEq

inductive LogRecord
  | ratchetTurned (turns counter : Nat)
  | handshakeRejected (id : SessionId) (peer : Identity)
  | acceptRejected (id : SessionId) (peer : Identity)
  /-- An event that a listener writes down. -/
  | noted (e : Event)
deriving DecidableEq

namespace LogRecord

def level : LogRecord → Level
  | .ratchetTurned _ _ => .debug
  | .handshakeRejected _ _ | .acceptRejected _ _ => .warning
  | .noted (.milestone _ _) => .info
  | .noted (.skipped _ _ _) => .debug

def source : LogRecord → LogSource
  | .ratchetTurned _ _ => .ratchet
  | .handshakeRejected _ _ | .acceptRejected _ _ => .session
  | .noted _ => .status

def text : LogRecord → String
  | .ratchetTurned turns counter => s!"Ratchet turned {turns} times to counter {counter}"
  | .handshakeRejected id peer =>
    s!"Rejected handshake for session {id.text} from {peer.text}: invalid peer key"
  | .acceptRejected id peer =>
    s!"Rejected accept for session {id.text} from {peer.text}: invalid peer key"
  | .noted e => e.text

end LogRecord

inductive Listener
  | silent
  | logging
  /-- Every event is recorded; then those of the given hooks are refused. -/
  | recorder (refused : List Hook)
deriving DecidableEq

/-- What telling an event led to. -/
structure Notice where
  events : List Event
  log : List LogRecord
  refused : Bool
deriving DecidableEq

def Listener.tell (e : Event) : Listener → Notice
  | .silent => ⟨[], [], false⟩
  | .logging => ⟨[], [.noted e], false⟩
  | .recorder refused => ⟨[e], [], refused.contains e.hook⟩

end RatchetSession
