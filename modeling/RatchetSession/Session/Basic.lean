import RatchetSession.Party
import RatchetSession.Session.Slot

/-!
# Sessions

A session between two parties, and what operations on it leave, answer and report. An operation is a
`Task`, a sequence of reads, writes and reports, which a failure breaks off where it occurs.
-/

set_option autoImplicit false
set_option relaxedAutoImplicit false

namespace RatchetSession

structure Session where
  id : SessionId
  role : Role
  me : LocalIdentity
  peer : Contact
  config : Config
  listener : Listener
  /-- Our ephemeral public key, as it was handed over. -/
  ephemeralPublic : Offered
  /-- Our ephemeral secret, until it is wiped. -/
  ephemeralSecret : Option Bytes
  /-- The ephemeral public key of the other party, once it is known. -/
  peerEphemeral : Option Bytes := none
  slots : Slots := {}
deriving DecidableEq

namespace Session

def phase (s : Session) : Phase := s.slots.phase

def summary (s : Session) : Summary := ⟨s.id, s.role, s.phase, s.peer.identity⟩

end Session

/-- A call of a listener. At a milestone it is handed the session itself, as it is then. -/
inductive HookCall
  | milestone (m : Milestone) (session : Session)
  | skipped (id : SessionId) (peer : Identity) (turns : Nat)
deriving DecidableEq

/-- What a listener makes of a call: of a session, what it shows of itself. -/
def HookCall.event : HookCall → Event
  | .milestone m session => .milestone m session.summary
  | .skipped id peer turns => .skipped id peer turns

/-- What an operation leaves behind, answers and reports. Reports are made also of operations that
fail. -/
structure Outcome (σ α : Type) where
  /-- What the operation worked on, afterwards. -/
  after : σ
  answer : Except Fault α
  /-- The number of random values drawn. -/
  draws : Nat := 0
  /-- The calls of the listener, whatever it makes of them. -/
  calls : List HookCall := []
  /-- What a recording listener heard. -/
  events : List Event := []
  log : List LogRecord := []

namespace Outcome

variable {σ α β : Type}

def map (f : α → β) (o : Outcome σ α) : Outcome σ β := { o with answer := o.answer.map f }

def failed (before : σ) (f : Fault) : Outcome σ α := { after := before, answer := .error f }

/-- The outcome with a call of a listener; if it refuses the event, that is the answer. -/
def tell (l : Listener) (call : HookCall) (o : Outcome σ α) : Outcome σ α :=
  let n := l.tell call.event
  { o with
    answer := if n.refused then .error (.listener call.event.hook) else o.answer
    calls := o.calls ++ [call]
    events := o.events ++ n.events
    log := o.log ++ n.log }

end Outcome

/-- A computation on a value. What it has written when it fails stays written. -/
def Task (σ α : Type) := σ → Outcome σ α

namespace Task

variable {σ α β : Type}

def ask (f : σ → Except Fault α) : Task σ α := fun s => { after := s, answer := f s }

def write (f : σ → σ) : Task σ Unit := fun s => { after := f s, answer := .ok () }

def note (log : List LogRecord) : Task σ Unit := fun s => { after := s, answer := .ok (), log }

/-- The computation, whose failure may be written to the log. -/
def noting (log : σ → Fault → List LogRecord) (x : Task σ α) : Task σ α := fun s =>
  let o := x s
  match o.answer with
  | .ok _ => o
  | .error f => { o with log := o.log ++ log s f }

/-- One computation, and another that depends on its answer unless it fails. -/
protected def bind (x : Task σ α) (next : α → Task σ β) : Task σ β := fun s =>
  let o := x s
  match o.answer with
  | .error f =>
    { o with answer := .error f }
  | .ok a =>
    let p := next a o.after
    { p with
      draws := o.draws + p.draws
      calls := o.calls ++ p.calls
      events := o.events ++ p.events
      log := o.log ++ p.log }

instance : Monad (Task σ) where
  pure a := ask fun _ => .ok a
  bind := Task.bind

end Task

namespace Session

def ratchet (s : Session) (c : Channel) : Except Fault Ratchet :=
  match (s.slots.get c).live? with
  | some r => .ok r
  | none => .error (.noRatchet c s.id s.phase)

def putRatchet (s : Session) (c : Channel) (r : Ratchet) : Session :=
  { s with slots := s.slots.set ((s.slots.get c).replace r) c }

/-- The listener is called, with the session as it is then. -/
def tell (call : Session → HookCall) : Task Session Unit := fun s =>
  Outcome.tell s.listener (call s) { after := s, answer := .ok () }

/-- No session is held with oneself. -/
def checkPeer (me : LocalIdentity) (peer : Contact) : Except Fault Unit :=
  if me.identity = peer.identity then .error .sameIdentity else .ok ()

/-- A session without ratchets and with unchecked ephemeral keys. -/
def bare (id : SessionId) (role : Role) (me : LocalIdentity) (peer : Contact) (config : Config)
    (listener : Listener) (ephemeralPublic : Offered) (ephemeralSecret : Option Bytes) :
    Except Fault Session := do
  checkPeer me peer
  return { id, role, me, peer, config, listener, ephemeralPublic, ephemeralSecret }

end Session

end RatchetSession
