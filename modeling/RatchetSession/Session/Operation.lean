import RatchetSession.Session.Handshake

/-!
# Operations on a session

Once a session exists, these are the things that can be done with it. `Session.perform` does one of
them, `Session.run` a list; `Session.performOnHandle` works on a ratchet that was taken before.
-/

set_option autoImplicit false
set_option relaxedAutoImplicit false

namespace RatchetSession

def turnLog (turns : Nat) (r : Ratchet) : List LogRecord :=
  if turns = 0 then [] else [.ratchetTurned turns r.counter]

namespace Session

def encryptionKey (s : Session) (c : Channel) : Except Fault Key := do
  let r ← s.ratchet c
  r.encryptionKey.mapError .ratchet

/-- What is authenticated with the message at the current counter of a channel: the identifier, the
generation and the counter. -/
def associatedData (s : Session) (c : Channel) : Except Fault Bytes := do
  let r ← s.ratchet c
  return s.id.bytes.val ++ Bytes.ascii c.generation.text ++ Bytes.mostFirst 8 r.counter

def turn (c : Channel) : Task Session Unit := do
  let r ← .ask (·.ratchet c)
  let r' ← .ask fun _ => r.turn.mapError .ratchet
  .write (·.putRatchet c r')

/-- The listener hears of turns, if there were any. -/
def tellTurns (n : Nat) : Task Session Unit :=
  if n = 0 then pure () else tell fun s => .skipped s.id s.peer.identity n

/-- The ratchet of a channel catches up with the counter of a message. The listener hears of the
turns. -/
def turnUntil (c : Channel) (target : Int) : Task Session Nat := do
  let r ← .ask (·.ratchet c)
  let caught := r.turnUntil target
  .write (·.putRatchet c caught.1)
  let n ← .ask fun _ => caught.2.mapError .ratchet
  .note (turnLog n caught.1)
  tellTurns n
  return n

def encrypt (s : Session) (c : Channel) (text : Bytes) (nonce : Nonce) : Outcome Session Bytes :=
  match s.encryptionKey c with
  | .error f => .failed s f
  | .ok k =>
    match s.associatedData c with
    | .error f => .failed s f
    | .ok ad =>
      { after := s
        answer := (SealedMessage.encrypt k.val nonce text ad).mapError .sealing
        draws := 1 }

def decrypt (s : Session) (c : Channel) (message : Bytes) : Except Fault Bytes := do
  let k ← s.encryptionKey c
  let ad ← s.associatedData c
  (SealedMessage.decrypt k.val message ad).mapError .sealing

end Session

inductive Answer
  | done
  | octets (b : Bytes)
  | turns (n : Nat)
deriving DecidableEq

inductive Ratchet.Operation
  | encryptionKey
  | turn (times : Nat)
  | turnUntil (target : Int)
  | discard

def Ratchet.perform (r : Ratchet) : Ratchet.Operation → Outcome Ratchet Answer
  | .encryptionKey =>
    { after := r, answer := (r.encryptionKey.map fun k => .octets k.val).mapError .ratchet }
  | .turn times =>
    let (r', e) := r.turns times
    { after := r', answer := (e.map fun () => .done).mapError .ratchet }
  | .turnUntil target =>
    let (r', turned) := r.turnUntil target
    { after := r'
      answer := (turned.map .turns).mapError .ratchet
      log :=
        match turned with
        | .ok n => turnLog n r'
        | .error _ => [] }
  | .discard => { after := r.discard, answer := .ok .done }

namespace Session

inductive Operation
  | accept (ephemeral longTerm : Offered)
  | discardTwoDh
  /-- Takes the ratchet of a channel, to work on it later. -/
  | take (c : Channel)
  | encryptionKey (c : Channel)
  | associatedData (c : Channel)
  | turn (c : Channel)
  | turnUntil (c : Channel) (target : Int)

/-- What an operation does, and answers. -/
def Operation.task : Operation → Task Session Answer
  | .accept ephemeral longTerm => do
    Session.accept ephemeral longTerm
    return .done
  | .discardTwoDh => do
    Session.discardTwoDh
    return .done
  | .take c => .ask fun s => (s.ratchet c).map fun _ => .done
  | .encryptionKey c => .ask fun s => (s.encryptionKey c).map fun k => .octets k.val
  | .associatedData c => .ask fun s => (s.associatedData c).map .octets
  | .turn c => do
    Session.turn c
    return .done
  | .turnUntil c target => do
    return .turns (← Session.turnUntil c target)

def perform (s : Session) (op : Operation) : Outcome Session Answer := op.task s

/-- One operation on a ratchet that was taken from the session before. -/
def performOnHandle (s : Session) (c : Channel) (op : Ratchet.Operation) :
    Outcome Session Answer :=
  match (s.slots.get c).ratchet? with
  | none => .failed s (.noRatchet c s.id s.phase)
  | some r =>
    let o := r.perform op
    { o with after := s.putRatchet c o.after }

def run (s : Session) (ops : List Operation) : Session :=
  ops.foldl (fun s op => (s.perform op).after) s

end Session

end RatchetSession
