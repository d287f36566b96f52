import RatchetSession.Memory.Basic

/-!
# Operations on objects

What is asked of a ratchet or of a session at a place is decided by what can be read there, and then
written to the objects and buffers concerned, one after the other.
-/

set_option autoImplicit false
set_option relaxedAutoImplicit false

namespace RatchetSession

/-- A computation on a ratchet, as one that may fail for other reasons too. -/
def Task.ofRatchet {σ α : Type} (f : σ → σ × Except Ratchet.Fault α) : Task σ α := fun s =>
  let (s', e) := f s
  { after := s', answer := e.mapError .ratchet }

namespace Memory

def turn (m : Memory) (x : Nat) : Memory × Except Ratchet.Fault Unit :=
  match (m.ratchet x).turn with
  | .ok r => (m.putRatchet x r, .ok ())
  | .error f => (m, .error f)

def turns (x : Nat) : Nat → Memory → Memory × Except Ratchet.Fault Unit
  | 0, m => (m, .ok ())
  | n + 1, m =>
    match m.turn x with
    | (m', .ok ()) => turns x n m'
    | (m', .error f) => (m', .error f)

def turnUntil (m : Memory) (x : Nat) (target : Int) : Memory × Except Ratchet.Fault Nat :=
  match (m.ratchet x).turnsTo target with
  | .error f => (m, .error f)
  | .ok n =>
    let (m', e) := turns x n m
    (m', e.map fun () => n)

def discard (m : Memory) (x : Nat) : Memory := m.putRatchet x (m.ratchet x).discard

/-- The state that a copy of the ratchet at a place starts in. The copy is a new object. -/
def copy (m : Memory) (x : Nat) : Except Ratchet.Fault Ratchet := do
  let r := m.ratchet x
  Ratchet.start (← r.liveKey) r.counter r.maxSkip

def performOn (m : Memory) (x : Nat) : Ratchet.Operation → Outcome Memory Answer
  | .encryptionKey =>
    { after := m
      answer := ((m.ratchet x).encryptionKey.map fun k => .octets k.val).mapError .ratchet }
  | .turn times =>
    let (m', e) := turns x times m
    { after := m', answer := (e.map fun () => .done).mapError .ratchet }
  | .turnUntil target =>
    let (m', turned) := m.turnUntil x target
    { after := m'
      answer := (turned.map .turns).mapError .ratchet
      log :=
        match turned with
        | .ok n => turnLog n (m'.ratchet x)
        | .error _ => [] }
  | .discard => { after := m.discard x, answer := .ok .done }

def discardField (m : Memory) (a : Nat) (c : Channel) : Memory :=
  match m.field? a c with
  | some x => m.discard x
  | none => m

def clearField (m : Memory) (a : Nat) (c : Channel) : Memory :=
  m.modifySession a fun o => { o with ratchets := o.ratchets.set none c }

/-- A session discards its ratchets of two agreements and does not refer to them any more. -/
def giveUpTwoDh (m : Memory) (a : Nat) : Memory :=
  let m := (m.discardField a ⟨.outgoing, .twoDh⟩).discardField a ⟨.incoming, .twoDh⟩
  (m.clearField a ⟨.outgoing, .twoDh⟩).clearField a ⟨.incoming, .twoDh⟩

def setPeerEphemeral (m : Memory) (a : Nat) (key : Option Bytes) : Memory :=
  m.modifySession a fun o => { o with peerEphemeral := key }

def wipeSecret (m : Memory) (a : Nat) : Memory :=
  (m.erase (m.sessions[a]?.bind (·.ephemeralSecret))).modifySession a fun o =>
    { o with ephemeralSecret := none }

/-- The listener of a session is called, with the session as it is then. -/
def tell (a : Nat) (call : Session → HookCall) : Task Memory Unit := fun m =>
  match m.session? a with
  | some s => Outcome.tell s.listener (call s) { after := m, answer := .ok () }
  | none => { after := m, answer := .ok () }

def tellTurns (a n : Nat) : Task Memory Unit :=
  if n = 0 then pure () else tell a fun s => .skipped s.id s.peer.identity n

section

variable (a : Nat) (s : Session)

def field (c : Channel) : Task Memory Nat :=
  .ask fun m =>
    match m.field? a c with
    | some x => .ok x
    | none => .error (.noRatchet c s.id s.phase)

def accept (ephemeral longTerm : Offered) : Task Memory Unit := do
  let secret ← .ask fun _ => s.pendingSecret
  .ask fun _ => s.checkLongTerm longTerm
  let material ← .noting (fun _ => s.acceptLog) (.ask fun _ => s.initiatorMaterial secret ephemeral)
  let four ← .ask fun _ => Session.startRatchets s.me s.peer s.config .fourDh material
  .write (·.attach a ⟨.outgoing, .fourDh⟩ four.1)
  .write (·.attach a ⟨.incoming, .fourDh⟩ four.2)
  .write (·.setPeerEphemeral a ephemeral.octets?)
  .write (·.wipeSecret a)
  .write (·.giveUpTwoDh a)
  tell a (.milestone .initiatorSessionEstablished)

def discardTwoDh : Task Memory Unit := do
  .ask fun _ => s.checkFourDh
  .write (·.giveUpTwoDh a)
  if s.phase = .responderFourDh then tell a (.milestone .firstFourDhMessageReceived)

def turnField (c : Channel) : Task Memory Unit := do
  let x ← field a s c
  .ofRatchet (·.turn x)

def catchUpField (c : Channel) (target : Int) : Task Memory Nat := do
  let x ← field a s c
  let n ← .ofRatchet (·.turnUntil x target)
  let r ← .ask fun m => .ok (m.ratchet x)
  .note (turnLog n r)
  tellTurns a n
  return n

/-- What an operation does in memory, where a session is at a place and reads as this value. -/
def task : Session.Operation → Task Memory Answer
  | .accept ephemeral longTerm => do
    accept a s ephemeral longTerm
    return .done
  | .discardTwoDh => do
    discardTwoDh a s
    return .done
  | .take c => do
    let _ ← field a s c
    return .done
  | .encryptionKey c => .ask fun _ => (s.encryptionKey c).map fun k => .octets k.val
  | .associatedData c => .ask fun _ => (s.associatedData c).map .octets
  | .turn c => do
    turnField a s c
    return .done
  | .turnUntil c target => do
    return .turns (← catchUpField a s c target)

end

def perform (m : Memory) (a : Nat) (s : Session) (op : Session.Operation) : Outcome Memory Answer :=
  task a s op m

end Memory

end RatchetSession
