import RatchetSession.Session.Operation

/-!
# Objects in memory

Ratchets and sessions are objects at places of their own, which keep keys in buffers. Who takes a
ratchet from a session has the place of its object, so that both go on with one ratchet; a copy has
an object and a buffer of its own. Parties, contacts and configurations never change and are values.
-/

set_option autoImplicit false
set_option relaxedAutoImplicit false

namespace RatchetSession

structure RatchetObject where
  /-- The buffer of the chain key, until it is discarded. -/
  chainKey : Option Nat
  counter : Nat
  maxSkip : Int
deriving DecidableEq

/-- The places of the ratchets that a session uses. -/
structure Fields where
  twoOutgoing : Option Nat := none
  twoIncoming : Option Nat := none
  fourOutgoing : Option Nat := none
  fourIncoming : Option Nat := none
deriving DecidableEq

namespace Fields

def get (f : Fields) : Channel → Option Nat
  | ⟨.outgoing, .twoDh⟩ => f.twoOutgoing
  | ⟨.incoming, .twoDh⟩ => f.twoIncoming
  | ⟨.outgoing, .fourDh⟩ => f.fourOutgoing
  | ⟨.incoming, .fourDh⟩ => f.fourIncoming

def set (f : Fields) (x : Option Nat) : Channel → Fields
  | ⟨.outgoing, .twoDh⟩ => { f with twoOutgoing := x }
  | ⟨.incoming, .twoDh⟩ => { f with twoIncoming := x }
  | ⟨.outgoing, .fourDh⟩ => { f with fourOutgoing := x }
  | ⟨.incoming, .fourDh⟩ => { f with fourIncoming := x }

def slots (f : Fields) (read : Option Nat → Slot) : Slots where
  twoOutgoing := read f.twoOutgoing
  twoIncoming := read f.twoIncoming
  fourOutgoing := read f.fourOutgoing
  fourIncoming := read f.fourIncoming

theorem get_set (f : Fields) (x : Option Nat) (c d : Channel) :
    (f.set x c).get d = if d = c then x else f.get d := by
  rcases c with ⟨_ | _, _ | _⟩ <;> rcases d with ⟨_ | _, _ | _⟩ <;> rfl

@[simp] theorem get_slots (f : Fields) (read : Option Nat → Slot) (c : Channel) :
    (f.slots read).get c = read (f.get c) := by
  rcases c with ⟨_ | _, _ | _⟩ <;> rfl

end Fields

structure SessionObject where
  id : SessionId
  role : Role
  me : LocalIdentity
  peer : Contact
  config : Config
  listener : Listener
  ephemeralPublic : Offered
  /-- The buffer of our ephemeral secret, until it is wiped. -/
  ephemeralSecret : Option Nat
  peerEphemeral : Option Bytes
  ratchets : Fields := {}
deriving DecidableEq

/-- What is kept at the places of each sort. A place is never used for anything else. -/
structure Memory where
  buffers : Array Bytes := #[]
  ratchets : Array RatchetObject := #[]
  sessions : Array SessionObject := #[]
deriving DecidableEq

namespace Memory

def buffer (m : Memory) (b : Nat) : Bytes := m.buffers[b]?.getD []

/-- The ratchet at a place, as a value; where there is no object, one without a key. -/
def ratchet (m : Memory) (x : Nat) : Ratchet :=
  match m.ratchets[x]? with
  | some o => ⟨o.chainKey.map fun b => Bytes.fit 32 (m.buffer b), o.counter, o.maxSkip⟩
  | none => ⟨none, 0, 0⟩

def slot (m : Memory) : Option Nat → Slot
  | some x => .live (m.ratchet x)
  | none => .empty

/-- A session as a value, with the ratchets that it uses. -/
def read (m : Memory) (o : SessionObject) : Session where
  id := o.id
  role := o.role
  me := o.me
  peer := o.peer
  config := o.config
  listener := o.listener
  ephemeralPublic := o.ephemeralPublic
  ephemeralSecret := o.ephemeralSecret.map m.buffer
  peerEphemeral := o.peerEphemeral
  slots := o.ratchets.slots m.slot

def session? (m : Memory) (a : Nat) : Option Session := m.sessions[a]?.map m.read

/-- The place of the ratchet that a session uses on a channel. -/
def field? (m : Memory) (a : Nat) (c : Channel) : Option Nat :=
  m.sessions[a]?.bind fun o => o.ratchets.get c

/-- A new buffer for what is to be kept, if there is something. -/
def keep (m : Memory) : Option Bytes → Memory × Option Nat
  | some b => ({ m with buffers := m.buffers.push b }, some m.buffers.size)
  | none => (m, none)

def erase (m : Memory) : Option Nat → Memory
  | some b => { m with buffers := m.buffers.setIfInBounds b (Bytes.erased (m.buffer b)) }
  | none => m

/-- What has been kept in a buffer is erased there, and what is to be kept now gets a new one. -/
def renew (m : Memory) (old : Option Nat) (new : Option Bytes) : Memory × Option Nat :=
  (m.erase old).keep new

/-- A new object for a ratchet, at the next place, with a buffer of its own. -/
def addRatchet (m : Memory) (r : Ratchet) : Memory :=
  let (m, key) := m.keep (r.chainKey.map (·.val))
  { m with ratchets := m.ratchets.push ⟨key, r.counter, r.maxSkip⟩ }

/-- The ratchet at a place goes on to a later state. The chain key of that gets a new buffer, and
the buffer before is erased. -/
def putRatchet (m : Memory) (x : Nat) (r : Ratchet) : Memory :=
  match m.ratchets[x]? with
  | none => m
  | some o =>
    let (m, key) := m.renew o.chainKey (r.chainKey.map (·.val))
    { m with
      ratchets := m.ratchets.setIfInBounds x { o with chainKey := key, counter := r.counter } }

def modifySession (m : Memory) (a : Nat) (f : SessionObject → SessionObject) : Memory :=
  match m.sessions[a]? with
  | some o => { m with sessions := m.sessions.setIfInBounds a (f o) }
  | none => m

/-- A new ratchet becomes the one that a session uses on a channel. -/
def attach (m : Memory) (a : Nat) (c : Channel) (r : Ratchet) : Memory :=
  (m.addRatchet r).modifySession a fun o =>
    { o with ratchets := o.ratchets.set (some m.ratchets.size) c }

/-- A new object for a session, at the next place, with a buffer of its own and without ratchets. -/
def addBare (m : Memory) (s : Session) : Memory :=
  let (m, secret) := m.keep s.ephemeralSecret
  let o : SessionObject := {
    id := s.id
    role := s.role
    me := s.me
    peer := s.peer
    config := s.config
    listener := s.listener
    ephemeralPublic := s.ephemeralPublic
    ephemeralSecret := secret
    peerEphemeral := s.peerEphemeral }
  { m with sessions := m.sessions.push o }

def attachSlot (a : Nat) (slots : Slots) (m : Memory) (c : Channel) : Memory :=
  match slots.get c with
  | .live r => m.attach a c r
  | .empty | .retired _ => m

def addSession (m : Memory) (s : Session) : Memory :=
  Channel.all.foldl (attachSlot m.sessions.size s.slots) (m.addBare s)

end Memory

end RatchetSession
