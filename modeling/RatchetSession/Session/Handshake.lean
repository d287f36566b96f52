import RatchetSession.Session.Basic
import RatchetSession.Session.Identifier

/-!
# Handshake

The initiator sends its ephemeral key and can encrypt at once under keys that rest on two
agreements. The responder answers with its own ephemeral key; from then on the keys rest on four
agreements, whose shared secrets stand in the same order for both parties.
-/

set_option autoImplicit false
set_option relaxedAutoImplicit false

namespace RatchetSession

def twoDhMaterial (staticStatic initiatorEphemeral : Key) : Bytes :=
  staticStatic.val ++ initiatorEphemeral.val

def fourDhMaterial (staticStatic initiatorEphemeral responderEphemeral ephemerals : Key) : Bytes :=
  twoDhMaterial staticStatic initiatorEphemeral ++ responderEphemeral.val ++ ephemerals.val

def firstChainKey (g : Generation) (sender : Identity) (material : Bytes) : Key :=
  KeyDerivation.derive32 material (g.label ++ sender.octets)

def agreeEphemeral (secret : Bytes) (key : Offered) : Except Fault Key :=
  (KeyAgreement.exchange secret key).mapError .agreement

namespace Session

/-- The ratchets of both directions of a generation, outgoing first. -/
def startRatchets (me : LocalIdentity) (peer : Contact) (config : Config) (g : Generation)
    (material : Bytes) : Except Fault (Ratchet × Ratchet) := do
  let start (sender : Identity) : Except Fault Ratchet :=
    (Ratchet.start (firstChainKey g sender material) config.initialCounter
      config.maxSkip).mapError .ratchet
  return (← start me.identity, ← start peer.identity)

/-- The session of an initiator whose key agreement with the long-term key went well. -/
def opened (me : LocalIdentity) (peer : Contact) (config : Config) (listener : Listener)
    (staticStatic secret : Key) (id : SessionId) : Except Fault Session := do
  let initiatorEphemeral ← agreeEphemeral secret.val (.fixed peer.key.val)
  let two ← startRatchets me peer config .twoDh (twoDhMaterial staticStatic initiatorEphemeral)
  return {
    id, me, peer, config, listener
    role := .initiator
    ephemeralPublic := .fixed (Curve25519.publicKey secret).val
    ephemeralSecret := some secret.val
    slots := { twoOutgoing := .live two.1, twoIncoming := .live two.2 } }

/-- Starts a session. The key of the contact is tried before the two random values, the ephemeral
secret and the identifier, are drawn. -/
def initiate (me : LocalIdentity) (peer : Contact) (config : Config) (listener : Listener)
    (secret : Key) (id : SessionId) : Outcome Unit Session :=
  match checkPeer me peer with
  | .error f => .failed () f
  | .ok () =>
    match me.agree (.fixed peer.key.val) with
    | .error f => .failed () f
    | .ok staticStatic =>
      match opened me peer config listener staticStatic secret id with
      | .error f => { after := (), answer := .error f, draws := 2 }
      | .ok s =>
        Outcome.tell listener (.milestone .newSessionInitiated s)
          { after := (), answer := .ok s, draws := 2 }

/-- The shared secrets of the responder's long-term secret, with the initiator's long-term key and
with its ephemeral key. -/
def responderStatics (me : LocalIdentity) (peer : Contact) (ephemeral : Offered) :
    Except Fault (Key × Key) := do
  return (← me.agree (.fixed peer.key.val), ← me.agree ephemeral)

/-- The session of a responder whose long-term agreements went well. It never sends on two
agreements. -/
def answered (me : LocalIdentity) (peer : Contact) (config : Config) (listener : Listener)
    (id : SessionId) (ephemeral : Offered) (staticStatic initiatorEphemeral secret : Key) :
    Except Fault Session := do
  let responderEphemeral ← agreeEphemeral secret.val (.fixed peer.key.val)
  let ephemerals ← agreeEphemeral secret.val ephemeral
  let two ← startRatchets me peer config .twoDh (twoDhMaterial staticStatic initiatorEphemeral)
  let four ← startRatchets me peer config .fourDh
    (fourDhMaterial staticStatic initiatorEphemeral responderEphemeral ephemerals)
  return {
    id, me, peer, config, listener
    role := .responder
    ephemeralPublic := .fixed (Curve25519.publicKey secret).val
    ephemeralSecret := none
    peerEphemeral := ephemeral.octets?
    slots := {
      twoIncoming := .live two.2, fourOutgoing := .live four.1, fourIncoming := .live four.2 } }

def isPeerKeyFault (f : Fault) : Bool := f.kind = .invalidPeerKey

/-- Answers the ephemeral key of an initiator. Both its keys are tried before the ephemeral secret
is drawn, and a bad one is logged. -/
def respond (me : LocalIdentity) (peer : Contact) (config : Config) (listener : Listener)
    (sessionId ephemeral : Offered) (secret : Key) : Outcome Unit Session :=
  match checkPeer me peer with
  | .error f => .failed () f
  | .ok () =>
    match SessionId.ofOffer sessionId with
    | .error f => .failed () f
    | .ok id =>
      match responderStatics me peer ephemeral with
      | .error f =>
        { after := ()
          answer := .error f
          log := if isPeerKeyFault f then [.handshakeRejected id peer.identity] else [] }
      | .ok (staticStatic, initiatorEphemeral) =>
        match answered me peer config listener id ephemeral staticStatic initiatorEphemeral
            secret with
        | .error f => { after := (), answer := .error f, draws := 1 }
        | .ok s =>
          Outcome.tell listener (.milestone .responderSessionEstablished s)
            { after := (), answer := .ok s, draws := 1 }

def initiatorMaterial (s : Session) (secret : Bytes) (ephemeral : Offered) :
    Except Fault Bytes := do
  let staticStatic ← s.me.agree (.fixed s.peer.key.val)
  let responderEphemeral ← s.me.agree ephemeral
  let initiatorEphemeral ← agreeEphemeral secret (.fixed s.peer.key.val)
  let ephemerals ← agreeEphemeral secret ephemeral
  return fourDhMaterial staticStatic initiatorEphemeral responderEphemeral ephemerals

/-- The ephemeral secret of a session that still waits for the other party's ephemeral key. -/
def pendingSecret (s : Session) : Except Fault Bytes :=
  match s.slots.fourOutgoing.live?, s.ephemeralSecret with
  | none, some secret => .ok secret
  | _, _ => .error (.alreadyEstablished s.id)

/-- The offered long-term key is the one that the session is bound to. -/
def checkLongTerm (s : Session) (longTerm : Offered) : Except Fault Unit :=
  if longTerm.octets? = some s.peer.key.val then .ok ()
  else .error (.identityMismatch s.peer.identity s.id)

def acceptLog (s : Session) (f : Fault) : List LogRecord :=
  if isPeerKeyFault f then [.acceptRejected s.id s.peer.identity] else []

def withFourDh (four : Ratchet × Ratchet) (s : Session) : Session :=
  { s with slots := { s.slots with fourOutgoing := .live four.1, fourIncoming := .live four.2 } }

def withoutTwoDh (s : Session) : Session := { s with slots := s.slots.retireTwoDh }

/-- Completes the handshake of an initiator with the two public keys of the responder. A bad
ephemeral key is logged. The listener hears of it when all is done. -/
def accept (ephemeral longTerm : Offered) : Task Session Unit := do
  let secret ← .ask pendingSecret
  .ask (checkLongTerm · longTerm)
  let material ← .noting acceptLog (.ask (initiatorMaterial · secret ephemeral))
  let four ← .ask fun s => startRatchets s.me s.peer s.config .fourDh material
  .write (withFourDh four)
  .write fun s => { s with peerEphemeral := ephemeral.octets? }
  .write fun s => { s with ephemeralSecret := none }
  .write withoutTwoDh
  tell (.milestone .initiatorSessionEstablished)

def checkFourDh (s : Session) : Except Fault Unit :=
  if s.phase = .initiatorTwoDh then .error (.notEstablished s.id) else .ok ()

/-- Gives up the ratchets of two agreements. The listener hears of it if there was one left. -/
def discardTwoDh : Task Session Unit := do
  .ask checkFourDh
  let before ← .ask fun s => .ok s.phase
  .write withoutTwoDh
  if before = .responderFourDh then tell (.milestone .firstFourDhMessageReceived)

end Session

end RatchetSession
