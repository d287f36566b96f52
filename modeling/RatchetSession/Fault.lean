import RatchetSession.Event
import RatchetSession.Ratchet
import RatchetSession.SealedMessage
import RatchetSession.Text.Base64

/-!
# Faults

Every way to fail is a cause with its circumstances. Causes belong to a small number of kinds, by
which a caller decides whether to drop a message, reject a handshake or tear a session down.
-/

set_option autoImplicit false
set_option relaxedAutoImplicit false

namespace RatchetSession

/-- The kinds of words that stand for roles and parts of a channel. -/
inductive Vocabulary
  | role
  | direction
  | generation
deriving DecidableEq

def Vocabulary.name : Vocabulary → String
  | .role => "Role"
  | .direction => "Direction"
  | .generation => "Generation"

inductive Fault
  | identity (r : Identity.Refusal)
  | sameIdentity
  | secretKeySize (length : Nat)
  | contactKeySize
  | sessionIdSize
  | hexDigit (place : Nat)
  | base64 (r : Base64.Refusal)
  /-- A key of some length cannot be derived. -/
  | derivation (l : Blake2b.Limit)
  | unknownWord (v : Vocabulary) (word : String)
  /-- There is no shared secret. -/
  | agreement (r : KeyAgreement.Refusal)
  /-- A message is not sealed or opened. -/
  | sealing (r : SealedMessage.Refusal)
  | ratchet (f : Ratchet.Fault)
  /-- The offered long-term key is not the one that the session is bound to. -/
  | identityMismatch (peer : Identity) (id : SessionId)
  /-- The keys of four agreements are already known. -/
  | alreadyEstablished (id : SessionId)
  /-- The keys of four agreements are not known yet. -/
  | notEstablished (id : SessionId)
  | noRatchet (c : Channel) (id : SessionId) (p : Phase)
  /-- The listener refused an event. -/
  | listener (h : Hook)
deriving DecidableEq

inductive FaultKind
  | invalidPeerKey
  | identityMismatch
  | alreadyEstablished
  | illegalSessionState
  | ratchetExhausted
  | ratchetRegression
  | ratchetSkipTooLarge
  | messageRefused
  | invalidArgument
  /-- An integer is too large for a machine word. -/
  | overflow
  | undecodable
  | listenerFailure
deriving DecidableEq

namespace Ratchet.Fault

def kind : Ratchet.Fault → FaultKind
  | .chainKeySize _ | .counterOutOfRange _ | .unwritable => .invalidArgument
  | .discarded _ | .counterExhausted | .targetOutOfRange _ => .ratchetExhausted
  | .regression _ _ => .ratchetRegression
  | .skipTooLarge _ _ _ => .ratchetSkipTooLarge

theorem kind_reported (f : Ratchet.Fault) :
    f.reported.kind = f.kind ∨ f.reported.kind = .invalidArgument := by
  by_cases h : f.Writable
  · exact .inl (by rw [reported_of_writable h])
  · exact .inr (by rw [reported_of_not_writable h]; rfl)

def message : Ratchet.Fault → String
  | .chainKeySize length => s!"Chain key must be 32 bytes; got {length}"
  | .counterOutOfRange counter => s!"Counter out of range: {counter}"
  | .discarded counter => s!"Ratchet has been discarded at counter {counter}"
  | .counterExhausted => "Ratchet counter exhausted"
  | .targetOutOfRange target => s!"Target counter out of range: {target}"
  | .regression counter target => s!"Cannot turn ratchet back from counter {counter} to {target}"
  | .skipTooLarge counter target maxSkip =>
    s!"Too many turns requested: {target - counter} (max {maxSkip})"
  | .unwritable =>
    s!"Exceeds the limit ({digitLimit} digits) for integer string conversion; " ++
      "use sys.set_int_max_str_digits() to increase the limit"

end Ratchet.Fault

theorem Ratchet.start_error {k : Key} {counter maxSkip : Int} {f : Ratchet.Fault}
    (h : start k counter maxSkip = .error f) : f.kind = .invalidArgument := by
  unfold start at h
  split at h
  · cases h
  · obtain rfl := Except.error.inj h
    rcases Fault.kind_reported (.counterOutOfRange counter) with hkind | hkind
    · exact hkind
    · exact hkind

namespace Identity.Refusal

def message : Identity.Refusal → String
  | .empty => "Identity must be a non-empty string"
  | .notAscii text =>
    let shown := Quoted.text text
    s!"Identity must be ASCII: {shown}"

end Identity.Refusal

namespace Base64.Refusal

def message : Base64.Refusal → String
  | .notAscii => "string argument should contain only ASCII characters"
  | .loneCharacter count =>
    s!"Invalid base64-encoded string: number of data characters ({count}) cannot be 1 more " ++
      "than a multiple of 4"
  | .padding => "Incorrect padding"

end Base64.Refusal

namespace Blake2b.Limit

def kind : Blake2b.Limit → FaultKind
  | .digestSizeWord => .overflow
  | .digestSize | .saltSize | .personSize | .keySize => .invalidArgument

def message : Blake2b.Limit → String
  | .digestSizeWord => "int too large to convert to C int"
  | .digestSize => "digest_size must be between 1 and 64 bytes"
  | .saltSize => "maximum salt length is 16 bytes"
  | .personSize => "maximum person length is 16 bytes"
  | .keySize => "maximum key length is 64 bytes"

end Blake2b.Limit

namespace KeyAgreement.Refusal

def message : KeyAgreement.Refusal → String
  | .publicKeySize => "Public key must be 32 bytes"
  | .lowOrder => "DH with peer key failed: Error computing shared key."
  | .secretSize => "An X25519 private key is 32 bytes long"

end KeyAgreement.Refusal

namespace SealedMessage.Refusal

def message : SealedMessage.Refusal → String
  | .tooShort => "Ciphertext too short"
  | .rejected => "Decryption failed: "
  | .keySize => "AESGCM key must be 128, 192, or 256 bits."

end SealedMessage.Refusal

namespace Fault

def kind : Fault → FaultKind
  | .identity _ | .sameIdentity | .secretKeySize _ | .contactKeySize | .sessionIdSize
  | .hexDigit _ | .unknownWord _ _ => .invalidArgument
  | .derivation l => l.kind
  | .base64 .notAscii => .invalidArgument
  | .base64 (.loneCharacter _) | .base64 .padding => .undecodable
  | .agreement .publicKeySize | .agreement .lowOrder => .invalidPeerKey
  | .agreement .secretSize => .invalidArgument
  | .sealing .tooShort | .sealing .rejected => .messageRefused
  | .sealing .keySize => .invalidArgument
  | .ratchet f => f.kind
  | .identityMismatch _ _ => .identityMismatch
  | .alreadyEstablished _ => .alreadyEstablished
  | .notEstablished _ => .illegalSessionState
  | .noRatchet _ _ _ => .ratchetExhausted
  | .listener _ => .listenerFailure

def message : Fault → String
  | .identity r => r.message
  | .sameIdentity => "Cannot create a session with our own identity"
  | .secretKeySize length => s!"Secret key must be 32 bytes; got {length}"
  | .contactKeySize => "Public key must be 32 bytes"
  | .sessionIdSize => "Session ID must be 16 bytes"
  | .hexDigit place => s!"non-hexadecimal number found in fromhex() arg at position {place}"
  | .base64 r => r.message
  | .derivation l => l.message
  | .unknownWord v word =>
    let shown := Quoted.text word
    s!"{shown} is not a valid {v.name}"
  | .agreement r => r.message
  | .sealing r => r.message
  | .ratchet f => f.message
  | .identityMismatch peer id => s!"Long-term key of {peer.text} does not match session {id.text}"
  | .alreadyEstablished id => s!"Session {id.text} already has 4DH ratchets"
  | .notEstablished id => s!"Session {id.text} has no 4DH ratchets yet"
  | .noRatchet c id p =>
    s!"No {c.direction.text} {c.generation.text} ratchet in session {id.text} ({p.text})"
  | .listener h => h.name

end Fault

end RatchetSession
