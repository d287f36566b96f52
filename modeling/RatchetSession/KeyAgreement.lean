import RatchetSession.Curve25519
import RatchetSession.Offered

/-!
# Key agreement on offered keys

The public key is looked at first, then the secret, then the result.
-/

set_option autoImplicit false
set_option relaxedAutoImplicit false

namespace RatchetSession

abbrev Key := Curve25519.Key

namespace KeyAgreement

inductive Refusal
  /-- The public key is not a byte string of 32 octets. -/
  | publicKeySize
  /-- The shared secret would be zero. -/
  | lowOrder
  /-- The secret does not have 32 octets. -/
  | secretSize
deriving DecidableEq

def publicKey (offer : Offered) : Except Refusal Key :=
  match offer.octets?.bind (Sized.ofBytes? 32) with
  | some k => .ok k
  | none => .error .publicKeySize

def exchange (secret : Bytes) (offer : Offered) : Except Refusal Key :=
  match publicKey offer with
  | .error r => .error r
  | .ok k =>
    match Sized.ofBytes? 32 secret with
    | none => .error .secretSize
    | some s =>
      match Curve25519.agree? s k with
      | none => .error .lowOrder
      | some z => .ok z

end KeyAgreement

end RatchetSession
