import RatchetSession.SessionId

/-!
# Offered values

What a caller hands over where octets are wanted. A fixed byte string is taken everywhere; a buffer
that its owner may still change is taken where a copy is made at once, not where it would be kept.
-/

set_option autoImplicit false
set_option relaxedAutoImplicit false

namespace RatchetSession

inductive Offered
  | fixed (b : Bytes)
  | buffer (b : Bytes)
  | text (s : String)
  | identifier (id : SessionId)
  | absent
deriving DecidableEq

namespace Offered

def octets? : Offered → Option Bytes
  | .fixed b | .buffer b => some b
  | .text _ | .identifier _ | .absent => none

/-- The octets of a fixed byte string. -/
def fixed? : Offered → Option Bytes
  | .fixed b => some b
  | .buffer _ | .text _ | .identifier _ | .absent => none

def length : Offered → Nat
  | .fixed b | .buffer b => b.length
  | .text s => s.length
  | .identifier _ | .absent => 0

/-- Two byte strings, or two texts, are the same. -/
def same : Offered → Offered → Bool
  | .text s, .text t => s = t
  | a, b => a.octets?.isSome && a.octets? = b.octets?

end Offered

end RatchetSession
