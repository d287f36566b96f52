import RatchetSession.Fault

/-!
# Identifiers from values and texts

An identifier is made from a fixed byte string of sixteen octets or read from hexadecimal text. Who
answers a handshake also takes a buffer, which is copied, and an identifier that exists already.
-/

set_option autoImplicit false
set_option relaxedAutoImplicit false

namespace RatchetSession.SessionId

def ofOctets (b : Option Bytes) : Except Fault SessionId :=
  match b.bind ofBytes? with
  | some id => .ok id
  | none => .error .sessionIdSize

/-- The identifier made from a value, which has to be a fixed byte string. -/
def make (offer : Offered) : Except Fault SessionId := ofOctets offer.fixed?

def ofHex (text : String) : Except Fault SessionId :=
  match Hex.decode text with
  | .error place => .error (.hexDigit place)
  | .ok b => ofOctets (some b)

def ofOffer : Offered → Except Fault SessionId
  | .identifier id => .ok id
  | .fixed b | .buffer b => ofOctets (some b)
  | .text _ | .absent => ofOctets none

end RatchetSession.SessionId
