import RatchetSession.Text.Hex
import RatchetSession.Text.Quoted

/-!
# Session identifiers

Sixteen octets that the initiator chooses, written as 32 hexadecimal digits.
-/

set_option autoImplicit false
set_option relaxedAutoImplicit false

namespace RatchetSession

structure SessionId where
  bytes : Sized 16
deriving DecidableEq

namespace SessionId

def ofBytes? (b : Bytes) : Option SessionId := (Sized.ofBytes? 16 b).map mk

def text (id : SessionId) : String := Hex.encode id.bytes.val

def describe (id : SessionId) : String := s!"DHSessionID(value={Quoted.bytes id.bytes.val})"

end SessionId

end RatchetSession
