import RatchetSession.Fault

/-!
# The two parties

Our own side holds the long-term secret and gives out only shared secrets; the other side is known
by its identity and its long-term public key.
-/

set_option autoImplicit false
set_option relaxedAutoImplicit false

namespace RatchetSession

def Identity.make (text : Option String) : Except Fault Identity :=
  (Identity.ofText text).mapError .identity

structure Contact where
  identity : Identity
  key : Key
deriving DecidableEq

/-- The contact with a given text and key. The key has to be a fixed byte string, since it is
kept. -/
def Contact.make (text : Option String) (key : Offered) : Except Fault Contact := do
  let i ← Identity.make text
  match key.fixed?.bind (Sized.ofBytes? 32) with
  | some k => .ok ⟨i, k⟩
  | none => .error .contactKeySize

def secretKey (secret : Offered) : Except Fault Key :=
  match secret.octets?.bind (Sized.ofBytes? 32) with
  | some k => .ok k
  | none => .error (.secretKeySize secret.length)

structure LocalIdentity where
  identity : Identity
  secret : Key
deriving DecidableEq

namespace LocalIdentity

def make (text : Option String) (secret : Offered) : Except Fault LocalIdentity := do
  let i ← Identity.make text
  return ⟨i, ← secretKey secret⟩

/-- The local identity whose secret is written in base64; the secret is read first. -/
def ofBase64 (text : Option String) (secret : String) : Except Fault LocalIdentity := do
  let b ← (Base64.decode secret).mapError .base64
  make text (.fixed b)

def publicKey (l : LocalIdentity) : Key := Curve25519.publicKey l.secret

def contact (l : LocalIdentity) : Contact := ⟨l.identity, l.publicKey⟩

def agree (l : LocalIdentity) (key : Offered) : Except Fault Key :=
  (KeyAgreement.exchange l.secret.val key).mapError .agreement

def describe (l : LocalIdentity) : String :=
  s!"IdentityStore(identity={Quoted.text l.identity.text})"

end LocalIdentity

end RatchetSession
