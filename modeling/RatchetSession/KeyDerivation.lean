import RatchetSession.Blake2b

/-!
# Key derivation

A key is derived by keyed BLAKE2b of the empty message: the key material is the key, the label is
the salt. Material over 64 octets and labels over 16 are first compressed by the plain hash, so the
length asked for is all that the hash can refuse.
-/

set_option autoImplicit false
set_option relaxedAutoImplicit false

namespace RatchetSession.KeyDerivation

/-- The personalization that separates this protocol from other uses of the hash. -/
def personal : Bytes := Bytes.ascii "3ma-e2e"

/-- Key material as the hash takes it. -/
def compressedKey (key : Bytes) : Bytes := if 64 < key.length then Blake2b.hash 64 key else key

/-- A label as the hash takes it, before zero octets fill it up to 16. -/
def compressedSalt (salt : Bytes) : Bytes := if 16 < salt.length then Blake2b.hash 16 salt else salt

theorem length_compressedKey_le (key : Bytes) : (compressedKey key).length ≤ 64 := by
  unfold compressedKey
  split
  · simp [Blake2b.length_hash]
  · omega

theorem length_compressedSalt_le (salt : Bytes) : (compressedSalt salt).length ≤ 16 := by
  unfold compressedSalt
  split
  · simp [Blake2b.length_hash]
  · omega

def input (key salt : Bytes) (n : Nat) : Blake2b.Input :=
  Blake2b.Input.ofMessage n (compressedKey key) (compressedSalt salt) personal []

/-- The derived key of `n` octets, for `n` up to 64. -/
def derive (key salt : Bytes) (n : Nat) : Bytes := (input key salt n).digest.take n

theorem length_derive {n : Nat} (h : n ≤ 64) (key salt : Bytes) :
    (derive key salt n).length = n := by
  simp [derive, Blake2b.Input.length_digest, h]

/-- A byte string over a limit is compressed to it. -/
def shortened (limit : Nat) (b : Bytes) : Except Blake2b.Limit Bytes :=
  if limit < b.length then Blake2b.run limit [] [] [] b else .ok b

/-- The derivation as a sequence of runs that look at their parameters. -/
def run (key salt : Bytes) (n : Int) : Except Blake2b.Limit Bytes := do
  let key ← shortened 64 key
  let salt ← shortened 16 salt
  Blake2b.run n key salt personal []

def derive32 (key salt : Bytes) : Sized 32 :=
  ⟨derive key salt 32, length_derive (by decide) key salt⟩

end RatchetSession.KeyDerivation
