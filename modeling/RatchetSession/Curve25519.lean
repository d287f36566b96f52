import RatchetSession.Bytes

/-!
# X25519 key agreement

Scalar multiplication on the Montgomery curve of the field of `2 ^ 255 - 19` elements, on
`u`-coordinates only. A secret is any 32 octets and is clamped when it is used; the most
significant bit of a public key is ignored and its coordinate is reduced.
-/

set_option autoImplicit false
set_option relaxedAutoImplicit false

namespace RatchetSession.Curve25519

/-- A secret scalar, a public coordinate or a shared secret: 32 octets. -/
abbrev Key := Sized 32

def fieldPrime : Nat := (1 <<< 255) - 19

/-- A quarter of the curve coefficient less two. -/
def a24 : Nat := 121665

/-- Two neighbouring multiples of a point, each as a ratio of two field elements. -/
structure Rung where
  x₂ : Nat
  z₂ : Nat
  x₃ : Nat
  z₃ : Nat

namespace Rung

def swap (r : Rung) : Rung := ⟨r.x₃, r.z₃, r.x₂, r.z₂⟩

/-- From multiples `n` and `n + 1` of the point at `u` to `2 n` and `2 n + 1`. -/
def double (u : Nat) (r : Rung) : Rung :=
  let a := (r.x₂ + r.z₂) % fieldPrime
  let aa := a * a % fieldPrime
  let b := (r.x₂ + (fieldPrime - r.z₂)) % fieldPrime
  let bb := b * b % fieldPrime
  let e := (aa + (fieldPrime - bb)) % fieldPrime
  let c := (r.x₃ + r.z₃) % fieldPrime
  let d := (r.x₃ + (fieldPrime - r.z₃)) % fieldPrime
  let da := d * a % fieldPrime
  let cb := c * b % fieldPrime
  let sum := (da + cb) % fieldPrime
  let difference := (da + (fieldPrime - cb)) % fieldPrime
  ⟨aa * bb % fieldPrime, e * ((aa + a24 * e) % fieldPrime) % fieldPrime,
    sum * sum % fieldPrime, u * (difference * difference % fieldPrime) % fieldPrime⟩

def climb (u : Nat) (digit : Bool) (r : Rung) : Rung :=
  if digit then ((r.swap).double u).swap else r.double u

end Rung

/-- The lowest `n` binary digits of `k` are used up, the most significant first. -/
def ladder (u k : Nat) : Nat → Rung → Rung
  | 0, r => r
  | n + 1, r => ladder u k n (r.climb u (k.testBit n))

/-- The accumulated power after the lowest `n` binary digits of the exponent. -/
def power (b e : Nat) : Nat → Nat → Nat
  | 0, acc => acc
  | n + 1, acc =>
    power b e n (if e.testBit n then acc * acc % fieldPrime * b % fieldPrime
      else acc * acc % fieldPrime)

def reciprocal (x : Nat) : Nat := power x (fieldPrime - 2) 255 1

/-- The multiplier of a secret: a multiple of eight with its highest digit at place 254. -/
def clamp (secret : Key) : Nat := (1 <<< 254) + Bytes.value secret.val % (1 <<< 254) / 8 * 8

def coordinate (key : Key) : Nat := Bytes.value key.val % (1 <<< 255) % fieldPrime

def multiple (k u : Nat) : Nat :=
  let r := ladder u k 255 ⟨1, 0, u, 1⟩
  r.x₂ * reciprocal r.z₂ % fieldPrime

def encode (u : Nat) : Key := ⟨Bytes.leastFirst 32 u, Bytes.length_leastFirst 32 u⟩

def publicKey (secret : Key) : Key := encode (multiple (clamp secret) 9)

/-- The shared secret, unless it is zero, as it is for a public key of low order. -/
def agree? (secret key : Key) : Option Key :=
  let u := multiple (clamp secret) (coordinate key)
  if u = 0 then none else some (encode u)

end RatchetSession.Curve25519
