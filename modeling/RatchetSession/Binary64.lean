/-!
# Binary floating-point numbers

The value of a word of 64 binary digits in the interchange format of double precision.
-/

set_option autoImplicit false
set_option relaxedAutoImplicit false

namespace RatchetSession

/-- A double-precision number; a finite one is a significand times a power of two. -/
inductive Binary64
  | notANumber
  | infinite (negative : Bool)
  | finite (negative : Bool) (significand : Nat) (exponent : Int)
deriving DecidableEq

namespace Binary64

/-- The number that a word stands for. -/
def ofBits (word : UInt64) : Binary64 :=
  let w := word.toNat
  let negative := w.testBit 63
  let fraction : Nat := w % (1 <<< 52)
  let field : Nat := (w >>> 52) % (1 <<< 11)
  if field = 2047 then
    if fraction = 0 then .infinite negative else .notANumber
  else if field = 0 then .finite negative fraction (-1074)
  else .finite negative ((1 <<< 52) + fraction) ((field : Int) - 1075)

/-- The magnitude of a significand at an exponent, if it is whole. -/
def whole? (significand : Nat) : Int → Option Nat
  | .ofNat e => some (significand <<< e)
  | .negSucc e =>
    if significand % (1 <<< (e + 1)) = 0 then some (significand >>> (e + 1)) else none

end Binary64

end RatchetSession
