import RatchetSession.Bytes

/-!
# Hexadecimal text

Two lower-case digits an octet when written. When read, either case is taken and blanks may stand
between pairs of digits, not inside one.
-/

set_option autoImplicit false
set_option relaxedAutoImplicit false

namespace RatchetSession.Hex

def digitValue? (c : Char) : Option Nat :=
  if '0' ≤ c ∧ c ≤ '9' then some (c.toNat - '0'.toNat)
  else if 'a' ≤ c ∧ c ≤ 'f' then some (c.toNat - 'a'.toNat + 10)
  else if 'A' ≤ c ∧ c ≤ 'F' then some (c.toNat - 'A'.toNat + 10)
  else none

def digit (n : Nat) : Char :=
  if n < 10 then Char.ofNat (n + '0'.toNat) else Char.ofNat (n - 10 + 'a'.toNat)

def pair (o : UInt8) : List Char := [digit (o.toNat / 16), digit (o.toNat % 16)]

def digits (b : Bytes) : List Char := b.flatMap pair

def encode (b : Bytes) : String := String.ofList (digits b)

/-- The blanks that may stand between pairs. -/
def isBlank (c : Char) : Bool :=
  c = ' ' || c = '\t' || c = '\n' || c = '\x0b' || c = '\x0c' || c = '\r'

/-- Reads characters from place `p` on; a failure is the place of the first character that does
not fit, which is the end of the text if it ends inside a pair. -/
def scan : Nat → List Char → Except Nat Bytes
  | _, [] => .ok []
  | p, [c] => if isBlank c then .ok [] else .error (if (digitValue? c).isSome then p + 1 else p)
  | p, c :: d :: rest =>
    if isBlank c then scan (p + 1) (d :: rest)
    else
      match digitValue? c, digitValue? d with
      | some high, some low => (scan (p + 2) rest).map ((16 * high + low).toUInt8 :: ·)
      | some _, none => .error (p + 1)
      | none, _ => .error p

/-- The byte string of a text. A character outside ASCII is reported before all else. -/
def decode (s : String) : Except Nat Bytes :=
  match s.toList.findIdx? fun c => 128 ≤ c.toNat with
  | some p => .error p
  | none => scan 0 s.toList

end RatchetSession.Hex
