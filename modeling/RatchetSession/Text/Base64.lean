import RatchetSession.Bytes

/-!
# Base64 text, read leniently

Characters outside the alphabet are skipped, and what follows the final padding is ignored. Three
octets are four sextets; at the end one octet is two of them and two octets are three, with the
unused low digits not looked at.
-/

set_option autoImplicit false
set_option relaxedAutoImplicit false

namespace RatchetSession.Base64

inductive Refusal
  /-- A character outside ASCII. -/
  | notAscii
  /-- The text ends after one character of a group; `count` characters were read in all. -/
  | loneCharacter (count : Nat)
  /-- The text ends inside a group that is not padded. -/
  | padding
deriving DecidableEq

def alphabet : List Char :=
  "ABCDEFGHIJKLMNOPQRSTUVWXYZabcdefghijklmnopqrstuvwxyz0123456789+/".toList

def sextet? (c : Char) : Option Nat := alphabet.findIdx? (· = c)

/-- The sextets read, and whether the padding of an incomplete group ended them. -/
structure Reading where
  sextets : List Nat
  padded : Bool
deriving DecidableEq

/-- Reads on after `count` sextets and `pads` padding characters in a row. A padding character
counts from the second character of a group on, and ends the text once the group is full. -/
def read : (count pads : Nat) → List Char → Reading
  | _, _, [] => ⟨[], false⟩
  | count, pads, c :: rest =>
    if c = '=' then
      if 2 ≤ count % 4 then
        if 4 ≤ count % 4 + (pads + 1) then ⟨[], true⟩ else read count (pads + 1) rest
      else read count pads rest
    else
      match sextet? c with
      | some v =>
        let r := read (count + 1) 0 rest
        ⟨v :: r.sextets, r.padded⟩
      | none => read count pads rest

/-- The octets of a run of sextets; a lone last sextet has none. -/
def octets : List Nat → Bytes
  | a :: b :: c :: d :: rest =>
    (4 * a + b / 16).toUInt8 :: (16 * (b % 16) + c / 4).toUInt8 :: (64 * (c % 4) + d).toUInt8
      :: octets rest
  | [a, b, c] => [(4 * a + b / 16).toUInt8, (16 * (b % 16) + c / 4).toUInt8]
  | [a, b] => [(4 * a + b / 16).toUInt8]
  | _ => []

def decode (s : String) : Except Refusal Bytes :=
  if s.toList.any fun c => 128 ≤ c.toNat then .error .notAscii
  else
    let r := read 0 0 s.toList
    if r.padded ∨ r.sextets.length % 4 = 0 then .ok (octets r.sextets)
    else if r.sextets.length % 4 = 1 then .error (.loneCharacter r.sextets.length)
    else .error .padding

end RatchetSession.Base64
