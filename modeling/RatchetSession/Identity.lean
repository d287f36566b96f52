import RatchetSession.Bytes

/-!
# Identities

An identity is a non-empty ASCII text, kept as its octets.
-/

set_option autoImplicit false
set_option relaxedAutoImplicit false

namespace RatchetSession

structure Identity where
  octets : Bytes
  ne_nil : octets ≠ []
  ascii : ∀ o ∈ octets, o < 128
deriving DecidableEq

namespace Identity

inductive Refusal
  /-- There is no text, or none of its characters. -/
  | empty
  | notAscii (text : String)
deriving DecidableEq

def ofText : Option String → Except Refusal Identity
  | none => .error .empty
  | some s =>
    if he : s.toList = [] then .error .empty
    else if ha : s.toList.all (fun c => c.toNat < 128) = true then
      .ok {
        octets := Bytes.ascii s
        ne_nil := Bytes.ascii_ne_nil he
        ascii := Bytes.lt_of_mem_ascii ha }
    else .error (.notAscii s)

def text (i : Identity) : String := String.ofList (i.octets.map fun o => Char.ofNat o.toNat)

theorem ext {i j : Identity} (h : i.octets = j.octets) : i = j := by
  cases i
  cases j
  simp_all

end Identity

end RatchetSession
