import RatchetSession.Channel
import RatchetSession.Ratchet

/-!
# Ratchet slots

A session as a value keeps a ratchet for each channel in a slot, which is filled at most once. A
ratchet that the session has given up stays in its slot, without its key. Who else refers to a
ratchet is no part of the value: that is a matter of the objects in memory.
-/

set_option autoImplicit false
set_option relaxedAutoImplicit false

namespace RatchetSession

inductive Slot
  | empty
  /-- The session uses the ratchet. -/
  | live (r : Ratchet)
  /-- The session has given the ratchet up. -/
  | retired (r : Ratchet)
deriving DecidableEq

namespace Slot

/-- The ratchet that the session uses. -/
def live? : Slot → Option Ratchet
  | .live r => some r
  | .empty | .retired _ => none

/-- The ratchet, whether the session still uses it or not. -/
def ratchet? : Slot → Option Ratchet
  | .live r | .retired r => some r
  | .empty => none

def replace (r : Ratchet) : Slot → Slot
  | .live _ => .live r
  | .retired _ => .retired r
  | .empty => .empty

/-- The session gives its ratchet up and discards its key. -/
def retire : Slot → Slot
  | .live r => .retired r.discard
  | .empty => .empty
  | .retired r => .retired r

end Slot

structure Slots where
  twoOutgoing : Slot := .empty
  twoIncoming : Slot := .empty
  fourOutgoing : Slot := .empty
  fourIncoming : Slot := .empty
deriving DecidableEq

namespace Slots

def get (s : Slots) : Channel → Slot
  | ⟨.outgoing, .twoDh⟩ => s.twoOutgoing
  | ⟨.incoming, .twoDh⟩ => s.twoIncoming
  | ⟨.outgoing, .fourDh⟩ => s.fourOutgoing
  | ⟨.incoming, .fourDh⟩ => s.fourIncoming

def set (s : Slots) (x : Slot) : Channel → Slots
  | ⟨.outgoing, .twoDh⟩ => { s with twoOutgoing := x }
  | ⟨.incoming, .twoDh⟩ => { s with twoIncoming := x }
  | ⟨.outgoing, .fourDh⟩ => { s with fourOutgoing := x }
  | ⟨.incoming, .fourDh⟩ => { s with fourIncoming := x }

@[simp] theorem get_set (s : Slots) (x : Slot) (c : Channel) : (s.set x c).get c = x := by
  rcases c with ⟨_ | _, _ | _⟩ <;> rfl

theorem get_set_of_ne (s : Slots) (x : Slot) {c d : Channel} (h : d ≠ c) :
    (s.set x c).get d = s.get d := by
  rcases c with ⟨_ | _, _ | _⟩ <;> rcases d with ⟨_ | _, _ | _⟩ <;> first | rfl | simp at h

@[simp] theorem set_get (s : Slots) (c : Channel) : s.set (s.get c) c = s := by
  rcases c with ⟨_ | _, _ | _⟩ <;> rfl

theorem ext_get {s t : Slots} (h : ∀ c, s.get c = t.get c) : s = t := by
  cases s
  cases t
  have h₁ := h ⟨.outgoing, .twoDh⟩
  have h₂ := h ⟨.incoming, .twoDh⟩
  have h₃ := h ⟨.outgoing, .fourDh⟩
  have h₄ := h ⟨.incoming, .fourDh⟩
  simp_all [get]

def retireTwoDh (s : Slots) : Slots :=
  { s with twoOutgoing := s.twoOutgoing.retire, twoIncoming := s.twoIncoming.retire }

def phase (s : Slots) : Phase :=
  if s.fourOutgoing.live?.isNone then .initiatorTwoDh
  else if s.twoOutgoing.live?.isSome ∨ s.twoIncoming.live?.isSome then .responderFourDh
  else .established

end Slots

end RatchetSession
