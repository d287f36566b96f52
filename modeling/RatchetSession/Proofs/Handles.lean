import RatchetSession.Proofs.Calls

/-!
# Handles on ratchets

Who takes a ratchet from a session gets a handle on it. For the session as a value a handle is the
channel that the ratchet was taken from: what is done with the handle is done with the ratchet of
the session, as long as it has that, and with no part of the session from then on.
-/

set_option autoImplicit false
set_option relaxedAutoImplicit false

namespace RatchetSession

theorem Slot.ratchet?_eq_some {x : Slot} {r : Ratchet} (h : x.ratchet? = some r) :
    x = .live r ∨ x = .retired r := by
  cases x with
  | empty => cases h
  | live r₁ =>
    obtain rfl := Option.some.inj h
    exact .inl rfl
  | retired r₁ =>
    obtain rfl := Option.some.inj h
    exact .inr rfl

namespace Session

/-- What is done with a session and with the handles that were taken from it. -/
inductive Deed
  | own (op : Operation)
  | onHandle (place : Nat) (op : Ratchet.Operation)
  /-- An independent ratchet is made of the one that a handle is on. -/
  | copied (place : Nat)

/-- A session, and the channels of the ratchets that were taken from it, in that order. -/
structure Holding where
  session : Session
  taken : List Channel := []

namespace Holding

def gives (s : Session) : Operation → List Channel
  | .take c =>
    match (s.perform (.take c)).answer with
    | .ok _ => [c]
    | .error _ => []
  | .accept _ _ | .discardTwoDh | .encryptionKey _ | .associatedData _ | .turn _ | .turnUntil _ _ =>
    []

def step (x : Holding) : Deed → Holding
  | .own op => ⟨(x.session.perform op).after, x.taken ++ gives x.session op⟩
  | .onHandle place op =>
    match x.taken[place]? with
    | some c => { x with session := (x.session.performOnHandle c op).after }
    | none => x
  | .copied _ => x

def run (x : Holding) (deeds : List Deed) : Holding := deeds.foldl step x

theorem run_append (x : Holding) (deeds more : List Deed) :
    x.run (deeds ++ more) = (x.run deeds).run more := List.foldl_append

def sampleDeeds : List Deed :=
  [.own (.take ⟨.outgoing, .twoDh⟩), .onHandle 0 (.turn 1), .own (.turn ⟨.outgoing, .twoDh⟩),
    .own (.accept (.fixed (List.replicate 32 9)) (.fixed sampleResponder.publicKey.val))]

end Holding

variable {s t : Session} {op : Operation} {c d : Channel} {r : Ratchet}

theorem retired_of_putRatchet {r' q : Ratchet} (h : s.slots.get c = .live r)
    (hq : (s.putRatchet c r').slots.get d = .retired q) : s.slots.get d = .retired q := by
  by_cases hd : d = c
  · rw [hd, get_putRatchet_self r' h] at hq
    cases hq
  · rwa [get_putRatchet_of_ne s r' hd] at hq

private theorem retire_spent {x : Slot} (hx : ∀ r, x = .retired r → r.chainKey = none)
    (h : x.retire = .retired r) : r.chainKey = none := by
  cases x with
  | empty => cases h
  | live r₁ =>
    obtain rfl := Slot.retired.inj h
    rfl
  | retired r₁ =>
    obtain rfl := Slot.retired.inj h
    exact hx r₁ rfl

theorem get_completed_twoDh (s : Session) {ephemeral : Offered} {four : Ratchet × Ratchet}
    (d : Direction) :
    (s.completed ephemeral four).slots.get ⟨d, .twoDh⟩ = (s.slots.get ⟨d, .twoDh⟩).retire := by
  cases d <;> rfl

section

variable (hspent : ∀ c r, s.slots.get c = .retired r → r.chainKey = none)
include hspent

theorem spent_withoutTwoDh (c : Channel) (r : Ratchet)
    (h : s.withoutTwoDh.slots.get c = .retired r) : r.chainKey = none := by
  rcases c with ⟨d, _ | _⟩
  · rw [get_withoutTwoDh_twoDh] at h
    exact retire_spent (hspent ⟨d, .twoDh⟩) h
  · rw [get_withoutTwoDh_fourDh] at h
    exact hspent _ r h

theorem spent_completed {ephemeral : Offered} {four : Ratchet × Ratchet} (c : Channel)
    (r : Ratchet) (h : (s.completed ephemeral four).slots.get c = .retired r) :
    r.chainKey = none := by
  rcases c with ⟨d, _ | _⟩
  · rw [get_completed_twoDh] at h
    exact retire_spent (hspent ⟨d, .twoDh⟩) h
  · cases d <;> cases h

end

/-- A handle changes the ratchet that the session uses, and one that it has given up not at all. -/
theorem performOnHandle_after (hspent : ∀ r, s.slots.get c = .retired r → r.chainKey = none)
    (op : Ratchet.Operation) :
    (s.performOnHandle c op).after =
      match s.slots.get c with
      | .live r => s.putRatchet c (r.afterCalls op.calls)
      | .retired _ | .empty => s := by
  unfold performOnHandle
  cases hslot : s.slots.get c with
  | empty => rfl
  | live r =>
    simp only [Slot.ratchet?, Ratchet.perform_after]
  | retired r =>
    have hkeyless : r.chainKey = none := hspent r hslot
    have hsame : (r.perform op).after = r := by
      rw [Ratchet.perform_after]
      exact (Ratchet.afterCalls_of_keyless hkeyless _).1
    have hslots : s.slots.set (.retired r) c = s.slots := by
      apply Slots.ext_get
      intro d
      by_cases hd : d = c
      · rw [hd, Slots.get_set, hslot]
      · exact Slots.get_set_of_ne _ _ hd
    simp only [Slot.ratchet?, hsame, putRatchet, hslot, Slot.replace, hslots]

namespace Holding

variable {x : Holding} {place : Nat} {deed : Deed}

section

variable {P : Session → Prop} (hown : ∀ s op, P s → P (s.perform op).after)
  (hhandle : ∀ s c op, P s → P (s.performOnHandle c op).after)
include hown hhandle

private theorem step_induction (hx : P x.session) (deed : Deed) : P (x.step deed).session := by
  cases deed with
  | own op => exact hown _ op hx
  | onHandle place op =>
    cases hplace : x.taken[place]? with
    | none =>
      simp only [step, hplace]
      exact hx
    | some c =>
      simp only [step, hplace]
      exact hhandle _ c op hx
  | copied place => exact hx

theorem run_induction (hx : P x.session) (deeds : List Deed) : P (x.run deeds).session := by
  induction deeds generalizing x with
  | nil => exact hx
  | cons deed deeds ih =>
    apply ih
    exact step_induction hown hhandle hx deed

end

end Holding

end Session

end RatchetSession
