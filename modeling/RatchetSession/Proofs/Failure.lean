import Mathlib.Control.Monad.Basic
import RatchetSession.Proofs.Task
import RatchetSession.Proofs.Turning

/-!
# Failed operations

An operation on a session that fails, other than by its listener, leaves the session as it was and
tells the listener nothing: `perform_failed`. All that can fail stands before the first write,
except for the turns of a ratchet that catches up, none of which can fail once its checks have
passed.
-/

set_option autoImplicit false
set_option relaxedAutoImplicit false

namespace RatchetSession.Session

theorem putRatchet_self {s : Session} {c : Channel} {r : Ratchet} (h : s.ratchet c = .ok r) :
    s.putRatchet c r = s := by
  have hslot : s.slots.get c = .live r := by
    unfold ratchet at h
    cases hs : s.slots.get c with
    | live r' =>
      rw [hs] at h
      exact congrArg _ (Except.ok.inj h)
    | empty => rw [hs] at h; cases h
    | retired r' => rw [hs] at h; cases h
  have hsame : s.slots.set (.live r) c = s.slots := by
    apply Slots.ext_get
    intro d
    by_cases hd : d = c
    · rw [hd, Slots.get_set, hslot]
    · exact Slots.get_set_of_ne _ _ hd
  simp only [putRatchet, hslot, Slot.replace, hsame]

private theorem acceptLog_unheard (s : Session) (f : Fault) (e : Event) :
    .noted e ∉ acceptLog s f := by
  unfold acceptLog
  split <;> simp

private theorem accept_atomic (s : Session) (ephemeral longTerm : Offered) :
    (accept ephemeral longTerm).AtomicAt s := by
  refine (Task.Reads.ask _).bind_atomic fun secret _ => ?_
  refine (Task.Reads.ask _).bind_atomic fun _ _ => ?_
  refine ((Task.Reads.ask _).noting acceptLog_unheard).bind_atomic fun material _ => ?_
  refine (Task.Reads.ask _).bind_atomic fun four _ => ?_
  -- From here on the session is written, and nothing fails any more but the listener.
  have hwrites : Task.Sure (do
      .write (withFourDh four)
      .write fun s => { s with peerEphemeral := ephemeral.octets? }
      .write fun s => { s with ephemeralSecret := none }
      .write withoutTwoDh
      tell (.milestone .initiatorSessionEstablished)) :=
    (Task.Sure.write _).bind fun _ => (Task.Sure.write _).bind fun _ =>
      (Task.Sure.write _).bind fun _ => (Task.Sure.write _).bind fun _ => Task.Sure.tell _
  exact hwrites.atomic s

private theorem discardTwoDh_atomic (s : Session) : discardTwoDh.AtomicAt s := by
  refine (Task.Reads.ask _).bind_atomic fun _ _ => ?_
  refine (Task.Reads.ask _).bind_atomic fun before _ => ?_
  refine ((Task.Sure.write _).bind fun _ => ?_).atomic s
  split
  · exact Task.Sure.tell _
  · exact Task.Sure.pure _

private theorem turn_atomic (s : Session) (c : Channel) : (turn c).AtomicAt s := by
  refine (Task.Reads.ask _).bind_atomic fun r _ => ?_
  refine (Task.Reads.ask _).bind_atomic fun r' _ => ?_
  exact (Task.Sure.write _).atomic s

private theorem tellTurns_sure (n : Nat) : (tellTurns n).Sure := by
  unfold tellTurns
  split
  · exact .pure _
  · exact .tell _

private theorem turnUntil_atomic (s : Session) (c : Channel) (target : Int) :
    (turnUntil c target).AtomicAt s := by
  refine (Task.Reads.ask _).bind_atomic fun r hr => ?_
  rcases r.turnUntil_spec target with ⟨f, hf⟩ | ⟨n, hn, -⟩
  · -- The ratchet is written back before its failure shows, but it is still the same ratchet.
    rw [hf]
    have hsame : s.putRatchet c r = s := putRatchet_self hr
    exact .inr ⟨hsame, rfl, fun _ => List.not_mem_nil⟩
  · rw [hn]
    refine ((Task.Sure.write _).bind fun _ => ?_).atomic s
    refine (Task.Sure.ask fun _ => ⟨n, rfl⟩).bind fun m => ?_
    exact (Task.Sure.note _).bind fun _ => (tellTurns_sure m).bind fun _ => .pure _

theorem perform_atomic (s : Session) (op : Operation) : op.task.AtomicAt s := by
  cases op with
  | accept ephemeral longTerm => exact (accept_atomic s ephemeral longTerm).map _
  | discardTwoDh => exact (discardTwoDh_atomic s).map _
  | take c => exact .inr (Task.Reads.ask _ s)
  | encryptionKey c => exact .inr (Task.Reads.ask _ s)
  | associatedData c => exact .inr (Task.Reads.ask _ s)
  | turn c => exact (turn_atomic s c).map _
  | turnUntil c target => exact (turnUntil_atomic s c target).map _

/-- An operation that fails by itself leaves every session, whatever its state, as it was and tells
its listener nothing. -/
theorem perform_failed (s : Session) (op : Operation) {f : Fault}
    (h : (s.perform op).answer = .error f) (hf : ∀ hook, f ≠ .listener hook) :
    (s.perform op).after = s ∧ (s.perform op).events = [] ∧
      ∀ e, .noted e ∉ (s.perform op).log := by
  rcases perform_atomic s op with hc | ⟨hs, he, hl⟩
  · obtain ⟨hook, rfl⟩ := hc f h
    exact absurd rfl (hf hook)
  · exact ⟨hs, he, hl⟩

def sampleParty (name : Identity) (octet : UInt8) : LocalIdentity :=
  ⟨name, List.replicate 32 octet, List.length_replicate⟩

def sampleInitiator : LocalIdentity :=
  sampleParty ⟨Bytes.ascii "AAAAAAAA", by decide, Bytes.lt_of_mem_ascii (by decide)⟩ 1

def sampleResponder : LocalIdentity :=
  sampleParty ⟨Bytes.ascii "BBBBBBBB", by decide, Bytes.lt_of_mem_ascii (by decide)⟩ 2

def sampleId : SessionId := ⟨List.replicate 16 9, List.length_replicate⟩

def sampleBare : Session where
  id := sampleId
  role := .initiator
  me := sampleInitiator
  peer := sampleResponder.contact
  config := {}
  listener := .recorder []
  ephemeralPublic := .absent
  ephemeralSecret := some (List.replicate 32 3)

theorem perform_failed_lowOrder :
    let op : Operation := .accept (.fixed (List.replicate 32 0)) (.fixed sampleBare.peer.key.val)
    (sampleBare.perform op).answer = .error (.agreement .lowOrder) ∧
      (sampleBare.perform op).after = sampleBare ∧ (sampleBare.perform op).events = [] ∧
      ∀ e, .noted e ∉ (sampleBare.perform op).log := by
  intro op
  have h : (sampleBare.perform op).answer = .error (.agreement .lowOrder) := by decide +kernel
  exact ⟨h, perform_failed sampleBare op h (fun _ => nofun)⟩

end RatchetSession.Session
