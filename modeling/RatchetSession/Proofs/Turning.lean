import Mathlib.Tactic.SplitIfs
import RatchetSession.Ratchet

/-!
# Turning a ratchet

A ratchet that has its key and room below the largest counter can be turned on by any number of
steps. `turns_eq` says what the steps amount to, and `turnUntil_spec` that catching up either fails
before its first turn or ends at the target.
-/

set_option autoImplicit false
set_option relaxedAutoImplicit false

namespace RatchetSession.Ratchet

/-- The chain key `n` turns on. -/
def chainKeyAfter : Nat → Key → Key
  | 0, k => k
  | n + 1, k => chainKeyAfter n (nextChainKey k)

private theorem chainKeyAfter_add (m n : Nat) (k : Key) :
    chainKeyAfter (m + n) k = chainKeyAfter n (chainKeyAfter m k) := by
  induction m generalizing k with
  | zero => rw [Nat.zero_add, chainKeyAfter]
  | succ m ih => rw [Nat.succ_add, chainKeyAfter, ih, chainKeyAfter]

theorem chainKeyAfter_succ (n : Nat) (k : Key) :
    chainKeyAfter (n + 1) k = nextChainKey (chainKeyAfter n k) :=
  chainKeyAfter_add n 1 k

def advance (n : Nat) (r : Ratchet) : Ratchet :=
  { r with chainKey := r.chainKey.map (chainKeyAfter n), counter := r.counter + n }

@[simp] theorem advance_zero (r : Ratchet) : r.advance 0 = r := by
  have hk : r.chainKey.map (chainKeyAfter 0) = r.chainKey := by
    cases r.chainKey <;> rfl
  simp only [advance, hk, Nat.add_zero]

theorem advance_advance (m n : Nat) (r : Ratchet) :
    (r.advance m).advance n = r.advance (m + n) := by
  simp only [advance, Option.map_map, Nat.add_assoc]
  congr 2
  funext k
  exact (chainKeyAfter_add m n k).symm

def fresh (k : Key) (config : Config) : Ratchet :=
  ⟨some k, config.initialCounter.toNat, config.maxSkip⟩

theorem counter_advance_fresh (k : Key) (config : Config) (n : Nat) :
    ((fresh k config).advance n).counter = config.initialCounter.toNat + n := rfl

theorem encryptionKey_advance_fresh (k : Key) (config : Config) (n : Nat) :
    ((fresh k config).advance n).encryptionKey = .ok (messageKey (chainKeyAfter n k)) := rfl

theorem start_eq_ok {k : Key} {counter maxSkip : Int} {r : Ratchet}
    (h : start k counter maxSkip = .ok r) :
    (0 ≤ counter ∧ counter ≤ maxCounter) ∧ r = ⟨some k, counter.toNat, maxSkip⟩ := by
  unfold start at h
  split at h
  · rename_i hc
    exact ⟨hc, (Except.ok.inj h).symm⟩
  · cases h

theorem turn_of_live {r : Ratchet} {k : Key} (hk : r.chainKey = some k)
    (hc : r.counter < maxCounter) : r.turn = .ok (r.advance 1) := by
  have hlive : r.liveKey = .ok k := by rw [liveKey, hk]
  have hle : ¬ maxCounter ≤ r.counter := Nat.not_le.mpr hc
  simp only [turn, hlive, if_neg hle, advance, hk, Option.map_some, chainKeyAfter]

theorem turn_eq_ok {r r' : Ratchet} (h : r.turn = .ok r') :
    r.chainKey.isSome ∧ r.counter < maxCounter ∧ r' = r.advance 1 := by
  cases hk : r.chainKey with
  | none => simp [turn, liveKey, hk] at h
  | some k =>
    by_cases hc : maxCounter ≤ r.counter
    · simp [turn, liveKey, hk, hc] at h
    · have hlt : r.counter < maxCounter := Nat.not_le.mp hc
      rw [turn_of_live hk hlt] at h
      exact ⟨rfl, hlt, (Except.ok.inj h).symm⟩

theorem turns_eq {r : Ratchet} (hk : r.chainKey.isSome) {n : Nat}
    (hc : r.counter + n ≤ maxCounter) : r.turns n = (r.advance n, .ok ()) := by
  induction n generalizing r with
  | zero => rw [turns, advance_zero]
  | succ n ih =>
    obtain ⟨k, hk⟩ := Option.isSome_iff_exists.mp hk
    have hturn : r.turn = .ok (r.advance 1) := turn_of_live hk (by omega)
    have hlive : (r.advance 1).chainKey.isSome := by simp [advance, hk]
    have hroom : (r.advance 1).counter + n ≤ maxCounter := by
      show r.counter + 1 + n ≤ maxCounter
      omega
    rw [turns, hturn]
    show (r.advance 1).turns n = _
    rw [ih hlive hroom, advance_advance, Nat.add_comm]

theorem turns_fst (r : Ratchet) (n : Nat) : ∃ k, (r.turns n).1 = r.advance k := by
  induction n generalizing r with
  | zero => exact ⟨0, (advance_zero r).symm⟩
  | succ n ih =>
    cases hturn : r.turn with
    | error f =>
      rw [turns, hturn]
      exact ⟨0, (advance_zero r).symm⟩
    | ok r' =>
      obtain ⟨-, -, rfl⟩ := turn_eq_ok hturn
      obtain ⟨k, hk⟩ := ih (r.advance 1)
      rw [turns, hturn]
      exact ⟨1 + k, hk.trans (advance_advance 1 k r)⟩

private theorem turnsTo_eq_ok {r : Ratchet} {target : Int} {n : Nat}
    (h : r.turnsTo target = .ok n) :
    r.chainKey.isSome ∧ (r.counter : Int) + n = target ∧ (n : Int) ≤ r.maxSkip ∧
      r.counter + n ≤ maxCounter := by
  cases hk : r.chainKey with
  | none =>
    rw [turnsTo, liveKey, hk] at h
    cases h
  | some k =>
    have hlive : r.liveKey = .ok k := by rw [liveKey, hk]
    simp only [turnsTo, hlive] at h
    split_ifs at h with hback hskip hmax
    obtain rfl := Except.ok.inj h
    exact ⟨rfl, by omega, by omega, by omega⟩

private theorem turnUntil_of_turnsTo {r : Ratchet} {target : Int} {n : Nat}
    (h : r.turnsTo target = .ok n) : r.turnUntil target = (r.advance n, .ok n) := by
  obtain ⟨hk, -, -, hroom⟩ := turnsTo_eq_ok h
  rw [turnUntil, h]
  simp only [turns_eq hk hroom]
  rfl

theorem turnUntil_of_le {r : Ratchet} (hk : r.chainKey.isSome) {n : Nat}
    (hskip : (n : Int) ≤ r.maxSkip) (hroom : r.counter + n ≤ maxCounter) :
    r.turnUntil (r.counter + n) = (r.advance n, .ok n) := by
  obtain ⟨k, hkey⟩ := Option.isSome_iff_exists.mp hk
  have hlive : r.liveKey = .ok k := by rw [liveKey, hkey]
  have hahead : (r.counter : Int) + n - r.counter = n := by omega
  apply turnUntil_of_turnsTo
  simp only [turnsTo, hlive, hahead]
  rw [if_neg (by omega), if_neg (by omega), if_neg (by omega), Int.toNat_natCast]

/-- Catching up fails at once or ends at the target, within the bound on skips. -/
theorem turnUntil_spec (r : Ratchet) (target : Int) :
    (∃ f, r.turnUntil target = (r, .error f)) ∨
      ∃ n : Nat, r.turnUntil target = (r.advance n, .ok n) ∧ r.chainKey.isSome ∧
        (r.counter : Int) + n = target ∧ (n : Int) ≤ r.maxSkip ∧ r.counter + n ≤ maxCounter := by
  cases h : r.turnsTo target with
  | error f => exact .inl ⟨f, by rw [turnUntil, h]⟩
  | ok n => exact .inr ⟨n, turnUntil_of_turnsTo h, turnsTo_eq_ok h⟩

end RatchetSession.Ratchet
