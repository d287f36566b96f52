import RatchetSession.Proofs.Counters

/-!
# Calls on a ratchet

A ratchet turns once, catches up with a counter or is discarded, and nothing else changes it. Where
it is after some calls is as many turns on as the calls answered for: `afterCalls_eq`. An operation
of a session that turns a ratchet is a call on the ratchet of the channel it names:
`perform_of_call`.
-/

set_option autoImplicit false
set_option relaxedAutoImplicit false

namespace RatchetSession

namespace Ratchet

/-- What changes a ratchet. -/
inductive Call
  | turn
  | turnUntil (target : Int)
  | discard
deriving DecidableEq

def afterCall (r : Ratchet) : Call → Ratchet
  | .turn =>
    match r.turn with
    | .ok r' => r'
    | .error _ => r
  | .turnUntil target => (r.turnUntil target).1
  | .discard => r.discard

/-- The turns that a call answers for. -/
def turnsOf (r : Ratchet) : Call → Nat
  | .turn =>
    match r.turn with
    | .ok _ => 1
    | .error _ => 0
  | .turnUntil target =>
    match (r.turnUntil target).2 with
    | .ok n => n
    | .error _ => 0
  | .discard => 0

def answerTo (r : Ratchet) : Call → Except RatchetSession.Fault Answer
  | .turn => (r.turn.map fun _ => .done).mapError .ratchet
  | .turnUntil target => ((r.turnUntil target).2.map .turns).mapError .ratchet
  | .discard => .ok .done

/-- The answer to calls of which the first that fails is the last. -/
def answerToAll (r : Ratchet) : List Call → Except RatchetSession.Fault Answer
  | [] => .ok .done
  | [x] => r.answerTo x
  | x :: y :: calls =>
    match r.answerTo x with
    | .ok _ => (r.afterCall x).answerToAll (y :: calls)
    | .error f => .error f

def afterCalls (r : Ratchet) (calls : List Call) : Ratchet := calls.foldl afterCall r

def turnsIn (r : Ratchet) : List Call → Nat
  | [] => 0
  | x :: calls => r.turnsOf x + (r.afterCall x).turnsIn calls

@[simp] theorem afterCalls_nil (r : Ratchet) : r.afterCalls [] = r := rfl

theorem afterCalls_cons (r : Ratchet) (x : Call) (calls : List Call) :
    r.afterCalls (x :: calls) = (r.afterCall x).afterCalls calls := rfl

theorem afterCalls_append (r : Ratchet) (calls more : List Call) :
    r.afterCalls (calls ++ more) = (r.afterCalls calls).afterCalls more := List.foldl_append

private theorem discard_of_keyless {r : Ratchet} (hk : r.chainKey = none) : r.discard = r := by
  simp only [discard, ← hk]

theorem turn_of_keyless {r : Ratchet} (hk : r.chainKey = none) :
    r.turn = .error (.discarded r.counter) := by
  simp only [turn, liveKey, hk]

theorem turnUntil_of_keyless {r : Ratchet} (hk : r.chainKey = none) (target : Int) :
    r.turnUntil target = (r, .error (.discarded r.counter)) := by
  simp only [turnUntil, turnsTo, liveKey, hk]

private theorem afterCall_eq (r : Ratchet) (x : Call) :
    r.afterCall x = r.advance (r.turnsOf x) ∨
      r.afterCall x = (r.advance (r.turnsOf x)).discard := by
  cases x with
  | turn =>
    left
    cases hturn : r.turn with
    | error f => simp only [afterCall, turnsOf, hturn, advance_zero]
    | ok r' =>
      obtain ⟨-, -, hr'⟩ := turn_eq_ok hturn
      simp only [afterCall, turnsOf, hturn, hr']
  | turnUntil target =>
    left
    rcases r.turnUntil_spec target with ⟨f, hf⟩ | ⟨n, hn, -⟩
    · simp only [afterCall, turnsOf, hf, advance_zero]
    · simp only [afterCall, turnsOf, hn]
  | discard =>
    right
    simp only [afterCall, turnsOf, advance_zero]

private theorem afterCall_of_keyless {r : Ratchet} (hk : r.chainKey = none) (x : Call) :
    r.afterCall x = r ∧ r.turnsOf x = 0 := by
  cases x with
  | turn => simp only [afterCall, turnsOf, turn_of_keyless hk, and_self]
  | turnUntil target => simp only [afterCall, turnsOf, turnUntil_of_keyless hk, and_self]
  | discard => exact ⟨discard_of_keyless hk, rfl⟩

theorem afterCalls_of_keyless {r : Ratchet} (hk : r.chainKey = none) (calls : List Call) :
    r.afterCalls calls = r ∧ r.turnsIn calls = 0 := by
  induction calls with
  | nil => exact ⟨rfl, rfl⟩
  | cons x calls ih =>
    obtain ⟨hsame, hnone⟩ := afterCall_of_keyless hk x
    rw [afterCalls_cons, turnsIn, hsame, hnone]
    exact ⟨ih.1, by omega⟩

/-- Calls go on by the turns they answer for, and one of them may discard the key in the end. -/
theorem afterCalls_eq (r : Ratchet) (calls : List Call) :
    r.afterCalls calls = r.advance (r.turnsIn calls) ∨
      r.afterCalls calls = (r.advance (r.turnsIn calls)).discard := by
  induction calls generalizing r with
  | nil => exact .inl (advance_zero r).symm
  | cons x calls ih =>
    rw [afterCalls_cons, turnsIn]
    rcases afterCall_eq r x with hx | hx
    · have hrest := ih (r.afterCall x)
      rwa [hx, advance_advance, ← hx] at hrest
    · have hkeyless : (r.afterCall x).chainKey = none := by
        rw [hx]
        rfl
      obtain ⟨hsame, hnone⟩ := afterCalls_of_keyless hkeyless calls
      right
      rw [hsame, hnone, Nat.add_zero, hx]

theorem counter_afterCalls (r : Ratchet) (calls : List Call) :
    (r.afterCalls calls).counter = r.counter + r.turnsIn calls := by
  rcases afterCalls_eq r calls with h | h
  · rw [h]
    rfl
  · rw [h]
    rfl

theorem maxSkip_afterCalls (r : Ratchet) (calls : List Call) :
    (r.afterCalls calls).maxSkip = r.maxSkip := by
  rcases afterCalls_eq r calls with h | h
  · rw [h]
    rfl
  · rw [h]
    rfl

private theorem counter_afterCall_le {r : Ratchet} (h : r.counter ≤ maxCounter) (x : Call) :
    (r.afterCall x).counter ≤ maxCounter := by
  cases x with
  | turn =>
    cases hturn : r.turn with
    | error f =>
      simp only [afterCall, hturn]
      exact h
    | ok r' =>
      obtain ⟨-, hlt, rfl⟩ := turn_eq_ok hturn
      simp only [afterCall, hturn]
      exact hlt
  | turnUntil target =>
    rcases r.turnUntil_spec target with ⟨f, hf⟩ | ⟨n, hn, -, -, -, hroom⟩
    · simp only [afterCall, hf]
      exact h
    · simp only [afterCall, hn]
      exact hroom
  | discard => exact h

theorem counter_afterCalls_le {r : Ratchet} (h : r.counter ≤ maxCounter) (calls : List Call) :
    (r.afterCalls calls).counter ≤ maxCounter := by
  induction calls generalizing r with
  | nil => exact h
  | cons x calls ih => exact ih (counter_afterCall_le h x)

private theorem turns_eq_afterCalls (r : Ratchet) (n : Nat) :
    (r.turns n).1 = r.afterCalls (List.replicate n .turn) := by
  induction n generalizing r with
  | zero => rfl
  | succ n ih =>
    rw [List.replicate_succ, afterCalls_cons]
    cases hturn : r.turn with
    | ok r' =>
      rw [turns, hturn]
      simp only [afterCall, hturn, ih]
    | error f =>
      have hsame : r.afterCall .turn = r := by simp only [afterCall, hturn]
      have hstuck (m : Nat) : r.afterCalls (List.replicate m .turn) = r := by
        induction m with
        | zero => rfl
        | succ m ihm => rw [List.replicate_succ, afterCalls_cons, hsame, ihm]
      rw [turns, hturn, hsame, hstuck]

/-- The calls that an operation makes. -/
def Operation.calls : Operation → List Call
  | .encryptionKey => []
  | .turn times => List.replicate times .turn
  | .turnUntil target => [.turnUntil target]
  | .discard => [.discard]

def answers (r : Ratchet) : List (List Call) → List (Except RatchetSession.Fault Answer)
  | [] => []
  | calls :: rest => r.answerToAll calls :: (r.afterCalls calls).answers rest

private theorem answer_turns (r : Ratchet) (n : Nat) :
    ((r.turns n).2.map fun () => Answer.done).mapError .ratchet =
      r.answerToAll (List.replicate n .turn) := by
  induction n generalizing r with
  | zero => rfl
  | succ n ih =>
    cases hturn : r.turn with
    | error f =>
      cases n with
      | zero => simp only [turns, answerToAll, answerTo, hturn, List.replicate]; rfl
      | succ n => simp only [turns, answerToAll, answerTo, hturn, List.replicate]; rfl
    | ok r' =>
      cases n with
      | zero => simp only [turns, answerToAll, answerTo, hturn, List.replicate]; rfl
      | succ n =>
        have hrest := ih r'
        simp only [List.replicate] at hrest
        rw [turns, hturn]
        simp only [answerToAll, answerTo, afterCall, hturn, List.replicate]
        exact hrest

theorem answer_of_calls {op : Operation} (h : op.calls ≠ []) (r : Ratchet) :
    (r.perform op).answer = r.answerToAll op.calls := by
  cases op with
  | encryptionKey => exact absurd rfl h
  | turn times => exact answer_turns r times
  | turnUntil target => rfl
  | discard => rfl

theorem perform_after (r : Ratchet) (op : Operation) :
    (r.perform op).after = r.afterCalls op.calls := by
  cases op with
  | encryptionKey => rfl
  | turn times => exact turns_eq_afterCalls r times
  | turnUntil target => rfl
  | discard => rfl

end Ratchet

namespace Session

/-- The call that an operation makes, and the channel of the ratchet that it is made on. -/
def Operation.call? : Operation → Option (Channel × Ratchet.Call)
  | .turn c => some (c, .turn)
  | .turnUntil c target => some (c, .turnUntil target)
  | .accept _ _ | .discardTwoDh | .take _ | .encryptionKey _ | .associatedData _ => none

def Operation.channel? : Operation → Option Channel
  | .take c | .encryptionKey c | .associatedData c | .turn c | .turnUntil c _ => some c
  | .accept _ _ | .discardTwoDh => none

variable {s : Session} {op : Operation} {c d : Channel} {x : Ratchet.Call}

theorem PhaseStep.of_channel {p q : Phase} (h : PhaseStep p op q) (hop : op.channel? = some c) :
    q = p := by
  cases h with
  | same p op => rfl
  | accepted ephemeral longTerm => cases hop
  | stripped => cases hop

/-- An operation that calls on a ratchet leaves what the call leaves. -/
theorem perform_of_call (h : op.call? = some (d, x)) (s : Session) :
    (s.perform op).after =
      match s.ratchet d with
      | .ok r => s.putRatchet d (r.afterCall x)
      | .error _ => s := by
  cases op with
  | turn c =>
    obtain ⟨rfl, rfl⟩ := Prod.mk.inj (Option.some.inj h)
    rw [perform_turn, turn_eq]
    cases hr : s.ratchet c with
    | error f => rfl
    | ok r =>
      cases hturn : r.turn with
      | error f =>
        simp only [Ratchet.afterCall, hturn]
        exact (putRatchet_self hr).symm
      | ok r' =>
        simp only [Ratchet.afterCall, hturn]
        rfl
  | turnUntil c target =>
    obtain ⟨rfl, rfl⟩ := Prod.mk.inj (Option.some.inj h)
    rw [perform_turnUntil, turnUntil_eq]
    cases hr : s.ratchet c with
    | error f => rfl
    | ok r =>
      rcases r.turnUntil_spec target with ⟨f, hf⟩ | ⟨n, hn, -⟩
      · simp only [Ratchet.afterCall, hf]
        exact (putRatchet_self hr).symm
      · simp only [Ratchet.afterCall, hn]
        split <;> rfl
  | accept ephemeral longTerm => cases h
  | discardTwoDh => cases h
  | take c => cases h
  | encryptionKey c => cases h
  | associatedData c => cases h

end Session

end RatchetSession
