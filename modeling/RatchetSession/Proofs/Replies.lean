import RatchetSession.Proofs.Refusal

/-!
# What operations answer

The answer to an operation is read off the session before it, unless the listener refuses what it is
told then: `perform_answer`. An operation that does not succeed for a listener that refuses nothing
leaves the session alone: `perform_after_of_error`.
-/

set_option autoImplicit false
set_option relaxedAutoImplicit false

namespace RatchetSession

/-- The listener refuses no event. -/
def Listener.Quiet (l : Listener) : Prop := ∀ e, (l.tell e).refused = false

theorem Outcome.answer_tell {σ α : Type} {l : Listener} (hl : l.Quiet)
    (call : HookCall) (o : Outcome σ α) : (o.tell l call).answer = o.answer := by
  show (if (l.tell call.event).refused then _ else o.answer) = o.answer
  rw [hl]
  rfl

namespace Session

/-- What an operation answers where the listener refuses nothing. -/
def reply (s : Session) : Operation → Except Fault Answer
  | .accept ephemeral longTerm => (s.accepted ephemeral longTerm).map fun _ => .done
  | .discardTwoDh => s.checkFourDh.map fun _ => .done
  | .take c => (s.ratchet c).map fun _ => .done
  | .encryptionKey c => (s.encryptionKey c).map fun k => .octets k.val
  | .associatedData c => (s.associatedData c).map .octets
  | .turn c => do
    let r ← s.ratchet c
    (r.turn.mapError .ratchet).map fun _ => .done
  | .turnUntil c target => do
    let r ← s.ratchet c
    ((r.turnUntil target).2.mapError .ratchet).map .turns

variable {s : Session} {op : Operation} {f : Fault}

theorem listener_perform (s : Session) (op : Operation) :
    (s.perform op).after.listener = s.listener :=
  listener_of_fixedPart (fixedPart_perform s op)

theorem perform_answer (quiet : s.listener.Quiet) (op : Operation) :
    (s.perform op).answer = s.reply op := by
  cases op with
  | accept ephemeral longTerm =>
    rw [perform_accept, accept_eq, reply]
    cases htaken : s.accepted ephemeral longTerm with
    | error f => rfl
    | ok t =>
      have hlistener : t.listener = s.listener := by
        obtain ⟨_, _, _, -, -, -, -, rfl⟩ := accepted_eq_ok htaken
        rfl
      simp only [hlistener, Outcome.map, Outcome.answer_tell quiet]
      rfl
  | discardTwoDh =>
    rw [perform_discardTwoDh, discardTwoDh_eq, reply, checkFourDh]
    by_cases hwaiting : s.phase = .initiatorTwoDh
    · rw [if_pos hwaiting, if_pos hwaiting]
      rfl
    · rw [if_neg hwaiting, if_neg hwaiting]
      split
      · simp only [Outcome.map, Outcome.answer_tell quiet]
      · rfl
  | take c => rfl
  | encryptionKey c => rfl
  | associatedData c => rfl
  | turn c =>
    rw [perform_turn, turn_eq, reply]
    cases hr : s.ratchet c with
    | error f => rfl
    | ok r =>
      show _ = (r.turn.mapError Fault.ratchet).map fun _ => Answer.done
      cases hturn : r.turn with
      | error f =>
        simp only [hturn]
        rfl
      | ok r' =>
        simp only [hturn]
        rfl
  | turnUntil c target =>
    rw [perform_turnUntil, turnUntil_eq, reply]
    cases hr : s.ratchet c with
    | error f => rfl
    | ok r =>
      show _ = ((r.turnUntil target).2.mapError Fault.ratchet).map Answer.turns
      rcases r.turnUntil_spec target with ⟨f, hf⟩ | ⟨n, hn, -⟩
      · simp only [hf]
        rfl
      · simp only [hn]
        split
        · rfl
        · simp only [Outcome.map, Outcome.answer_tell quiet]
          rfl

private theorem reply_unrefused (s : Session) (op : Operation) : Unrefused (s.reply op) := by
  cases op with
  | accept ephemeral longTerm => exact (accepted_unrefused s ephemeral longTerm).map _
  | discardTwoDh =>
    refine Unrefused.map ?_ _
    unfold checkFourDh
    split
    · exact .error fun ⟨_, h⟩ => nomatch h
    · exact .ok _
  | take c => exact (ratchet_unrefused s c).map _
  | encryptionKey c => exact (encryptionKey_unrefused s c).map _
  | associatedData c => exact (associatedData_unrefused s c).map _
  | turn c =>
    exact (ratchet_unrefused s c).bind fun r =>
      (Unrefused.mapError (fun _ ⟨_, h⟩ => nomatch h) _).map _
  | turnUntil c target =>
    exact (ratchet_unrefused s c).bind fun r =>
      (Unrefused.mapError (fun _ ⟨_, h⟩ => nomatch h) _).map _

theorem perform_after_of_error (quiet : s.listener.Quiet) (h : (s.perform op).answer = .error f) :
    (s.perform op).after = s := by
  have hreply : s.reply op = .error f := by rw [← perform_answer quiet, h]
  have hf : ∀ hook, f ≠ .listener hook := fun hook hhook =>
    reply_unrefused s op f hreply ⟨hook, hhook⟩
  exact (perform_failed s op h hf).1

end Session

end RatchetSession
