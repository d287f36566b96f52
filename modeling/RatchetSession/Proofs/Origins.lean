import RatchetSession.Proofs.Exchange
import RatchetSession.Proofs.ScenarioRuns
import RatchetSession.Proofs.Secrecy

/-!
# Where sessions come from

A session in the hands of one party, of two parties that write letters, of those whom a desk serves
or in a scenario is one that its own operations and handles lead to. So what holds of these holds
of all of them.
-/

set_option autoImplicit false
set_option relaxedAutoImplicit false

namespace RatchetSession

private theorem Session.Reachable.run {s : Session} (h : s.Reachable)
    (ops : List Session.Operation) :
    (s.run ops).Reachable := by
  induction ops generalizing s with
  | nil => exact h
  | cons op ops ih => exact ih (h.perform op)

def Pair.Reachable (p : Pair) : Prop := p.initiator.Reachable ∧ p.responder.Reachable

private theorem Pair.Reachable.run {p : Pair} (h : p.Reachable)
    (moves : List (Role × Session.Operation)) : (p.run moves).Reachable := by
  rw [Pair.run_eq]
  exact ⟨h.1.run _, h.2.run _⟩

namespace Exchange

variable {x : Exchange} {sender : Role} {g : Generation}

private theorem pair_step (x : Exchange) (sender : Role) (g : Generation) (happening : Happening) :
    ∃ moves, (x.step sender g happening).pair = x.pair.run moves := by
  cases happening with
  | sent text nonce =>
    simp only [step]
    split
    · exact ⟨[_], rfl⟩
    · exact ⟨[], rfl⟩
  | arrived lost =>
    simp only [step]
    split
    · exact ⟨[_], rfl⟩
    · exact ⟨[], rfl⟩
  | moved role op => exact ⟨[(role, op)], rfl⟩

theorem reachable_run (h : x.pair.Reachable) (happenings : List Happening) :
    (x.run sender g happenings).pair.Reachable := by
  induction happenings generalizing x with
  | nil => exact h
  | cons happening happenings ih =>
    apply ih
    obtain ⟨moves, hmoves⟩ := x.pair_step sender g happening
    rw [hmoves]
    exact h.run moves

end Exchange

namespace Desk

def Reachable (w : Desk) : Prop := ∀ s ∈ w.sessions, s.Reachable

variable {w : Desk}

private theorem reachable_receive (h : w.Reachable) {o : Outcome Unit Session}
    (hmade : ∀ s, o.answer = .ok s → s.Made) : (w.receive o).Reachable := by
  unfold receive
  cases ho : o.answer with
  | error f => exact h
  | ok s =>
    intro t ht
    rcases List.mem_append.mp ht with hold | hnew
    · exact h t hold
    · obtain rfl := List.mem_singleton.mp hnew
      exact (hmade t ho).reachable

private theorem reachable_set (h : w.Reachable) {place : Nat} {t : Session} (ht : t.Reachable) :
    Reachable { w with sessions := w.sessions.set place t } := by
  intro u hu
  rcases List.mem_or_eq_of_mem_set hu with hold | rfl
  · exact h u hold
  · exact ht

theorem Reachable.serve (h : w.Reachable) (secret : Key) (q : Request) :
    (w.serve secret q).1.Reachable := by
  cases q with
  | initiate party peer config listener id =>
    simp only [Desk.serve]
    split
    · exact h
    · exact reachable_receive h fun s hs => .founded (.initiated hs)
  | respond party peer config listener sessionId ephemeral =>
    simp only [Desk.serve]
    split
    · exact h
    · exact reachable_receive h fun s hs => .founded (.responded hs)
  | operate place op =>
    simp only [Desk.serve]
    split
    · exact h
    · rename_i s hs
      exact reachable_set h ((h s (List.mem_of_getElem? hs)).perform op)
  | handle place c op =>
    simp only [Desk.serve]
    split
    · exact h
    · rename_i s hs
      exact reachable_set h ((h s (List.mem_of_getElem? hs)).performOnHandle c op)

end Desk

/-- Whatever the commands, a session of a scenario is in the state that its own operations and
handles have brought it to, without what it has given up. -/
theorem Scenario.reachable_after (commands : List (List Bytes × Scenario.Command)) {a : Nat}
    {s : Session} (h : (({} : Scenario).after commands).memory.session? a = some s) :
    ∃ t : Session, t.Reachable ∧ s = t.kept :=
  (sound_empty.after commands).reachable a s h

end RatchetSession
