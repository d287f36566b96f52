import RatchetSession.Proofs.Exchange
import RatchetSession.Proofs.Upkeep

/-!
# What is authenticated with a message

The identifier, the generation and the counter of a message stand one after the other, without any
mark between them. Each takes the same number of octets in every session, and no counter outgrows
its eight, so the octets say which three they are: `associatedData_identifies`.
-/

set_option autoImplicit false
set_option relaxedAutoImplicit false

namespace RatchetSession

namespace Bytes

def mostFirst? (n v : Nat) : Option Bytes :=
  if v < 1 <<< (8 * n) then some (mostFirst n v) else none

private theorem mostFirst?_of_lt {n v : Nat} (h : v < 1 <<< (8 * n)) :
    mostFirst? n v = some (mostFirst n v) := if_pos h

private theorem mostFirst_inj {n v w : Nat} (hv : v < 1 <<< (8 * n)) (hw : w < 1 <<< (8 * n))
    (h : mostFirst n v = mostFirst n w) : v = w := by
  have hleast : leastFirst n v = leastFirst n w := List.reverse_inj.mp h
  calc v = value (leastFirst n v) := (value_leastFirst n v hv).symm
    _ = value (leastFirst n w) := by rw [hleast]
    _ = w := value_leastFirst n w hw

end Bytes

private theorem Generation.length_text (g : Generation) : (Bytes.ascii g.text).length = 3 := by
  cases g <;> rfl

private theorem Generation.text_inj {g g' : Generation}
    (h : Bytes.ascii g.text = Bytes.ascii g'.text) : g = g' := by
  cases g <;> cases g' <;> first | rfl | exact absurd h (by decide)

private theorem lt_of_le_maxCounter {n : Nat} (h : n ≤ maxCounter) : n < 1 <<< (8 * 8) := by
  have hmax : maxCounter < 1 <<< (8 * 8) := by decide
  omega

private theorem length_authenticated (id : SessionId) (g : Generation) (n : Nat) :
    (authenticated id g n).length = 27 := by
  rw [authenticated, List.length_append, List.length_append, id.bytes.property, g.length_text,
    Bytes.length_mostFirst]

private theorem authenticated_inj {id id' : SessionId} {g g' : Generation} {n n' : Nat}
    (hn : n ≤ maxCounter) (hn' : n' ≤ maxCounter)
    (h : authenticated id g n = authenticated id' g' n') : id = id' ∧ g = g' ∧ n = n' := by
  have hhead : (id.bytes.val ++ Bytes.ascii g.text).length =
      (id'.bytes.val ++ Bytes.ascii g'.text).length := by
    rw [List.length_append, List.length_append, id.bytes.property, id'.bytes.property,
      g.length_text, g'.length_text]
  obtain ⟨hfront, hcounter⟩ := List.append_inj h hhead
  obtain ⟨hid, hgeneration⟩ :=
    List.append_inj hfront (id.bytes.property.trans id'.bytes.property.symm)
  refine ⟨?_, Generation.text_inj hgeneration, ?_⟩
  · cases id
    cases id'
    exact congrArg SessionId.mk (Subtype.ext hid)
  · exact Bytes.mostFirst_inj (lt_of_le_maxCounter hn) (lt_of_le_maxCounter hn') hcounter

namespace Session

variable {s t : Session} {c d : Channel} {r q : Ratchet}

private theorem Reachable.counter_le (h : s.Reachable) (hr : s.ratchet c = .ok r) :
    r.counter ≤ maxCounter := by
  refine h.orderly.range c r ?_
  rw [ratchet_eq_ok.mp hr]
  rfl

/-- In whatever way two sessions came about, what is authenticated on a channel that has its ratchet
is 27 octets, in which the counter is written out in full, and it is the same for two channels
exactly if their identifiers, generations and counters are. -/
theorem associatedData_identifies (hs : s.Reachable) (ht : t.Reachable)
    (hr : s.ratchet c = .ok r) (hq : t.ratchet d = .ok q) :
    ∃ x y n, s.associatedData c = .ok x ∧ t.associatedData d = .ok y ∧ x.length = 27 ∧
      Bytes.mostFirst? 8 r.counter = some n ∧
      x = s.id.bytes.val ++ Bytes.ascii c.generation.text ++ n ∧
      (x = y ↔ s.id = t.id ∧ c.generation = d.generation ∧ r.counter = q.counter) := by
  have hrange : r.counter ≤ maxCounter := hs.counter_le hr
  refine ⟨authenticated s.id c.generation r.counter, authenticated t.id d.generation q.counter,
    Bytes.mostFirst 8 r.counter, associatedData_of_ratchet hr, associatedData_of_ratchet hq,
    length_authenticated .., Bytes.mostFirst?_of_lt (lt_of_le_maxCounter hrange), rfl, ?_⟩
  constructor
  · intro h
    exact authenticated_inj hrange (ht.counter_le hq) h
  · rintro ⟨hid, hgeneration, hcounter⟩
    rw [hid, hgeneration, hcounter]

def sampleLast : Except Fault Session :=
  bare sampleId .initiator sampleInitiator sampleResponder.contact ⟨-1, maxCounter⟩ .silent .absent
    (some sampleEphemeral.val)

/-- Where the sample sessions are: one that sends before it is answered, and one that was made bare
and has accepted an answer. -/
def sampleFarthest : Except Fault (Nat × Nat) := do
  let s ← (initiate sampleInitiator sampleResponder.contact {} .silent sampleEphemeral
    sampleId).answer
  let t ← sampleLast
  let mine ← s.ratchet ⟨.outgoing, .twoDh⟩
  let last ← ((Holding.mk t []).run Holding.sampleDeeds).session.ratchet ⟨.incoming, .fourDh⟩
  return (mine.counter, last.counter)

theorem associatedData_identifies_sample :
    ∃ s t u r q, (initiate sampleInitiator sampleResponder.contact {} .silent sampleEphemeral
        sampleId).answer = .ok s ∧ sampleLast = .ok u ∧
      t = ((Holding.mk u []).run Holding.sampleDeeds).session ∧
      s.ratchet ⟨.outgoing, .twoDh⟩ = .ok r ∧ r.counter = 1 ∧
      t.ratchet ⟨.incoming, .fourDh⟩ = .ok q ∧ q.counter = maxCounter ∧
      ∃ x y, s.associatedData ⟨.outgoing, .twoDh⟩ = .ok x ∧
        t.associatedData ⟨.incoming, .fourDh⟩ = .ok y ∧ x.length = 27 ∧ x ≠ y := by
  have hfarthest : sampleFarthest = .ok (1, maxCounter) := by decide +kernel
  obtain ⟨s, hs, hfarthest⟩ := bind_eq_ok hfarthest
  obtain ⟨u, hu, hfarthest⟩ := bind_eq_ok hfarthest
  obtain ⟨r, hr, hfarthest⟩ := bind_eq_ok hfarthest
  obtain ⟨q, hq, hfarthest⟩ := bind_eq_ok hfarthest
  obtain ⟨hone, hlast⟩ := Prod.mk.inj (Except.ok.inj hfarthest)
  have hreachable : s.Reachable := ⟨s, [], .founded (.initiated hs), rfl⟩
  have hreachable' : ((Holding.mk u []).run Holding.sampleDeeds).session.Reachable :=
    ⟨u, Holding.sampleDeeds, .bare hu, rfl⟩
  obtain ⟨x, y, n, hx, hy, hlength, -, -, hsame⟩ :=
    associatedData_identifies hreachable hreachable' hr hq
  refine ⟨s, _, u, r, q, hs, hu, rfl, hr, hone, hq, hlast, x, y, hx, hy, hlength, fun h => ?_⟩
  exact nomatch (hsame.mp h).2.1

end Session

end RatchetSession
