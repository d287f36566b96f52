import RatchetSession.Proofs.Counters
import RatchetSession.Proofs.Pair

/-!
# Letters between two parties

One party sends letters to the other and turns its ratchet after each of them. Some are lost, and
the others arrive in the order in which they were sent, while both parties go on with whatever else
they do. `Honest.ratchet_run` says which chain the ratchets of both are on.
-/

set_option autoImplicit false
set_option relaxedAutoImplicit false

namespace RatchetSession

structure Letter where
  counter : Nat
  text : Bytes
  message : Bytes

/-- Two parties, and the letters of one of them that are on their way to the other. -/
structure Exchange where
  pair : Pair
  flight : List Letter := []

inductive Happening
  | sent (text : Bytes) (nonce : Nonce)
  /-- After so many letters that are lost, one arrives. -/
  | arrived (lost : Nat)
  | moved (role : Role) (op : Session.Operation)

def Session.letter? (s : Session) (g : Generation) (text : Bytes) (nonce : Nonce) :
    Option Letter :=
  match s.ratchet ⟨.outgoing, g⟩, (s.encrypt ⟨.outgoing, g⟩ text nonce).answer with
  | .ok r, .ok message => some ⟨r.counter, text, message⟩
  | _, _ => none

namespace Exchange

/-- The sender turns its ratchet when it has sent a letter. The receiver turns its own to the
counter of a letter that arrives. -/
def step (sender : Role) (g : Generation) (x : Exchange) : Happening → Exchange
  | .sent text nonce =>
    match (x.pair.session sender).letter? g text nonce with
    | some l => ⟨x.pair.move (sender, .turn ⟨.outgoing, g⟩), x.flight ++ [l]⟩
    | none => x
  | .arrived lost =>
    match x.flight.drop lost with
    | l :: rest => ⟨x.pair.move (sender.other, .turnUntil ⟨.incoming, g⟩ l.counter), rest⟩
    | [] => x
  | .moved role op => { x with pair := x.pair.move (role, op) }

def run (sender : Role) (g : Generation) (x : Exchange) (hs : List Happening) : Exchange :=
  hs.foldl (step sender g) x

end Exchange

def authenticated (id : SessionId) (g : Generation) (counter : Nat) : Bytes :=
  id.bytes.val ++ Bytes.ascii g.text ++ Bytes.mostFirst 8 counter

private theorem isKeySize_key (k : Key) : Aes.IsKeySize k.val.length := .inr (.inr k.property)

namespace Session

variable {s : Session} {c : Channel} {r : Ratchet} {k : Key}

theorem encrypt_of_ratchet (h : s.ratchet c = .ok r) (hk : r.encryptionKey = .ok k)
    (text : Bytes) (nonce : Nonce) :
    (s.encrypt c text nonce).answer =
      .ok (nonce.val ++ Gcm.encrypt k.val nonce text
        (authenticated s.id c.generation r.counter)) := by
  have hkey : s.encryptionKey c = .ok k := encryptionKey_of_ratchet h hk
  simp only [encrypt, hkey, associatedData_of_ratchet h, SealedMessage.encrypt,
    if_pos (isKeySize_key k)]
  rfl

theorem decrypt_of_ratchet (h : s.ratchet c = .ok r) (hk : r.encryptionKey = .ok k)
    (text : Bytes) (nonce : Nonce) :
    s.decrypt c (nonce.val ++ Gcm.encrypt k.val nonce text
      (authenticated s.id c.generation r.counter)) = .ok text := by
  have hkey : s.encryptionKey c = .ok k := encryptionKey_of_ratchet h hk
  have hopened := SealedMessage.decrypt_encrypt (isKeySize_key k) nonce text
    (authenticated s.id c.generation r.counter)
  rw [decrypt, hkey, associatedData_of_ratchet h]
  show (SealedMessage.decrypt k.val _ (authenticated s.id c.generation r.counter)).mapError
    Fault.sealing = .ok text
  rw [hopened]
  rfl

theorem perform_turnUntil_of_le (h : s.ratchet c = .ok r) (hk : r.chainKey.isSome) {n : Nat}
    (hskip : (n : Int) ≤ r.maxSkip) (hroom : r.counter + n ≤ maxCounter)
    (hheard : ∀ e, (s.listener.tell e).refused = false) :
    (s.perform (.turnUntil c (r.counter + n))).after = s.putRatchet c (r.advance n) ∧
      (s.perform (.turnUntil c (r.counter + n))).answer = .ok (.turns n) := by
  rw [perform_turnUntil, turnUntil_eq]
  simp only [h, Ratchet.turnUntil_of_le hk hskip hroom]
  by_cases hzero : n = 0
  · rw [if_pos hzero]
    exact ⟨rfl, rfl⟩
  · rw [if_neg hzero]
    have hlistener : (s.listener.tell (.skipped s.id s.peer.identity n)).refused = false :=
      hheard _
    simp only [Outcome.map, Outcome.tell, HookCall.event, hlistener, Bool.false_eq_true, if_false]
    exact ⟨trivial, rfl⟩

theorem reached_turnUntil (s : Session) (c : Channel) (n : Nat) :
    (s.perform (.turnUntil c n)).after.reached c = s.reached c ∨
      (s.perform (.turnUntil c n)).after.reached c = some n := by
  rw [perform_turnUntil, turnUntil_eq]
  cases hr : s.ratchet c with
  | error f => exact .inl rfl
  | ok r =>
    rcases r.turnUntil_spec n with ⟨f, hf⟩ | ⟨k, hk, -, htarget, -, -⟩
    · simp only [hf]
      exact .inl rfl
    · have hend : r.counter + k = n := by omega
      have hreached : (s.putRatchet c (r.advance k)).reached c = some n := by
        rw [← hend]
        exact reached_putRatchet_self _ (ratchet_eq_ok.mp hr)
      simp only [hk]
      right
      split <;> exact hreached

end Session

/-- Two sessions of one handshake as they were given out, which count from the same number. -/
structure Honest (a b : Key) (p : Pair) : Prop where
  founded : ∀ role, (p.session role).Founded role
  joined : Joined a b p.initiator p.responder
  commuting : Commuting p.initiator.me p.responder.me a b
  level : p.initiator.config.initialCounter = p.responder.config.initialCounter

/-- If the generation depends on it, the initiator knows no ephemeral key but that of `b`. -/
def Pair.Unmisled (p : Pair) (b : Key) (g : Generation) : Prop :=
  g = .fourDh → p.initiator.peerEphemeral = none ∨
    p.initiator.peerEphemeral = some (Curve25519.publicKey b).val

namespace Honest

variable {a b : Key} {p : Pair} {g : Generation} {sender role : Role}

theorem id_eq (h : Honest a b p) : (p.session role.other).id = (p.session role).id := by
  cases role with
  | initiator => exact h.joined.id.symm
  | responder => exact h.joined.id

theorem level_eq (h : Honest a b p) :
    (p.session role.other).config.initialCounter = (p.session role).config.initialCounter := by
  cases role with
  | initiator => exact h.level.symm
  | responder => exact h.level

theorem sender_eq (h : Honest a b p) :
    (p.session role.other).sender .incoming = (p.session role).sender .outgoing := by
  cases role with
  | initiator => exact (h.joined.sender_eq .outgoing).symm
  | responder => exact h.joined.sender_eq .incoming

theorem counted_run (h : Honest a b p) (role : Role) (moves : List (Role × Session.Operation)) :
    ((p.run moves).session role).Counted := by
  rw [p.session_run]
  exact (h.founded role).counted.run _

theorem fixed_run (p : Pair) (role : Role) (moves : List (Role × Session.Operation)) :
    ((p.run moves).session role).fixedPart = (p.session role).fixedPart := by
  rw [p.session_run]
  exact Session.fixedPart_run ..

/-- While the initiator has a ratchet of a generation, the sessions are joined as far as it goes. -/
private theorem joined_run (h : Honest a b p) (moves : List (Role × Session.Operation))
    {d : Direction}
    (hhas : (p.run moves).initiator.Has ⟨d, g⟩) (hknown : (p.run moves).Unmisled b g) :
    Joined a b (p.run moves).initiator (p.run moves).responder := by
  refine h.joined.later moves ?_
  cases g with
  | twoDh =>
    have hcounted : (p.run moves).initiator.Counted := h.counted_run .initiator moves
    have hrole : (p.run moves).initiator.role = .initiator := by
      obtain ⟨-, hrole, -⟩ := Session.fields_of_fixedPart (p.fixedPart_run moves).1
      exact hrole.trans h.joined.initiator
    rcases hcounted.phased.initiator hrole with hwaiting | hsettled
    · exact .inl hwaiting.peerEphemeral
    · exact absurd hhas (hsettled.twoDh d)
  | fourDh => exact hknown rfl

private theorem material_run (h : Honest a b p) (moves : List (Role × Session.Operation)) :
    (p.run moves).responder.material b g = p.responder.material b g := by
  obtain ⟨-, hrole, hme, hpeer, -⟩ := Session.fields_of_fixedPart (p.fixedPart_run moves).2
  have hbegun : (p.run moves).responder.peerEphemeral = p.responder.peerEphemeral := by
    rw [h.joined.begun, Pair.run_eq]
    exact h.joined.responded.phased.run_peerEphemeral h.joined.begun _
  exact Session.material_congr hrole hme hpeer hbegun g

theorem ratchet_run (h : Honest a b p) (moves : List (Role × Session.Operation)) {d : Direction}
    {r : Ratchet} (hr : ((p.run moves).session role).ratchet ⟨d, g⟩ = .ok r)
    (hknown : (p.run moves).Unmisled b g) :
    ∃ m n, p.responder.material b g = .ok m ∧
      r = ((p.session role).firstRatchet ⟨d, g⟩ m).advance n := by
  have hlive := Session.ratchet_eq_ok.mp hr
  have hfirst (m : Bytes) : ((p.run moves).session role).firstRatchet ⟨d, g⟩ m =
      (p.session role).firstRatchet ⟨d, g⟩ m := by
    rw [p.session_run, Session.firstRatchet_run]
  cases role with
  | initiator =>
    have hjoined := h.joined_run moves (Session.has_iff.mpr ⟨r, hlive⟩) hknown
    obtain ⟨m, n, hm, hturned⟩ := hjoined.initiated.ratchets _ _ hlive
    have hcommuting : Commuting (p.run moves).initiator.me (p.run moves).responder.me a b := by
      obtain ⟨hI, hR⟩ := p.fixedPart_run moves
      obtain ⟨-, -, hmeI, -⟩ := Session.fields_of_fixedPart hI
      obtain ⟨-, -, hmeR, -⟩ := Session.fields_of_fixedPart hR
      rw [hmeI, hmeR]
      exact h.commuting
    have hsame := hjoined.material_eq hcommuting (Session.has_iff.mpr ⟨r, hlive⟩)
    refine ⟨m, n, ?_, ?_⟩
    · rw [← h.material_run moves, ← hsame]
      exact hm
    · rw [← hfirst]
      exact hturned
  | responder =>
    have hscheduled : (p.run moves).responder.Scheduled b := by
      rw [Pair.run_eq]
      exact h.joined.responded.run _
    obtain ⟨m, n, hm, hturned⟩ := hscheduled.ratchets _ _ hlive
    refine ⟨m, n, ?_, ?_⟩
    · rw [← h.material_run moves]
      exact hm
    · rw [← hfirst]
      exact hturned

end Honest

end RatchetSession
