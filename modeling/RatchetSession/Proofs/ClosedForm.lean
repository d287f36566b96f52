import Mathlib.Logic.Function.Iterate
import RatchetSession.Proofs.Pair
import RatchetSession.Proofs.Refusal

/-!
# The closed form of chain keys

A chain key depends on the shared secrets of the handshake, on who sends and on the counter, and not
on what was done to get there. `ratchet_closed_form` gives the formula, which names every shared
secret by the initiator's key pair and the responder's, for whichever of them computes it.
-/

set_option autoImplicit false
set_option relaxedAutoImplicit false

namespace RatchetSession

/-- A party's long-term key pair, or the one it made for the session. -/
inductive KeyPair
  | longTerm
  | ephemeral

/-- The shared secrets of a generation in the order of the formula, from those of the initiator's
key pairs with the responder's. -/
def keyMaterial (g : Generation) (dh : KeyPair → KeyPair → Option Key) : Option Bytes := do
  let two := (← dh .longTerm .longTerm).val ++ (← dh .ephemeral .longTerm).val
  match g with
  | .twoDh => return two
  | .fourDh =>
    return two ++ (← dh .longTerm .ephemeral).val ++ (← dh .ephemeral .ephemeral).val

/-- The chain key of a sender, `n` turns after the first. -/
def chainKeyAt (g : Generation) (sender : Identity) (material : Bytes) (n : Nat) : Key :=
  (fun k : Key => KeyDerivation.derive32 k.val (Bytes.ascii "kdf-ck"))^[n]
    (KeyDerivation.derive32 material (g.label ++ sender.octets))

/-- The shared secret of one's own secret with an offered public key. -/
def sharedSecret (own : Key) (other : Bytes) : Option Key :=
  (Sized.ofBytes? 32 other).bind (Curve25519.agree? own)

/-- The shared secrets as a party computes them, with its own secrets. -/
def partyDh (role : Role) (own : KeyPair → Key) (other : KeyPair → Option Bytes)
    (initiator responder : KeyPair) : Option Key :=
  match role with
  | .initiator => (other responder).bind (sharedSecret (own initiator))
  | .responder => (other initiator).bind (sharedSecret (own responder))

/-- The shared secrets from the secrets of both parties. -/
def commonDh (secrets : Role → KeyPair → Key) (initiator responder : KeyPair) : Option Key :=
  Curve25519.agree? (secrets .initiator initiator)
    (Curve25519.publicKey (secrets .responder responder))

theorem chainKeyAt_eq (g : Generation) (sender : Identity) (material : Bytes) (n : Nat) :
    chainKeyAt g sender material n =
      Ratchet.chainKeyAfter n (firstChainKey g sender material) := by
  have hiterate (k : Key) : Ratchet.nextChainKey^[n] k = Ratchet.chainKeyAfter n k := by
    induction n generalizing k with
    | zero => rfl
    | succ n ih => rw [Function.iterate_succ_apply, ih, Ratchet.chainKeyAfter]
  exact hiterate _

private theorem keyMaterial_mono {g : Generation} {dh dh' : KeyPair → KeyPair → Option Key}
    {m : Bytes}
    (hle : ∀ i r z, dh i r = some z → dh' i r = some z) (h : keyMaterial g dh = some m) :
    keyMaterial g dh' = some m := by
  obtain ⟨z₁, h₁, h⟩ := Option.bind_eq_some_iff.mp h
  obtain ⟨z₂, h₂, h⟩ := Option.bind_eq_some_iff.mp h
  cases g with
  | twoDh =>
    simp only [keyMaterial, hle _ _ _ h₁, hle _ _ _ h₂]
    exact h
  | fourDh =>
    obtain ⟨z₃, h₃, h⟩ := Option.bind_eq_some_iff.mp h
    obtain ⟨z₄, h₄, h⟩ := Option.bind_eq_some_iff.mp h
    simp only [keyMaterial, hle _ _ _ h₁, hle _ _ _ h₂, hle _ _ _ h₃, hle _ _ _ h₄]
    exact h

theorem sharedSecret_eq_some {own z : Key} {b : Bytes}
    (h : agreeEphemeral own.val (.fixed b) = .ok z) : sharedSecret own b = some z := by
  have h : KeyAgreement.exchange own.val (.fixed b) = .ok z := mapError_eq_ok h
  have hoffer : (Offered.fixed b).octets?.bind (Sized.ofBytes? 32) = Sized.ofBytes? 32 b := rfl
  cases hb : Sized.ofBytes? 32 b with
  | none =>
    simp only [KeyAgreement.exchange, KeyAgreement.publicKey, hoffer, hb] at h
    cases h
  | some k =>
    simp only [KeyAgreement.exchange, KeyAgreement.publicKey, hoffer, hb,
      Sized.ofBytes?_val] at h
    cases hz : Curve25519.agree? own k with
    | none =>
      rw [hz] at h
      cases h
    | some z' =>
      rw [hz] at h
      rw [sharedSecret, hb, Option.bind_some, hz, Except.ok.inj h]

/-- What one party computes is what both secrets give, if the other's public keys are its own. -/
private theorem commonDh_of_partyDh {role : Role} {own : KeyPair → Key}
    {other : KeyPair → Option Bytes} {secrets : Role → KeyPair → Key} (hown : secrets role = own)
    (hother : ∀ k b, other k = some b → b = (Curve25519.publicKey (secrets role.other k)).val)
    (hdh : ∀ i r, Commutes (secrets .initiator i) (secrets .responder r)) {i r : KeyPair} {z : Key}
    (h : partyDh role own other i r = some z) : commonDh secrets i r = some z := by
  subst hown
  cases role with
  | initiator =>
    obtain ⟨b, hb, hz⟩ := Option.bind_eq_some_iff.mp h
    obtain rfl := hother r b hb
    rwa [sharedSecret, Sized.ofBytes?_val, Option.bind_some] at hz
  | responder =>
    obtain ⟨b, hb, hz⟩ := Option.bind_eq_some_iff.mp h
    obtain rfl := hother i b hb
    rw [sharedSecret, Sized.ofBytes?_val, Option.bind_some] at hz
    exact (hdh i r).trans hz

/-- The key pairs of an agreement, the initiator's first. -/
def Agreement.keyPairs : Agreement → KeyPair × KeyPair
  | .statics => (.longTerm, .longTerm)
  | .initiatorEphemeral => (.ephemeral, .longTerm)
  | .responderEphemeral => (.longTerm, .ephemeral)
  | .ephemerals => (.ephemeral, .ephemeral)

namespace Session

def own (s : Session) (secret : Key) : KeyPair → Key
  | .longTerm => s.me.secret
  | .ephemeral => secret

/-- The public keys of the other side, when these ephemeral keys have been taken from it. -/
def other (s : Session) (taken : List Bytes) : KeyPair → Option Bytes
  | .longTerm => some s.peer.key.val
  | .ephemeral =>
    match taken with
    | [e] => some e
    | _ => none

/-- The ephemeral key that an operation takes: that of an accept which fails by its listener at
most. -/
def takes (s : Session) : Operation → List Bytes
  | .accept ephemeral longTerm =>
    match (s.perform (.accept ephemeral longTerm)).answer with
    | .ok _ | .error (.listener _) => ephemeral.octets?.toList
    | .error _ => []
  | .discardTwoDh | .take _ | .encryptionKey _ | .associatedData _ | .turn _ | .turnUntil _ _ => []

def taken (s : Session) : List Operation → List Bytes
  | [] => []
  | op :: ops => s.takes op ++ (s.perform op).after.taken ops

/-- The session was given out by a factory that drew this ephemeral secret. A responder's was
handed the initiator's ephemeral key. -/
inductive Begun : Role → Key → Option Bytes → Session → Prop
  | initiated {me : LocalIdentity} {peer : Contact} {config : Config} {listener : Listener}
      {secret : Key} {id : SessionId} {s : Session}
      (given : (initiate me peer config listener secret id).answer = .ok s) :
      Begun .initiator secret none s
  | responded {me : LocalIdentity} {peer : Contact} {config : Config} {listener : Listener}
      {sessionId ephemeral : Offered} {secret : Key} {s : Session}
      (given : (respond me peer config listener sessionId ephemeral secret).answer = .ok s) :
      Begun .responder secret ephemeral.octets? s

variable {s t : Session} {op : Operation} {secret : Key} {role : Role} {offered : Option Bytes}

theorem Begun.scheduled (h : Begun role secret offered s) :
    s.Scheduled secret ∧ s.role = role ∧ s.peerEphemeral = offered := by
  cases h with
  | initiated given =>
    obtain ⟨-, -, _, _, -, -, hs⟩ := initiate_eq_ok given
    exact ⟨scheduled_of_initiate given, hs ▸ rfl, hs ▸ rfl⟩
  | responded given =>
    obtain ⟨-, -, _, _, _, _, _, _, -, he, -, -, -, -, hs⟩ := respond_eq_ok given
    exact ⟨scheduled_of_respond given, hs ▸ rfl, hs ▸ he.symm⟩

private theorem takes_accept_of_ok {ephemeral longTerm : Offered}
    (h : s.accepted ephemeral longTerm = .ok t) :
    s.takes (.accept ephemeral longTerm) = ephemeral.octets?.toList := by
  rw [takes, perform_accept, accept_eq, h]
  by_cases hrefused :
      (t.listener.tell (HookCall.milestone .initiatorSessionEstablished t).event).refused
  · simp only [Outcome.map, Outcome.tell, if_pos hrefused, Except.map]
  · simp only [Outcome.map, Outcome.tell, if_neg hrefused, Except.map]

private theorem takes_accept_of_error {ephemeral longTerm : Offered} {f : Fault}
    (h : s.accepted ephemeral longTerm = .error f) : s.takes (.accept ephemeral longTerm) = [] := by
  have hf : ¬ f.IsRefusal := accepted_unrefused s ephemeral longTerm f h
  rw [takes, perform_accept, accept_eq, h]
  simp only [Outcome.map, Except.map]
  split
  · contradiction
  · rename_i hook hlistener
    exact absurd ⟨hook, Except.error.inj hlistener⟩ hf
  · rfl

private theorem perform_accept_after (s : Session) (ephemeral longTerm : Offered) :
    (s.perform (.accept ephemeral longTerm)).after =
      match s.accepted ephemeral longTerm with
      | .ok t => t
      | .error _ => s := by
  rw [perform_accept, accept_eq]
  cases s.accepted ephemeral longTerm with
  | error f => rfl
  | ok t => rfl

private theorem WellPhased.takes (hs : s.WellPhased) (op : Operation) :
    s.peerEphemeral.toList ++ s.takes op = (s.perform op).after.peerEphemeral.toList := by
  by_cases hop : ∃ ephemeral longTerm, op = .accept ephemeral longTerm
  · obtain ⟨ephemeral, longTerm, rfl⟩ := hop
    rw [perform_accept_after]
    cases h : s.accepted ephemeral longTerm with
    | error f => rw [takes_accept_of_error h, List.append_nil]
    | ok t =>
      have hnone : s.peerEphemeral = none := (hs.waiting_of_accepted h).peerEphemeral
      obtain ⟨_, _, _, -, -, -, -, rfl⟩ := accepted_eq_ok h
      rw [takes_accept_of_ok h, hnone]
      rfl
  · have htakes : s.takes op = [] := by
      cases op with
      | accept ephemeral longTerm => exact absurd ⟨ephemeral, longTerm, rfl⟩ hop
      | _ => rfl
    rcases s.perform_peerEphemeral op with hsame | ⟨ephemeral, longTerm, haccept, -⟩
    · rw [htakes, hsame, List.append_nil]
    · exact absurd ⟨ephemeral, longTerm, haccept⟩ hop

private theorem WellPhased.taken (hs : s.WellPhased) (ops : List Operation) :
    s.peerEphemeral.toList ++ s.taken ops = (s.run ops).peerEphemeral.toList := by
  induction ops generalizing s with
  | nil => exact List.append_nil _
  | cons op ops ih =>
    rw [Session.taken, ← List.append_assoc, hs.takes op]
    exact ih (hs.step (step_perform s op))

abbrev dh (s : Session) (secret : Key) : KeyPair → KeyPair → Option Key :=
  partyDh s.role (s.own secret) (s.other s.peerEphemeral.toList)

private theorem sharedSecret_peerKey {own z : Key}
    (h : agreeEphemeral own.val (.fixed s.peer.key.val) = .ok z) :
    (s.other s.peerEphemeral.toList .longTerm).bind (sharedSecret own) = some z :=
  sharedSecret_eq_some h

private theorem sharedSecret_peerOffer {own z : Key}
    (h : agreeEphemeral own.val s.peerOffer = .ok z) :
    (s.other s.peerEphemeral.toList .ephemeral).bind (sharedSecret own) = some z := by
  obtain ⟨b, hb, hz⟩ := agreeEphemeral_eq_ok h
  cases he : s.peerEphemeral with
  | none =>
    rw [peerOffer, he] at hb
    cases hb
  | some e =>
    rw [peerOffer, he] at hb
    obtain rfl : e = b := Option.some.inj hb
    exact sharedSecret_eq_some hz

private theorem dh_of_shared {a : Agreement} {z : Key} (h : s.shared secret a = .ok z) :
    s.dh secret a.keyPairs.1 a.keyPairs.2 = some z := by
  cases hrole : s.role with
  | initiator =>
    rw [dh, hrole]
    cases a with
    | statics => exact sharedSecret_peerKey h
    | initiatorEphemeral =>
      rw [shared, hrole] at h
      exact sharedSecret_peerKey h
    | responderEphemeral =>
      rw [shared, hrole] at h
      exact sharedSecret_peerOffer h
    | ephemerals => exact sharedSecret_peerOffer h
  | responder =>
    rw [dh, hrole]
    cases a with
    | statics => exact sharedSecret_peerKey h
    | initiatorEphemeral =>
      rw [shared, hrole] at h
      exact sharedSecret_peerOffer h
    | responderEphemeral =>
      rw [shared, hrole] at h
      exact sharedSecret_peerKey h
    | ephemerals => exact sharedSecret_peerOffer h

private theorem keyMaterial_of_material {g : Generation} {m : Bytes}
    (h : s.material secret g = .ok m) :
    keyMaterial g (s.dh secret) = some m := by
  cases g with
  | twoDh =>
    obtain ⟨z₁, h₁, h⟩ := bind_eq_ok h
    obtain ⟨z₂, h₂, h⟩ := bind_eq_ok h
    obtain rfl := Except.ok.inj h
    have e₁ : s.dh secret .longTerm .longTerm = some z₁ := dh_of_shared h₁
    have e₂ : s.dh secret .ephemeral .longTerm = some z₂ := dh_of_shared h₂
    simp only [keyMaterial, e₁, e₂]
    rfl
  | fourDh =>
    obtain ⟨z₁, h₁, h⟩ := bind_eq_ok h
    obtain ⟨z₂, h₂, h⟩ := bind_eq_ok h
    obtain ⟨z₃, h₃, h⟩ := bind_eq_ok h
    obtain ⟨z₄, h₄, h⟩ := bind_eq_ok h
    obtain rfl := Except.ok.inj h
    have e₁ : s.dh secret .longTerm .longTerm = some z₁ := dh_of_shared h₁
    have e₂ : s.dh secret .ephemeral .longTerm = some z₂ := dh_of_shared h₂
    have e₃ : s.dh secret .longTerm .ephemeral = some z₃ := dh_of_shared h₃
    have e₄ : s.dh secret .ephemeral .ephemeral = some z₄ := dh_of_shared h₄
    simp only [keyMaterial, e₁, e₂, e₃, e₄]
    rfl

private theorem Begun.dh_run (h : Begun role secret offered s) (ops : List Operation) :
    (s.run ops).dh secret =
      partyDh role (s.own secret) (s.other (offered.toList ++ s.taken ops)) := by
  obtain ⟨hs, hrole, hoffered⟩ := h.scheduled
  obtain ⟨-, hrole', hme, hpeer, -⟩ := fields_of_fixedPart (fixedPart_run s ops)
  have hown : (s.run ops).own secret = s.own secret := by
    funext k
    cases k with
    | longTerm => exact congrArg LocalIdentity.secret hme
    | ephemeral => rfl
  have hother (taken : List Bytes) : (s.run ops).other taken = s.other taken := by
    funext k
    cases k with
    | longTerm => exact congrArg (fun p : Contact => some p.key.val) hpeer
    | ephemeral => rfl
  have htaken : (s.run ops).peerEphemeral.toList = offered.toList ++ s.taken ops := by
    rw [← hs.phased.taken ops, hoffered]
  rw [dh, hrole', hrole, hown, hother, htaken]

/-- A ratchet of a session is as many turns from its sender's first chain key as its counter is from
the initial one, whatever has been done with the session. The first chain key follows from shared
secrets that each party computes with its own secrets, in an order that does not depend on it, and
an initiator with the one ephemeral key that it has taken. As far as key agreement commutes, they
are the shared secrets of both parties' secrets. -/
theorem ratchet_closed_form (h : Begun role secret offered s) (ops : List Operation)
    {c : Channel} {r : Ratchet} (hr : (s.run ops).ratchet c = .ok r) :
    ∃ m n, let k := chainKeyAt c.generation (s.sender c.direction) m n
      keyMaterial c.generation
          (partyDh role (s.own secret) (s.other (offered.toList ++ s.taken ops))) = some m ∧
        (r.counter : Int) = s.config.initialCounter + n ∧
        r.chainKey = some k ∧
        (s.run ops).encryptionKey c =
          .ok (KeyDerivation.derive32 k.val (Bytes.ascii "kdf-aek")) ∧
        ∀ secrets : Role → KeyPair → Key, secrets role = s.own secret →
          (∀ k b, s.other (offered.toList ++ s.taken ops) k = some b →
            b = (Curve25519.publicKey (secrets role.other k)).val) →
          (∀ i r, Commutes (secrets .initiator i) (secrets .responder r)) →
          keyMaterial c.generation (commonDh secrets) = some m := by
  obtain ⟨hs, -, -⟩ := h.scheduled
  have hbegins : 0 ≤ s.config.initialCounter := hs.begins
  obtain ⟨m, n, hm, rfl⟩ := (hs.run ops).ratchets c r (ratchet_eq_ok.mp hr)
  have hmaterial := keyMaterial_of_material hm
  rw [h.dh_run ops] at hmaterial
  rw [firstRatchet_run, firstRatchet] at hr ⊢
  refine ⟨m, n, hmaterial, ?_, ?_, ?_, ?_⟩
  · rw [Ratchet.counter_advance_fresh]
    omega
  · rw [chainKeyAt_eq]
    rfl
  · rw [chainKeyAt_eq]
    exact encryptionKey_of_ratchet hr (Ratchet.encryptionKey_advance_fresh ..)
  · intro secrets hown hother hdh
    exact keyMaterial_mono (fun i r z => commonDh_of_partyDh hown hother hdh) hmaterial

def sampleSecrets : Role → KeyPair → Key
  | .initiator, .longTerm => sampleInitiator.secret
  | .initiator, .ephemeral => sampleEphemeral
  | .responder, .longTerm => sampleResponder.secret
  | .responder, .ephemeral => sampleResponderEphemeral

def sampleHandshake : List Operation :=
  [.turn ⟨.outgoing, .twoDh⟩,
    .accept (.fixed (Curve25519.publicKey sampleResponderEphemeral).val)
      (.fixed sampleResponder.publicKey.val),
    .turn ⟨.outgoing, .fourDh⟩]

theorem ratchet_closed_form_sample :
    ∃ s r m, (initiate sampleInitiator sampleResponder.contact {} .silent sampleEphemeral
        sampleId).answer = .ok s ∧
      (s.run sampleHandshake).ratchet ⟨.outgoing, .fourDh⟩ = .ok r ∧
      keyMaterial .fourDh (commonDh sampleSecrets) = some m ∧
      r.chainKey = some (chainKeyAt .fourDh sampleInitiator.identity m 1) := by
  have hrun : (do
      let s ← (initiate sampleInitiator sampleResponder.contact {} .silent sampleEphemeral
        sampleId).answer
      let r ← (s.run sampleHandshake).ratchet ⟨.outgoing, .fourDh⟩
      return (r.counter, s.taken sampleHandshake)) =
        .ok (2, [(Curve25519.publicKey sampleResponderEphemeral).val]) := by decide +kernel
  obtain ⟨s, hs, hrun⟩ := bind_eq_ok hrun
  obtain ⟨r, hr, hrun⟩ := bind_eq_ok hrun
  obtain ⟨hcounter, htaken⟩ := Prod.mk.inj (Except.ok.inj hrun)
  obtain ⟨hme, hconfig⟩ := initiate_given hs
  have hpeer : s.peer = sampleResponder.contact := by
    obtain ⟨-, -, _, _, -, -, rfl⟩ := initiate_eq_ok hs
    rfl
  obtain ⟨m, n, -, hn, hkey, -, hcommon⟩ := ratchet_closed_form (.initiated hs) _ hr
  obtain rfl : n = 1 := by
    have hbegins : s.config.initialCounter = 1 := by rw [hconfig]
    omega
  have hmaterial : keyMaterial .fourDh (commonDh sampleSecrets) = some m := by
    refine hcommon sampleSecrets ?_ ?_ ?_
    · funext k
      cases k with
      | longTerm => exact congrArg LocalIdentity.secret hme.symm
      | ephemeral => rfl
    · intro k b hb
      rw [htaken] at hb
      cases k with
      | longTerm =>
        rw [other, hpeer] at hb
        exact (Option.some.inj hb).symm
      | ephemeral => exact (Option.some.inj hb).symm
    · intro i j
      cases i <;> cases j <;> decide +kernel
  have hsender : s.sender .outgoing = sampleInitiator.identity :=
    congrArg LocalIdentity.identity hme
  exact ⟨s, r, m, hs, hr, hmaterial, hsender ▸ hkey⟩

end Session

end RatchetSession
