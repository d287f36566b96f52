import RatchetSession.Proofs.Step

/-!
# What the two sides of a handshake start with

A session that `initiate` or `respond` gives out is `initiatorStart` or `responderStart` of its
arguments and of the shared secrets that went into it.
-/

set_option autoImplicit false
set_option relaxedAutoImplicit false

namespace RatchetSession

theorem agree_eq_ok {l : LocalIdentity} {key : Offered} {z : Key} (h : l.agree key = .ok z) :
    agreeEphemeral l.secret.val key = .ok z := h

theorem agreeEphemeral_eq_ok {secret : Bytes} {key : Offered} {z : Key}
    (h : agreeEphemeral secret key = .ok z) :
    ∃ b, key.octets? = some b ∧ agreeEphemeral secret (.fixed b) = .ok z := by
  cases hb : key.octets? with
  | none =>
    have hkey : KeyAgreement.publicKey key = .error .publicKeySize := by
      rw [KeyAgreement.publicKey, hb]
      rfl
    simp only [agreeEphemeral, KeyAgreement.exchange, hkey] at h
    cases h
  | some b =>
    have hsame : KeyAgreement.publicKey key = KeyAgreement.publicKey (.fixed b) := by
      rw [KeyAgreement.publicKey, hb]
      rfl
    refine ⟨b, rfl, ?_⟩
    simpa only [agreeEphemeral, KeyAgreement.exchange, hsame] using h

namespace Session

variable {me : LocalIdentity} {peer : Contact} {config : Config} {listener : Listener}

private theorem checkPeer_eq_ok {u : Unit} (h : checkPeer me peer = .ok u) :
    me.identity ≠ peer.identity := by
  unfold checkPeer at h
  split at h
  · cases h
  · assumption

theorem startRatchets_eq_ok {g : Generation} {material : Bytes} {pair : Ratchet × Ratchet}
    (h : startRatchets me peer config g material = .ok pair) :
    (0 ≤ config.initialCounter ∧ config.initialCounter ≤ maxCounter) ∧
      pair = (.fresh (firstChainKey g me.identity material) config,
        .fresh (firstChainKey g peer.identity material) config) := by
  obtain ⟨mine, hmine, h⟩ := bind_eq_ok h
  obtain ⟨theirs, htheirs, h⟩ := bind_eq_ok h
  obtain ⟨hcounter, rfl⟩ := Ratchet.start_eq_ok (mapError_eq_ok hmine)
  obtain ⟨-, rfl⟩ := Ratchet.start_eq_ok (mapError_eq_ok htheirs)
  exact ⟨hcounter, (Except.ok.inj h).symm⟩

def initiatorStart (me : LocalIdentity) (peer : Contact) (config : Config) (listener : Listener)
    (secret : Key) (id : SessionId) (two : Bytes) : Session where
  id := id
  role := .initiator
  me := me
  peer := peer
  config := config
  listener := listener
  ephemeralPublic := .fixed (Curve25519.publicKey secret).val
  ephemeralSecret := some secret.val
  slots := {
    twoOutgoing := .live (.fresh (firstChainKey .twoDh me.identity two) config)
    twoIncoming := .live (.fresh (firstChainKey .twoDh peer.identity two) config) }

def responderStart (me : LocalIdentity) (peer : Contact) (config : Config) (listener : Listener)
    (secret : Key) (id : SessionId) (ephemeral : Bytes) (two four : Bytes) : Session where
  id := id
  role := .responder
  me := me
  peer := peer
  config := config
  listener := listener
  ephemeralPublic := .fixed (Curve25519.publicKey secret).val
  ephemeralSecret := none
  peerEphemeral := some ephemeral
  slots := {
    twoIncoming := .live (.fresh (firstChainKey .twoDh peer.identity two) config)
    fourOutgoing := .live (.fresh (firstChainKey .fourDh me.identity four) config)
    fourIncoming := .live (.fresh (firstChainKey .fourDh peer.identity four) config) }

private theorem answer_of_tell {σ α : Type} {l : Listener} {call : HookCall} {o : Outcome σ α}
    {a : α} (h : (Outcome.tell l call o).answer = .ok a) : o.answer = .ok a := by
  unfold Outcome.tell at h
  by_cases hrefused : (l.tell call.event).refused
  · simp only [if_pos hrefused] at h
    cases h
  · simpa only [if_neg hrefused] using h

theorem initiate_eq_ok {secret : Key} {id : SessionId} {s : Session}
    (h : (initiate me peer config listener secret id).answer = .ok s) :
    me.identity ≠ peer.identity ∧
      (0 ≤ config.initialCounter ∧ config.initialCounter ≤ maxCounter) ∧
      ∃ staticStatic initiatorEphemeral,
        agreeEphemeral me.secret.val (.fixed peer.key.val) = .ok staticStatic ∧
        agreeEphemeral secret.val (.fixed peer.key.val) = .ok initiatorEphemeral ∧
        s = initiatorStart me peer config listener secret id
          (twoDhMaterial staticStatic initiatorEphemeral) := by
  unfold initiate at h
  split at h
  · cases h
  · rename_i hpeer
    split at h
    · cases h
    · rename_i staticStatic hstatic
      split at h
      · cases h
      · rename_i t hopened
        obtain rfl : t = s := Except.ok.inj (answer_of_tell h)
        obtain ⟨initiatorEphemeral, heph, hopened⟩ := bind_eq_ok hopened
        obtain ⟨two, htwo, hopened⟩ := bind_eq_ok hopened
        obtain ⟨hcounter, rfl⟩ := startRatchets_eq_ok htwo
        exact ⟨checkPeer_eq_ok hpeer, hcounter, staticStatic, initiatorEphemeral, hstatic, heph,
          (Except.ok.inj hopened).symm⟩

theorem respond_eq_ok {sessionId ephemeral : Offered} {secret : Key} {s : Session}
    (h : (respond me peer config listener sessionId ephemeral secret).answer = .ok s) :
    me.identity ≠ peer.identity ∧
      (0 ≤ config.initialCounter ∧ config.initialCounter ≤ maxCounter) ∧
      ∃ id e staticStatic initiatorEphemeral responderEphemeral ephemerals,
        SessionId.ofOffer sessionId = .ok id ∧ ephemeral.octets? = some e ∧
        agreeEphemeral me.secret.val (.fixed peer.key.val) = .ok staticStatic ∧
        agreeEphemeral me.secret.val (.fixed e) = .ok initiatorEphemeral ∧
        agreeEphemeral secret.val (.fixed peer.key.val) = .ok responderEphemeral ∧
        agreeEphemeral secret.val (.fixed e) = .ok ephemerals ∧
        s = responderStart me peer config listener secret id e
          (twoDhMaterial staticStatic initiatorEphemeral)
          (fourDhMaterial staticStatic initiatorEphemeral responderEphemeral ephemerals) := by
  unfold respond at h
  split at h
  · cases h
  · rename_i hpeer
    split at h
    · cases h
    · rename_i id hid
      split at h
      · cases h
      · rename_i staticStatic initiatorEphemeral hstatics
        split at h
        · cases h
        · rename_i t hanswered
          obtain rfl : t = s := Except.ok.inj (answer_of_tell h)
          obtain ⟨_, hstatic, hstatics⟩ := bind_eq_ok hstatics
          obtain ⟨_, hinit, hstatics⟩ := bind_eq_ok hstatics
          obtain ⟨rfl, rfl⟩ := Prod.mk.inj (Except.ok.inj hstatics)
          obtain ⟨responderEphemeral, hresp, hanswered⟩ := bind_eq_ok hanswered
          obtain ⟨ephemerals, heph, hanswered⟩ := bind_eq_ok hanswered
          obtain ⟨two, htwo, hanswered⟩ := bind_eq_ok hanswered
          obtain ⟨four, hfour, hanswered⟩ := bind_eq_ok hanswered
          obtain ⟨hcounter, rfl⟩ := startRatchets_eq_ok htwo
          obtain ⟨-, rfl⟩ := startRatchets_eq_ok hfour
          obtain ⟨e, he, hinit⟩ := agreeEphemeral_eq_ok (agree_eq_ok hinit)
          obtain ⟨e', he', heph⟩ := agreeEphemeral_eq_ok heph
          obtain rfl : e = e' := Option.some.inj (he.symm.trans he')
          obtain rfl := Except.ok.inj hanswered
          refine ⟨checkPeer_eq_ok hpeer, hcounter, id, e, _, _, responderEphemeral, ephemerals,
            hid, he, hstatic, hinit, hresp, heph, ?_⟩
          rw [he]
          rfl

theorem initiate_given {secret : Key} {id : SessionId} {s : Session}
    (h : (initiate me peer config listener secret id).answer = .ok s) :
    s.me = me ∧ s.config = config := by
  obtain ⟨-, -, _, _, -, -, rfl⟩ := initiate_eq_ok h
  exact ⟨rfl, rfl⟩

theorem respond_given {sessionId ephemeral : Offered} {secret : Key} {s : Session}
    (h : (respond me peer config listener sessionId ephemeral secret).answer = .ok s) :
    s.me = me ∧ s.config = config ∧
      s.ephemeralPublic = .fixed (Curve25519.publicKey secret).val := by
  obtain ⟨-, -, _, _, _, _, _, _, -, -, -, -, -, -, rfl⟩ := respond_eq_ok h
  exact ⟨rfl, rfl, rfl⟩

theorem initiatorMaterial_eq_ok {s : Session} {secret : Bytes} {ephemeral : Offered} {m : Bytes}
    (h : initiatorMaterial s secret ephemeral = .ok m) :
    ∃ e staticStatic initiatorEphemeral responderEphemeral ephemerals,
      ephemeral.octets? = some e ∧
      agreeEphemeral s.me.secret.val (.fixed s.peer.key.val) = .ok staticStatic ∧
      agreeEphemeral secret (.fixed s.peer.key.val) = .ok initiatorEphemeral ∧
      agreeEphemeral s.me.secret.val (.fixed e) = .ok responderEphemeral ∧
      agreeEphemeral secret (.fixed e) = .ok ephemerals ∧
      m = fourDhMaterial staticStatic initiatorEphemeral responderEphemeral ephemerals := by
  obtain ⟨staticStatic, hstatic, h⟩ := bind_eq_ok h
  obtain ⟨responderEphemeral, hresp, h⟩ := bind_eq_ok h
  obtain ⟨initiatorEphemeral, hinit, h⟩ := bind_eq_ok h
  obtain ⟨ephemerals, heph, h⟩ := bind_eq_ok h
  obtain ⟨e, he, hresp⟩ := agreeEphemeral_eq_ok (agree_eq_ok hresp)
  obtain ⟨e', he', heph⟩ := agreeEphemeral_eq_ok heph
  obtain rfl : e = e' := Option.some.inj (he.symm.trans he')
  exact ⟨e, staticStatic, initiatorEphemeral, responderEphemeral, ephemerals, he, hstatic, hinit,
    hresp, heph, (Except.ok.inj h).symm⟩

end Session

end RatchetSession
