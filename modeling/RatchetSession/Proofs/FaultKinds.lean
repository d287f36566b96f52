import RatchetSession.Proofs.CatchUp
import RatchetSession.Proofs.HashInputs
import RatchetSession.Proofs.Replies
import RatchetSession.Proofs.Upkeep

/-!
# How operations fail

With a valid configuration and a listener that refuses nothing, a factory fails for equal
identities, for an identifier of another size or for a peer key, and every operation of a session
that it gives out fails in one of a few kinds of its own, but for a refusal to catch up whose text
would hold a number of too many digits. No limit of the parts below is ever met: `failures_closed`.
-/

set_option autoImplicit false
set_option relaxedAutoImplicit false

namespace RatchetSession

/-- The failure is put down to a public key of the other party. -/
def Fault.IsPeerKey (f : Fault) : Prop := f.kind = .invalidPeerKey

theorem agreeEphemeral_failsOnly (secret : Key) (key : Offered) :
    FailsOnly Fault.IsPeerKey (agreeEphemeral secret.val key) := by
  refine FailsOnly.mapError fun e he => ?_
  unfold KeyAgreement.exchange at he
  cases hkey : KeyAgreement.publicKey key with
  | error r =>
    have hr : r = .publicKeySize := by
      unfold KeyAgreement.publicKey at hkey
      split at hkey
      · cases hkey
      · exact (Except.error.inj hkey).symm
    rw [hkey] at he
    obtain rfl := Except.error.inj he
    rw [hr]
    rfl
  | ok k =>
    simp only [hkey, Sized.ofBytes?_val] at he
    cases hagree : Curve25519.agree? secret k with
    | none =>
      rw [hagree] at he
      obtain rfl := Except.error.inj he
      rfl
    | some z =>
      rw [hagree] at he
      cases he

theorem agree_failsOnly (l : LocalIdentity) (key : Offered) :
    FailsOnly Fault.IsPeerKey (l.agree key) :=
  agreeEphemeral_failsOnly l.secret key

private theorem Identity.ofText_text (i : Identity) : Identity.ofText (some i.text) = .ok i := by
  have hchar (o : UInt8) (ho : o ∈ i.octets) : (Char.ofNat o.toNat).toNat = o.toNat := by
    have hlt : o.toNat < 128 := UInt8.lt_iff_toNat_lt.mp (i.ascii o ho)
    have hvalid : o.toNat.isValidChar := Or.inl (by omega)
    rw [Char.ofNat, dif_pos hvalid]
    rfl
  have hlist : i.text.toList = i.octets.map fun o => Char.ofNat o.toNat := by
    rw [Identity.text, String.toList_ofList]
  have hascii : Bytes.ascii i.text = i.octets := by
    rw [Bytes.ascii, hlist, List.map_map]
    refine (List.map_congr_left fun o ho => ?_).trans (List.map_id i.octets)
    show (Char.ofNat o.toNat).toNat.toUInt8 = o
    rw [hchar o ho, Nat.toUInt8_eq, UInt8.ofNat_toNat]
  have hne : i.text.toList ≠ [] := by
    rw [hlist]
    simpa using i.ne_nil
  have hall : i.text.toList.all (fun c => c.toNat < 128) = true := by
    rw [hlist, List.all_map, List.all_eq_true]
    intro o ho
    show decide ((Char.ofNat o.toNat).toNat < 128) = true
    rw [hchar o ho]
    exact decide_eq_true (UInt8.lt_iff_toNat_lt.mp (i.ascii o ho))
  unfold Identity.ofText
  simp only
  rw [dif_neg hne, dif_pos hall]
  exact congrArg _ (Identity.ext hascii)

namespace Ratchet

def Fault.IsExhausted (f : Ratchet.Fault) : Prop := f.kind = .ratchetExhausted

private theorem liveKey_error {r : Ratchet} {f : Fault} (h : r.liveKey = .error f) :
    f.IsExhausted := by
  unfold liveKey at h
  split at h
  · cases h
  · obtain rfl := Except.error.inj h
    rfl

private theorem encryptionKey_error {r : Ratchet} {f : Fault} (h : r.encryptionKey = .error f) :
    f.IsExhausted := by
  cases hlive : r.liveKey with
  | error g =>
    simp only [encryptionKey, hlive, Except.map] at h
    obtain rfl := Except.error.inj h
    exact liveKey_error hlive
  | ok k =>
    simp only [encryptionKey, hlive, Except.map] at h
    cases h

private theorem turn_error {r : Ratchet} {f : Fault} (h : r.turn = .error f) : f.IsExhausted := by
  unfold turn at h
  split at h
  · rename_i g hlive
    obtain rfl := Except.error.inj h
    exact liveKey_error hlive
  · split at h
    · obtain rfl := Except.error.inj h
      rfl
    · cases h

def catchUpKinds : List FaultKind := [.ratchetExhausted, .ratchetRegression, .ratchetSkipTooLarge]

private theorem Refuses.kind_mem {r : Ratchet} {target : Int} {k : FaultKind} {f : Fault}
    (h : r.Refuses target k f) : k ∈ catchUpKinds := by
  cases h <;> decide

private theorem Refuses.overlong {r : Ratchet} {target : Int} {k : FaultKind} {f : Fault}
    (h : r.Refuses target k f) (hskip : 0 ≤ r.maxSkip) (hlong : ¬ f.Writable) :
    Fault.leastOverlong ≤ target.natAbs := by
  by_contra hshort
  apply hlong
  intro n hn
  cases h with
  | discarded spent => cases hn
  | regression keyed behind =>
    obtain rfl := List.mem_singleton.mp hn
    omega
  | skipTooLarge keyed ahead far =>
    rcases List.mem_cons.mp hn with rfl | hlast
    · omega
    · obtain rfl := List.mem_singleton.mp hlast
      omega
  | targetOutOfRange keyed ahead near beyond =>
    obtain rfl := List.mem_singleton.mp hn
    omega

end Ratchet

namespace Session

variable {me : LocalIdentity} {peer : Contact} {config : Config} {listener : Listener}
  {s t : Session} {op : Operation} {f : Fault}

def acceptKinds : List FaultKind := [.alreadyEstablished, .identityMismatch, .invalidPeerKey]

def Operation.faultKinds : Operation → List FaultKind
  | .accept _ _ => acceptKinds
  | .discardTwoDh => [.illegalSessionState]
  | .take _ | .encryptionKey _ | .associatedData _ | .turn _ => [.ratchetExhausted]
  | .turnUntil _ _ => Ratchet.catchUpKinds

/-- The operation is to catch up, and is refused for a reason that cannot be written out. -/
def Overlong (s : Session) (op : Operation) : Prop :=
  ∃ c target r k f, op = .turnUntil c target ∧ s.ratchet c = .ok r ∧ r.Refuses target k f ∧
    ¬ f.Writable

theorem startRatchets_of_begins
    (h : 0 ≤ config.initialCounter ∧ config.initialCounter ≤ maxCounter) (g : Generation)
    (material : Bytes) :
    startRatchets me peer config g material =
      .ok (.fresh (firstChainKey g me.identity material) config,
        .fresh (firstChainKey g peer.identity material) config) := by
  have hstart (k : Key) :
      Ratchet.start k config.initialCounter config.maxSkip = .ok (.fresh k config) := by
    rw [Ratchet.start, if_pos h]
    rfl
  simp only [startRatchets, hstart]
  rfl

private theorem opened_failsOnly
    (h : 0 ≤ config.initialCounter ∧ config.initialCounter ≤ maxCounter)
    (staticStatic secret : Key) (id : SessionId) :
    FailsOnly Fault.IsPeerKey (opened me peer config listener staticStatic secret id) := by
  refine (agreeEphemeral_failsOnly secret _).bind fun initiatorEphemeral _ => ?_
  rw [startRatchets_of_begins h]
  exact .ok _

private theorem answered_failsOnly
    (h : 0 ≤ config.initialCounter ∧ config.initialCounter ≤ maxCounter) (id : SessionId)
    (ephemeral : Offered) (staticStatic initiatorEphemeral secret : Key) :
    FailsOnly Fault.IsPeerKey
      (answered me peer config listener id ephemeral staticStatic initiatorEphemeral secret) := by
  refine (agreeEphemeral_failsOnly secret _).bind fun responderEphemeral _ => ?_
  refine (agreeEphemeral_failsOnly secret _).bind fun ephemerals _ => ?_
  rw [startRatchets_of_begins h, startRatchets_of_begins h]
  exact .ok _

/-- The parties have one identity, and are not to hold a session. -/
def SameParty (me : LocalIdentity) (peer : Contact) (f : Fault) : Prop :=
  f = .sameIdentity ∧ me.identity = peer.identity

/-- What is offered as an identifier has another size. -/
def WrongSize (sessionId : Offered) (f : Fault) : Prop :=
  f = .sessionIdSize ∧ ∀ b, sessionId.octets? = some b → b.length ≠ 16

private theorem checkPeer_failsOnly : FailsOnly (SameParty me peer) (checkPeer me peer) := by
  unfold checkPeer
  split
  · rename_i hsame
    exact .error ⟨rfl, hsame⟩
  · exact .ok _

theorem ofOffer_failsOnly (sessionId : Offered) :
    FailsOnly (WrongSize sessionId) (SessionId.ofOffer sessionId) := by
  have hoctets (b : Bytes) (hb : sessionId.octets? = some b) :
      FailsOnly (WrongSize sessionId) (SessionId.ofOctets (some b)) := by
    unfold SessionId.ofOctets
    split
    · exact .ok _
    · rename_i hnone
      refine .error ⟨rfl, fun b' hb' => ?_⟩
      obtain rfl : b = b' := Option.some.inj (hb.symm.trans hb')
      exact Sized.ofBytes?_eq_none_iff.mp (Option.map_eq_none_iff.mp hnone)
  cases sessionId with
  | identifier id => exact .ok _
  | fixed b => exact hoctets b rfl
  | buffer b => exact hoctets b rfl
  | text s => exact .error ⟨rfl, nofun⟩
  | absent => exact .error ⟨rfl, nofun⟩

private theorem initiate_failsOnly
    (h : 0 ≤ config.initialCounter ∧ config.initialCounter ≤ maxCounter)
    (quiet : listener.Quiet) (secret : Key) (id : SessionId) :
    FailsOnly (fun f => SameParty me peer f ∨ f.IsPeerKey)
      (initiate me peer config listener secret id).answer := by
  unfold initiate
  cases hpeer : checkPeer me peer with
  | error f => exact .error (.inl (checkPeer_failsOnly f hpeer))
  | ok u =>
    cases hstatic : me.agree (.fixed peer.key.val) with
    | error f => exact .error (.inr (agree_failsOnly me _ f hstatic))
    | ok staticStatic =>
      simp only
      cases hopened : opened me peer config listener staticStatic secret id with
      | error f => exact .error (.inr (opened_failsOnly h _ _ _ f hopened))
      | ok s =>
        simp only [Outcome.answer_tell quiet]
        exact .ok _

private theorem respond_failsOnly
    (h : 0 ≤ config.initialCounter ∧ config.initialCounter ≤ maxCounter)
    (quiet : listener.Quiet) (sessionId ephemeral : Offered) (secret : Key) :
    FailsOnly (fun f => SameParty me peer f ∨ WrongSize sessionId f ∨ f.IsPeerKey)
      (respond me peer config listener sessionId ephemeral secret).answer := by
  unfold respond
  cases hpeer : checkPeer me peer with
  | error f => exact .error (.inl (checkPeer_failsOnly f hpeer))
  | ok u =>
    cases hid : SessionId.ofOffer sessionId with
    | error f => exact .error (.inr (.inl (ofOffer_failsOnly sessionId f hid)))
    | ok id =>
      simp only
      cases hstatics : responderStatics me peer ephemeral with
      | error f =>
        have hkeys : FailsOnly Fault.IsPeerKey (responderStatics me peer ephemeral) :=
          (agree_failsOnly me _).bind fun _ _ => (agree_failsOnly me _).bind fun _ _ => .ok _
        exact .error (.inr (.inr (hkeys f hstatics)))
      | ok statics =>
        simp only
        cases hanswered : answered me peer config listener id ephemeral statics.1 statics.2
            secret with
        | error f => exact .error (.inr (.inr (answered_failsOnly h _ _ _ _ _ f hanswered)))
        | ok s =>
          simp only [Outcome.answer_tell quiet]
          exact .ok _

private theorem ratchet_failsOnly (s : Session) (c : Channel) :
    FailsOnly (fun f => f.kind = .ratchetExhausted) (s.ratchet c) := by
  unfold ratchet
  split
  · exact .ok _
  · exact .error rfl

private theorem pendingSecret_failsOnly (s : Session) :
    FailsOnly (fun f => f.kind = .alreadyEstablished) s.pendingSecret := by
  unfold pendingSecret
  split
  · exact .ok _
  · exact .error rfl

private theorem checkLongTerm_failsOnly (s : Session) (longTerm : Offered) :
    FailsOnly (fun f => f.kind = .identityMismatch) (s.checkLongTerm longTerm) := by
  unfold checkLongTerm
  split
  · exact .ok _
  · exact .error rfl

private theorem initiatorMaterial_failsOnly (s : Session) (secret : Key) (ephemeral : Offered) :
    FailsOnly Fault.IsPeerKey (initiatorMaterial s secret.val ephemeral) := by
  refine (agree_failsOnly s.me _).bind fun staticStatic _ => ?_
  refine (agree_failsOnly s.me _).bind fun responderEphemeral _ => ?_
  refine (agreeEphemeral_failsOnly secret _).bind fun initiatorEphemeral _ => ?_
  exact (agreeEphemeral_failsOnly secret _).bind fun ephemerals _ => .ok _

private theorem WellPhased.secret_isKey (hs : s.WellPhased) {secret : Bytes}
    (h : s.pendingSecret = .ok secret) : ∃ k : Key, secret = k.val := by
  obtain ⟨k, hk, -⟩ := (hs.waiting_of_phase (phase_of_pendingSecret h)).secret
  rw [pendingSecret_eq_ok h] at hk
  exact ⟨k, Option.some.inj hk⟩

private theorem Counted.accepted_failsOnly (hs : s.Counted) (ephemeral longTerm : Offered) :
    FailsOnly (fun f => f.kind ∈ acceptKinds) (s.accepted ephemeral longTerm) := by
  have hkind {k : FaultKind} (hk : k ∈ acceptKinds) (f : Fault) (hf : f.kind = k) :
      f.kind ∈ acceptKinds := hf ▸ hk
  refine ((pendingSecret_failsOnly s).mono (hkind (by decide))).bind fun secret hsecret => ?_
  refine ((checkLongTerm_failsOnly s longTerm).mono (hkind (by decide))).bind fun _ _ => ?_
  -- The secret has the size of a key, so what is left to complain of is the offered key.
  obtain ⟨k, rfl⟩ := hs.phased.secret_isKey hsecret
  refine ((initiatorMaterial_failsOnly s k ephemeral).mono (hkind (by decide))).bind fun m _ => ?_
  rw [startRatchets_of_begins hs.begins]
  exact .ok _

private theorem Counted.reply_failsOnly (hs : s.Counted) (op : Operation)
    (hshort : ¬ s.Overlong op) :
    FailsOnly (fun f => f.kind ∈ op.faultKinds) (s.reply op) := by
  have hexhausted {c : Channel} {kinds : List FaultKind} (hk : .ratchetExhausted ∈ kinds) :
      FailsOnly (fun f => f.kind ∈ kinds) (s.ratchet c) :=
    (ratchet_failsOnly s c).mono fun f hf => by
      rw [hf]
      exact hk
  have hlone {g : Ratchet.Fault} (hg : g.IsExhausted) :
      (Fault.ratchet g).kind ∈ [FaultKind.ratchetExhausted] :=
    List.mem_singleton.mpr hg
  cases op with
  | accept ephemeral longTerm => exact (hs.accepted_failsOnly ephemeral longTerm).map _
  | discardTwoDh =>
    refine FailsOnly.map ?_ _
    unfold checkFourDh
    split
    · exact .error (List.mem_singleton.mpr rfl)
    · exact .ok _
  | take c => exact (hexhausted (List.mem_singleton.mpr rfl)).map _
  | encryptionKey c =>
    refine FailsOnly.map ?_ _
    refine (hexhausted (List.mem_singleton.mpr rfl)).bind fun r _ => ?_
    exact FailsOnly.mapError fun g hg => hlone (Ratchet.encryptionKey_error hg)
  | associatedData c =>
    refine FailsOnly.map ?_ _
    exact (hexhausted (List.mem_singleton.mpr rfl)).bind fun r _ => .ok _
  | turn c =>
    refine (hexhausted (List.mem_singleton.mpr rfl)).bind fun r _ => ?_
    exact (FailsOnly.mapError fun g hg => hlone (Ratchet.turn_error hg)).map _
  | turnUntil c target =>
    have hmem : .ratchetExhausted ∈ Ratchet.catchUpKinds := by decide
    refine (hexhausted hmem).bind fun r hr => FailsOnly.map (FailsOnly.mapError ?_) _
    intro f hf
    obtain ⟨k, g, hg, hkind, rfl⟩ := Ratchet.refuses_of_error hf
    have hwritable : g.Writable :=
      Classical.not_not.mp fun hlong => hshort ⟨c, target, r, k, g, rfl, hr, hg, hlong⟩
    rw [Ratchet.Fault.reported_of_writable hwritable]
    show g.kind ∈ Ratchet.catchUpKinds
    rw [hkind]
    exact hg.kind_mem

private theorem reply_of_overlong (h : s.Overlong op) :
    s.reply op = .error (.ratchet .unwritable) := by
  obtain ⟨c, target, r, k, f, rfl, hr, hrefuses, hlong⟩ := h
  have hreported := (Ratchet.turnUntil_of_refuses hrefuses).1
  rw [Ratchet.Fault.reported_of_not_writable hlong] at hreported
  rw [reply, hr]
  show Except.map Answer.turns ((r.turnUntil target).2.mapError Fault.ratchet) = _
  rw [hreported]
  rfl

/-- The ratchets in use may skip as much as the configuration says. -/
def Bounded (s : Session) : Prop := ∀ c r, s.slots.get c = .live r → r.maxSkip = s.config.maxSkip

private theorem Bounded.putRatchet {c : Channel} {r r' : Ratchet} (hs : s.Bounded)
    (h : s.slots.get c = .live r) (hr : r'.maxSkip = r.maxSkip) : (s.putRatchet c r').Bounded := by
  intro d q hq
  by_cases hd : d = c
  · rw [hd, get_putRatchet_self r' h] at hq
    obtain rfl := Slot.live.inj hq
    exact hr.trans (hs c r h)
  · rw [get_putRatchet_of_ne s r' hd] at hq
    exact hs d q hq

private theorem live_of_withoutTwoDh {c : Channel} {r : Ratchet}
    (h : s.withoutTwoDh.slots.get c = .live r) : s.slots.get c = .live r := by
  obtain ⟨d, _ | _⟩ := c
  · rw [get_withoutTwoDh_twoDh] at h
    cases hslot : s.slots.get ⟨d, .twoDh⟩ <;> rw [hslot] at h <;> cases h
  · rwa [get_withoutTwoDh_fourDh] at h

private theorem Bounded.step (hs : s.Bounded) (h : Step s op t) : t.Bounded := by
  cases h with
  | idle op => exact hs
  | turned n asked live keyed room => exact hs.putRatchet live rfl
  | accepted taken =>
    obtain ⟨_, _, four, -, -, -, hfour, rfl⟩ := accepted_eq_ok taken
    obtain ⟨-, rfl⟩ := startRatchets_eq_ok hfour
    rintro ⟨d, _ | _⟩ r hr
    · rw [get_completed_twoDh] at hr
      cases hslot : s.slots.get ⟨d, .twoDh⟩ <;> rw [hslot] at hr <;> cases hr
    · cases d <;> exact (Slot.live.inj hr) ▸ rfl
  | stripped known => exact fun c r hr => hs c r (live_of_withoutTwoDh hr)

private theorem Founded.bounded {role : Role} (h : Founded role s) : s.Bounded := by
  intro c r hr
  rcases h.fresh.2 c with hempty | ⟨k, hlive⟩
  · rw [hempty] at hr
    cases hr
  · rw [hlive] at hr
    exact (Slot.live.inj hr) ▸ rfl

private theorem Counted.putRatchet {c : Channel} {r r' : Ratchet} (hs : s.Counted)
    (h : s.slots.get c = .live r)
    (hr : s.config.initialCounter ≤ r'.counter ∧ r'.counter ≤ maxCounter) :
    (s.putRatchet c r').Counted := by
  refine ⟨hs.phased.putRatchet r' h, hs.begins, fun d r₁ => ?_, fun d n hn => ?_⟩
  · by_cases hd : ⟨d, .fourDh⟩ = c
    · rw [hd, get_putRatchet_self r' h]
      nofun
    · rw [get_putRatchet_of_ne s r' hd]
      exact hs.kept d r₁
  · by_cases hd : d = c
    · rw [hd, reached_putRatchet_self r' h] at hn
      obtain rfl := Option.some.inj hn
      exact hr
    · rw [reached_putRatchet_of_ne s r' hd] at hn
      exact hs.range d n hn

/-- No part of the session is handed anything that it does not take: a counter is written in eight
octets, the secret of an agreement has 32 and both identities can be encoded. -/
structure Fits (s : Session) : Prop where
  counter : ∀ c r, s.ratchet c = .ok r →
    Bytes.value (Bytes.mostFirst 8 r.counter).reverse = r.counter
  secret : ∀ b, s.ephemeralSecret = some b → b.length = 32
  me : Identity.ofText (some s.me.identity.text) = .ok s.me.identity
  peer : Identity.ofText (some s.peer.identity.text) = .ok s.peer.identity

private theorem Counted.fits (hs : s.Counted) : s.Fits := by
  refine ⟨fun c r hr => ?_, fun b hb => ?_, Identity.ofText_text _, Identity.ofText_text _⟩
  · obtain ⟨-, hmax⟩ := hs.range c r.counter (reached_of_ratchet hr)
    rw [Bytes.mostFirst, List.reverse_reverse]
    apply Bytes.value_leastFirst
    have hroom : maxCounter < 1 <<< (8 * 8) := by decide
    omega
  · have hkey : ∃ k : Key, s.ephemeralSecret = some k.val := by
      cases hrole : s.role with
      | initiator =>
        rcases hs.phased.initiator hrole with hw | hw
        · obtain ⟨k, hk, -⟩ := hw.secret
          exact ⟨k, hk⟩
        · rw [hw.secret] at hb
          cases hb
      | responder =>
        rw [(hs.phased.responder hrole).2.secret] at hb
        cases hb
    obtain ⟨k, hk⟩ := hkey
    obtain rfl : b = k.val := Option.some.inj (hb.symm.trans hk)
    exact k.property

private theorem derivation_fits (key salt : Bytes) :
    (KeyDerivation.compressedKey key).length ≤ 64 ∧
      (KeyDerivation.compressedSalt salt).length ≤ 16 ∧
      KeyDerivation.run key salt 32 = .ok (KeyDerivation.derive32 key salt).val :=
  ⟨KeyDerivation.length_compressedKey_le key, KeyDerivation.length_compressedSalt_le salt,
    KeyDerivation.run_of_length (by decide) (by decide) key salt⟩

private theorem Counted.performOnHandle (hs : s.Counted) (hl : s.Orderly) (c : Channel)
    (op : Ratchet.Operation) : (s.performOnHandle c op).after.Counted := by
  rw [performOnHandle_after (hl.spent c)]
  cases hslot : s.slots.get c with
  | empty => exact hs
  | retired r => exact hs
  | live r =>
    have hreached : s.reached c = some r.counter := reached_of_ratchet (ratchet_eq_ok.mpr hslot)
    obtain ⟨hmin, hmax⟩ := hs.range c r.counter hreached
    refine hs.putRatchet hslot ⟨?_, Ratchet.counter_afterCalls_le hmax _⟩
    rw [Ratchet.counter_afterCalls]
    omega

private theorem Bounded.performOnHandle (hs : s.Bounded) (hl : s.Orderly) (c : Channel)
    (op : Ratchet.Operation) : (s.performOnHandle c op).after.Bounded := by
  rw [performOnHandle_after (hl.spent c)]
  cases hslot : s.slots.get c with
  | empty => exact hs
  | retired r => exact hs
  | live r => exact hs.putRatchet hslot (Ratchet.maxSkip_afterCalls r _)

private theorem config_performOnHandle (s : Session) (c : Channel) (op : Ratchet.Operation) :
    (s.performOnHandle c op).after.config = s.config := by
  unfold Session.performOnHandle
  cases (s.slots.get c).ratchet? <;> rfl

private theorem listener_performOnHandle (s : Session) (c : Channel) (op : Ratchet.Operation) :
    (s.performOnHandle c op).after.listener = s.listener := by
  unfold Session.performOnHandle
  cases (s.slots.get c).ratchet? <;> rfl

/-- What a session that a factory gave out is known to be, whatever has been done with it. -/
structure Maintained (config : Config) (listener : Listener) (s : Session) : Prop where
  orderly : s.Orderly
  counted : s.Counted
  bounded : s.Bounded
  config : s.config = config
  listener : s.listener = listener

theorem Founded.maintained {role : Role} (h : Founded role s) :
    s.Maintained s.config s.listener :=
  ⟨h.orderly, h.counted, h.bounded, rfl, rfl⟩

theorem Maintained.holding_run {x : Holding} (h : x.session.Maintained config listener)
    (deeds : List Deed) : (x.run deeds).session.Maintained config listener := by
  apply Holding.run_induction (P := Maintained config listener) ?_ ?_ h deeds
  · intro s op hs
    have hstep : Step s op (s.perform op).after := step_perform s op
    obtain ⟨-, -, -, -, hconfig, -⟩ := fields_of_fixedPart hstep.fixedPart
    exact ⟨hs.orderly.step hstep, hs.counted.step hstep, hs.bounded.step hstep,
      hconfig.trans hs.config, (listener_perform s op).trans hs.listener⟩
  · intro s c op hs
    exact ⟨hs.orderly.performOnHandle c op, hs.counted.performOnHandle hs.orderly c op,
      hs.bounded.performOnHandle hs.orderly c op, (config_performOnHandle s c op).trans hs.config,
      (listener_performOnHandle s c op).trans hs.listener⟩

private theorem Maintained.overlong (hs : s.Maintained config listener) (valid : config.Valid)
    (h : s.Overlong op) :
    ∃ c target, op = .turnUntil c target ∧ Ratchet.Fault.leastOverlong ≤ target.natAbs := by
  obtain ⟨c, target, r, k, f, rfl, hr, hrefuses, hlong⟩ := h
  refine ⟨c, target, rfl, hrefuses.overlong ?_ hlong⟩
  rw [hs.bounded c r (ratchet_eq_ok.mp hr), hs.config]
  exact valid.1

/-- Whatever is asked of a factory with a valid configuration, it fails for equal identities, for an
identifier that does not have sixteen octets or for a public key. After whatever is done with the
session that it gives out and with handles on its ratchets, an operation fails in one of its own
kinds, and no limit of the parts below can be met. Only a refusal to catch up that cannot be written
out, for which the target has too many digits, is reported in another kind. -/
theorem failures_closed (valid : config.Valid) (quiet : listener.Quiet) (secret : Key)
    (id : SessionId) (sessionId ephemeral : Offered) :
    let initiated := (initiate me peer config listener secret id).answer
    let responded := (respond me peer config listener sessionId ephemeral secret).answer
    FailsOnly (fun f => SameParty me peer f ∨ f.IsPeerKey) initiated ∧
      FailsOnly (fun f => SameParty me peer f ∨ WrongSize sessionId f ∨ f.IsPeerKey) responded ∧
      (∀ s, initiated = .ok s ∨ responded = .ok s → ∀ deeds,
        let t := ((Holding.mk s []).run deeds).session
        t.Fits ∧ ∀ op : Operation,
          (¬ t.Overlong op → FailsOnly (fun f => f.kind ∈ op.faultKinds) (t.perform op).answer) ∧
          (t.Overlong op → (t.perform op).answer = .error (.ratchet .unwritable) ∧
            ∃ c target, op = .turnUntil c target ∧
              Ratchet.Fault.leastOverlong ≤ target.natAbs)) ∧
      ∀ key salt : Bytes, (KeyDerivation.compressedKey key).length ≤ 64 ∧
        (KeyDerivation.compressedSalt salt).length ≤ 16 ∧
        KeyDerivation.run key salt 32 = .ok (KeyDerivation.derive32 key salt).val := by
  intro initiated responded
  have hbegins : 0 ≤ config.initialCounter ∧ config.initialCounter ≤ maxCounter := valid.2
  refine ⟨initiate_failsOnly hbegins quiet secret id,
    respond_failsOnly hbegins quiet sessionId ephemeral secret, fun s hs deeds => ?_,
    derivation_fits⟩
  have hstart : (Holding.mk s []).session.Maintained config listener := by
    rcases hs with hs | hs
    · have hmaintained := (Founded.initiated hs).maintained
      obtain ⟨-, -, _, _, -, -, rfl⟩ := initiate_eq_ok hs
      exact hmaintained
    · have hmaintained := (Founded.responded hs).maintained
      obtain ⟨-, -, _, _, _, _, _, _, -, -, -, -, -, -, rfl⟩ := respond_eq_ok hs
      exact hmaintained
  have hrun := hstart.holding_run deeds
  refine ⟨hrun.counted.fits, fun op => ⟨fun hshort => ?_, fun hlong => ⟨?_, ?_⟩⟩⟩
  · rw [perform_answer (by rw [hrun.listener]; exact quiet)]
    exact hrun.counted.reply_failsOnly op hshort
  · rw [perform_answer (by rw [hrun.listener]; exact quiet)]
    exact reply_of_overlong hlong
  · exact hrun.overlong valid hlong

/-- A session of the sample initiator that is to catch up with a number of many digits fails in a
kind that is none of its own. -/
theorem overlong_target_foreign :
    ∃ s, (initiate sampleInitiator sampleResponder.contact {} .silent sampleEphemeral
        sampleId).answer = .ok s ∧
      ∃ f, (s.perform (.turnUntil ⟨.outgoing, .twoDh⟩ ((10 ^ 5000 : Nat) : Int))).answer =
          .error f ∧
        f.kind ∉ [.invalidPeerKey, .identityMismatch, .alreadyEstablished, .illegalSessionState,
          .ratchetExhausted, .ratchetRegression, .ratchetSkipTooLarge] := by
  have hrun : (do
      let s ← (initiate sampleInitiator sampleResponder.contact {} .silent sampleEphemeral
        sampleId).answer
      return (s.perform (.turnUntil ⟨.outgoing, .twoDh⟩ ((10 ^ 5000 : Nat) : Int))).answer) =
        .ok (.error (.ratchet .unwritable)) := by decide +kernel
  obtain ⟨s, hs, hrun⟩ := bind_eq_ok hrun
  exact ⟨s, hs, _, Except.ok.inj hrun, by decide⟩

theorem failures_closed_sample :
    ∃ s, (initiate sampleInitiator sampleResponder.contact {} .silent sampleEphemeral
        sampleId).answer = .ok s ∧
      let t := ((Holding.mk s []).run Holding.sampleDeeds).session
      t.Fits ∧ ∃ f, (t.perform (.turnUntil ⟨.incoming, .fourDh⟩ 20000)).answer = .error f ∧
        f.kind ∈ Ratchet.catchUpKinds := by
  have hvalid : ({} : Config).Valid := ⟨by decide, by decide, by decide⟩
  have hquiet : Listener.silent.Quiet := fun _ => rfl
  have hrun : (do
      let s ← (initiate sampleInitiator sampleResponder.contact {} .silent sampleEphemeral
        sampleId).answer
      let t := ((Holding.mk s []).run Holding.sampleDeeds).session
      return (t.perform (.turnUntil ⟨.incoming, .fourDh⟩ 20000)).answer) =
        .ok (.error (.ratchet (.skipTooLarge 1 20000 10000))) := by decide +kernel
  obtain ⟨s, hs, hrun⟩ := bind_eq_ok hrun
  obtain ⟨-, -, hsession, -⟩ := @failures_closed sampleInitiator sampleResponder.contact {} .silent
    hvalid hquiet sampleEphemeral sampleId .absent .absent
  obtain ⟨hfits, hfails⟩ := hsession s (.inl hs) Holding.sampleDeeds
  have herror := Except.ok.inj hrun
  have hshort : ¬ Overlong ((Holding.mk s []).run Holding.sampleDeeds).session
      (.turnUntil ⟨.incoming, .fourDh⟩ 20000) := by
    intro hlong
    rw [((hfails _).2 hlong).1] at herror
    cases herror
  exact ⟨s, hs, hfits, _, herror, (hfails _).1 hshort _ herror⟩

end Session

end RatchetSession
