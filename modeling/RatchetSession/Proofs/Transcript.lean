import RatchetSession.Proofs.KeySeparation

/-!
# What agreement on keys says about the handshake

Ephemeral public keys enter the keys of a session through shared secrets only. So two parties whose
chain keys of four agreements are equal have computed the same shared secrets, and neither secret
tells the key that came with the handshake from the other party's own: `chainKey_eq_iff`. The octets
need not be the same. A coordinate has more than one encoding, and as every multiplier is a multiple
of eight, a point may also be moved by one of low order.
-/

set_option autoImplicit false
set_option relaxedAutoImplicit false

namespace RatchetSession

private theorem fourDhMaterial_inj {k₁ k₂ k₃ k₄ l₁ l₂ l₃ l₄ : Key}
    (h : fourDhMaterial k₁ k₂ k₃ k₄ = fourDhMaterial l₁ l₂ l₃ l₄) :
    k₁ = l₁ ∧ k₂ = l₂ ∧ k₃ = l₃ ∧ k₄ = l₄ := by
  have hlength (k l : Key) : k.val.length = l.val.length := k.property.trans l.property.symm
  obtain ⟨h, h₄⟩ := List.append_inj' h (hlength k₄ l₄)
  obtain ⟨h, h₃⟩ := List.append_inj' h (hlength k₃ l₃)
  obtain ⟨h₁, h₂⟩ := List.append_inj' h (hlength k₂ l₂)
  exact ⟨Subtype.ext h₁, Subtype.ext h₂, Subtype.ext h₃, Subtype.ext h₄⟩

/-- The ephemeral keys that came with the handshake do for the parties' own, as far as shared
secrets tell: `given` to the initiator for that of `b`, `offered` to the responder for that of
`a`. -/
structure StandIns (initiator responder : LocalIdentity) (a b : Key) (given offered : Bytes) :
    Prop where
  initiatorEphemeral : sharedSecret responder.secret offered =
    sharedSecret responder.secret (Curve25519.publicKey a).val
  responderEphemeral : sharedSecret initiator.secret given =
    sharedSecret initiator.secret (Curve25519.publicKey b).val
  ephemerals : sharedSecret a given = sharedSecret b offered

/-- Sessions of two parties with each other, with ephemeral secrets `a` and `b`. Nothing is said of
the ephemeral keys that they have been given. -/
structure Facing (a b : Key) (I R : Session) : Prop where
  initiator : I.role = .initiator
  responder : R.role = .responder
  peer : I.peer = R.me.contact
  contact : R.peer = I.me.contact
  initiated : I.Scheduled a
  responded : R.Scheduled b

namespace Facing

variable {a b : Key} {I R : Session} {given offered m m' : Bytes}

private theorem of_factories {initiator responder : LocalIdentity} {configI configR : Config}
    {listenerI listenerR : Listener} {id : SessionId} {sessionId ephemeral : Offered}
    (hI : (Session.initiate initiator responder.contact configI listenerI a id).answer = .ok I)
    (hR : (Session.respond responder initiator.contact configR listenerR sessionId ephemeral
      b).answer = .ok R) : Facing a b I R := by
  have hinitiated : I.Scheduled a := Session.scheduled_of_initiate hI
  have hresponded : R.Scheduled b := Session.scheduled_of_respond hR
  obtain ⟨-, -, _, _, -, -, rfl⟩ := Session.initiate_eq_ok hI
  obtain ⟨-, -, _, _, _, _, _, _, -, -, -, -, -, -, rfl⟩ := Session.respond_eq_ok hR
  exact ⟨rfl, rfl, rfl, rfl, hinitiated, hresponded⟩

private theorem run (h : Facing a b I R) (opsI opsR : List Session.Operation) :
    Facing a b (I.run opsI) (R.run opsR) := by
  obtain ⟨-, hroleI, hmeI, hpeerI, -⟩ := Session.fields_of_fixedPart (I.fixedPart_run opsI)
  obtain ⟨-, hroleR, hmeR, hpeerR, -⟩ := Session.fields_of_fixedPart (R.fixedPart_run opsR)
  refine ⟨hroleI.trans h.initiator, hroleR.trans h.responder, ?_, ?_, h.initiated.run opsI,
    h.responded.run opsR⟩
  · rw [hpeerI, hmeR, h.peer]
  · rw [hpeerR, hmeI, h.contact]

private theorem sender_eq (h : Facing a b I R) (d : Direction) :
    I.sender d = R.sender d.opposite := by
  cases d with
  | outgoing =>
    show I.me.identity = R.peer.identity
    rw [h.contact]
    rfl
  | incoming =>
    show I.peer.identity = R.me.identity
    rw [h.peer]
    rfl

private theorem initiator_material (h : Facing a b I R) (hdh : Commuting I.me R.me a b)
    (hgiven : I.peerEphemeral = some given) (hm : I.material a .fourDh = .ok m) :
    ∃ k₁ k₂ k₃ k₄, m = fourDhMaterial k₁ k₂ k₃ k₄ ∧
      sharedSecret I.me.secret R.me.publicKey.val = some k₁ ∧
      sharedSecret R.me.secret (Curve25519.publicKey a).val = some k₂ ∧
      sharedSecret I.me.secret given = some k₃ ∧ sharedSecret a given = some k₄ := by
  obtain ⟨k₁, k₂, k₃, k₄, h₁, h₂, h₃, h₄, rfl⟩ := Session.material_fourDh_eq_ok hm
  have hoffer : I.peerOffer = .fixed given := by rw [Session.peerOffer, hgiven]
  have h₁ : agreeEphemeral I.me.secret.val (.fixed I.peer.key.val) = .ok k₁ := h₁
  rw [Session.shared, h.initiator] at h₂
  rw [Session.shared, h.initiator] at h₃
  have h₂ : agreeEphemeral a.val (.fixed I.peer.key.val) = .ok k₂ := h₂
  have h₃ : agreeEphemeral I.me.secret.val I.peerOffer = .ok k₃ := h₃
  have h₄ : agreeEphemeral a.val I.peerOffer = .ok k₄ := h₄
  rw [h.peer] at h₁ h₂
  rw [hoffer] at h₃ h₄
  have hswap := hdh.initiatorEphemeral.agreeEphemeral_eq
  exact ⟨k₁, k₂, k₃, k₄, rfl, sharedSecret_eq_some h₁, sharedSecret_eq_some (hswap.symm.trans h₂),
    sharedSecret_eq_some h₃, sharedSecret_eq_some h₄⟩

private theorem responder_material (h : Facing a b I R) (hdh : Commuting I.me R.me a b)
    (hoffered : R.peerEphemeral = some offered) (hm : R.material b .fourDh = .ok m) :
    ∃ k₁ k₂ k₃ k₄, m = fourDhMaterial k₁ k₂ k₃ k₄ ∧
      sharedSecret I.me.secret R.me.publicKey.val = some k₁ ∧
      sharedSecret R.me.secret offered = some k₂ ∧
      sharedSecret I.me.secret (Curve25519.publicKey b).val = some k₃ ∧
      sharedSecret b offered = some k₄ := by
  obtain ⟨k₁, k₂, k₃, k₄, h₁, h₂, h₃, h₄, rfl⟩ := Session.material_fourDh_eq_ok hm
  have hoffer : R.peerOffer = .fixed offered := by rw [Session.peerOffer, hoffered]
  have h₁ : agreeEphemeral R.me.secret.val (.fixed R.peer.key.val) = .ok k₁ := h₁
  rw [Session.shared, h.responder] at h₂
  rw [Session.shared, h.responder] at h₃
  have h₂ : agreeEphemeral R.me.secret.val R.peerOffer = .ok k₂ := h₂
  have h₃ : agreeEphemeral b.val (.fixed R.peer.key.val) = .ok k₃ := h₃
  have h₄ : agreeEphemeral b.val R.peerOffer = .ok k₄ := h₄
  rw [h.contact] at h₁ h₃
  rw [hoffer] at h₂ h₄
  have hstatics := hdh.statics.agreeEphemeral_eq
  have hswap := hdh.responderEphemeral.agreeEphemeral_eq
  exact ⟨k₁, k₂, k₃, k₄, rfl, sharedSecret_eq_some (hstatics.trans h₁), sharedSecret_eq_some h₂,
    sharedSecret_eq_some (hswap.trans h₃), sharedSecret_eq_some h₄⟩

private theorem material_eq_iff (h : Facing a b I R) (hdh : Commuting I.me R.me a b)
    (hgiven : I.peerEphemeral = some given) (hoffered : R.peerEphemeral = some offered)
    (hm : I.material a .fourDh = .ok m) (hm' : R.material b .fourDh = .ok m') :
    m = m' ↔ StandIns I.me R.me a b given offered := by
  obtain ⟨k₁, k₂, k₃, k₄, rfl, h₁, h₂, h₃, h₄⟩ := h.initiator_material hdh hgiven hm
  obtain ⟨l₁, l₂, l₃, l₄, rfl, g₁, g₂, g₃, g₄⟩ := h.responder_material hdh hoffered hm'
  constructor
  · intro hsame
    obtain ⟨-, rfl, rfl, rfl⟩ := fourDhMaterial_inj hsame
    exact ⟨g₂.trans h₂.symm, h₃.trans g₃.symm, h₄.trans g₄.symm⟩
  · intro hstand
    have e₁ : k₁ = l₁ := Option.some.inj (h₁.symm.trans g₁)
    have e₂ : l₂ = k₂ := Option.some.inj (g₂.symm.trans (hstand.initiatorEphemeral.trans h₂))
    have e₃ : k₃ = l₃ := Option.some.inj (h₃.symm.trans (hstand.responderEphemeral.trans g₃))
    have e₄ : k₄ = l₄ := Option.some.inj (h₄.symm.trans (hstand.ephemerals.trans g₄))
    rw [e₁, e₂, e₃, e₄]

end Facing

namespace Session

variable {secret : Key} {role : Role} {offered : Option Bytes} {s : Session} {ops : List Operation}
  {c : Channel} {r : Ratchet}

private theorem Begun.placed (h : Begun role secret offered s)
    (hr : (s.run ops).ratchet c = .ok r) :
    ∃ i k, r.counter = s.config.initialCounter.toNat + i ∧ r.chainKey = some k ∧
      (s.run ops).Placed secret c i k := by
  have hpasses : s.Passes ops c r := by
    refine ⟨ops, [], [], r, r, 0, 0, ?_, hr, ?_, rfl, rfl⟩
    · rw [List.append_nil, List.append_nil]
    · rwa [List.append_nil]
  exact hpasses.placed h

private theorem Begun.peerEphemeral (h : Begun role secret offered s) {d : Direction}
    (hr : (s.run ops).ratchet ⟨d, .fourDh⟩ = .ok r) : ∃ e, (s.run ops).peerEphemeral = some e := by
  have hphased : (s.run ops).WellPhased := h.scheduled.1.phased.run ops
  have hhas : (s.run ops).Has ⟨d, .fourDh⟩ := has_iff.mpr ⟨r, ratchet_eq_ok.mp hr⟩
  exact Option.isSome_iff_exists.mp (hphased.peerEphemeral_isSome ((hphased.fourDh d).mp hhas))

/-- Whatever ephemeral keys have come with a handshake, and whatever the parties have done since:
if no two derivations that went into their keys collide, then chain keys of opposite directions are
equal exactly if the chains have made the same number of turns and each of the keys that came does
for the one that was sent. -/
theorem chainKey_eq_iff {initiator responder : LocalIdentity} {configI configR : Config}
    {listenerI listenerR : Listener} {a b : Key} {id : SessionId} {sessionId ephemeral : Offered}
    {I R : Session}
    (hI : (initiate initiator responder.contact configI listenerI a id).answer = .ok I)
    (hR : (respond responder initiator.contact configR listenerR sessionId ephemeral b).answer =
      .ok R)
    (hdh : Commuting initiator responder a b) (opsI opsR : List Operation)
    (hfree : CollisionFree ((I.run opsI).derivations a ++ (R.run opsR).derivations b))
    {d : Direction} {mine theirs : Ratchet}
    (hmine : (I.run opsI).ratchet ⟨d, .fourDh⟩ = .ok mine)
    (htheirs : (R.run opsR).ratchet ⟨d.opposite, .fourDh⟩ = .ok theirs) :
    ∃ given offered, (I.run opsI).peerEphemeral = some given ∧
      (R.run opsR).peerEphemeral = some offered ∧
      (I.run opsI).ephemeralPublic = .fixed (Curve25519.publicKey a).val ∧
      (R.run opsR).ephemeralPublic = .fixed (Curve25519.publicKey b).val ∧
      (mine.chainKey = theirs.chainKey ↔
        mine.counter - configI.initialCounter = theirs.counter - configR.initialCounter ∧
          StandIns initiator responder a b given offered) := by
  have hbegunI : Begun .initiator a none I := .initiated hI
  have hbegunR : Begun .responder b ephemeral.octets? R := .responded hR
  obtain ⟨given, hgiven⟩ := hbegunI.peerEphemeral hmine
  obtain ⟨offered, hoffered⟩ := hbegunR.peerEphemeral htheirs
  obtain ⟨i, k, hcounter, hkey, hplaced⟩ := hbegunI.placed hmine
  obtain ⟨j, l, hcounter', hkey', hplaced'⟩ := hbegunR.placed htheirs
  have hfacing : Facing a b (I.run opsI) (R.run opsR) := (Facing.of_factories hI hR).run opsI opsR
  obtain ⟨-, -, hmeI, -, -, hpublicI⟩ := fields_of_fixedPart (I.fixedPart_run opsI)
  obtain ⟨-, -, hmeR, -, -, hpublicR⟩ := fields_of_fixedPart (R.fixedPart_run opsR)
  obtain ⟨hmeI', hconfigI⟩ := initiate_given hI
  obtain ⟨hmeR', hconfigR, hpublicR'⟩ := respond_given hR
  have hpublicI' : I.ephemeralPublic = .fixed (Curve25519.publicKey a).val := by
    obtain ⟨-, -, _, _, -, -, rfl⟩ := initiate_eq_ok hI
    rfl
  have hbeginsI : 0 ≤ configI.initialCounter := hconfigI ▸ hbegunI.scheduled.1.begins
  have hbeginsR : 0 ≤ configR.initialCounter := hconfigR ▸ hbegunR.scheduled.1.begins
  refine ⟨given, offered, hgiven, hoffered, hpublicI.trans hpublicI', hpublicR.trans hpublicR', ?_⟩
  rw [hkey, hkey']
  have hturns : mine.counter - configI.initialCounter = theirs.counter - configR.initialCounter ↔
      i = j := by
    rw [hcounter, hcounter', hconfigI, hconfigR]
    omega
  rw [hturns]
  have hmaterial {m m' : Bytes} (hm : (I.run opsI).material a .fourDh = .ok m)
      (hm' : (R.run opsR).material b .fourDh = .ok m') :
      m = m' ↔ StandIns initiator responder a b given offered := by
    have hstand := hfacing.material_eq_iff (hmeI.trans hmeI' ▸ hmeR.trans hmeR' ▸ hdh) hgiven
      hoffered hm hm'
    rwa [hmeI, hmeI', hmeR, hmeR'] at hstand
  constructor
  · intro hsame
    obtain rfl := Option.some.inj hsame
    obtain ⟨hij, -, -, m, hm, hm'⟩ := hplaced.meet hfree hplaced'
    exact ⟨hij, (hmaterial hm hm').mp rfl⟩
  · rintro ⟨rfl, hstand⟩
    obtain ⟨_, m, -, hm, -, rfl⟩ := hplaced
    obtain ⟨_, m', -, hm', -, rfl⟩ := hplaced'
    obtain rfl : m = m' := (hmaterial hm hm').mpr hstand
    rw [hfacing.sender_eq d]

/-- The sample initiator's ephemeral key with the bit set that is not read. -/
def sampleMarked : Key :=
  Curve25519.encode (Curve25519.coordinate (Curve25519.publicKey sampleEphemeral) + (1 <<< 255))

/-- The sample responder's ephemeral key, moved by the point of order two. -/
def sampleMoved : Key :=
  Curve25519.encode (Curve25519.reciprocal
    (Curve25519.coordinate (Curve25519.publicKey sampleResponderEphemeral)))

def sampleMisled : Operation :=
  .accept (.fixed sampleMoved.val) (.fixed sampleResponder.publicKey.val)

def sampleSubstituted : Except Fault (Session × Session) := do
  let I ← (initiate sampleInitiator sampleResponder.contact {} .silent sampleEphemeral
    sampleId).answer
  let R ← (respond sampleResponder sampleInitiator.contact {} .silent (.identifier I.id)
    (.fixed sampleMarked.val) sampleResponderEphemeral).answer
  return (I, R)

def sampleMisledOps : List Operation := [sampleMisled, .turn ⟨.outgoing, .fourDh⟩]

def sampleCaughtUp : List Operation := [.turnUntil ⟨.incoming, .fourDh⟩ 2]

/-- Whether the ratchets of the message are the same for both parties, what ephemeral keys these
have been given, whether the initiator's keys are all different and the responder's among them. -/
def sampleMessage : Except Fault (Bool × Option Bytes × Option Bytes × Bool × Bool) := do
  let (I, R) ← sampleSubstituted
  let mine ← (I.run sampleMisledOps).ratchet ⟨.outgoing, .fourDh⟩
  let theirs ← (R.run sampleCaughtUp).ratchet ⟨.incoming, .fourDh⟩
  let l := (I.run sampleMisledOps).derivations sampleEphemeral
  let l' := (R.run sampleCaughtUp).derivations sampleResponderEphemeral
  return (mine = theirs, (I.run sampleMisledOps).peerEphemeral,
    (R.run sampleCaughtUp).peerEphemeral, decide (l.map Derivation.result).Nodup,
    l'.all fun x => l.contains x)

theorem chainKey_eq_iff_sample :
    ∃ I R mine, let I' := I.run sampleMisledOps; let R' := R.run sampleCaughtUp
      (initiate sampleInitiator sampleResponder.contact {} .silent sampleEphemeral
        sampleId).answer = .ok I ∧
      (respond sampleResponder sampleInitiator.contact {} .silent (.identifier I.id)
        (.fixed sampleMarked.val) sampleResponderEphemeral).answer = .ok R ∧
      CollisionFree (I'.derivations sampleEphemeral ++
        R'.derivations sampleResponderEphemeral) ∧
      I'.ratchet ⟨.outgoing, .fourDh⟩ = .ok mine ∧ R'.ratchet ⟨.incoming, .fourDh⟩ = .ok mine ∧
      StandIns sampleInitiator sampleResponder sampleEphemeral sampleResponderEphemeral
        sampleMoved.val sampleMarked.val := by
  have hmessage : sampleMessage =
      .ok (true, some sampleMoved.val, some sampleMarked.val, true, true) := by decide +kernel
  obtain ⟨⟨I, R⟩, hboth, hmessage⟩ := bind_eq_ok hmessage
  obtain ⟨I, hI, hboth⟩ := bind_eq_ok hboth
  obtain ⟨R, hR, hboth⟩ := bind_eq_ok hboth
  obtain ⟨rfl, rfl⟩ := Prod.mk.inj (Except.ok.inj hboth)
  obtain ⟨mine, hmine, hmessage⟩ := bind_eq_ok hmessage
  obtain ⟨theirs, htheirs, hmessage⟩ := bind_eq_ok hmessage
  simp only [pure, Except.pure, Except.ok.injEq, Prod.mk.injEq, decide_eq_true_eq, List.all_eq_true,
    List.contains_iff_mem] at hmessage
  obtain ⟨rfl, hgiven, hoffered, hnodup, hwithin⟩ := hmessage
  have hfree : CollisionFree ((I.run sampleMisledOps).derivations sampleEphemeral ++
      (R.run sampleCaughtUp).derivations sampleResponderEphemeral) :=
    (CollisionFree.of_nodup hnodup).mono fun x hx =>
      (List.mem_append.mp hx).elim (fun h => h) (hwithin x)
  obtain ⟨given, offered, hgiven', hoffered', -, -, hagree⟩ :=
    chainKey_eq_iff hI hR commuting_sample sampleMisledOps sampleCaughtUp hfree hmine htheirs
  obtain rfl := Option.some.inj (hgiven.symm.trans hgiven')
  obtain rfl := Option.some.inj (hoffered.symm.trans hoffered')
  exact ⟨I, R, mine, hI, hR, hfree, hmine, htheirs, (hagree.mp rfl).2⟩

/-- What comes of that handshake: how the initiator's call ends, whether both directions are at one
and whether each party has the other's key. -/
def sampleOutcome : Except Fault (Answer × Bool × Bool × Bool × Bool) := do
  let (I, R) ← sampleSubstituted
  let answer ← (I.perform sampleMisled).answer
  let mine ← (I.perform sampleMisled).after.ratchet ⟨.outgoing, .fourDh⟩
  let theirs ← R.ratchet ⟨.incoming, .fourDh⟩
  let mine' ← (I.perform sampleMisled).after.ratchet ⟨.incoming, .fourDh⟩
  let theirs' ← R.ratchet ⟨.outgoing, .fourDh⟩
  return (answer, mine = theirs, mine' = theirs',
    (I.perform sampleMisled).after.peerEphemeral = R.ephemeralPublic.octets?,
    R.peerEphemeral = (I.perform sampleMisled).after.ephemeralPublic.octets?)

/-- Both ephemeral keys are replaced on their way, and no ratchet of four agreements tells. -/
theorem substitution_unnoticed :
    ∃ I R mine mine', let I' := (I.perform sampleMisled).after
      (initiate sampleInitiator sampleResponder.contact {} .silent sampleEphemeral
        sampleId).answer = .ok I ∧
      (respond sampleResponder sampleInitiator.contact {} .silent (.identifier I.id)
        (.fixed sampleMarked.val) sampleResponderEphemeral).answer = .ok R ∧
      (I.perform sampleMisled).answer = .ok .done ∧
      I'.ratchet ⟨.outgoing, .fourDh⟩ = .ok mine ∧ R.ratchet ⟨.incoming, .fourDh⟩ = .ok mine ∧
      I'.ratchet ⟨.incoming, .fourDh⟩ = .ok mine' ∧ R.ratchet ⟨.outgoing, .fourDh⟩ = .ok mine' ∧
      I'.peerEphemeral ≠ R.ephemeralPublic.octets? ∧
      R.peerEphemeral ≠ I'.ephemeralPublic.octets? := by
  have houtcome : sampleOutcome = .ok (.done, true, true, false, false) := by decide +kernel
  obtain ⟨⟨I, R⟩, hboth, houtcome⟩ := bind_eq_ok houtcome
  obtain ⟨I, hI, hboth⟩ := bind_eq_ok hboth
  obtain ⟨R, hR, hboth⟩ := bind_eq_ok hboth
  obtain ⟨rfl, rfl⟩ := Prod.mk.inj (Except.ok.inj hboth)
  obtain ⟨answer, hanswer, houtcome⟩ := bind_eq_ok houtcome
  obtain ⟨mine, hmine, houtcome⟩ := bind_eq_ok houtcome
  obtain ⟨theirs, htheirs, houtcome⟩ := bind_eq_ok houtcome
  obtain ⟨mine', hmine', houtcome⟩ := bind_eq_ok houtcome
  obtain ⟨theirs', htheirs', houtcome⟩ := bind_eq_ok houtcome
  simp only [pure, Except.pure, Except.ok.injEq, Prod.mk.injEq, decide_eq_true_eq,
    decide_eq_false_iff_not] at houtcome
  obtain ⟨rfl, rfl, rfl, hgiven, hoffered⟩ := houtcome
  exact ⟨I, R, mine, mine', hI, hR, hanswer, hmine, htheirs, hmine', htheirs', hgiven, hoffered⟩

end Session

end RatchetSession
