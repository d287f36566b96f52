import RatchetSession.Proofs.KeySchedule

/-!
# Two parties of one handshake

Both parties work on their own session, in any order. As long as the initiator takes no ephemeral
key but the responder's, ratchets of opposite directions that are equally far give the same key:
`keys_agree`.
-/

set_option autoImplicit false
set_option relaxedAutoImplicit false

namespace RatchetSession

/-- The shared secret of two key pairs is the same from both ends. -/
def Commutes (a b : Key) : Prop :=
  Curve25519.agree? a (Curve25519.publicKey b) = Curve25519.agree? b (Curve25519.publicKey a)

instance (a b : Key) : Decidable (Commutes a b) := inferInstanceAs (Decidable (_ = _))

/-- All shared secrets of a handshake are the same from both ends. -/
structure Commuting (initiator responder : LocalIdentity) (a b : Key) : Prop where
  statics : Commutes initiator.secret responder.secret
  initiatorEphemeral : Commutes a responder.secret
  responderEphemeral : Commutes initiator.secret b
  ephemerals : Commutes a b

private theorem KeyAgreement.publicKey_fixed (k : Key) : publicKey (.fixed k.val) = .ok k := by
  have hk : (Offered.fixed k.val).octets?.bind (Sized.ofBytes? 32) = some k := Sized.ofBytes?_val k
  rw [publicKey, hk]

theorem Commutes.agreeEphemeral_eq {a b : Key} (h : Commutes a b) :
    agreeEphemeral a.val (.fixed (Curve25519.publicKey b).val) =
      agreeEphemeral b.val (.fixed (Curve25519.publicKey a).val) := by
  unfold Commutes at h
  simp only [agreeEphemeral, KeyAgreement.exchange, KeyAgreement.publicKey_fixed,
    Sized.ofBytes?_val, h]

def Role.other : Role → Role
  | .initiator => .responder
  | .responder => .initiator

theorem Role.other_ne (role : Role) : role.other ≠ role := by
  cases role <;> nofun

structure Pair where
  initiator : Session
  responder : Session

namespace Pair

def move (p : Pair) : Role × Session.Operation → Pair
  | (.initiator, op) => { p with initiator := (p.initiator.perform op).after }
  | (.responder, op) => { p with responder := (p.responder.perform op).after }

def run (p : Pair) (moves : List (Role × Session.Operation)) : Pair := moves.foldl move p

/-- Whenever the initiator's session takes an ephemeral key, it is the responder's. -/
def Genuine (p : Pair) : List (Role × Session.Operation) → Prop
  | [] => True
  | m :: moves =>
    (∀ ephemeral longTerm, m = (.initiator, .accept ephemeral longTerm) →
      (p.initiator.perform (.accept ephemeral longTerm)).CarriedOut →
      ephemeral.octets? = p.responder.ephemeralPublic.octets?) ∧ (p.move m).Genuine moves

/-- What one party does among all that is done. -/
def share (role : Role) (moves : List (Role × Session.Operation)) : List Session.Operation :=
  (moves.filter (·.1 = role)).map (·.2)

private theorem run_cons (p : Pair) (m : Role × Session.Operation)
    (moves : List (Role × Session.Operation)) : p.run (m :: moves) = (p.move m).run moves := rfl

/-- The order in which the parties take turns does not matter to either. -/
theorem run_eq (p : Pair) (moves : List (Role × Session.Operation)) :
    p.run moves =
      ⟨p.initiator.run (share .initiator moves), p.responder.run (share .responder moves)⟩ := by
  induction moves generalizing p with
  | nil => rfl
  | cons m moves ih =>
    rw [run_cons, ih]
    rcases m with ⟨_ | _, op⟩
    · rfl
    · rfl

def session (p : Pair) : Role → Session
  | .initiator => p.initiator
  | .responder => p.responder

theorem session_move_self (p : Pair) (role : Role) (op : Session.Operation) :
    (p.move (role, op)).session role = ((p.session role).perform op).after := by
  cases role <;> rfl

theorem session_move_of_ne (p : Pair) {role : Role} {m : Role × Session.Operation}
    (h : m.1 ≠ role) : (p.move m).session role = p.session role := by
  rcases m with ⟨_ | _, op⟩ <;> cases role <;> first | rfl | exact absurd rfl h

theorem session_run (p : Pair) (role : Role) (moves : List (Role × Session.Operation)) :
    (p.run moves).session role = (p.session role).run (share role moves) := by
  rw [run_eq]
  cases role <;> rfl

theorem fixedPart_run (p : Pair) (moves : List (Role × Session.Operation)) :
    (p.run moves).initiator.fixedPart = p.initiator.fixedPart ∧
      (p.run moves).responder.fixedPart = p.responder.fixedPart := by
  rw [run_eq]
  exact ⟨Session.fixedPart_run .., Session.fixedPart_run ..⟩

end Pair

namespace Session

theorem perform_peerEphemeral (s : Session) (op : Operation) :
    (s.perform op).after.peerEphemeral = s.peerEphemeral ∨
      ∃ ephemeral longTerm, op = .accept ephemeral longTerm ∧ (s.perform op).CarriedOut ∧
        (s.perform op).after.peerEphemeral = ephemeral.octets? := by
  rcases perform_atomic s op with hcarried | ⟨hsame, -⟩
  · have hcarried : (s.perform op).CarriedOut := hcarried
    have hstep := step_perform s op
    generalize (s.perform op).after = t at hstep
    cases hstep with
    | idle op => exact .inl rfl
    | turned n asked live keyed room => exact .inl rfl
    | @accepted ephemeral longTerm t taken =>
      obtain ⟨_, _, _, -, -, -, -, rfl⟩ := accepted_eq_ok taken
      exact .inr ⟨ephemeral, longTerm, rfl, hcarried, rfl⟩
    | stripped known => exact .inl rfl
  · have hsame : (s.perform op).after = s := hsame
    exact .inl (by rw [hsame])

end Session

private theorem Pair.peerEphemeral_run {p : Pair} {moves : List (Role × Session.Operation)}
    (hg : p.Genuine moves) {key : Option Bytes}
    (hkey : p.responder.ephemeralPublic.octets? = key)
    (h : p.initiator.peerEphemeral = none ∨ p.initiator.peerEphemeral = key) :
    (p.run moves).initiator.peerEphemeral = none ∨
      (p.run moves).initiator.peerEphemeral = key := by
  induction moves generalizing p with
  | nil => exact h
  | cons m moves ih =>
    obtain ⟨hm, hrest⟩ := hg
    rw [run_cons]
    rcases m with ⟨_ | _, op⟩
    · refine ih hrest hkey ?_
      show (p.initiator.perform op).after.peerEphemeral = none ∨
        (p.initiator.perform op).after.peerEphemeral = key
      rcases p.initiator.perform_peerEphemeral op with hsame | ⟨e, l, rfl, hcarried, htaken⟩
      · rwa [hsame]
      · rw [htaken, hm e l rfl hcarried]
        exact .inr hkey
    · refine ih hrest ?_ h
      show (p.responder.perform op).after.ephemeralPublic.octets? = key
      obtain ⟨-, -, -, -, -, hpublic⟩ :=
        Session.fields_of_fixedPart (Session.step_perform p.responder op).fixedPart
      rw [hpublic, hkey]

/-- Two sessions of one handshake, with ephemeral secrets `a` and `b`. -/
structure Joined (a b : Key) (I R : Session) : Prop where
  initiator : I.role = .initiator
  responder : R.role = .responder
  id : I.id = R.id
  peer : I.peer = R.me.contact
  contact : R.peer = I.me.contact
  begun : R.peerEphemeral = some (Curve25519.publicKey a).val
  joined : I.peerEphemeral = none ∨ I.peerEphemeral = some (Curve25519.publicKey b).val
  initiated : I.Scheduled a
  responded : R.Scheduled b

namespace Joined

variable {a b : Key} {I R : Session}

private theorem peerOffer_initiator (h : Joined a b I R) (hknown : I.phase ≠ .initiatorTwoDh) :
    I.peerOffer = .fixed (Curve25519.publicKey b).val := by
  have hsome : I.peerEphemeral.isSome := h.initiated.phased.peerEphemeral_isSome hknown
  rcases h.joined with hnone | hkey
  · rw [hnone] at hsome
    cases hsome
  · rw [Session.peerOffer, hkey]

private theorem peerOffer_responder (h : Joined a b I R) :
    R.peerOffer = .fixed (Curve25519.publicKey a).val := by
  rw [Session.peerOffer, h.begun]

private theorem shared_statics (h : Joined a b I R) (hdh : Commuting I.me R.me a b) :
    I.shared a .statics = R.shared b .statics := by
  show agreeEphemeral I.me.secret.val (.fixed I.peer.key.val) =
    agreeEphemeral R.me.secret.val (.fixed R.peer.key.val)
  rw [h.peer, h.contact]
  exact hdh.statics.agreeEphemeral_eq

private theorem shared_initiatorEphemeral (h : Joined a b I R) (hdh : Commuting I.me R.me a b) :
    I.shared a .initiatorEphemeral = R.shared b .initiatorEphemeral := by
  rw [Session.shared, Session.shared, h.initiator, h.responder, h.peer, h.peerOffer_responder]
  exact hdh.initiatorEphemeral.agreeEphemeral_eq

private theorem shared_responderEphemeral (h : Joined a b I R) (hdh : Commuting I.me R.me a b)
    (hknown : I.phase ≠ .initiatorTwoDh) :
    I.shared a .responderEphemeral = R.shared b .responderEphemeral := by
  rw [Session.shared, Session.shared, h.initiator, h.responder, h.contact,
    h.peerOffer_initiator hknown]
  exact hdh.responderEphemeral.agreeEphemeral_eq

private theorem shared_ephemerals (h : Joined a b I R) (hdh : Commuting I.me R.me a b)
    (hknown : I.phase ≠ .initiatorTwoDh) : I.shared a .ephemerals = R.shared b .ephemerals := by
  rw [Session.shared, Session.shared, h.peerOffer_initiator hknown, h.peerOffer_responder]
  exact hdh.ephemerals.agreeEphemeral_eq

theorem material_eq (h : Joined a b I R) (hdh : Commuting I.me R.me a b) {d : Direction}
    {g : Generation} (hhas : I.Has ⟨d, g⟩) : I.material a g = R.material b g := by
  cases g with
  | twoDh =>
    rw [Session.material, Session.material, h.shared_statics hdh, h.shared_initiatorEphemeral hdh]
  | fourDh =>
    have hknown : I.phase ≠ .initiatorTwoDh := (h.initiated.phased.fourDh d).mp hhas
    rw [Session.material, Session.material, h.shared_statics hdh, h.shared_initiatorEphemeral hdh,
      h.shared_responderEphemeral hdh hknown, h.shared_ephemerals hdh hknown]

theorem sender_eq (h : Joined a b I R) (d : Direction) : I.sender d = R.sender d.opposite := by
  cases d with
  | outgoing =>
    show I.me.identity = R.peer.identity
    rw [h.contact]
    rfl
  | incoming =>
    show I.peer.identity = R.me.identity
    rw [h.peer]
    rfl

private theorem ratchets (h : Joined a b I R) (hdh : Commuting I.me R.me a b) {d : Direction}
    {g : Generation} {mine theirs : Ratchet} (hmine : I.ratchet ⟨d, g⟩ = .ok mine)
    (htheirs : R.ratchet ⟨d.opposite, g⟩ = .ok theirs) :
    ∃ k m n, mine = (Ratchet.fresh k I.config).advance m ∧
      theirs = (Ratchet.fresh k R.config).advance n := by
  have hlive := Session.ratchet_eq_ok.mp hmine
  obtain ⟨mine', m, hm, rfl⟩ := h.initiated.ratchets _ _ hlive
  obtain ⟨theirs', n, hn, rfl⟩ := h.responded.ratchets _ _ (Session.ratchet_eq_ok.mp htheirs)
  have hmaterial : I.material a g = R.material b g :=
    h.material_eq hdh (Session.has_iff.mpr ⟨_, hlive⟩)
  obtain rfl : mine' = theirs' := Except.ok.inj (hm.symm.trans (hmaterial.trans hn))
  refine ⟨firstChainKey g (I.sender d) mine', m, n, rfl, ?_⟩
  rw [h.sender_eq d]
  rfl

private theorem encryptionKey_eq (h : Joined a b I R) (hdh : Commuting I.me R.me a b)
    {d : Direction} {g : Generation} {mine theirs : Ratchet} (hmine : I.ratchet ⟨d, g⟩ = .ok mine)
    (htheirs : R.ratchet ⟨d.opposite, g⟩ = .ok theirs)
    (hfar : mine.counter - I.config.initialCounter = theirs.counter - R.config.initialCounter) :
    ∃ k, I.encryptionKey ⟨d, g⟩ = .ok k ∧ R.encryptionKey ⟨d.opposite, g⟩ = .ok k := by
  obtain ⟨k, m, n, rfl, rfl⟩ := h.ratchets hdh hmine htheirs
  have hbeginsI : 0 ≤ I.config.initialCounter := h.initiated.begins
  have hbeginsR : 0 ≤ R.config.initialCounter := h.responded.begins
  have hturns : m = n := by
    rw [Ratchet.counter_advance_fresh, Ratchet.counter_advance_fresh] at hfar
    omega
  subst hturns
  exact ⟨_, Session.encryptionKey_of_ratchet hmine (Ratchet.encryptionKey_advance_fresh ..),
    Session.encryptionKey_of_ratchet htheirs (Ratchet.encryptionKey_advance_fresh ..)⟩

private theorem associatedData_eq (h : Joined a b I R) {d : Direction} {g : Generation}
    {mine theirs : Ratchet} (hmine : I.ratchet ⟨d, g⟩ = .ok mine)
    (htheirs : R.ratchet ⟨d.opposite, g⟩ = .ok theirs) (hcounter : mine.counter = theirs.counter) :
    ∃ ad, I.associatedData ⟨d, g⟩ = .ok ad ∧ R.associatedData ⟨d.opposite, g⟩ = .ok ad := by
  refine ⟨_, Session.associatedData_of_ratchet hmine, ?_⟩
  rw [Session.associatedData_of_ratchet htheirs, h.id, hcounter]

theorem later {p : Pair} (h : Joined a b p.initiator p.responder)
    (moves : List (Role × Session.Operation))
    (hjoined : (p.run moves).initiator.peerEphemeral = none ∨
      (p.run moves).initiator.peerEphemeral = some (Curve25519.publicKey b).val) :
    Joined a b (p.run moves).initiator (p.run moves).responder := by
  obtain ⟨hI, hR⟩ := p.fixedPart_run moves
  obtain ⟨hidI, hroleI, hmeI, hpeerI, -⟩ := Session.fields_of_fixedPart hI
  obtain ⟨hidR, hroleR, hmeR, hpeerR, -⟩ := Session.fields_of_fixedPart hR
  exact {
    initiator := hroleI.trans h.initiator
    responder := hroleR.trans h.responder
    id := by rw [hidI, hidR, h.id]
    peer := by rw [hpeerI, hmeR, h.peer]
    contact := by rw [hpeerR, hmeI, h.contact]
    begun := by
      rw [Pair.run_eq]
      exact h.responded.phased.run_peerEphemeral h.begun _
    joined := hjoined
    initiated := by
      rw [Pair.run_eq]
      exact h.initiated.run _
    responded := by
      rw [Pair.run_eq]
      exact h.responded.run _ }

private theorem run {p : Pair} (h : Joined a b p.initiator p.responder)
    (hkey : p.responder.ephemeralPublic.octets? = some (Curve25519.publicKey b).val)
    {moves : List (Role × Session.Operation)} (hg : p.Genuine moves) :
    Joined a b (p.run moves).initiator (p.run moves).responder :=
  h.later moves (Pair.peerEphemeral_run hg hkey h.joined)

theorem of_factories {initiator responder : LocalIdentity} {configI configR : Config}
    {listenerI listenerR : Listener} {id : SessionId}
    (hI : (Session.initiate initiator responder.contact configI listenerI a id).answer = .ok I)
    (hR : (Session.respond responder initiator.contact configR listenerR (.identifier I.id)
      I.ephemeralPublic b).answer = .ok R) : Joined a b I R := by
  have hscheduledI : I.Scheduled a := Session.scheduled_of_initiate hI
  have hscheduledR : R.Scheduled b := Session.scheduled_of_respond hR
  obtain ⟨-, -, _, _, -, -, rfl⟩ := Session.initiate_eq_ok hI
  obtain ⟨-, -, _, e, _, _, _, _, hid, he, -, -, -, -, rfl⟩ := Session.respond_eq_ok hR
  exact {
    initiator := rfl
    responder := rfl
    id := Except.ok.inj hid
    peer := rfl
    contact := rfl
    begun := he.symm
    joined := .inl rfl
    initiated := hscheduledI
    responded := hscheduledR }

end Joined

/-- Whatever the two parties of a handshake have done, in whatever order, ratchets of opposite
directions that are equally far from their initial counters give the same key. If they count from
the same number, what is authenticated is also the same. -/
theorem keys_agree {initiator responder : LocalIdentity} {configI configR : Config}
    {listenerI listenerR : Listener} {a b : Key} {id : SessionId} {I R : Session}
    (hI : (Session.initiate initiator responder.contact configI listenerI a id).answer = .ok I)
    (hR : (Session.respond responder initiator.contact configR listenerR (.identifier I.id)
      I.ephemeralPublic b).answer = .ok R)
    (hdh : Commuting initiator responder a b)
    {moves : List (Role × Session.Operation)} (hg : (Pair.mk I R).Genuine moves)
    {d : Direction} {g : Generation} {mine theirs : Ratchet}
    (hmine : ((Pair.mk I R).run moves).initiator.ratchet ⟨d, g⟩ = .ok mine)
    (htheirs : ((Pair.mk I R).run moves).responder.ratchet ⟨d.opposite, g⟩ = .ok theirs)
    (hfar : mine.counter - configI.initialCounter = theirs.counter - configR.initialCounter) :
    (∃ k, ((Pair.mk I R).run moves).initiator.encryptionKey ⟨d, g⟩ = .ok k ∧
      ((Pair.mk I R).run moves).responder.encryptionKey ⟨d.opposite, g⟩ = .ok k) ∧
    (configI.initialCounter = configR.initialCounter →
      ∃ ad, ((Pair.mk I R).run moves).initiator.associatedData ⟨d, g⟩ = .ok ad ∧
        ((Pair.mk I R).run moves).responder.associatedData ⟨d.opposite, g⟩ = .ok ad) := by
  obtain ⟨hmeI, hconfigI⟩ := Session.initiate_given hI
  obtain ⟨hmeR, hconfigR, hpublic⟩ := Session.respond_given hR
  have hstart : Joined a b I R := .of_factories hI hR
  have hend : Joined a b ((Pair.mk I R).run moves).initiator
      ((Pair.mk I R).run moves).responder := by
    refine Joined.run (p := ⟨I, R⟩) hstart ?_ hg
    show R.ephemeralPublic.octets? = some (Curve25519.publicKey b).val
    rw [hpublic]
    rfl
  obtain ⟨hfixedI, hfixedR⟩ := (Pair.mk I R).fixedPart_run moves
  obtain ⟨-, -, hmeI', -, hconfigI', -⟩ := Session.fields_of_fixedPart hfixedI
  obtain ⟨-, -, hmeR', -, hconfigR', -⟩ := Session.fields_of_fixedPart hfixedR
  have hcommuting : Commuting ((Pair.mk I R).run moves).initiator.me
      ((Pair.mk I R).run moves).responder.me a b := by
    rw [hmeI', hmeR']
    exact hmeI ▸ hmeR ▸ hdh
  refine ⟨hend.encryptionKey_eq hcommuting hmine htheirs ?_, fun hsame => ?_⟩
  · rw [hconfigI', hconfigR']
    exact hconfigI ▸ hconfigR ▸ hfar
  · have hcounter : mine.counter = theirs.counter := by omega
    exact hend.associatedData_eq hmine htheirs hcounter

def sampleResponderEphemeral : Key := ⟨List.replicate 32 4, List.length_replicate⟩

theorem commuting_sample : Commuting Session.sampleInitiator Session.sampleResponder
    Session.sampleEphemeral sampleResponderEphemeral := by
  constructor <;> decide +kernel

def sampleMoves (R : Session) : List (Role × Session.Operation) :=
  [(.initiator, .turn ⟨.outgoing, .twoDh⟩),
    (.initiator, .accept R.ephemeralPublic (.fixed Session.sampleResponder.publicKey.val)),
    (.initiator, .turn ⟨.outgoing, .fourDh⟩),
    (.responder, .turnUntil ⟨.incoming, .fourDh⟩ 2)]

def sampleCounters : Except Fault (Nat × Nat) := do
  let I ← (Session.initiate Session.sampleInitiator Session.sampleResponder.contact {} .silent
    Session.sampleEphemeral Session.sampleId).answer
  let R ← (Session.respond Session.sampleResponder Session.sampleInitiator.contact {} .silent
    (.identifier I.id) I.ephemeralPublic sampleResponderEphemeral).answer
  let mine ← ((Pair.mk I R).run (sampleMoves R)).initiator.ratchet ⟨.outgoing, .fourDh⟩
  let theirs ← ((Pair.mk I R).run (sampleMoves R)).responder.ratchet ⟨.incoming, .fourDh⟩
  return (mine.counter, theirs.counter)

theorem keys_agree_sample :
    ∃ I R k ad, let p := (Pair.mk I R).run (sampleMoves R)
      (Session.initiate Session.sampleInitiator Session.sampleResponder.contact {} .silent
        Session.sampleEphemeral Session.sampleId).answer = .ok I ∧
      (Session.respond Session.sampleResponder Session.sampleInitiator.contact {} .silent
        (.identifier I.id) I.ephemeralPublic sampleResponderEphemeral).answer = .ok R ∧
      p.initiator.encryptionKey ⟨.outgoing, .fourDh⟩ = .ok k ∧
      p.responder.encryptionKey ⟨.incoming, .fourDh⟩ = .ok k ∧
      p.initiator.associatedData ⟨.outgoing, .fourDh⟩ = .ok ad ∧
      p.responder.associatedData ⟨.incoming, .fourDh⟩ = .ok ad := by
  have hcounters : sampleCounters = .ok (2, 2) := by decide +kernel
  obtain ⟨I, hI, hcounters⟩ := bind_eq_ok hcounters
  obtain ⟨R, hR, hcounters⟩ := bind_eq_ok hcounters
  obtain ⟨mine, hmine, hcounters⟩ := bind_eq_ok hcounters
  obtain ⟨theirs, htheirs, hcounters⟩ := bind_eq_ok hcounters
  obtain ⟨hm, hn⟩ := Prod.mk.inj (Except.ok.inj hcounters)
  have hg : (Pair.mk I R).Genuine (sampleMoves R) := by
    refine ⟨nofun, ?_, nofun, nofun, trivial⟩
    intro ephemeral longTerm hmove _
    obtain ⟨rfl, -⟩ := Session.Operation.accept.inj (Prod.mk.inj hmove).2
    rfl
  obtain ⟨⟨k, hk, hk'⟩, had⟩ := keys_agree hI hR commuting_sample hg hmine htheirs (by rw [hm, hn])
  obtain ⟨ad, had, had'⟩ := had rfl
  exact ⟨I, R, k, ad, hI, hR, hk, hk', had, had'⟩

end RatchetSession
