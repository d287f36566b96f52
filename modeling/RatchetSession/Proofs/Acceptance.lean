import RatchetSession.Proofs.PeerKeys

/-!
# How an accept is decided

An accept looks at the phase first, then at the offered long-term key, then at the offered ephemeral
key, and nothing else can stop it: the other party's bound key has stood the test already when the
session began, and a session that waits has its ephemeral secret. `accept_decided` says what each
accept comes to, after whatever was done with the session and with handles on its ratchets.
-/

set_option autoImplicit false
set_option relaxedAutoImplicit false

namespace RatchetSession.Session

/-- The octets are no ephemeral key to the session: there are not 32 of them, or the product with
its long-term secret or with its ephemeral secret is zero. -/
def Spoils (s : Session) (e : Bytes) : Prop :=
  e.length ≠ 32 ∨ ∃ key : Key, key.val = e ∧ (Curve25519.ProductZero s.me.secret key ∨
    ∃ own : Key, s.ephemeralSecret = some own.val ∧ Curve25519.ProductZero own key)

/-- The key that the session is bound to agrees with both secrets of the session. -/
structure Vouched (s : Session) : Prop where
  statics : ∃ z, s.me.agree (.fixed s.peer.key.val) = .ok z
  pending : ∀ b, s.ephemeralSecret = some b → ∃ z, agreeEphemeral b (.fixed s.peer.key.val) = .ok z

/-- An initiator that has taken the octets as its responder's ephemeral key, for good. -/
structure Completed (s : Session) (e : Bytes) : Prop where
  phase : s.phase = .established
  counters : ∀ d, ∃ r, s.ratchet ⟨d, .fourDh⟩ = .ok r ∧ r.counter = s.config.initialCounter
  peerEphemeral : s.peerEphemeral = some e
  secret : s.ephemeralSecret = none
  twoDh : ∀ d, ¬ s.Has ⟨d, .twoDh⟩

/-- What an accept with these octets comes to: the offered ephemeral key `e` and the offered
long-term key `p`. -/
structure AcceptDecided (s : Session) (e p : Bytes) (o : Outcome Session Answer) : Prop where
  alreadyEstablished : o.Raises .alreadyEstablished ↔ s.phase ≠ .initiatorTwoDh
  identityMismatch :
    o.Raises .identityMismatch ↔ s.phase = .initiatorTwoDh ∧ p ≠ s.peer.key.val
  invalidPeerKey :
    o.Raises .invalidPeerKey ↔ s.phase = .initiatorTwoDh ∧ p = s.peer.key.val ∧ s.Spoils e
  succeeds :
    o.answer = .ok .done ↔ s.phase = .initiatorTwoDh ∧ p = s.peer.key.val ∧ ¬ s.Spoils e
  warned : o.Raises .invalidPeerKey → warnings o.log = [.acceptRejected s.id s.peer.identity]
  unwarned : ¬ o.Raises .invalidPeerKey → warnings o.log = []
  completed : o.answer = .ok .done → o.after.Completed e

/-- Each of these accepts is rejected when it is made. -/
def AllRejected (s : Session) : List (Offered × Offered) → Prop
  | [] => True
  | x :: xs =>
    (∃ f, (s.perform (.accept x.1 x.2)).answer = .error f) ∧
      (s.perform (.accept x.1 x.2)).after.AllRejected xs

variable {s t : Session} {op : Operation} {role : Role} {e p : Bytes}
  {ephemeral longTerm : Offered}

private theorem spoils_iff {own : Key} (h : s.ephemeralSecret = some own.val) :
    s.Spoils e ↔ Unusable s.me.secret e ∨ Unusable own e := by
  constructor
  · rintro (hsize | ⟨key, hkey, hzero | ⟨own', hown, hzero⟩⟩)
    · exact .inl (.inl hsize)
    · exact .inl (.inr ⟨key, hkey, hzero⟩)
    · obtain rfl : own = own' := Subtype.ext (Option.some.inj (h.symm.trans hown))
      exact .inr (.inr ⟨key, hkey, hzero⟩)
  · rintro ((hsize | ⟨key, hkey, hzero⟩) | (hsize | ⟨key, hkey, hzero⟩))
    · exact .inl hsize
    · exact .inr ⟨key, hkey, .inl hzero⟩
    · exact .inl hsize
    · exact .inr ⟨key, hkey, .inr ⟨own, h, hzero⟩⟩

private theorem Founded.vouched (h : Founded role s) : s.Vouched := by
  cases h with
  | initiated given =>
    obtain ⟨-, -, k₁, k₂, h₁, h₂, rfl⟩ := initiate_eq_ok given
    refine ⟨⟨k₁, h₁⟩, ?_⟩
    intro b hb
    obtain rfl := Option.some.inj hb
    exact ⟨k₂, h₂⟩
  | responded given =>
    obtain ⟨-, -, _, _, k₁, _, _, _, -, -, h₁, -, -, -, rfl⟩ := respond_eq_ok given
    exact ⟨⟨k₁, h₁⟩, nofun⟩

private theorem Vouched.step (hs : s.Vouched) (h : Step s op t) : t.Vouched := by
  cases h with
  | idle op => exact hs
  | turned n asked live keyed room => exact ⟨hs.statics, hs.pending⟩
  | accepted taken =>
    obtain ⟨_, _, _, -, -, -, -, rfl⟩ := accepted_eq_ok taken
    exact ⟨hs.statics, nofun⟩
  | stripped known => exact ⟨hs.statics, hs.pending⟩

private theorem Vouched.performOnHandle (hs : s.Vouched) (c : Channel) (op : Ratchet.Operation) :
    (s.performOnHandle c op).after.Vouched := by
  unfold Session.performOnHandle
  cases (s.slots.get c).ratchet? with
  | none => exact hs
  | some r => exact ⟨hs.statics, hs.pending⟩

private theorem Holding.vouched_run {x : Holding} (hx : x.session.Vouched) (deeds : List Deed) :
    (x.run deeds).session.Vouched := by
  apply Holding.run_induction (P := Vouched) ?_ ?_ hx deeds
  · intro s op hs
    exact hs.step (step_perform s op)
  · intro s c op hs
    exact hs.performOnHandle c op

private theorem accepted_of_known (h : s.phase ≠ .initiatorTwoDh) (ephemeral longTerm : Offered) :
    s.accepted ephemeral longTerm = .error (.alreadyEstablished s.id) := by
  have hpending : s.pendingSecret = .error (.alreadyEstablished s.id) := by
    cases hsecret : s.pendingSecret with
    | ok secret => exact absurd (phase_of_pendingSecret hsecret) h
    | error f =>
      unfold pendingSecret at hsecret
      split at hsecret
      · cases hsecret
      · rw [← hsecret]
  rw [accepted, hpending]
  rfl

section

variable {own : Key} (hwaiting : s.phase = .initiatorTwoDh)
  (hown : s.ephemeralSecret = some own.val)
include hwaiting hown

private theorem pendingSecret_of_waiting : s.pendingSecret = .ok own.val := by
  have hnot : ¬ s.Has ⟨.outgoing, .fourDh⟩ := phase_eq_initiatorTwoDh_iff.mp hwaiting
  have hnone : s.slots.fourOutgoing.live? = none := Option.not_isSome_iff_eq_none.mp hnot
  simp only [pendingSecret, hnone, hown]

private theorem accepted_of_mismatch (hp : longTerm.octets? = some p) (h : p ≠ s.peer.key.val) :
    s.accepted ephemeral longTerm = .error (.identityMismatch s.peer.identity s.id) := by
  have hcheck : s.checkLongTerm longTerm = .error (.identityMismatch s.peer.identity s.id) := by
    rw [checkLongTerm, if_neg]
    rw [hp]
    intro hsame
    exact h (Option.some.inj hsame)
  rw [accepted, pendingSecret_of_waiting hwaiting hown]
  simp only [bind, Except.bind, hcheck]

private theorem accepted_of_match (hp : longTerm.octets? = some s.peer.key.val) :
    s.accepted ephemeral longTerm = (do
      let material ← initiatorMaterial s own.val ephemeral
      let four ← startRatchets s.me s.peer s.config .fourDh material
      return s.completed ephemeral four) := by
  have hcheck : s.checkLongTerm longTerm = .ok () := by rw [checkLongTerm, if_pos hp]
  rw [accepted, pendingSecret_of_waiting hwaiting hown]
  simp only [bind, Except.bind, hcheck]

/-- The agreements with the bound key never fail, so an accept of a key that spoils it fails at one
of the agreements with that key. -/
private theorem accepted_of_spoils (hs : s.Vouched) (hp : longTerm.octets? = some s.peer.key.val)
    (he : ephemeral.octets? = some e) (h : s.Spoils e) :
    ∃ f, s.accepted ephemeral longTerm = .error f ∧ f.IsPeerKey := by
  obtain ⟨k₁, h₁⟩ := hs.statics
  obtain ⟨k₂, h₂⟩ := hs.pending own.val hown
  rw [accepted_of_match hwaiting hown hp]
  by_cases hstatic : Unusable s.me.secret e
  · obtain ⟨f, hf, hkind⟩ := agreeEphemeral_of_unusable he hstatic
    have hagree : s.me.agree ephemeral = .error f := hf
    refine ⟨f, ?_, hkind⟩
    simp only [initiatorMaterial, h₁, hagree, bind, Except.bind]
  · have hephemeral : Unusable own e := ((spoils_iff hown).mp h).resolve_left hstatic
    obtain ⟨k₃, h₃⟩ := (exists_agreeEphemeral_iff he).mpr hstatic
    have hagree : s.me.agree ephemeral = .ok k₃ := h₃
    obtain ⟨f, hf, hkind⟩ := agreeEphemeral_of_unusable he hephemeral
    refine ⟨f, ?_, hkind⟩
    simp only [initiatorMaterial, h₁, hagree, h₂, hf, bind, Except.bind]

private theorem accepted_of_sound (hs : s.Vouched)
    (hbegins : 0 ≤ s.config.initialCounter ∧ s.config.initialCounter ≤ maxCounter)
    (hp : longTerm.octets? = some s.peer.key.val) (he : ephemeral.octets? = some e)
    (h : ¬ s.Spoils e) : ∃ t, s.accepted ephemeral longTerm = .ok t := by
  obtain ⟨k₁, h₁⟩ := hs.statics
  obtain ⟨k₂, h₂⟩ := hs.pending own.val hown
  have husable : ¬ (Unusable s.me.secret e ∨ Unusable own e) := by
    intro hn
    exact h ((spoils_iff hown).mpr hn)
  obtain ⟨k₃, h₃⟩ := (exists_agreeEphemeral_iff he).mpr fun hn => husable (.inl hn)
  obtain ⟨k₄, h₄⟩ := (exists_agreeEphemeral_iff he).mpr fun hn => husable (.inr hn)
  have hagree : s.me.agree ephemeral = .ok k₃ := h₃
  rw [accepted_of_match hwaiting hown hp]
  simp only [initiatorMaterial, h₁, hagree, h₂, h₄, startRatchets_of_begins hbegins, bind,
    Except.bind]
  exact ⟨_, rfl⟩

end

private theorem completed_of_accepted (he : ephemeral.octets? = some e)
    (h : s.accepted ephemeral longTerm = .ok t) : t.Completed e := by
  obtain ⟨_, _, four, -, -, -, hfour, rfl⟩ := accepted_eq_ok h
  obtain ⟨hbegins, rfl⟩ := startRatchets_eq_ok hfour
  have hcounter (k : Key) :
      ((Ratchet.fresh k s.config).counter : Int) = s.config.initialCounter := by
    show (s.config.initialCounter.toNat : Int) = s.config.initialCounter
    omega
  refine ⟨phase_completed .., ?_, he, rfl, has_completed_twoDh s ephemeral _⟩
  intro d
  cases d with
  | outgoing => exact ⟨_, rfl, hcounter _⟩
  | incoming => exact ⟨_, rfl, hcounter _⟩

private theorem perform_accept_of_error {f : Fault} (h : s.accepted ephemeral longTerm = .error f) :
    s.perform (.accept ephemeral longTerm) =
      { after := s, answer := .error f, log := acceptLog s f } := by
  rw [perform_accept, accept_eq, h]
  rfl

private theorem perform_accept_of_ok (quiet : s.listener.Quiet)
    (h : s.accepted ephemeral longTerm = .ok t) :
    (s.perform (.accept ephemeral longTerm)).answer = .ok .done ∧
      (s.perform (.accept ephemeral longTerm)).after = t ∧
      warnings (s.perform (.accept ephemeral longTerm)).log = [] := by
  have hanswer := perform_answer quiet (.accept ephemeral longTerm)
  rw [reply, h] at hanswer
  refine ⟨hanswer, ?_, ?_⟩
  · rw [perform_accept, accept_eq, h]
    rfl
  · rw [perform_accept, accept_eq, h]
    exact warnings_tell ..

private theorem warnings_acceptLog (s : Session) (f : Fault) :
    warnings (acceptLog s f) =
      if f.kind = .invalidPeerKey then [.acceptRejected s.id s.peer.identity] else [] := by
  by_cases hkind : f.kind = .invalidPeerKey
  · simp only [acceptLog, isPeerKeyFault, hkind, decide_true, if_true]
    rfl
  · simp only [acceptLog, isPeerKeyFault, hkind, decide_false, if_false, Bool.false_eq_true]
    rfl

private theorem AcceptDecided.of_error {f : Fault} (h : s.accepted ephemeral longTerm = .error f)
    (alreadyEstablished : f.kind = .alreadyEstablished ↔ s.phase ≠ .initiatorTwoDh)
    (identityMismatch :
      f.kind = .identityMismatch ↔ s.phase = .initiatorTwoDh ∧ p ≠ s.peer.key.val)
    (invalidPeerKey :
      f.kind = .invalidPeerKey ↔ s.phase = .initiatorTwoDh ∧ p = s.peer.key.val ∧ s.Spoils e)
    (fails : ¬ (s.phase = .initiatorTwoDh ∧ p = s.peer.key.val ∧ ¬ s.Spoils e)) :
    AcceptDecided s e p (s.perform (.accept ephemeral longTerm)) := by
  rw [perform_accept_of_error h]
  have hanswer : (Outcome.mk s (.error f : Except Fault Answer) 0 [] [] (acceptLog s f)).answer =
      .error f := rfl
  constructor
  · rw [Outcome.raises_of_error hanswer]
    exact alreadyEstablished
  · rw [Outcome.raises_of_error hanswer]
    exact identityMismatch
  · rw [Outcome.raises_of_error hanswer]
    exact invalidPeerKey
  · exact iff_of_false nofun fails
  · intro hraises
    rw [Outcome.raises_of_error hanswer] at hraises
    rw [warnings_acceptLog, if_pos hraises]
  · intro hnot
    rw [Outcome.raises_of_error hanswer] at hnot
    rw [warnings_acceptLog, if_neg hnot]
  · intro hok
    cases hok

private theorem AcceptDecided.of_ok (quiet : s.listener.Quiet)
    (h : s.accepted ephemeral longTerm = .ok t) (he : ephemeral.octets? = some e)
    (waiting : s.phase = .initiatorTwoDh) (same : p = s.peer.key.val) (sound : ¬ s.Spoils e) :
    AcceptDecided s e p (s.perform (.accept ephemeral longTerm)) := by
  obtain ⟨hanswer, hafter, hlog⟩ := perform_accept_of_ok quiet h
  have hnot (k : FaultKind) : ¬ (s.perform (.accept ephemeral longTerm)).Raises k :=
    Outcome.not_raises_of_ok hanswer
  constructor
  · exact iff_of_false (hnot _) fun hknown => hknown waiting
  · exact iff_of_false (hnot _) fun hother => hother.2 same
  · exact iff_of_false (hnot _) fun hbad => sound hbad.2.2
  · exact iff_of_true hanswer ⟨waiting, same, sound⟩
  · intro hraises
    exact absurd hraises (hnot _)
  · intro _
    exact hlog
  · intro _
    rw [hafter]
    exact completed_of_accepted he h

private theorem Counted.perform_accept_decided (hs : s.Counted) (hv : s.Vouched)
    (quiet : s.listener.Quiet) (he : ephemeral.octets? = some e)
    (hp : longTerm.octets? = some p) :
    AcceptDecided s e p (s.perform (.accept ephemeral longTerm)) := by
  by_cases hwaiting : s.phase = .initiatorTwoDh
  · obtain ⟨own, hown, -⟩ := (hs.phased.waiting_of_phase hwaiting).secret
    by_cases hsame : p = s.peer.key.val
    · have hp' : longTerm.octets? = some s.peer.key.val := by rw [hp, hsame]
      by_cases hspoils : s.Spoils e
      · obtain ⟨f, hf, hkind⟩ := accepted_of_spoils hwaiting hown hv hp' he hspoils
        have hkind' : f.kind = .invalidPeerKey := hkind
        refine .of_error hf ?_ ?_ ?_ fun hsound => hsound.2.2 hspoils
        · rw [hkind']
          exact iff_of_false nofun fun hknown => hknown hwaiting
        · rw [hkind']
          exact iff_of_false nofun fun hother => hother.2 hsame
        · exact iff_of_true hkind' ⟨hwaiting, hsame, hspoils⟩
      · obtain ⟨t, ht⟩ := accepted_of_sound hwaiting hown hv hs.begins hp' he hspoils
        exact .of_ok quiet ht he hwaiting hsame hspoils
    · refine .of_error (accepted_of_mismatch hwaiting hown hp hsame) ?_ ?_ ?_
        fun hsound => hsame hsound.2.1
      · exact iff_of_false nofun fun hknown => hknown hwaiting
      · exact iff_of_true rfl ⟨hwaiting, hsame⟩
      · exact iff_of_false nofun fun hbad => hsame hbad.2.1
  · refine .of_error (accepted_of_known hwaiting ephemeral longTerm) ?_ ?_ ?_
      fun hsound => hwaiting hsound.1
    · exact iff_of_true rfl hwaiting
    · exact iff_of_false nofun fun hother => hwaiting hother.1
    · exact iff_of_false nofun fun hbad => hwaiting hbad.1

private theorem AllRejected.run_eq (quiet : s.listener.Quiet) {offers : List (Offered × Offered)}
    (h : s.AllRejected offers) : s.run (offers.map fun x => .accept x.1 x.2) = s := by
  induction offers with
  | nil => rfl
  | cons x offers ih =>
    obtain ⟨⟨f, hf⟩, hrest⟩ := h
    have hsame : (s.perform (.accept x.1 x.2)).after = s := perform_after_of_error quiet hf
    rw [hsame] at hrest
    rw [List.map_cons, run_cons, hsame]
    exact ih hrest

private theorem phase_putRatchet (s : Session) (c : Channel) (r : Ratchet) :
    (s.putRatchet c r).phase = s.phase := by
  apply phase_congr
  intro d
  by_cases hd : d = c
  · subst hd
    simp only [Has, putRatchet, Slots.get_set]
    cases s.slots.get d <;> exact Iff.rfl
  · simp only [Has, get_putRatchet_of_ne s r hd]

private theorem PhaseStep.known {before after : Phase} (h : PhaseStep before op after)
    (hbefore : before ≠ .initiatorTwoDh) : after ≠ .initiatorTwoDh := by
  cases h with
  | same p op => exact hbefore
  | accepted ephemeral longTerm => nofun
  | stripped => nofun

private theorem Holding.known_run {x : Holding} (hx : x.session.phase ≠ .initiatorTwoDh)
    (deeds : List Deed) : (x.run deeds).session.phase ≠ .initiatorTwoDh := by
  refine Holding.run_induction (P := fun s => s.phase ≠ .initiatorTwoDh) ?_ ?_ hx deeds
  · intro s op hs
    exact (step_perform s op).phase.known hs
  · intro s c op hs
    unfold performOnHandle
    cases (s.slots.get c).ratchet? with
    | none => exact hs
    | some r => exact (phase_putRatchet s c _) ▸ hs

/-- Whatever was done with a session that a factory gave out and with handles on its ratchets, an
accept is decided by the phase, by the long-term key and by the ephemeral key, in this order.
Responders and initiators that have taken an accept once do not wait any more. After any number of
rejected accepts, another one does what it would have done at once. -/
theorem accept_decided (h : Founded role s) (quiet : s.listener.Quiet) (deeds : List Deed) :
    let t := ((Holding.mk s []).run deeds).session
    (∀ (ephemeral longTerm : Offered) (e p : Bytes), ephemeral.octets? = some e →
        longTerm.octets? = some p →
        AcceptDecided t e p (t.perform (.accept ephemeral longTerm))) ∧
      (role = .responder → t.phase ≠ .initiatorTwoDh) ∧
      (∀ (ephemeral longTerm : Offered) (taken : List Channel) (more : List Deed),
        let o := t.perform (.accept ephemeral longTerm)
        o.answer = .ok .done →
          ((Holding.mk o.after taken).run more).session.phase ≠ .initiatorTwoDh) ∧
      ∀ (offers : List (Offered × Offered)) (good : Offered × Offered), t.AllRejected offers →
        (t.run (offers.map fun x => .accept x.1 x.2)).perform (.accept good.1 good.2) =
          t.perform (.accept good.1 good.2) := by
  intro t
  have hmaintained : t.Maintained s.config s.listener :=
    Maintained.holding_run (x := Holding.mk s []) h.maintained deeds
  have hvouched : t.Vouched := Holding.vouched_run (x := Holding.mk s []) h.vouched deeds
  have hquiet : t.listener.Quiet := by
    rw [hmaintained.listener]
    exact quiet
  refine ⟨?_, ?_, ?_, ?_⟩
  · intro ephemeral longTerm e p he hp
    exact hmaintained.counted.perform_accept_decided hvouched hquiet he hp
  · intro hrole
    obtain ⟨hbegan, -⟩ := h.wellPhased
    have hstart : s.phase ≠ .initiatorTwoDh := (h.wellPhased.2.responder (hbegan.trans hrole)).1
    exact Holding.known_run (x := Holding.mk s []) hstart deeds
  · intro ephemeral longTerm taken more o hok
    apply Holding.known_run
    show o.after.phase ≠ .initiatorTwoDh
    rw [perform_answer hquiet, reply] at hok
    obtain ⟨u, hu⟩ : ∃ u, t.accepted ephemeral longTerm = .ok u := by
      cases hu : t.accepted ephemeral longTerm with
      | ok u => exact ⟨u, rfl⟩
      | error f =>
        rw [hu] at hok
        cases hok
    rw [(perform_accept_of_ok hquiet hu).2.1]
    obtain ⟨_, _, four, -, -, -, -, rfl⟩ := accepted_eq_ok hu
    rw [phase_completed]
    decide
  · intro offers good hrejected
    rw [hrejected.run_eq hquiet]

/-- The sample initiator rejects the ephemeral key zero, and takes another one then. -/
theorem accept_decided_sample :
    ∃ s, (initiate sampleInitiator sampleResponder.contact {} .silent sampleEphemeral
        sampleId).answer = .ok s ∧
      let t := ((Holding.mk s []).run [.own (.turn ⟨.outgoing, .twoDh⟩)]).session
      let longTerm : Offered := .fixed sampleResponder.publicKey.val
      let bad := (Offered.fixed (List.replicate 32 0), longTerm)
      let good := (Offered.buffer (List.replicate 32 9), longTerm)
      warnings (t.perform (.accept bad.1 bad.2)).log =
          [.acceptRejected t.id t.peer.identity] ∧
        (t.perform (.accept good.1 good.2)).after.Completed (List.replicate 32 9) ∧
        (t.run [.accept bad.1 bad.2]).perform (.accept good.1 good.2) =
          t.perform (.accept good.1 good.2) := by
  have hrun : (do
      let s ← (initiate sampleInitiator sampleResponder.contact {} .silent sampleEphemeral
        sampleId).answer
      let t := ((Holding.mk s []).run [.own (.turn ⟨.outgoing, .twoDh⟩)]).session
      let longTerm : Offered := .fixed sampleResponder.publicKey.val
      return ((t.perform (.accept (.fixed (List.replicate 32 0)) longTerm)).answer,
        (t.perform (.accept (.buffer (List.replicate 32 9)) longTerm)).answer)) =
      .ok (.error (.agreement .lowOrder), .ok .done) := by decide +kernel
  obtain ⟨s, hs, hrun⟩ := bind_eq_ok hrun
  obtain ⟨hbad, hgood⟩ := Prod.mk.inj (Except.ok.inj hrun)
  have hquiet : s.listener.Quiet := by
    obtain ⟨-, -, _, _, -, -, rfl⟩ := initiate_eq_ok hs
    exact fun _ => rfl
  obtain ⟨hdecided, -, -, hagain⟩ :=
    accept_decided (.initiated hs) hquiet [.own (.turn ⟨.outgoing, .twoDh⟩)]
  refine ⟨s, hs, ?_, ?_, ?_⟩
  · exact (hdecided _ _ _ _ rfl rfl).warned ⟨_, hbad, rfl⟩
  · exact (hdecided _ _ _ _ rfl rfl).completed hgood
  · exact hagain [_] _ ⟨⟨_, hbad⟩, trivial⟩

end RatchetSession.Session
