import RatchetSession.Proofs.Founding

/-!
# The life of a session

The phase of a session is read off its ratchets, and most ways to fill its fields make no sense.
`WellPhased` lists those that do. Both factories begin with one of them, every operation ends in one
of them, and `lifecycle` says so of whole runs.
-/

set_option autoImplicit false
set_option relaxedAutoImplicit false

namespace RatchetSession.Session

/-- The session was given out by a factory, for one of the roles. -/
inductive Founded : Role → Session → Prop
  | initiated {me : LocalIdentity} {peer : Contact} {config : Config} {listener : Listener}
      {secret : Key} {id : SessionId} {s : Session}
      (given : (initiate me peer config listener secret id).answer = .ok s) : Founded .initiator s
  | responded {me : LocalIdentity} {peer : Contact} {config : Config} {listener : Listener}
      {sessionId ephemeral : Offered} {secret : Key} {s : Session}
      (given : (respond me peer config listener sessionId ephemeral secret).answer = .ok s) :
      Founded .responder s

def Has (s : Session) (c : Channel) : Prop := (s.slots.get c).live?.isSome

instance (s : Session) (c : Channel) : Decidable (s.Has c) := inferInstanceAs (Decidable (_ = true))

/-- An initiator that has not heard from its responder. -/
structure Waiting (s : Session) : Prop where
  phase : s.phase = .initiatorTwoDh
  twoDh : ∀ d, s.Has ⟨d, .twoDh⟩
  secret : ∃ secret : Key, s.ephemeralSecret = some secret.val ∧
    s.ephemeralPublic = .fixed (Curve25519.publicKey secret).val
  peerEphemeral : s.peerEphemeral = none

/-- An initiator that has heard from its responder. -/
structure Settled (s : Session) : Prop where
  phase : s.phase = .established
  twoDh : ∀ d, ¬ s.Has ⟨d, .twoDh⟩
  secret : s.ephemeralSecret = none
  peerEphemeral : s.peerEphemeral.isSome

/-- A responder, before or after it has given the ratchets of two agreements up. -/
structure Responding (s : Session) : Prop where
  outgoing : ¬ s.Has ⟨.outgoing, .twoDh⟩
  incoming : s.Has ⟨.incoming, .twoDh⟩ ↔ s.phase = .responderFourDh
  secret : s.ephemeralSecret = none
  peerEphemeral : s.peerEphemeral.isSome

/-- The ratchets, the keys and the role of the session fit its phase. -/
structure WellPhased (s : Session) : Prop where
  fourDh : ∀ d, s.Has ⟨d, .fourDh⟩ ↔ s.phase ≠ .initiatorTwoDh
  initiator : s.role = .initiator → s.Waiting ∨ s.Settled
  responder : s.role = .responder → s.phase ≠ .initiatorTwoDh ∧ s.Responding

/-- How the phase may change with an operation. -/
inductive PhaseStep : Phase → Operation → Phase → Prop
  | same (p : Phase) (op : Operation) : PhaseStep p op p
  | accepted (ephemeral longTerm : Offered) :
      PhaseStep .initiatorTwoDh (.accept ephemeral longTerm) .established
  | stripped : PhaseStep .responderFourDh .discardTwoDh .established

variable {s t : Session} {op : Operation} {c : Channel}

theorem has_iff : s.Has c ↔ ∃ r, s.slots.get c = .live r := by
  unfold Has
  cases s.slots.get c <;> simp [Slot.live?]

theorem phase_eq (s : Session) :
    s.phase = if ¬ s.Has ⟨.outgoing, .fourDh⟩ then .initiatorTwoDh
      else if s.Has ⟨.outgoing, .twoDh⟩ ∨ s.Has ⟨.incoming, .twoDh⟩ then .responderFourDh
      else .established := by
  have hwaiting : (¬ s.Has ⟨.outgoing, .fourDh⟩) ↔ s.slots.fourOutgoing.live?.isNone := by
    show ¬ s.slots.fourOutgoing.live?.isSome ↔ _
    cases s.slots.fourOutgoing.live? <;> simp
  simp only [hwaiting]
  rfl

theorem phase_congr (h : ∀ c, t.Has c ↔ s.Has c) : t.phase = s.phase := by
  rw [phase_eq, phase_eq]
  simp only [h]

theorem phase_eq_initiatorTwoDh_iff :
    s.phase = .initiatorTwoDh ↔ ¬ s.Has ⟨.outgoing, .fourDh⟩ := by
  rw [phase_eq]
  split_ifs with hfour htwo <;> simp [hfour]

theorem has_putRatchet {r : Ratchet} (r' : Ratchet) (h : s.slots.get c = .live r) (d : Channel) :
    (s.putRatchet c r').Has d ↔ s.Has d := by
  rw [has_iff, has_iff]
  by_cases hd : d = c
  · subst hd
    rw [get_putRatchet_self r' h, h]
    simp
  · rw [get_putRatchet_of_ne s r' hd]

theorem has_withoutTwoDh_twoDh (s : Session) (d : Direction) :
    ¬ s.withoutTwoDh.Has ⟨d, .twoDh⟩ := by
  unfold Has
  rw [get_withoutTwoDh_twoDh]
  cases s.slots.get ⟨d, .twoDh⟩ <;> simp [Slot.retire, Slot.live?]

theorem has_withoutTwoDh_fourDh (s : Session) (d : Direction) :
    s.withoutTwoDh.Has ⟨d, .fourDh⟩ ↔ s.Has ⟨d, .fourDh⟩ := by
  unfold Has
  rw [get_withoutTwoDh_fourDh]

theorem phase_withoutTwoDh (h : s.phase ≠ .initiatorTwoDh) :
    s.withoutTwoDh.phase = .established := by
  have hfour : s.withoutTwoDh.Has ⟨.outgoing, .fourDh⟩ := by
    rw [has_withoutTwoDh_fourDh]
    exact Classical.not_not.mp fun hn => h (phase_eq_initiatorTwoDh_iff.mpr hn)
  have htwo :
      ¬ (s.withoutTwoDh.Has ⟨.outgoing, .twoDh⟩ ∨ s.withoutTwoDh.Has ⟨.incoming, .twoDh⟩) := by
    rintro (ho | hi)
    · exact has_withoutTwoDh_twoDh s _ ho
    · exact has_withoutTwoDh_twoDh s _ hi
  rw [phase_eq, if_neg (Classical.not_not.mpr hfour), if_neg htwo]

theorem has_completed_twoDh (s : Session) (ephemeral : Offered) (four : Ratchet × Ratchet)
    (d : Direction) : ¬ (s.completed ephemeral four).Has ⟨d, .twoDh⟩ := by
  have hd := has_withoutTwoDh_twoDh s d
  cases d <;> exact hd

private theorem has_completed_fourDh (s : Session) (ephemeral : Offered) (four : Ratchet × Ratchet)
    (d : Direction) : (s.completed ephemeral four).Has ⟨d, .fourDh⟩ := by
  cases d <;> rfl

theorem phase_completed (s : Session) (ephemeral : Offered) (four : Ratchet × Ratchet) :
    (s.completed ephemeral four).phase = .established := by
  have hknown : (s.completed ephemeral four).phase ≠ .initiatorTwoDh := fun h =>
    phase_eq_initiatorTwoDh_iff.mp h (has_completed_fourDh s ephemeral four .outgoing)
  -- Both ratchets of two agreements are retired already; to do so once more changes nothing.
  have hretired := phase_withoutTwoDh hknown
  rw [phase_congr fun c => ?_] at hretired
  · exact hretired
  · rcases c with ⟨d, _ | _⟩
    · exact iff_of_false (has_withoutTwoDh_twoDh _ d) (has_completed_twoDh s ephemeral four d)
    · exact has_withoutTwoDh_fourDh _ d

theorem pendingSecret_eq_ok {secret : Bytes} (h : s.pendingSecret = .ok secret) :
    s.ephemeralSecret = some secret := by
  unfold pendingSecret at h
  split at h
  · rename_i hsecret
    rw [hsecret, Except.ok.inj h]
  · cases h

theorem phase_of_pendingSecret {secret : Bytes} (h : s.pendingSecret = .ok secret) :
    s.phase = .initiatorTwoDh := by
  rw [phase_eq_initiatorTwoDh_iff]
  unfold pendingSecret at h
  split at h
  · rename_i hnone _
    show ¬ s.slots.fourOutgoing.live?.isSome
    simp only [hnone, Option.isSome_none, Bool.false_eq_true, not_false_eq_true]
  · cases h

theorem Step.phase (h : Step s op t) : PhaseStep s.phase op t.phase := by
  cases h with
  | idle op => exact .same _ _
  | turned n asked live keyed room =>
    rw [phase_congr (has_putRatchet _ live)]
    exact .same _ _
  | accepted taken =>
    obtain ⟨_, _, four, hpending, -, -, -, rfl⟩ := accepted_eq_ok taken
    rw [phase_of_pendingSecret hpending, phase_completed]
    exact .accepted _ _
  | stripped known =>
    rw [phase_withoutTwoDh known]
    cases hphase : s.phase with
    | initiatorTwoDh => exact absurd hphase known
    | responderFourDh => exact .stripped
    | established => exact .same _ _

theorem PhaseStep.of_established {q : Phase} (h : PhaseStep .established op q) :
    q = .established := by
  cases h
  rfl

theorem PhaseStep.eq_or_established {p q : Phase} (h : PhaseStep p op q) :
    q = p ∨ q = .established := by
  cases h with
  | same p op => exact .inl rfl
  | accepted ephemeral longTerm => exact .inr rfl
  | stripped => exact .inr rfl

theorem phase_run_of_established (h : s.phase = .established) (ops : List Operation) :
    (s.run ops).phase = .established := by
  refine run_induction (P := fun u => u.phase = .established) (fun u op v hstep hu => ?_) h ops
  have hphase := hstep.phase
  rw [hu] at hphase
  exact hphase.of_established

theorem wellPhased_initiatorStart (me : LocalIdentity) (peer : Contact) (config : Config)
    (listener : Listener) (secret : Key) (id : SessionId) (two : Bytes) :
    (initiatorStart me peer config listener secret id two).WellPhased where
  fourDh d := by
    refine iff_of_false ?_ (fun h => h rfl)
    cases d <;> exact Bool.false_ne_true
  initiator _ := .inl ⟨rfl, fun d => by cases d <;> rfl, ⟨secret, rfl, rfl⟩, rfl⟩
  responder := nofun

theorem wellPhased_responderStart (me : LocalIdentity) (peer : Contact) (config : Config)
    (listener : Listener) (secret : Key) (id : SessionId) (ephemeral two four : Bytes) :
    (responderStart me peer config listener secret id ephemeral two four).WellPhased where
  fourDh d := by
    refine iff_of_true ?_ nofun
    cases d <;> rfl
  initiator := nofun
  responder _ := ⟨nofun, Bool.false_ne_true, iff_of_true rfl rfl, rfl, rfl⟩

theorem WellPhased.putRatchet {r : Ratchet} (hs : s.WellPhased) (r' : Ratchet)
    (h : s.slots.get c = .live r) : (s.putRatchet c r').WellPhased := by
  have hhas := has_putRatchet r' h
  have hphase : (s.putRatchet c r').phase = s.phase := phase_congr hhas
  refine ⟨fun d => ?_, fun hrole => ?_, fun hrole => ?_⟩
  · rw [hhas, hphase]
    exact hs.fourDh d
  · rcases hs.initiator hrole with hw | hw
    · exact .inl ⟨hphase.trans hw.phase, fun d => (hhas _).mpr (hw.twoDh d), hw.secret,
        hw.peerEphemeral⟩
    · exact .inr ⟨hphase.trans hw.phase, fun d hd => hw.twoDh d ((hhas _).mp hd), hw.secret,
        hw.peerEphemeral⟩
  · obtain ⟨hknown, hw⟩ := hs.responder hrole
    refine ⟨hphase ▸ hknown, fun ho => hw.outgoing ((hhas _).mp ho), ?_, hw.secret,
      hw.peerEphemeral⟩
    rw [hhas, hphase]
    exact hw.incoming

theorem WellPhased.role_of_waiting (hs : s.WellPhased) (h : s.phase = .initiatorTwoDh) :
    s.role = .initiator := by
  cases hrole : s.role with
  | initiator => rfl
  | responder => exact absurd h (hs.responder hrole).1

theorem WellPhased.waiting_of_phase (hs : s.WellPhased) (h : s.phase = .initiatorTwoDh) :
    s.Waiting := by
  rcases hs.initiator (hs.role_of_waiting h) with hw | hw
  · exact hw
  · rw [hw.phase] at h
    cases h

theorem WellPhased.waiting_of_accepted {ephemeral longTerm : Offered} (hs : s.WellPhased)
    (h : s.accepted ephemeral longTerm = .ok t) : s.Waiting := by
  obtain ⟨_, _, _, hpending, -⟩ := accepted_eq_ok h
  exact hs.waiting_of_phase (phase_of_pendingSecret hpending)

theorem WellPhased.accepted {ephemeral longTerm : Offered} (hs : s.WellPhased)
    (h : s.accepted ephemeral longTerm = .ok t) : t.WellPhased := by
  obtain ⟨secret, material, four, hpending, -, hmaterial, -, rfl⟩ := accepted_eq_ok h
  obtain ⟨e, _, _, _, _, he, -⟩ := initiatorMaterial_eq_ok hmaterial
  have hwaiting : s.phase = .initiatorTwoDh := phase_of_pendingSecret hpending
  have hphase := phase_completed s ephemeral four
  refine ⟨fun d => ?_, fun _ => .inr ?_, fun hrole => ?_⟩
  · refine iff_of_true (has_completed_fourDh s ephemeral four d) ?_
    rw [hphase]
    nofun
  · refine ⟨hphase, has_completed_twoDh s ephemeral four, rfl, ?_⟩
    show ephemeral.octets?.isSome
    rw [he]
    rfl
  · exact absurd hwaiting (hs.responder hrole).1

theorem WellPhased.withoutTwoDh (hs : s.WellPhased) (known : s.phase ≠ .initiatorTwoDh) :
    s.withoutTwoDh.WellPhased := by
  have hphase : s.withoutTwoDh.phase = .established := phase_withoutTwoDh known
  refine ⟨fun d => ?_, fun hrole => .inr ?_, fun hrole => ?_⟩
  · rw [has_withoutTwoDh_fourDh, hs.fourDh, hphase]
    exact iff_of_true known nofun
  · rcases hs.initiator hrole with hw | hw
    · exact absurd hw.phase known
    · exact ⟨hphase, has_withoutTwoDh_twoDh s, hw.secret, hw.peerEphemeral⟩
  · obtain ⟨-, hw⟩ := hs.responder hrole
    refine ⟨hphase ▸ nofun, has_withoutTwoDh_twoDh s _, ?_, hw.secret, hw.peerEphemeral⟩
    rw [hphase]
    exact iff_of_false (has_withoutTwoDh_twoDh s _) nofun

theorem WellPhased.step (hs : s.WellPhased) (h : Step s op t) : t.WellPhased := by
  cases h with
  | idle op => exact hs
  | turned n asked live keyed room => exact hs.putRatchet _ live
  | accepted taken => exact hs.accepted taken
  | stripped known => exact hs.withoutTwoDh known

theorem WellPhased.run (hs : s.WellPhased) (ops : List Operation) : (s.run ops).WellPhased :=
  run_induction (fun _ _ _ hstep ht => ht.step hstep) hs ops

theorem WellPhased.peerEphemeral_isSome (hs : s.WellPhased) (hknown : s.phase ≠ .initiatorTwoDh) :
    s.peerEphemeral.isSome := by
  cases hrole : s.role with
  | initiator =>
    rcases hs.initiator hrole with hw | hw
    · exact absurd hw.phase hknown
    · exact hw.peerEphemeral
  | responder => exact (hs.responder hrole).2.peerEphemeral

private theorem WellPhased.step_peerEphemeral {e : Bytes} (hs : s.WellPhased) (h : Step s op t)
    (he : s.peerEphemeral = some e) : t.peerEphemeral = some e := by
  cases h with
  | idle op => exact he
  | turned n asked live keyed room => exact he
  | accepted taken =>
    have hnone : s.peerEphemeral = none := (hs.waiting_of_accepted taken).peerEphemeral
    rw [hnone] at he
    cases he
  | stripped known => exact he

theorem WellPhased.run_peerEphemeral {e : Bytes} (hs : s.WellPhased)
    (he : s.peerEphemeral = some e) (ops : List Operation) :
    (s.run ops).peerEphemeral = some e := by
  have hboth := run_induction (P := fun u => u.WellPhased ∧ u.peerEphemeral = some e)
    (fun _ _ _ hstep hu => ⟨hu.1.step hstep, hu.1.step_peerEphemeral hstep hu.2⟩) ⟨hs, he⟩ ops
  exact hboth.2

private theorem WellPhased.step_fourDh {d : Direction} {r : Ratchet} (hs : s.WellPhased)
    (h : Step s op t) (hr : s.slots.get ⟨d, .fourDh⟩ = .live r) :
    ∃ n, t.slots.get ⟨d, .fourDh⟩ = .live (r.advance n) := by
  cases h with
  | idle op => exact ⟨0, by rw [hr, Ratchet.advance_zero]⟩
  | @turned c r' _ n asked live keyed room =>
    by_cases hc : c = ⟨d, .fourDh⟩
    · subst hc
      obtain rfl : r' = r := Slot.live.inj (live.symm.trans hr)
      exact ⟨n, get_putRatchet_self _ live⟩
    · refine ⟨0, ?_⟩
      rw [get_putRatchet_of_ne s _ (Ne.symm hc), hr, Ratchet.advance_zero]
  | accepted taken =>
    obtain ⟨_, _, _, hpending, -⟩ := accepted_eq_ok taken
    have hhas : s.Has ⟨d, .fourDh⟩ := has_iff.mpr ⟨r, hr⟩
    exact absurd (phase_of_pendingSecret hpending) ((hs.fourDh d).mp hhas)
  | stripped known => exact ⟨0, by rw [get_withoutTwoDh_fourDh, hr, Ratchet.advance_zero]⟩

private theorem WellPhased.run_fourDh {d : Direction} {r : Ratchet} (hs : s.WellPhased)
    (hr : s.slots.get ⟨d, .fourDh⟩ = .live r) (ops : List Operation) :
    ∃ n, (s.run ops).slots.get ⟨d, .fourDh⟩ = .live (r.advance n) := by
  induction ops generalizing s r with
  | nil => exact ⟨0, by rw [run_nil, hr, Ratchet.advance_zero]⟩
  | cons op ops ih =>
    have hstep := step_perform s op
    obtain ⟨m, hm⟩ := hs.step_fourDh hstep hr
    obtain ⟨n, hn⟩ := ih (hs.step hstep) hm
    refine ⟨m + n, ?_⟩
    rw [run_cons, hn, Ratchet.advance_advance]

theorem Founded.wellPhased {role : Role} (h : Founded role s) : s.role = role ∧ s.WellPhased := by
  cases h with
  | initiated given =>
    obtain ⟨-, -, _, _, -, -, rfl⟩ := initiate_eq_ok given
    exact ⟨rfl, wellPhased_initiatorStart ..⟩
  | responded given =>
    obtain ⟨-, -, _, _, _, _, _, _, -, -, -, -, -, -, rfl⟩ := respond_eq_ok given
    exact ⟨rfl, wellPhased_responderStart ..⟩

/-- A session that a factory gave out keeps its role and stays well phased whatever is done with it.
Its ratchets of four agreements stay once they are there and are only turned on. Its phase changes
by an accept or by giving up the ratchets of two agreements, once, and then it is established. -/
theorem lifecycle {role : Role} (h : Founded role s) (ops : List Operation) :
    (s.run ops).role = role ∧ (s.run ops).WellPhased ∧
      (∀ d r, (s.run ops).ratchet ⟨d, .fourDh⟩ = .ok r → ∀ more,
        ∃ n, ((s.run ops).run more).ratchet ⟨d, .fourDh⟩ = .ok (r.advance n)) ∧
      ∀ op, PhaseStep (s.run ops).phase op ((s.run ops).perform op).after.phase := by
  obtain ⟨hrole, hs⟩ := h.wellPhased
  have ht : (s.run ops).WellPhased := hs.run ops
  refine ⟨?_, ht, fun d r hr more => ?_, fun op => (step_perform _ op).phase⟩
  · obtain ⟨-, hsame, -⟩ := fields_of_fixedPart (fixedPart_run s ops)
    rw [hsame, hrole]
  · obtain ⟨n, hn⟩ := ht.run_fourDh (ratchet_eq_ok.mp hr) more
    exact ⟨n, ratchet_eq_ok.mpr hn⟩

def sampleEphemeral : Key := ⟨List.replicate 32 3, List.length_replicate⟩

def sampleOperations : List Operation :=
  [.turn ⟨.outgoing, .twoDh⟩,
    .accept (.fixed (List.replicate 32 9)) (.fixed sampleResponder.publicKey.val)]

theorem lifecycle_accept :
    ∃ s, (initiate sampleInitiator sampleResponder.contact {} .silent sampleEphemeral
        sampleId).answer = .ok s ∧
      let t := s.run sampleOperations
      s.phase = .initiatorTwoDh ∧ t.phase = .established ∧ t.role = .initiator ∧ t.WellPhased ∧
        ∃ r, t.ratchet ⟨.outgoing, .fourDh⟩ = .ok r ∧
          ∃ n, (t.run [.turn ⟨.outgoing, .fourDh⟩]).ratchet ⟨.outgoing, .fourDh⟩ =
            .ok (r.advance n) := by
  have hrun : ((initiate sampleInitiator sampleResponder.contact {} .silent sampleEphemeral
      sampleId).answer.bind fun s =>
        ((s.run sampleOperations).ratchet ⟨.outgoing, .fourDh⟩).map fun _ =>
          (s.phase, (s.run sampleOperations).phase)).toOption =
      some (.initiatorTwoDh, .established) := by decide +kernel
  cases hs : (initiate sampleInitiator sampleResponder.contact {} .silent sampleEphemeral
      sampleId).answer with
  | error f =>
    rw [hs] at hrun
    cases hrun
  | ok s =>
    rw [hs, Except.bind] at hrun
    obtain ⟨hrole, hphased, hkept, -⟩ := lifecycle (.initiated hs) sampleOperations
    cases hr : (s.run sampleOperations).ratchet ⟨.outgoing, .fourDh⟩ with
    | error f =>
      rw [hr] at hrun
      cases hrun
    | ok r =>
      rw [hr] at hrun
      obtain ⟨hwaiting, hestablished⟩ := Prod.mk.inj (Option.some.inj hrun)
      exact ⟨s, rfl, hwaiting, hestablished, hrole, hphased, r, hr, hkept .outgoing r hr _⟩

end RatchetSession.Session
