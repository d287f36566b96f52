import RatchetSession.Proofs.Lifecycle

/-!
# The key schedule

Every ratchet that a session has stands where turns of its first chain key lead, and the first chain
key is derived from the shared secrets of the handshake for the party that sends. `Scheduled` says
so of a session, and every run keeps it: `Scheduled.run`.
-/

set_option autoImplicit false
set_option relaxedAutoImplicit false

namespace RatchetSession

/-- The key agreements of a handshake. -/
inductive Agreement
  | statics
  | initiatorEphemeral
  | responderEphemeral
  | ephemerals

namespace Session

def sender (s : Session) : Direction → Identity
  | .outgoing => s.me.identity
  | .incoming => s.peer.identity

/-- The ephemeral public key of the other party, as far as it is known. -/
def peerOffer (s : Session) : Offered :=
  match s.peerEphemeral with
  | some e => .fixed e
  | none => .absent

/-- The shared secret of an agreement, for the session whose ephemeral secret is given. -/
def shared (s : Session) (secret : Key) : Agreement → Except Fault Key
  | .statics => s.me.agree (.fixed s.peer.key.val)
  | .initiatorEphemeral =>
    match s.role with
    | .initiator => agreeEphemeral secret.val (.fixed s.peer.key.val)
    | .responder => s.me.agree s.peerOffer
  | .responderEphemeral =>
    match s.role with
    | .initiator => s.me.agree s.peerOffer
    | .responder => agreeEphemeral secret.val (.fixed s.peer.key.val)
  | .ephemerals => agreeEphemeral secret.val s.peerOffer

/-- What the keys of a generation rest on. -/
def material (s : Session) (secret : Key) : Generation → Except Fault Bytes
  | .twoDh => do
    return twoDhMaterial (← s.shared secret .statics) (← s.shared secret .initiatorEphemeral)
  | .fourDh => do
    return fourDhMaterial (← s.shared secret .statics) (← s.shared secret .initiatorEphemeral)
      (← s.shared secret .responderEphemeral) (← s.shared secret .ephemerals)

/-- The ratchet that the session begins a channel with, if its keys rest on this material. -/
def firstRatchet (s : Session) (c : Channel) (m : Bytes) : Ratchet :=
  .fresh (firstChainKey c.generation (s.sender c.direction) m) s.config

/-- The session's ratchets follow from its handshake and from the turns made since. -/
structure Scheduled (secret : Key) (s : Session) : Prop where
  phased : s.WellPhased
  begins : 0 ≤ s.config.initialCounter
  pending : ∀ b, s.ephemeralSecret = some b → b = secret.val
  ratchets : ∀ c r, s.slots.get c = .live r →
    ∃ m n, s.material secret c.generation = .ok m ∧ r = (s.firstRatchet c m).advance n

variable {s t : Session} {op : Operation} {secret : Key}

theorem sender_run (s : Session) (ops : List Operation) (d : Direction) :
    (s.run ops).sender d = s.sender d := by
  obtain ⟨-, -, hme, hpeer, -⟩ := fields_of_fixedPart (fixedPart_run s ops)
  cases d with
  | outgoing => exact congrArg LocalIdentity.identity hme
  | incoming => exact congrArg Contact.identity hpeer

theorem firstRatchet_run (s : Session) (ops : List Operation) (c : Channel) (m : Bytes) :
    (s.run ops).firstRatchet c m = s.firstRatchet c m := by
  obtain ⟨-, -, -, -, hconfig, -⟩ := fields_of_fixedPart (fixedPart_run s ops)
  rw [firstRatchet, firstRatchet, sender_run, hconfig]

private theorem material_twoDh {k₁ k₂ : Key} (h₁ : s.shared secret .statics = .ok k₁)
    (h₂ : s.shared secret .initiatorEphemeral = .ok k₂) :
    s.material secret .twoDh = .ok (twoDhMaterial k₁ k₂) := by
  rw [material, h₁, h₂]
  rfl

private theorem material_fourDh {k₁ k₂ k₃ k₄ : Key} (h₁ : s.shared secret .statics = .ok k₁)
    (h₂ : s.shared secret .initiatorEphemeral = .ok k₂)
    (h₃ : s.shared secret .responderEphemeral = .ok k₃)
    (h₄ : s.shared secret .ephemerals = .ok k₄) :
    s.material secret .fourDh = .ok (fourDhMaterial k₁ k₂ k₃ k₄) := by
  rw [material, h₁, h₂, h₃, h₄]
  rfl

theorem material_fourDh_eq_ok {m : Bytes} (h : s.material secret .fourDh = .ok m) :
    ∃ k₁ k₂ k₃ k₄, s.shared secret .statics = .ok k₁ ∧
      s.shared secret .initiatorEphemeral = .ok k₂ ∧
      s.shared secret .responderEphemeral = .ok k₃ ∧ s.shared secret .ephemerals = .ok k₄ ∧
      m = fourDhMaterial k₁ k₂ k₃ k₄ := by
  obtain ⟨k₁, h₁, h⟩ := bind_eq_ok h
  obtain ⟨k₂, h₂, h⟩ := bind_eq_ok h
  obtain ⟨k₃, h₃, h⟩ := bind_eq_ok h
  obtain ⟨k₄, h₄, h⟩ := bind_eq_ok h
  exact ⟨k₁, k₂, k₃, k₄, h₁, h₂, h₃, h₄, (Except.ok.inj h).symm⟩

theorem material_congr (hrole : t.role = s.role) (hme : t.me = s.me)
    (hpeer : t.peer = s.peer) (hknown : t.peerEphemeral = s.peerEphemeral) (g : Generation) :
    t.material secret g = s.material secret g := by
  have hshared (a : Agreement) : t.shared secret a = s.shared secret a := by
    cases a <;> simp only [shared, peerOffer, hrole, hme, hpeer, hknown]
  cases g <;> simp only [material, hshared]

/-- What a ratchet rests on does not change any more once the session has it. -/
theorem WellPhased.material_run (hs : s.WellPhased) {d : Direction} {g : Generation}
    (hhas : s.Has ⟨d, g⟩) (ops : List Operation) :
    (s.run ops).material secret g = s.material secret g := by
  obtain ⟨-, hrole, hme, hpeer, -⟩ := fields_of_fixedPart (fixedPart_run s ops)
  cases he : s.peerEphemeral with
  | some e =>
    have hknown : (s.run ops).peerEphemeral = s.peerEphemeral := by
      rw [he, hs.run_peerEphemeral he ops]
    exact material_congr hrole hme hpeer hknown g
  | none =>
    have hunknown : ¬ s.peerEphemeral.isSome := by
      rw [he]
      nofun
    cases hr : s.role with
    | responder => exact absurd (hs.responder hr).2.peerEphemeral hunknown
    | initiator =>
      rcases hs.initiator hr with hwaiting | hsettled
      · cases g with
        | twoDh => simp only [material, shared, hrole, hr, hme, hpeer]
        | fourDh => exact absurd hwaiting.phase ((hs.fourDh d).mp hhas)
      · exact absurd hsettled.peerEphemeral hunknown

theorem scheduled_of_initiate {me : LocalIdentity} {peer : Contact} {config : Config}
    {listener : Listener} {id : SessionId}
    (h : (initiate me peer config listener secret id).answer = .ok s) : s.Scheduled secret := by
  obtain ⟨-, hbegins, k₁, k₂, h₁, h₂, rfl⟩ := initiate_eq_ok h
  refine ⟨wellPhased_initiatorStart .., hbegins.1, fun b hb => (Option.some.inj hb).symm, ?_⟩
  rintro ⟨_ | _, _ | _⟩ r hr
  · obtain rfl := Slot.live.inj hr
    exact ⟨_, 0, material_twoDh h₁ h₂, (Ratchet.advance_zero _).symm⟩
  · cases hr
  · obtain rfl := Slot.live.inj hr
    exact ⟨_, 0, material_twoDh h₁ h₂, (Ratchet.advance_zero _).symm⟩
  · cases hr

theorem scheduled_of_respond {me : LocalIdentity} {peer : Contact} {config : Config}
    {listener : Listener} {sessionId ephemeral : Offered}
    (h : (respond me peer config listener sessionId ephemeral secret).answer = .ok s) :
    s.Scheduled secret := by
  obtain ⟨-, hbegins, _, e, k₁, k₂, k₃, k₄, -, -, h₁, h₂, h₃, h₄, rfl⟩ := respond_eq_ok h
  refine ⟨wellPhased_responderStart .., hbegins.1, nofun, ?_⟩
  rintro ⟨_ | _, _ | _⟩ r hr
  · cases hr
  · obtain rfl := Slot.live.inj hr
    exact ⟨_, 0, material_fourDh h₁ h₂ h₃ h₄, (Ratchet.advance_zero _).symm⟩
  · obtain rfl := Slot.live.inj hr
    exact ⟨_, 0, material_twoDh h₁ h₂, (Ratchet.advance_zero _).symm⟩
  · obtain rfl := Slot.live.inj hr
    exact ⟨_, 0, material_fourDh h₁ h₂ h₃ h₄, (Ratchet.advance_zero _).symm⟩

private theorem Scheduled.putRatchet {c : Channel} {r : Ratchet} (hs : s.Scheduled secret)
    (h : s.slots.get c = .live r) (n : Nat) : (s.putRatchet c (r.advance n)).Scheduled secret := by
  refine ⟨hs.phased.putRatchet _ h, hs.begins, hs.pending, fun d r' hr' => ?_⟩
  by_cases hd : d = c
  · subst hd
    rw [get_putRatchet_self _ h] at hr'
    obtain rfl := Slot.live.inj hr'
    obtain ⟨m, k, hm, rfl⟩ := hs.ratchets d r h
    exact ⟨m, k + n, hm, Ratchet.advance_advance ..⟩
  · rw [get_putRatchet_of_ne s _ hd] at hr'
    exact hs.ratchets d r' hr'

private theorem Scheduled.accepted {ephemeral longTerm : Offered} (hs : s.Scheduled secret)
    (h : s.accepted ephemeral longTerm = .ok t) : t.Scheduled secret := by
  have hphased : t.WellPhased := hs.phased.accepted h
  have hrole : s.role = .initiator := by
    cases hrole : s.role with
    | initiator => rfl
    | responder =>
      exact absurd (hs.phased.waiting_of_accepted h).phase (hs.phased.responder hrole).1
  obtain ⟨left, material, four, hpending, -, hmaterial, hfour, rfl⟩ := accepted_eq_ok h
  obtain rfl : left = secret.val := hs.pending left (pendingSecret_eq_ok hpending)
  obtain ⟨e, k₁, k₂, k₃, k₄, he, h₁, h₂, h₃, h₄, rfl⟩ := initiatorMaterial_eq_ok hmaterial
  obtain ⟨-, hfour⟩ := startRatchets_eq_ok hfour
  have hoffer : (s.completed ephemeral four).peerOffer = .fixed e := by
    simp only [peerOffer, completed, he]
  have hrole' : (s.completed ephemeral four).role = .initiator := hrole
  have hm : (s.completed ephemeral four).material secret .fourDh =
      .ok (fourDhMaterial k₁ k₂ k₃ k₄) := by
    refine material_fourDh h₁ ?_ ?_ ?_
    · rw [shared, hrole']
      exact h₂
    · rw [shared, hrole', hoffer]
      exact h₃
    · rw [shared, hoffer]
      exact h₄
  refine ⟨hphased, hs.begins, nofun, ?_⟩
  rintro ⟨d, _ | _⟩ r hr
  · exact absurd (has_iff.mpr ⟨r, hr⟩) (has_completed_twoDh s ephemeral four d)
  · refine ⟨_, 0, hm, ?_⟩
    rw [Ratchet.advance_zero]
    cases d with
    | outgoing =>
      obtain rfl : four.1 = r := Slot.live.inj hr
      rw [hfour]
      rfl
    | incoming =>
      obtain rfl : four.2 = r := Slot.live.inj hr
      rw [hfour]
      rfl

private theorem Scheduled.withoutTwoDh (hs : s.Scheduled secret)
    (known : s.phase ≠ .initiatorTwoDh) :
    s.withoutTwoDh.Scheduled secret := by
  refine ⟨hs.phased.withoutTwoDh known, hs.begins, hs.pending, ?_⟩
  rintro ⟨d, _ | _⟩ r hr
  · exact absurd (has_iff.mpr ⟨r, hr⟩) (has_withoutTwoDh_twoDh s d)
  · rw [get_withoutTwoDh_fourDh] at hr
    exact hs.ratchets _ r hr

private theorem Scheduled.step (hs : s.Scheduled secret) (h : Step s op t) :
    t.Scheduled secret := by
  cases h with
  | idle op => exact hs
  | turned n asked live keyed room => exact hs.putRatchet live n
  | accepted taken => exact hs.accepted taken
  | stripped known => exact hs.withoutTwoDh known

theorem Scheduled.run (hs : s.Scheduled secret) (ops : List Operation) :
    (s.run ops).Scheduled secret :=
  run_induction (fun _ _ _ hstep ht => ht.step hstep) hs ops

end Session

end RatchetSession
