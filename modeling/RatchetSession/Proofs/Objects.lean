import RatchetSession.Proofs.Separation

/-!
# What is written to the object of a session

A write to the object of a session changes the session as a value, and is not felt by the others:
`Memory.Rewrites`.
-/

set_option autoImplicit false
set_option relaxedAutoImplicit false

namespace RatchetSession

namespace Memory

variable {m m' m'' : Memory} {a b x : Nat} {c : Channel} {r : Ratchet} {s t : Session}

/-- What is done with a session and with the ratchets that it uses is not felt by other sessions
and their ratchets, nor by ratchets that no session uses. A ratchet that the session comes to use is
a new one. -/
structure Frame (m : Memory) (a : Nat) (m' : Memory) : Prop where
  session : ∀ b, b ≠ a → m'.session? b = m.session? b
  field : ∀ b c, b ≠ a → m'.field? b c = m.field? b c
  ratchet : ∀ x, x < m.ratchets.size → (∀ c, m.field? a c ≠ some x) → m'.ratchet x = m.ratchet x
  fresh : ∀ c x, m'.field? a c = some x → m.field? a c = some x ∨ m.ratchets.size ≤ x
  size : m.ratchets.size ≤ m'.ratchets.size

private theorem Frame.refl (m : Memory) (a : Nat) : m.Frame a m :=
  ⟨fun _ _ => rfl, fun _ _ _ => rfl, fun _ _ _ => rfl, fun _ _ => .inl, Nat.le_refl _⟩

private theorem Frame.trans {m'' : Memory} (h : m.Frame a m') (h' : m'.Frame a m'') :
    m.Frame a m'' := by
  refine ⟨fun b hb => (h'.session b hb).trans (h.session b hb),
    fun b c hb => (h'.field b c hb).trans (h.field b c hb), fun x hx hunused => ?_,
    fun c x hx => ?_, Nat.le_trans h.size h'.size⟩
  · rw [h'.ratchet x (Nat.lt_of_lt_of_le hx h.size), h.ratchet x hx hunused]
    intro c hc
    rcases h.fresh c x hc with hold | hnew
    · exact hunused c hold
    · omega
  · rcases h'.fresh c x hx with hold | hnew
    · exact h.fresh c x hold
    · exact .inr (Nat.le_trans h.size hnew)

private theorem Evolves.frame (hm : m.Separate) (h : m.Evolves x r m')
    (hx : m.field? a c = some x) :
    m.Frame a m' := by
  refine ⟨fun b hb => ?_, fun b d _ => h.field? b d, fun y _ hunused => ?_, fun d y hy => ?_,
    h.size⟩
  · exact h.session?_of_unused fun d hd => hb (hm.channel b d a c x hd hx).1
  · apply h.others
    rintro rfl
    exact hunused c hx
  · rw [h.field?] at hy
    exact .inl hy

section

variable {o : SessionObject} {f : SessionObject → SessionObject}

private theorem modifySession_eq (ho : m.sessions[a]? = some o)
    (f : SessionObject → SessionObject) :
    m.modifySession a f = { m with sessions := m.sessions.setIfInBounds a (f o) } := by
  simp only [modifySession, ho]

private theorem sessions_modifySession_self (ho : m.sessions[a]? = some o)
    (f : SessionObject → SessionObject) : (m.modifySession a f).sessions[a]? = some (f o) := by
  have hlt : a < m.sessions.size := (Array.getElem?_eq_some_iff.mp ho).1
  simp only [modifySession_eq ho, Array.getElem?_setIfInBounds_self, if_pos hlt]

private theorem sessions_modifySession_of_ne (ho : m.sessions[a]? = some o)
    (f : SessionObject → SessionObject) {b : Nat} (hb : b ≠ a) :
    (m.modifySession a f).sessions[b]? = m.sessions[b]? := by
  simp only [modifySession_eq ho, Array.getElem?_setIfInBounds_ne (Ne.symm hb)]

private theorem buffers_modifySession (m : Memory) (a : Nat) (f : SessionObject → SessionObject) :
    (m.modifySession a f).buffers = m.buffers := by
  unfold modifySession
  split <;> rfl

private theorem ratchets_modifySession (m : Memory) (a : Nat) (f : SessionObject → SessionObject) :
    (m.modifySession a f).ratchets = m.ratchets := by
  unfold modifySession
  split <;> rfl

private theorem ratchet_modifySession (m : Memory) (a : Nat) (f : SessionObject → SessionObject)
    (x : Nat) :
    (m.modifySession a f).ratchet x = m.ratchet x :=
  ratchet_congr (by rw [ratchets_modifySession]) fun b _ =>
    buffer_congr (buffers_modifySession m a f) b

private theorem owned?_modifySession (ho : m.sessions[a]? = some o)
    (secret : (f o).ephemeralSecret = o.ephemeralSecret) (p : Owner) :
    (m.modifySession a f).owned? p = m.owned? p := by
  cases p with
  | ratchet x => simp only [owned?, ratchets_modifySession]
  | session b =>
    by_cases hb : b = a
    · subst hb
      simp only [owned?, sessions_modifySession_self ho f, ho, Option.bind_some, secret]
    · simp only [owned?, sessions_modifySession_of_ne ho f hb]

private theorem field?_modifySession_of_ne (ho : m.sessions[a]? = some o) {b : Nat} (hb : b ≠ a)
    (c : Channel) : (m.modifySession a f).field? b c = m.field? b c := by
  simp only [field?, sessions_modifySession_of_ne ho f hb]

private theorem session?_modifySession_of_ne (ho : m.sessions[a]? = some o) {b : Nat} (hb : b ≠ a) :
    (m.modifySession a f).session? b = m.session? b :=
  session?_congr (sessions_modifySession_of_ne ho f hb)
    (fun d _ => buffer_congr (buffers_modifySession m a f) d)
    fun _ x _ => ratchet_modifySession m a f x

private theorem session?_modifySession_self (ho : m.sessions[a]? = some o) :
    (m.modifySession a f).session? a = some (m.read (f o)) := by
  rw [session?_eq (sessions_modifySession_self ho f)]
  exact congrArg some (read_congr (fun d _ => buffer_congr (buffers_modifySession m a f) d)
    fun _ x _ => ratchet_modifySession m a f x)

private theorem separate_modifySession (hm : m.Separate) (ho : m.sessions[a]? = some o)
    (secret : (f o).ephemeralSecret = o.ephemeralSecret)
    (channel : ∀ b c b' c' x, (m.modifySession a f).field? b c = some x →
      (m.modifySession a f).field? b' c' = some x → b = b' ∧ c = c')
    (object : ∀ b c x, (m.modifySession a f).field? b c = some x → x < m.ratchets.size) :
    (m.modifySession a f).Separate := by
  refine ⟨fun p q b hp hq => ?_, fun p b hp => ?_, channel, ?_⟩
  · rw [owned?_modifySession ho secret] at hp hq
    exact hm.owner p q b hp hq
  · rw [owned?_modifySession ho secret] at hp
    rw [buffers_modifySession]
    exact hm.buffer p b hp
  · rwa [ratchets_modifySession]

/-- A write makes the session at a place another one. -/
structure Rewrites (m : Memory) (a : Nat) (s : Session) (m' : Memory) : Prop where
  separate : m'.Separate
  frame : m.Frame a m'
  session : m'.session? a = some s

theorem Rewrites.refl (hm : m.Separate) (hs : m.session? a = some s) : m.Rewrites a s m :=
  ⟨hm, .refl m a, hs⟩

theorem Rewrites.trans (h : m.Rewrites a s m') (h' : m'.Rewrites a t m'') : m.Rewrites a t m'' :=
  ⟨h'.separate, h.frame.trans h'.frame, h'.session⟩

theorem Evolves.rewrites (hm : m.Separate) (h : m.Evolves x r m') (hx : m.field? a c = some x)
    (hs : m.session? a = some s) : m.Rewrites a (s.putRatchet c r) m' :=
  ⟨h.separate, h.frame hm hx, h.session?_of_field hm hx hs⟩

private theorem rewrites_modifySession (hm : m.Separate) (ho : m.sessions[a]? = some o)
    (secret : (f o).ephemeralSecret = o.ephemeralSecret)
    (fields : ∀ c x, (f o).ratchets.get c = some x → o.ratchets.get c = some x) :
    m.Rewrites a (m.read (f o)) (m.modifySession a f) := by
  have hfield (b : Nat) (c : Channel) (x : Nat) (hx : (m.modifySession a f).field? b c = some x) :
      m.field? b c = some x := by
    by_cases hb : b = a
    · subst hb
      rw [field?_eq (sessions_modifySession_self ho f)] at hx
      rw [field?_eq ho]
      exact fields c x hx
    · rwa [field?_modifySession_of_ne ho hb] at hx
  refine ⟨?_, ?_, session?_modifySession_self ho⟩
  · apply separate_modifySession hm ho secret
    · intro b c b' c' x hx hx'
      exact hm.channel b c b' c' x (hfield b c x hx) (hfield b' c' x hx')
    · intro b c x hx
      exact hm.object b c x (hfield b c x hx)
  · exact ⟨fun b hb => session?_modifySession_of_ne ho hb,
      fun b c hb => field?_modifySession_of_ne ho hb c,
      fun x _ _ => ratchet_modifySession m a f x, fun c x hx => .inl (hfield a c x hx),
      Nat.le_of_eq (by rw [ratchets_modifySession])⟩

end

theorem session?_eq_some (hs : m.session? a = some s) :
    ∃ o, m.sessions[a]? = some o ∧ s = m.read o := by
  obtain ⟨o, ho, rfl⟩ := Option.map_eq_some_iff.mp hs
  exact ⟨o, ho, rfl⟩

theorem rewrites_setPeerEphemeral (hm : m.Separate) (hs : m.session? a = some s)
    (key : Option Bytes) :
    m.Rewrites a { s with peerEphemeral := key } (m.setPeerEphemeral a key) ∧
      (∀ c, (m.setPeerEphemeral a key).field? a c = m.field? a c) ∧
      ∀ x, (m.setPeerEphemeral a key).ratchet x = m.ratchet x := by
  obtain ⟨o, ho, rfl⟩ := session?_eq_some hs
  refine ⟨rewrites_modifySession (f := fun o => { o with peerEphemeral := key }) hm ho rfl
    fun _ _ h => h, fun c => ?_, ratchet_modifySession m a _⟩
  rw [setPeerEphemeral, field?_eq (sessions_modifySession_self ho _), field?_eq ho]

private theorem slots_set (f : Fields) (m : Memory) (x : Option Nat) (c : Channel) :
    (f.set x c).slots m.slot = (f.slots m.slot).set (m.slot x) c := by
  rcases c with ⟨_ | _, _ | _⟩ <;> rfl

private theorem rewrites_clearField (hm : m.Separate) (hs : m.session? a = some s) (c : Channel) :
    m.Rewrites a { s with slots := s.slots.set .empty c } (m.clearField a c) := by
  obtain ⟨o, ho, rfl⟩ := session?_eq_some hs
  have hread : m.read { o with ratchets := o.ratchets.set none c } =
      { m.read o with slots := (m.read o).slots.set .empty c } := by
    simp only [read, slots_set]
    rfl
  rw [← hread]
  apply rewrites_modifySession hm ho rfl
  intro d x hx
  rw [Fields.get_set] at hx
  split_ifs at hx
  exact hx

private theorem field?_clearField (hs : m.session? a = some s) (c d : Channel) :
    (m.clearField a c).field? a d = if d = c then none else m.field? a d := by
  obtain ⟨o, ho, rfl⟩ := session?_eq_some hs
  rw [clearField, field?_eq (sessions_modifySession_self ho _), field?_eq ho]
  exact Fields.get_set ..

private theorem ratchet_clearField (m : Memory) (a : Nat) (c : Channel) (x : Nat) :
    (m.clearField a c).ratchet x = m.ratchet x := ratchet_modifySession ..

private theorem discardField_spec (hm : m.Separate) (hs : m.session? a = some s) (c : Channel) :
    (∃ y, m.Rewrites a { s with slots := s.slots.set y c } (m.discardField a c)) ∧
      (∀ d, (m.discardField a c).field? a d = m.field? a d) ∧
      ∀ x, (m.discardField a c).ratchet x =
        if m.field? a c = some x then (m.ratchet x).discard else m.ratchet x := by
  cases hx : m.field? a c with
  | none =>
    have hsame : m.discardField a c = m := by simp only [discardField, hx]
    rw [hsame]
    refine ⟨⟨s.slots.get c, ?_⟩, fun d => rfl, fun x => by rw [if_neg nofun]⟩
    rw [Slots.set_get]
    exact .refl hm hs
  | some y =>
    have hdiscard : m.discardField a c = m.discard y := by simp only [discardField, hx]
    rw [hdiscard]
    have h := evolves_discard hm (hm.object a c y hx)
    refine ⟨⟨_, h.rewrites hm hx hs⟩, h.field? a, fun x => ?_⟩
    by_cases hxy : x = y
    · rw [if_pos (congrArg some hxy.symm), hxy, h.ratchet]
    · rw [if_neg (fun heq => hxy (Option.some.inj heq).symm), h.others x hxy]

/-- The ratchets of two agreements are discarded for whoever else refers to them. -/
theorem giveUpTwoDh_spec (hm : m.Separate) (hs : m.session? a = some s) :
    m.Rewrites a
        { s with slots := { s.slots with twoOutgoing := .empty, twoIncoming := .empty } }
        (m.giveUpTwoDh a) ∧
      (∀ d, (m.giveUpTwoDh a).field? a d = if d.generation = .twoDh then none else m.field? a d) ∧
      ∀ d x, m.field? a ⟨d, .twoDh⟩ = some x →
        (m.giveUpTwoDh a).ratchet x = (m.ratchet x).discard := by
  obtain ⟨⟨y, h₁⟩, hfield₁, hratchet₁⟩ := discardField_spec hm hs ⟨.outgoing, .twoDh⟩
  obtain ⟨⟨z, h₂⟩, hfield₂, hratchet₂⟩ :=
    discardField_spec h₁.separate h₁.session ⟨.incoming, .twoDh⟩
  have h₃ := rewrites_clearField h₂.separate h₂.session ⟨.outgoing, .twoDh⟩
  have h₄ := rewrites_clearField h₃.separate h₃.session ⟨.incoming, .twoDh⟩
  refine ⟨((h₁.trans h₂).trans h₃).trans h₄, fun d => ?_, fun d x hx => ?_⟩
  · simp only [giveUpTwoDh]
    rw [field?_clearField h₃.session, field?_clearField h₂.session, hfield₂, hfield₁]
    rcases d with ⟨_ | _, _ | _⟩ <;> rfl
  · simp only [giveUpTwoDh]
    rw [ratchet_clearField, ratchet_clearField, hratchet₂, hfield₁, hratchet₁]
    cases d with
    | outgoing =>
      have hin : m.field? a ⟨.incoming, .twoDh⟩ ≠ some x := by
        intro hin
        cases (hm.channel _ _ _ _ _ hx hin).2
      rw [if_neg hin, if_pos hx]
    | incoming =>
      have hout : m.field? a ⟨.outgoing, .twoDh⟩ ≠ some x := by
        intro hout
        cases (hm.channel _ _ _ _ _ hx hout).2
      rw [if_pos hx, if_neg hout]

/-- An object for a session is written at its place, and a buffer for what it keeps. -/
private theorem rewrites_of_renewed {o : SessionObject} (new : Option Bytes) (hm : m.Separate)
    (hself : m'.sessions[a]? = some o) (hother : ∀ b, b ≠ a → m'.sessions[b]? = m.sessions[b]?)
    (hratchets : m'.ratchets = m.ratchets)
    (hbuffers : m'.buffers = (m.renew (m.owned? (.session a)) new).1.buffers)
    (hsecret : o.ephemeralSecret = (m.renew (m.owned? (.session a)) new).2)
    (hfields : ∀ c, m'.field? a c = m.field? a c) :
    m.Rewrites a (m'.read o) m' ∧ (∀ x, m'.ratchet x = m.ratchet x) ∧
      o.ephemeralSecret.map m'.buffer = new := by
  have hown : m'.owned? (.session a) = o.ephemeralSecret := by
    simp only [owned?, hself, Option.bind_some]
  have hfield (b : Nat) (c : Channel) : m'.field? b c = m.field? b c := by
    by_cases hb : b = a
    · rw [hb, hfields]
    · simp only [field?, hother b hb]
  have hnew : m.Renewed (.session a) new m' := by
    refine ⟨hbuffers, hown.trans hsecret, fun q hq => ?_, hfield, Nat.le_of_eq (by rw [hratchets])⟩
    cases q with
    | ratchet x => simp only [owned?, hratchets]
    | session b =>
      have hb : b ≠ a := fun heq => hq (congrArg Owner.session heq)
      simp only [owned?, hother b hb]
  have hratchet (x : Nat) : m'.ratchet x = m.ratchet x := by
    have hne : Owner.ratchet x ≠ .session a := by
      intro heq
      cases heq
    exact hnew.ratchet hm hne (by rw [hratchets])
  refine ⟨⟨hnew.separate hm, ⟨fun b hb => ?_, fun b c _ => hfield b c, fun x _ _ => hratchet x,
    fun c x hx => .inl (hfield a c ▸ hx), hnew.size⟩, session?_eq hself⟩, hratchet, ?_⟩
  · have hne : Owner.session b ≠ .session a := fun heq => hb (Owner.session.inj heq)
    exact session?_congr (hother b hb) (fun d hd => hnew.buffer hm hne hd) fun _ x _ => hratchet x
  · rw [← hown]
    exact hnew.kept

theorem rewrites_wipeSecret (hm : m.Separate) (hs : m.session? a = some s) :
    m.Rewrites a { s with ephemeralSecret := none } (m.wipeSecret a) ∧
      (∀ c, (m.wipeSecret a).field? a c = m.field? a c) ∧
      ∀ x, (m.wipeSecret a).ratchet x = m.ratchet x := by
  obtain ⟨o, ho, rfl⟩ := session?_eq_some hs
  have ho' : (m.erase o.ephemeralSecret).sessions[a]? = some o := by
    rw [← ho]
    cases o.ephemeralSecret <;> rfl
  have hlaid : (m.erase o.ephemeralSecret).ratchets = m.ratchets ∧
      (m.erase o.ephemeralSecret).sessions = m.sessions := by
    cases o.ephemeralSecret <;> exact ⟨rfl, rfl⟩
  have hwipe : m.wipeSecret a = (m.erase o.ephemeralSecret).modifySession a fun o =>
      { o with ephemeralSecret := none } := by
    simp only [wipeSecret, ho, Option.bind_some]
  have hself := sessions_modifySession_self ho' fun o => { o with ephemeralSecret := none }
  have hother (b : Nat) (hb : b ≠ a) :=
    sessions_modifySession_of_ne ho' (fun o => { o with ephemeralSecret := none }) hb
  rw [← hwipe] at hself hother
  rw [hlaid.2] at hother
  have hown : m.owned? (.session a) = o.ephemeralSecret := by
    simp only [owned?, ho, Option.bind_some]
  have hbuffers : (m.wipeSecret a).buffers = (m.renew o.ephemeralSecret none).1.buffers := by
    rw [hwipe, buffers_modifySession]
    rfl
  have hfield (c : Channel) : (m.wipeSecret a).field? a c = m.field? a c := by
    rw [field?_eq hself, field?_eq ho]
  obtain ⟨hrewrites, hratchet, -⟩ := rewrites_of_renewed none hm hself hother
    (by rw [hwipe, ratchets_modifySession, hlaid.1]) (by rw [hown, hbuffers]) rfl hfield
  have hslots : (m.wipeSecret a).slot = m.slot := by
    funext y
    cases y with
    | none => rfl
    | some y => exact congrArg Slot.live (hratchet y)
  have hread : (m.wipeSecret a).read { o with ephemeralSecret := none } =
      { m.read o with ephemeralSecret := none } := by
    simp only [read, hslots]
    rfl
  rw [← hread]
  exact ⟨hrewrites, hfield, hratchet⟩

section

variable {o : SessionObject} (hm : m.Separate) (ho : m.sessions[a]? = some o) (c : Channel)
  (r : Ratchet)
include hm ho

private theorem sessions_addRatchet : (m.addRatchet r).sessions[a]? = some o := by
  rw [(evolves_addRatchet hm r).sessions, ho]

private theorem field?_attach (b : Nat) (d : Channel) :
    (m.attach a c r).field? b d =
      if b = a ∧ d = c then some m.ratchets.size else m.field? b d := by
  have ho' := sessions_addRatchet hm ho r
  by_cases hb : b = a
  · subst hb
    simp only [true_and]
    rw [attach, field?_eq (sessions_modifySession_self ho' _), field?_eq ho]
    exact Fields.get_set ..
  · rw [if_neg fun hboth => hb hboth.1, attach, field?_modifySession_of_ne ho' hb]
    exact (evolves_addRatchet hm r).field? b d

/-- Every place that is referred to was referred to before, or it is the new one. -/
private theorem field?_attach_cases {b : Nat} {d : Channel}
    (hx : (m.attach a c r).field? b d = some x) :
    m.field? b d = some x ∧ x < m.ratchets.size ∨ b = a ∧ d = c ∧ x = m.ratchets.size := by
  rw [field?_attach hm ho] at hx
  split_ifs at hx with hnew
  · exact .inr ⟨hnew.1, hnew.2, (Option.some.inj hx).symm⟩
  · exact .inl ⟨hx, hm.object b d x hx⟩

omit ho in
private theorem ratchet_attach (hx : x < m.ratchets.size) :
    (m.attach a c r).ratchet x = m.ratchet x := by
  rw [attach, ratchet_modifySession]
  exact (evolves_addRatchet hm r).others x (Nat.ne_of_lt hx)

private theorem separate_attach : (m.attach a c r).Separate := by
  have hcases {b : Nat} {d : Channel} {x : Nat} (hx : (m.attach a c r).field? b d = some x) :=
    field?_attach_cases hm ho c r hx
  apply separate_modifySession (evolves_addRatchet hm r).separate (sessions_addRatchet hm ho r) rfl
  · intro b d b' d' x hx hx'
    rcases hcases hx with ⟨hold, hlt⟩ | ⟨rfl, rfl, hnew⟩ <;>
      rcases hcases hx' with ⟨hold', hlt'⟩ | ⟨rfl, rfl, hnew'⟩
    · exact hm.channel b d b' d' x hold hold'
    · omega
    · omega
    · exact ⟨rfl, rfl⟩
  · intro b d x hx
    rw [size_addRatchet]
    rcases hcases hx with ⟨-, hlt⟩ | ⟨-, -, hnew⟩
    · omega
    · omega

private theorem frame_attach : m.Frame a (m.attach a c r) := by
  have hadd := evolves_addRatchet hm r
  have ho' := sessions_addRatchet hm ho r
  refine ⟨fun b hb => ?_, fun b d hb => ?_, fun x hx _ => ratchet_attach hm c r hx,
    fun d x hx => ?_, ?_⟩
  · rw [attach, session?_modifySession_of_ne ho' hb]
    exact hadd.session?_of_unused fun d hx => Nat.lt_irrefl _ (hm.object b d _ hx)
  · rw [field?_attach hm ho, if_neg fun hboth => hb hboth.1]
  · rcases field?_attach_cases hm ho c r hx with ⟨hold, -⟩ | ⟨-, -, hnew⟩
    · exact .inl hold
    · exact .inr (Nat.le_of_eq hnew.symm)
  · rw [attach, ratchets_modifySession, size_addRatchet]
    omega

private theorem session?_attach :
    (m.attach a c r).session? a =
      some { m.read o with slots := (m.read o).slots.set (.live r) c } := by
  have hadd := evolves_addRatchet hm r
  have ho' := sessions_addRatchet hm ho r
  rw [attach, session?_modifySession_self ho']
  have hread : (m.addRatchet r).read o = m.read o := by
    have hsame := hadd.session?_of_unused fun d hx => Nat.lt_irrefl _ (hm.object a d _ hx)
    rw [session?_eq ho', session?_eq ho] at hsame
    exact Option.some.inj hsame
  have hslot : (m.addRatchet r).slot (some m.ratchets.size) = .live r :=
    congrArg Slot.live hadd.ratchet
  rw [← hread]
  simp only [read, slots_set, hslot]

end

theorem rewrites_attach (hm : m.Separate) (hs : m.session? a = some s) (c : Channel) (r : Ratchet) :
    m.Rewrites a { s with slots := s.slots.set (.live r) c } (m.attach a c r) ∧
      (∀ x, x < m.ratchets.size → (m.attach a c r).ratchet x = m.ratchet x) ∧
      (∀ d, (m.attach a c r).field? a d =
        if d = c then some m.ratchets.size else m.field? a d) := by
  obtain ⟨o, ho, rfl⟩ := session?_eq_some hs
  refine ⟨⟨separate_attach hm ho c r, frame_attach hm ho c r, session?_attach hm ho c r⟩,
    fun x hx => ratchet_attach hm c r hx, fun d => ?_⟩
  simp only [field?_attach hm ho, true_and]

private theorem addBare_eq (m : Memory) (s : Session) :
    ∃ o : SessionObject, m.addBare s =
        { buffers := (m.renew none s.ephemeralSecret).1.buffers
          ratchets := m.ratchets
          sessions := m.sessions.push o } ∧
      o.ephemeralSecret = (m.renew none s.ephemeralSecret).2 ∧ o.ratchets = {} ∧
      ∀ m' : Memory,
        m'.read o = { s with ephemeralSecret := o.ephemeralSecret.map m'.buffer, slots := {} } := by
  have hsame (secret : Option Nat) : (⟨s.id, s.role, s.me, s.peer, s.config, s.listener,
      s.ephemeralPublic, secret, s.peerEphemeral, {}⟩ : SessionObject).ratchets = {} := rfl
  unfold addBare
  cases s.ephemeralSecret with
  | none => exact ⟨_, rfl, rfl, hsame _, fun m' => rfl⟩
  | some v => exact ⟨_, rfl, rfl, hsame _, fun m' => rfl⟩

private theorem rewrites_addBare (hm : m.Separate) (s : Session) :
    m.Rewrites m.sessions.size { s with slots := {} } (m.addBare s) := by
  obtain ⟨o, hbare, hsecret, hnone, hread⟩ := addBare_eq m s
  have hself : (m.addBare s).sessions[m.sessions.size]? = some o := by
    simp only [hbare, Array.getElem?_push, if_true]
  have hother (b : Nat) (hb : b ≠ m.sessions.size) :
      (m.addBare s).sessions[b]? = m.sessions[b]? := by
    simp only [hbare, Array.getElem?_push, if_neg hb]
  have hold : m.sessions[m.sessions.size]? = none := Array.getElem?_eq_none (Nat.le_refl _)
  have hown : m.owned? (.session m.sessions.size) = none := by
    simp only [owned?, hold, Option.bind_none]
  have hfield (c : Channel) :
      (m.addBare s).field? m.sessions.size c = m.field? m.sessions.size c := by
    rw [field?_eq hself, hnone, field?, hold]
    rcases c with ⟨_ | _, _ | _⟩ <;> rfl
  obtain ⟨hrewrites, -, hkept⟩ := rewrites_of_renewed s.ephemeralSecret hm hself hother
    (by rw [hbare]) (by rw [hown, hbare]) (by rw [hown, hsecret]) hfield
  rwa [hread, hkept] at hrewrites

private theorem rewrites_attachSlot (hm : m.Separate) (hs : m.session? a = some s) (slots : Slots)
    (hc : s.slots.get c = .empty) :
    m.Rewrites a { s with slots := s.slots.set (slots.get c).kept c } (attachSlot a slots m c) := by
  have hunused : m.Rewrites a { s with slots := s.slots.set .empty c } m := by
    rw [← hc, Slots.set_get]
    exact .refl hm hs
  unfold attachSlot
  cases slots.get c with
  | live r => exact (rewrites_attach hm hs c r).1
  | empty => exact hunused
  | retired r => exact hunused

theorem rewrites_addSession (hm : m.Separate) (s : Session) :
    m.Rewrites m.sessions.size s.kept (m.addSession s) := by
  have h₀ := rewrites_addBare hm s
  have h₁ := rewrites_attachSlot h₀.separate h₀.session s.slots (c := ⟨.outgoing, .twoDh⟩) rfl
  have h₂ := rewrites_attachSlot h₁.separate h₁.session s.slots (c := ⟨.incoming, .twoDh⟩) rfl
  have h₃ := rewrites_attachSlot h₂.separate h₂.session s.slots (c := ⟨.outgoing, .fourDh⟩) rfl
  have h₄ := rewrites_attachSlot h₃.separate h₃.session s.slots (c := ⟨.incoming, .fourDh⟩) rfl
  exact (((h₀.trans h₁).trans h₂).trans h₃).trans h₄

end Memory

end RatchetSession
