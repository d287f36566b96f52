import RatchetSession.Memory.Operation
import RatchetSession.Proofs.Independence

/-!
# Separate objects

A buffer belongs to one ratchet or to one session, and an object for a ratchet to one channel of one
session at most: `Memory.Separate`. So what is done with one of them is seen by those alone who
refer to it.
-/

set_option autoImplicit false
set_option relaxedAutoImplicit false

namespace RatchetSession

/-- Who keeps something in a buffer: a ratchet its chain key, a session its ephemeral secret. -/
inductive Owner
  | ratchet (x : Nat)
  | session (a : Nat)

namespace Memory

def owned? (m : Memory) : Owner → Option Nat
  | .ratchet x => m.ratchets[x]?.bind (·.chainKey)
  | .session a => m.sessions[a]?.bind (·.ephemeralSecret)

structure Separate (m : Memory) : Prop where
  owner : ∀ p q b, m.owned? p = some b → m.owned? q = some b → p = q
  buffer : ∀ p b, m.owned? p = some b → b < m.buffers.size
  channel : ∀ a c a' c' x, m.field? a c = some x → m.field? a' c' = some x → a = a' ∧ c = c'
  object : ∀ a c x, m.field? a c = some x → x < m.ratchets.size

/-- What one owner keeps is erased and replaced, in a memory otherwise laid out as before. -/
structure Renewed (m : Memory) (p : Owner) (new : Option Bytes) (m' : Memory) : Prop where
  buffers : m'.buffers = (m.renew (m.owned? p) new).1.buffers
  own : m'.owned? p = (m.renew (m.owned? p) new).2
  others : ∀ q, q ≠ p → m'.owned? q = m.owned? q
  field : ∀ a c, m'.field? a c = m.field? a c
  size : m.ratchets.size ≤ m'.ratchets.size

section

variable {m m' : Memory} {p q : Owner} {a b x y : Nat} {c : Channel} {o : RatchetObject}
  {old : Option Nat} {new : Option Bytes} {r : Ratchet} {s : Session}

theorem separate_empty : ({} : Memory).Separate := by
  refine ⟨fun p q b hp => ?_, fun p b hp => ?_, nofun, nofun⟩
  · cases p <;> cases hp
  · cases p <;> cases hp

private theorem ratchets_renew (m : Memory) (old : Option Nat) (new : Option Bytes) :
    (m.renew old new).1.ratchets = m.ratchets := by
  cases old <;> cases new <;> rfl

private theorem sessions_renew (m : Memory) (old : Option Nat) (new : Option Bytes) :
    (m.renew old new).1.sessions = m.sessions := by
  cases old <;> cases new <;> rfl

private theorem size_erase (m : Memory) (old : Option Nat) :
    (m.erase old).buffers.size = m.buffers.size := by
  cases old with
  | none => rfl
  | some b => exact Array.size_setIfInBounds

private theorem buffer_erase (m : Memory) (h : old ≠ some b) :
    (m.erase old).buffer b = m.buffer b := by
  cases old with
  | none => rfl
  | some b' =>
    have hne : b' ≠ b := fun heq => h (congrArg some heq)
    simp only [erase, buffer, Array.getElem?_setIfInBounds_ne hne]

private theorem size_renew (m : Memory) (old : Option Nat) (new : Option Bytes) :
    m.buffers.size ≤ (m.renew old new).1.buffers.size := by
  have hold := size_erase m old
  cases new with
  | none => exact Nat.le_of_eq hold.symm
  | some v =>
    show _ ≤ ((m.erase old).buffers.push v).size
    rw [Array.size_push]
    omega

private theorem buffer_renew (h : old ≠ some b) (hb : b < m.buffers.size) :
    (m.renew old new).1.buffer b = m.buffer b := by
  rw [← buffer_erase m h]
  cases new with
  | none => rfl
  | some v =>
    have hne : b ≠ (m.erase old).buffers.size := by
      rw [size_erase]
      omega
    simp only [renew, keep, buffer, Array.getElem?_push, if_neg hne]

private theorem renew_eq_some (h : (m.renew old new).2 = some b) :
    b = m.buffers.size ∧ b < (m.renew old new).1.buffers.size ∧
      new = some ((m.renew old new).1.buffer b) := by
  cases new with
  | none => cases h
  | some v =>
    obtain rfl : (m.erase old).buffers.size = b := Option.some.inj h
    refine ⟨size_erase m old, ?_, ?_⟩
    · show _ < ((m.erase old).buffers.push v).size
      rw [Array.size_push]
      omega
    · simp only [renew, keep, buffer, Array.getElem?_push, if_true, Option.getD_some]

private theorem renew_eq_none (h : (m.renew old new).2 = none) : new = none := by
  cases new with
  | none => rfl
  | some v => cases h

theorem buffer_congr (h : m'.buffers = m.buffers) (b : Nat) : m'.buffer b = m.buffer b := by
  rw [buffer, buffer, h]

namespace Renewed

variable (hm : m.Separate) (h : m.Renewed p new m')
include hm h

theorem buffer (hq : q ≠ p) (hb : m.owned? q = some b) : m'.buffer b = m.buffer b := by
  have hold : m.owned? p ≠ some b := fun hp => hq (hm.owner q p b hb hp)
  rw [buffer_congr h.buffers, buffer_renew hold (hm.buffer q b hb)]

private theorem fresh (hb : m'.owned? p = some b) (hq : m'.owned? q = some b) : q = p := by
  by_contra hne
  rw [h.own] at hb
  rw [h.others q hne] at hq
  have hlt := hm.buffer q b hq
  have hnew := (renew_eq_some hb).1
  omega

theorem separate : m'.Separate := by
  refine ⟨fun q q' b hq hq' => ?_, fun q b hq => ?_, ?_, ?_⟩
  · by_cases hqp : q = p
    · subst hqp
      exact (h.fresh hm hq hq').symm
    · by_cases hqp' : q' = p
      · subst hqp'
        exact h.fresh hm hq' hq
      · rw [h.others q hqp] at hq
        rw [h.others q' hqp'] at hq'
        exact hm.owner q q' b hq hq'
  · rw [h.buffers]
    by_cases hqp : q = p
    · subst hqp
      rw [h.own] at hq
      exact (renew_eq_some hq).2.1
    · rw [h.others q hqp] at hq
      exact Nat.lt_of_lt_of_le (hm.buffer q b hq) (size_renew ..)
  · intro a c a' c' x hx hx'
    rw [h.field] at hx hx'
    exact hm.channel a c a' c' x hx hx'
  · intro a c x hx
    rw [h.field] at hx
    exact Nat.lt_of_lt_of_le (hm.object a c x hx) h.size

omit hm in
theorem kept : (m'.owned? p).map m'.buffer = new := by
  cases hown : m'.owned? p with
  | none =>
    rw [h.own] at hown
    exact (renew_eq_none hown).symm
  | some b =>
    rw [h.own] at hown
    rw [Option.map_some, buffer_congr h.buffers]
    exact (renew_eq_some hown).2.2.symm

end Renewed

theorem ratchet_congr (object : m'.ratchets[x]? = m.ratchets[x]?)
    (key : ∀ b, m.owned? (.ratchet x) = some b → m'.buffer b = m.buffer b) :
    m'.ratchet x = m.ratchet x := by
  cases ho : m.ratchets[x]? with
  | none => simp only [ratchet, object, ho]
  | some o =>
    simp only [owned?, ho, Option.bind_some] at key
    have hkey : (o.chainKey.map fun b => Bytes.fit 32 (m'.buffer b)) =
        o.chainKey.map fun b => Bytes.fit 32 (m.buffer b) :=
      Option.map_congr fun b hb => congrArg _ (key b hb)
    simp only [ratchet, object, ho, hkey]

theorem read_congr {o : SessionObject}
    (secret : ∀ b, o.ephemeralSecret = some b → m'.buffer b = m.buffer b)
    (ratchets : ∀ c x, o.ratchets.get c = some x → m'.ratchet x = m.ratchet x) :
    m'.read o = m.read o := by
  have hsecret : o.ephemeralSecret.map m'.buffer = o.ephemeralSecret.map m.buffer :=
    Option.map_congr secret
  have hslots : o.ratchets.slots m'.slot = o.ratchets.slots m.slot := by
    apply Slots.ext_get
    intro c
    simp only [Fields.get_slots]
    cases hx : o.ratchets.get c with
    | none => rfl
    | some x => exact congrArg Slot.live (ratchets c x hx)
  simp only [read, hsecret, hslots]

theorem session?_congr (object : m'.sessions[a]? = m.sessions[a]?)
    (secret : ∀ b, m.owned? (.session a) = some b → m'.buffer b = m.buffer b)
    (ratchets : ∀ c x, m.field? a c = some x → m'.ratchet x = m.ratchet x) :
    m'.session? a = m.session? a := by
  rw [session?, session?, object]
  cases ho : m.sessions[a]? with
  | none => rfl
  | some o =>
    simp only [owned?, ho, Option.bind_some] at secret
    simp only [field?, ho, Option.bind_some] at ratchets
    simp only [Option.map_some, read_congr secret ratchets]

theorem Renewed.ratchet (hm : m.Separate) (h : m.Renewed p new m') (hp : .ratchet x ≠ p)
    (object : m'.ratchets[x]? = m.ratchets[x]?) : m'.ratchet x = m.ratchet x :=
  ratchet_congr object fun _ hb => h.buffer hm hp hb

/-- The ratchet at a place goes on to a later state, and nothing else changes. -/
structure Evolves (m : Memory) (x : Nat) (r : Ratchet) (m' : Memory) : Prop where
  separate : m'.Separate
  ratchet : m'.ratchet x = r
  others : ∀ y, y ≠ x → m'.ratchet y = m.ratchet y
  secrets : ∀ a b, m.owned? (.session a) = some b → m'.buffer b = m.buffer b
  sessions : m'.sessions = m.sessions
  size : m.ratchets.size ≤ m'.ratchets.size

theorem Evolves.refl (hm : m.Separate) (x : Nat) : m.Evolves x (m.ratchet x) m :=
  ⟨hm, rfl, fun _ _ => rfl, fun _ _ _ => rfl, rfl, Nat.le_refl _⟩

theorem Evolves.trans {r' : Ratchet} {m'' : Memory} (h : m.Evolves x r m')
    (h' : m'.Evolves x r' m'') : m.Evolves x r' m'' := by
  refine ⟨h'.separate, h'.ratchet, fun y hy => (h'.others y hy).trans (h.others y hy), ?_,
    h'.sessions.trans h.sessions, Nat.le_trans h.size h'.size⟩
  intro a b hb
  have hb' : m'.owned? (.session a) = some b := by
    simp only [owned?, h.sessions]
    exact hb
  rw [h'.secrets a b hb', h.secrets a b hb]

private theorem ratchet_eq (h : m.ratchets[x]? = some o) :
    m.ratchet x =
      ⟨o.chainKey.map fun b => Bytes.fit 32 (m.buffer b), o.counter, o.maxSkip⟩ := by
  simp only [ratchet, h]

theorem exists_object (h : x < m.ratchets.size) : ∃ o, m.ratchets[x]? = some o :=
  ⟨m.ratchets[x], Array.getElem?_eq_getElem h⟩

private theorem fit_kept {key : Option Nat} {k : Option Key}
    (h : key.map m.buffer = k.map (·.val)) : (key.map fun b => Bytes.fit 32 (m.buffer b)) = k := by
  cases key with
  | none =>
    cases k with
    | none => rfl
    | some k => cases h
  | some b =>
    cases k with
    | none => cases h
    | some k =>
      have hb : m.buffer b = k.val := Option.some.inj h
      simp only [Option.map_some, hb, Bytes.fit_val]

private theorem putRatchet_eq (h : m.ratchets[x]? = some o) (r : Ratchet) :
    m.putRatchet x r =
      { buffers := (m.renew o.chainKey (r.chainKey.map (·.val))).1.buffers
        ratchets := m.ratchets.setIfInBounds x
          ⟨(m.renew o.chainKey (r.chainKey.map (·.val))).2, r.counter, o.maxSkip⟩
        sessions := m.sessions } := by
  simp only [putRatchet, h, ratchets_renew]
  rw [← sessions_renew m o.chainKey (r.chainKey.map (·.val))]

private theorem renewed_putRatchet (h : m.ratchets[x]? = some o) (r : Ratchet) :
    m.Renewed (.ratchet x) (r.chainKey.map (·.val)) (m.putRatchet x r) := by
  have hlt : x < m.ratchets.size := (Array.getElem?_eq_some_iff.mp h).1
  have hown : m.owned? (.ratchet x) = o.chainKey := by simp only [owned?, h, Option.bind_some]
  rw [putRatchet_eq h]
  refine ⟨by rw [hown], ?_, fun q hq => ?_, fun a c => rfl, ?_⟩
  · rw [hown]
    simp only [owned?, Array.getElem?_setIfInBounds_self, if_pos hlt, Option.bind_some]
  · cases q with
    | session a => rfl
    | ratchet y =>
      have hne : x ≠ y := fun heq => hq (heq ▸ rfl)
      simp only [owned?, Array.getElem?_setIfInBounds_ne hne]
  · exact Nat.le_of_eq Array.size_setIfInBounds.symm

theorem evolves_putRatchet (hm : m.Separate) (hx : x < m.ratchets.size)
    (hskip : r.maxSkip = (m.ratchet x).maxSkip) : m.Evolves x r (m.putRatchet x r) := by
  obtain ⟨o, ho⟩ := exists_object hx
  have hnew := renewed_putRatchet ho r
  have hkept := hnew.kept
  rw [ratchet_eq ho] at hskip
  have hobject : (m.putRatchet x r).ratchets[x]? =
      some ⟨(m.renew o.chainKey (r.chainKey.map (·.val))).2, r.counter, o.maxSkip⟩ := by
    rw [putRatchet_eq ho]
    simp only [Array.getElem?_setIfInBounds_self, if_pos hx]
  refine ⟨hnew.separate hm, ?_, fun y hy => ?_, fun a b hb => ?_, ?_, ?_⟩
  · rw [ratchet_eq hobject]
    simp only [owned?, hobject, Option.bind_some] at hkept
    simp only [fit_kept hkept]
    exact congrArg (Ratchet.mk r.chainKey r.counter) hskip.symm
  · apply hnew.ratchet hm
    · rintro heq
      exact hy (Owner.ratchet.inj heq)
    · rw [putRatchet_eq ho]
      exact Array.getElem?_setIfInBounds_ne (Ne.symm hy)
  · have hne : Owner.session a ≠ .ratchet x := nofun
    exact hnew.buffer hm hne hb
  · rw [putRatchet_eq ho]
  · rw [putRatchet_eq ho]
    exact Nat.le_of_eq Array.size_setIfInBounds.symm

theorem evolves_discard (hm : m.Separate) (hx : x < m.ratchets.size) :
    m.Evolves x (m.ratchet x).discard (m.discard x) := evolves_putRatchet hm hx rfl

private theorem addRatchet_eq (m : Memory) (r : Ratchet) :
    m.addRatchet r =
      { buffers := (m.renew none (r.chainKey.map (·.val))).1.buffers
        ratchets := m.ratchets.push
          ⟨(m.renew none (r.chainKey.map (·.val))).2, r.counter, r.maxSkip⟩
        sessions := m.sessions } := by
  unfold addRatchet
  cases r.chainKey <;> rfl

private theorem renewed_addRatchet (m : Memory) (r : Ratchet) :
    m.Renewed (.ratchet m.ratchets.size) (r.chainKey.map (·.val)) (m.addRatchet r) := by
  have hown : m.owned? (.ratchet m.ratchets.size) = none := by
    simp only [owned?, Array.getElem?_eq_none (Nat.le_refl _), Option.bind_none]
  rw [addRatchet_eq]
  refine ⟨by rw [hown], ?_, fun q hq => ?_, fun a c => rfl, ?_⟩
  · rw [hown]
    simp only [owned?, Array.getElem?_push, if_true, Option.bind_some]
  · cases q with
    | session a => rfl
    | ratchet y =>
      have hne : y ≠ m.ratchets.size := fun heq => hq (heq ▸ rfl)
      simp only [owned?, Array.getElem?_push, if_neg hne]
  · rw [Array.size_push]
    omega

theorem evolves_addRatchet (hm : m.Separate) (r : Ratchet) :
    m.Evolves m.ratchets.size r (m.addRatchet r) := by
  have hnew := renewed_addRatchet m r
  have hkept := hnew.kept
  have hobject : (m.addRatchet r).ratchets[m.ratchets.size]? =
      some ⟨(m.renew none (r.chainKey.map (·.val))).2, r.counter, r.maxSkip⟩ := by
    rw [addRatchet_eq]
    simp only [Array.getElem?_push, if_true]
  refine ⟨hnew.separate hm, ?_, fun y hy => ?_, fun a b hb => ?_, ?_, hnew.size⟩
  · rw [ratchet_eq hobject]
    simp only [owned?, hobject, Option.bind_some] at hkept
    simp only [fit_kept hkept]
  · apply hnew.ratchet hm
    · rintro heq
      exact hy (Owner.ratchet.inj heq)
    · rw [addRatchet_eq]
      simp only [Array.getElem?_push, if_neg hy]
  · have hne : Owner.session a ≠ .ratchet m.ratchets.size := nofun
    exact hnew.buffer hm hne hb
  · rw [addRatchet_eq]

theorem size_addRatchet (m : Memory) (r : Ratchet) :
    (m.addRatchet r).ratchets.size = m.ratchets.size + 1 := by
  rw [addRatchet_eq, Array.size_push]

namespace Evolves

theorem field? (h : m.Evolves x r m') (a : Nat) (c : Channel) : m'.field? a c = m.field? a c := by
  simp only [Memory.field?, h.sessions]

/-- A session goes on with a ratchet that it uses, whoever has turned it. -/
theorem session?_of_field (hm : m.Separate) (h : m.Evolves x r m') (hx : m.field? a c = some x)
    (hs : m.session? a = some s) : m'.session? a = some (s.putRatchet c r) := by
  obtain ⟨o, ho, rfl⟩ := Option.map_eq_some_iff.mp hs
  have hfield (d : Channel) : m.field? a d = o.ratchets.get d := by
    simp only [Memory.field?, ho, Option.bind_some]
  have hsecret : o.ephemeralSecret.map m'.buffer = o.ephemeralSecret.map m.buffer := by
    apply Option.map_congr
    intro b hb
    exact h.secrets a b (by simp only [owned?, ho, Option.bind_some, hb])
  have hslots : o.ratchets.slots m'.slot =
      (o.ratchets.slots m.slot).set (((o.ratchets.slots m.slot).get c).replace r) c := by
    apply Slots.ext_get
    intro d
    by_cases hd : d = c
    · rw [hfield] at hx
      rw [hd, Slots.get_set, Fields.get_slots, Fields.get_slots, hx]
      exact congrArg Slot.live h.ratchet
    · rw [Slots.get_set_of_ne _ _ hd, Fields.get_slots, Fields.get_slots]
      cases hy : o.ratchets.get d with
      | none => rfl
      | some y =>
        have hne : y ≠ x := by
          rintro rfl
          exact hd (hm.channel a d a c y ((hfield d).trans hy) hx).2
        exact congrArg Slot.live (h.others y hne)
  simp only [Memory.session?, h.sessions, ho, Option.map_some, read, Session.putRatchet, hsecret,
    hslots]

theorem session?_of_unused (h : m.Evolves x r m') (hx : ∀ c, m.field? a c ≠ some x) :
    m'.session? a = m.session? a := by
  refine session?_congr (by rw [h.sessions]) (h.secrets a) fun c y hy => ?_
  apply h.others
  rintro rfl
  exact hx c hy

end Evolves

theorem field?_eq {o : SessionObject} (ho : m.sessions[a]? = some o) (c : Channel) :
    m.field? a c = o.ratchets.get c := by
  simp only [field?, ho, Option.bind_some]

theorem session?_eq {o : SessionObject} (ho : m.sessions[a]? = some o) :
    m.session? a = some (m.read o) := by
  rw [session?, ho, Option.map_some]

end

end Memory

end RatchetSession
