import RatchetSession.Proofs.Handles

/-!
# What every session keeps up

A session may come from a factory, or from the bare constructor with whatever keys and configuration
it is given. Either way its counters stay in range, its ratchets of four agreements come together
and stay, and a ratchet that it gives up has lost its key: `Reachable.orderly`.
-/

set_option autoImplicit false
set_option relaxedAutoImplicit false

namespace RatchetSession

private theorem Slot.ratchet?_retire {x : Slot} {r : Ratchet} (h : x.retire.ratchet? = some r) :
    ∃ r', x.ratchet? = some r' ∧ r.counter = r'.counter := by
  cases x with
  | empty => cases h
  | live r' =>
    obtain rfl := Option.some.inj h
    exact ⟨r', rfl, rfl⟩
  | retired r' => exact ⟨r, h, rfl⟩

namespace Session

/-- A session as it is made: given out by a factory, or bare. -/
inductive Made : Session → Prop
  | founded {role : Role} {s : Session} (given : Founded role s) : Made s
  | bare {id : SessionId} {role : Role} {me : LocalIdentity} {peer : Contact} {config : Config}
      {listener : Listener} {ephemeralPublic : Offered} {ephemeralSecret : Option Bytes}
      {s : Session}
      (given : bare id role me peer config listener ephemeralPublic ephemeralSecret = .ok s) :
      Made s

/-- The session comes of one that was made, by operations on it and on handles taken from it. -/
def Reachable (t : Session) : Prop :=
  ∃ s deeds, Made s ∧ t = ((Holding.mk s []).run deeds).session

structure Orderly (s : Session) : Prop where
  range : ∀ c r, (s.slots.get c).ratchet? = some r → r.counter ≤ maxCounter
  kept : ∀ d r, s.slots.get ⟨d, .fourDh⟩ ≠ .retired r
  spent : ∀ c r, s.slots.get c = .retired r → r.chainKey = none
  /-- Ratchets of four agreements come together. -/
  together : s.phase = .initiatorTwoDh → ∀ d, s.slots.get ⟨d, .fourDh⟩ = .empty

variable {s t : Session} {op : Operation} {c : Channel} {r : Ratchet}

private theorem bare_eq_ok {id : SessionId} {role : Role} {me : LocalIdentity} {peer : Contact}
    {config : Config} {listener : Listener} {ephemeralPublic : Offered}
    {ephemeralSecret : Option Bytes}
    (h : bare id role me peer config listener ephemeralPublic ephemeralSecret = .ok s) :
    s = { id, role, me, peer, config, listener, ephemeralPublic, ephemeralSecret } := by
  obtain ⟨_, -, h⟩ := bind_eq_ok h
  exact (Except.ok.inj h).symm

theorem Founded.orderly {role : Role} (h : Founded role s) : s.Orderly := by
  have hnone (c : Channel) (r : Ratchet) : s.slots.get c ≠ .retired r := by
    intro hr
    rcases h.fresh.2 c with hempty | ⟨k, hlive⟩
    · rw [hempty] at hr
      cases hr
    · rw [hlive] at hr
      cases hr
  refine ⟨fun c r hr => ?_, fun d => hnone _, fun c r hr => absurd hr (hnone c r),
    fun hphase d => ?_⟩
  · exact (h.counted.range c r.counter (by rw [reached, hr]; rfl)).2
  · rcases h.fresh.2 ⟨d, .fourDh⟩ with hempty | ⟨k, hlive⟩
    · exact hempty
    · exact absurd hphase ((h.wellPhased.2.fourDh d).mp (has_iff.mpr ⟨_, hlive⟩))

private theorem Made.orderly (h : Made s) : s.Orderly := by
  cases h with
  | founded given => exact given.orderly
  | bare given =>
    have hempty (c : Channel) : s.slots.get c = .empty := by
      rw [bare_eq_ok given]
      rcases c with ⟨_ | _, _ | _⟩ <;> rfl
    refine ⟨fun c r hr => ?_, fun d r hr => ?_, fun c r hr => ?_, fun _ d => hempty _⟩
    · rw [hempty] at hr
      cases hr
    · rw [hempty] at hr
      cases hr
    · rw [hempty] at hr
      cases hr

private theorem Orderly.putRatchet (hs : s.Orderly) (h : s.slots.get c = .live r) {r' : Ratchet}
    (hrange : r'.counter ≤ maxCounter) : (s.putRatchet c r').Orderly := by
  refine ⟨fun d r₁ hr₁ => ?_, fun d q hq => hs.kept d q (retired_of_putRatchet h hq),
    fun d q hq => hs.spent d q (retired_of_putRatchet h hq), fun hphase d => ?_⟩
  · by_cases hd : d = c
    · rw [hd, get_putRatchet_self r' h] at hr₁
      obtain rfl := Option.some.inj hr₁
      exact hrange
    · rw [get_putRatchet_of_ne s r' hd] at hr₁
      exact hs.range d r₁ hr₁
  · rw [phase_congr (has_putRatchet r' h)] at hphase
    have hempty := hs.together hphase d
    have hd : ⟨d, .fourDh⟩ ≠ c := by
      rintro rfl
      rw [hempty] at h
      cases h
    rw [get_putRatchet_of_ne s r' hd, hempty]

private theorem Orderly.range_retire (hs : s.Orderly)
    (h : (s.slots.get c).retire.ratchet? = some r) : r.counter ≤ maxCounter := by
  obtain ⟨r', hr', hcounter⟩ := Slot.ratchet?_retire h
  rw [hcounter]
  exact hs.range c r' hr'

private theorem Orderly.accepted {ephemeral longTerm : Offered} (hs : s.Orderly)
    (taken : s.accepted ephemeral longTerm = .ok t) : t.Orderly := by
  have hkept := (Step.accepted taken).kept hs.kept
  obtain ⟨_, _, four, -, -, -, hfour, rfl⟩ := accepted_eq_ok taken
  obtain ⟨hbegins, rfl⟩ := startRatchets_eq_ok hfour
  have hfirst (k : Key) : (Ratchet.fresh k s.config).counter ≤ maxCounter := by
    show s.config.initialCounter.toNat ≤ maxCounter
    omega
  refine ⟨?_, hkept, spent_completed hs.spent, fun hphase => ?_⟩
  · rintro ⟨d, _ | _⟩ r hr
    · rw [get_completed_twoDh] at hr
      exact hs.range_retire hr
    · cases d with
      | outgoing =>
        obtain rfl := Option.some.inj hr
        exact hfirst _
      | incoming =>
        obtain rfl := Option.some.inj hr
        exact hfirst _
  · rw [phase_completed] at hphase
    cases hphase

private theorem Orderly.withoutTwoDh (hs : s.Orderly) (known : s.phase ≠ .initiatorTwoDh) :
    s.withoutTwoDh.Orderly := by
  refine ⟨?_, fun d r hr => ?_, spent_withoutTwoDh hs.spent, fun hphase => ?_⟩
  · rintro ⟨d, _ | _⟩ r hr
    · rw [get_withoutTwoDh_twoDh] at hr
      exact hs.range_retire hr
    · rw [get_withoutTwoDh_fourDh] at hr
      exact hs.range _ r hr
  · rw [get_withoutTwoDh_fourDh] at hr
    exact hs.kept d r hr
  · rw [phase_withoutTwoDh known] at hphase
    cases hphase

theorem Orderly.step (hs : s.Orderly) (h : Step s op t) : t.Orderly := by
  cases h with
  | idle op => exact hs
  | turned n asked live keyed room => exact hs.putRatchet live room
  | accepted taken => exact hs.accepted taken
  | stripped known => exact hs.withoutTwoDh known

private theorem Orderly.perform (hs : s.Orderly) (op : Operation) : (s.perform op).after.Orderly :=
  hs.step (step_perform s op)

theorem Orderly.performOnHandle (hs : s.Orderly) (c : Channel) (op : Ratchet.Operation) :
    (s.performOnHandle c op).after.Orderly := by
  rw [performOnHandle_after (hs.spent c)]
  cases hslot : s.slots.get c with
  | empty => exact hs
  | retired r => exact hs
  | live r =>
    have hrange : r.counter ≤ maxCounter := hs.range c r (by rw [hslot]; rfl)
    exact hs.putRatchet hslot (Ratchet.counter_afterCalls_le hrange _)

private theorem Holding.orderly_run {x : Holding} (hx : x.session.Orderly) (deeds : List Deed) :
    (x.run deeds).session.Orderly := by
  apply run_induction (P := Orderly) ?_ ?_ hx deeds
  · intro s op hs
    exact hs.perform op
  · intro s c op hs
    exact hs.performOnHandle c op

theorem Reachable.orderly (h : t.Reachable) : t.Orderly := by
  obtain ⟨s, deeds, hmade, rfl⟩ := h
  exact Holding.orderly_run hmade.orderly deeds

theorem Made.reachable (h : Made s) : s.Reachable := ⟨s, [], h, rfl⟩

theorem Reachable.perform (h : t.Reachable) (op : Operation) : (t.perform op).after.Reachable := by
  obtain ⟨s, deeds, hmade, rfl⟩ := h
  refine ⟨s, deeds ++ [.own op], hmade, ?_⟩
  rw [Holding.run_append]
  rfl

private theorem Reachable.performOnHandle_of_live (h : t.Reachable) (live : t.slots.get c = .live r)
    (op : Ratchet.Operation) : (t.performOnHandle c op).after.Reachable := by
  obtain ⟨s, deeds, hmade, rfl⟩ := h
  let x := (Holding.mk s []).run deeds
  refine ⟨s, deeds ++ [.own (.take c), .onHandle x.taken.length op], hmade, ?_⟩
  have htaken : x.step (.own (.take c)) = ⟨x.session, x.taken ++ [c]⟩ := by
    have hanswer : (x.session.perform (.take c)).answer = .ok .done := by
      show (x.session.ratchet c).map (fun _ => Answer.done) = .ok .done
      rw [ratchet_eq_ok.mpr live]
      rfl
    simp only [Holding.step, Holding.gives, hanswer]
    rfl
  have hlast : (x.taken ++ [c])[x.taken.length]? = some c := by simp
  have hrun : (Holding.mk s []).run (deeds ++ [.own (.take c), .onHandle x.taken.length op]) =
      (x.step (.own (.take c))).step (.onHandle x.taken.length op) := by
    rw [Holding.run_append]
    rfl
  rw [hrun, htaken]
  simp only [Holding.step, hlast]
  rfl

theorem Reachable.performOnHandle (h : t.Reachable) (c : Channel) (op : Ratchet.Operation) :
    (t.performOnHandle c op).after.Reachable := by
  cases hslot : t.slots.get c with
  | live r => exact h.performOnHandle_of_live hslot op
  | empty =>
    rw [Session.performOnHandle_after (h.orderly.spent c), hslot]
    exact h
  | retired r =>
    rw [Session.performOnHandle_after (h.orderly.spent c), hslot]
    exact h

end Session

end RatchetSession
