import RatchetSession.Proofs.Lifecycle

/-!
# How far ratchets come

A channel has reached the counter of its ratchet, and keeps to it when the session gives the ratchet
up. `Counted.step_reached` says what one operation does to it: a channel begins at the initial
counter, goes on only when an operation asks its ratchet to turn, and never goes back.
-/

set_option autoImplicit false
set_option relaxedAutoImplicit false

namespace RatchetSession.Session

def Operation.turned? : Operation → Option Channel
  | .turn c | .turnUntil c _ => some c
  | .accept _ _ | .discardTwoDh | .take _ | .encryptionKey _ | .associatedData _ => none

/-- The counter that a channel has come to, whether its ratchet is still in use or not. -/
def reached (s : Session) (c : Channel) : Option Nat := (s.slots.get c).ratchet?.map (·.counter)

/-- Counters are in range, and ratchets of four agreements are never given up. -/
structure Counted (s : Session) : Prop where
  phased : s.WellPhased
  begins : 0 ≤ s.config.initialCounter ∧ s.config.initialCounter ≤ maxCounter
  kept : ∀ d r, s.slots.get ⟨d, .fourDh⟩ ≠ .retired r
  range : ∀ c n, s.reached c = some n → s.config.initialCounter ≤ n ∧ n ≤ maxCounter

variable {s t : Session} {op : Operation} {c : Channel}

theorem reached_of_ratchet {r : Ratchet} (h : s.ratchet c = .ok r) :
    s.reached c = some r.counter := by
  rw [reached, ratchet_eq_ok.mp h]
  rfl

theorem reached_putRatchet_self {r : Ratchet} (r' : Ratchet) (h : s.slots.get c = .live r) :
    (s.putRatchet c r').reached c = some r'.counter := by
  rw [reached, get_putRatchet_self r' h]
  rfl

theorem reached_putRatchet_of_ne (s : Session) {d : Channel} (r : Ratchet) (h : d ≠ c) :
    (s.putRatchet c r).reached d = s.reached d := by
  rw [reached, get_putRatchet_of_ne s r h, reached]

private theorem reached_withoutTwoDh (s : Session) (c : Channel) :
    s.withoutTwoDh.reached c = s.reached c := by
  rcases c with ⟨d, _ | _⟩
  · rw [reached, reached, get_withoutTwoDh_twoDh]
    cases s.slots.get ⟨d, .twoDh⟩ <;> rfl
  · rw [reached, reached, get_withoutTwoDh_fourDh]

private theorem reached_completed_twoDh (s : Session) (ephemeral : Offered)
    (four : Ratchet × Ratchet)
    (d : Direction) : (s.completed ephemeral four).reached ⟨d, .twoDh⟩ = s.reached ⟨d, .twoDh⟩ := by
  have hsame := reached_withoutTwoDh s ⟨d, .twoDh⟩
  cases d <;> exact hsame

private theorem Counted.reached_fourDh_of_waiting (hs : s.Counted)
    (hphase : s.phase = .initiatorTwoDh) (d : Direction) : s.reached ⟨d, .fourDh⟩ = none := by
  have hnot : ¬ s.Has ⟨d, .fourDh⟩ := fun h => (hs.phased.fourDh d).mp h hphase
  cases hslot : s.slots.get ⟨d, .fourDh⟩ with
  | empty => rw [reached, hslot]; rfl
  | live r => exact absurd (has_iff.mpr ⟨r, hslot⟩) hnot
  | retired r => exact absurd hslot (hs.kept d r)

private theorem reached_accepted {ephemeral longTerm : Offered} (d : Direction)
    (h : s.accepted ephemeral longTerm = .ok t) :
    t.reached ⟨d, .fourDh⟩ = some s.config.initialCounter.toNat := by
  obtain ⟨_, _, four, -, -, -, hfour, rfl⟩ := accepted_eq_ok h
  obtain ⟨-, rfl⟩ := startRatchets_eq_ok hfour
  cases d <;> rfl

/-- One operation leaves a channel where it is, begins it or turns its ratchet on. -/
theorem Counted.step_reached (hs : s.Counted) (h : Step s op t) (c : Channel) :
    t.reached c = s.reached c ∨
      (s.reached c = none ∧ t.reached c = some s.config.initialCounter.toNat) ∨
      (op.turned? = some c ∧ ∃ n k, s.reached c = some n ∧ t.reached c = some (n + k) ∧
        n + k ≤ maxCounter) := by
  cases h with
  | idle op => exact .inl rfl
  | @turned d r _ n asked live keyed room =>
    by_cases hc : c = d
    · subst hc
      have hasked : op.turned? = some c := by
        rcases asked with rfl | ⟨target, rfl⟩ <;> rfl
      have hbefore : s.reached c = some r.counter := by rw [reached, live]; rfl
      exact .inr (.inr ⟨hasked, r.counter, n, hbefore, reached_putRatchet_self _ live, room⟩)
    · exact .inl (reached_putRatchet_of_ne s _ hc)
  | @accepted ephemeral longTerm t taken =>
    have hwaiting := (hs.phased.waiting_of_accepted taken).phase
    rcases c with ⟨d, _ | _⟩
    · obtain ⟨_, _, four, -, -, -, -, rfl⟩ := accepted_eq_ok taken
      exact .inl (reached_completed_twoDh s ephemeral four d)
    · exact .inr (.inl ⟨hs.reached_fourDh_of_waiting hwaiting d, reached_accepted d taken⟩)
  | stripped known => exact .inl (reached_withoutTwoDh s c)

theorem Step.kept (h : Step s op t) (hs : ∀ d r, s.slots.get ⟨d, .fourDh⟩ ≠ .retired r)
    (d : Direction) (r : Ratchet) : t.slots.get ⟨d, .fourDh⟩ ≠ .retired r := by
  cases h with
  | idle op => exact hs d r
  | @turned c r' _ n asked live keyed room =>
    by_cases hc : ⟨d, .fourDh⟩ = c
    · rw [hc, get_putRatchet_self _ live]
      nofun
    · rw [get_putRatchet_of_ne s _ hc]
      exact hs d r
  | accepted taken =>
    obtain ⟨_, _, four, -, -, -, -, rfl⟩ := accepted_eq_ok taken
    cases d <;> nofun
  | stripped known =>
    rw [get_withoutTwoDh_fourDh]
    exact hs d r

theorem Counted.step (hs : s.Counted) (h : Step s op t) : t.Counted := by
  obtain ⟨-, -, -, -, hconfig, -⟩ := fields_of_fixedPart h.fixedPart
  refine ⟨hs.phased.step h, hconfig ▸ hs.begins, h.kept hs.kept, fun c n hn => ?_⟩
  have hbegins := hs.begins
  rw [hconfig]
  rcases hs.step_reached h c with hsame | ⟨-, hfirst⟩ | ⟨-, m, k, hm, hlater, hroom⟩
  · exact hs.range c n (hsame ▸ hn)
  · obtain rfl := Option.some.inj (hfirst.symm.trans hn)
    omega
  · obtain rfl := Option.some.inj (hlater.symm.trans hn)
    have hrange := hs.range c m hm
    omega

theorem Counted.run (hs : s.Counted) (ops : List Operation) : (s.run ops).Counted :=
  run_induction (fun _ _ _ hstep ht => ht.step hstep) hs ops

theorem Counted.run_reached (hs : s.Counted) {n : Nat} (hn : s.reached c = some n)
    (ops : List Operation) : ∃ m, (s.run ops).reached c = some m ∧ n ≤ m := by
  have hboth := run_induction
    (P := fun u => u.Counted ∧ ∃ m, u.reached c = some m ∧ n ≤ m)
    (fun u op v hstep ⟨hu, m, hm, hle⟩ => ⟨hu.step hstep, by
      rcases hu.step_reached hstep c with hsame | ⟨hnone, -⟩ | ⟨-, i, k, hi, hlater, -⟩
      · exact ⟨m, hsame.trans hm, hle⟩
      · rw [hnone] at hm
        cases hm
      · obtain rfl := Option.some.inj (hi.symm.trans hm)
        exact ⟨i + k, hlater, by omega⟩⟩)
    ⟨hs, n, hn, Nat.le_refl n⟩ ops
  exact hboth.2

theorem Founded.fresh {role : Role} (h : Founded role s) :
    (0 ≤ s.config.initialCounter ∧ s.config.initialCounter ≤ maxCounter) ∧
      ∀ c, s.slots.get c = .empty ∨ ∃ k, s.slots.get c = .live (.fresh k s.config) := by
  cases h with
  | initiated given =>
    obtain ⟨-, hbegins, _, _, -, -, rfl⟩ := initiate_eq_ok given
    refine ⟨hbegins, ?_⟩
    rintro ⟨_ | _, _ | _⟩
    · exact .inr ⟨_, rfl⟩
    · exact .inl rfl
    · exact .inr ⟨_, rfl⟩
    · exact .inl rfl
  | responded given =>
    obtain ⟨-, hbegins, _, _, _, _, _, _, -, -, -, -, -, -, rfl⟩ := respond_eq_ok given
    refine ⟨hbegins, ?_⟩
    rintro ⟨_ | _, _ | _⟩
    · exact .inl rfl
    · exact .inr ⟨_, rfl⟩
    · exact .inr ⟨_, rfl⟩
    · exact .inr ⟨_, rfl⟩

theorem Founded.reached_eq {role : Role} (h : Founded role s) {n : Nat}
    (hn : s.reached c = some n) : n = s.config.initialCounter.toNat := by
  rcases h.fresh.2 c with hempty | ⟨k, hfresh⟩
  · rw [reached, hempty] at hn
    cases hn
  · rw [reached, hfresh] at hn
    exact (Option.some.inj hn).symm

theorem Founded.counted {role : Role} (h : Founded role s) : s.Counted := by
  obtain ⟨hbegins, hfresh⟩ := h.fresh
  refine ⟨h.wellPhased.2, hbegins, fun d r hr => ?_, fun c n hn => ?_⟩
  · rcases hfresh ⟨d, .fourDh⟩ with hempty | ⟨k, hlive⟩
    · rw [hempty] at hr
      cases hr
    · rw [hlive] at hr
      cases hr
  · obtain rfl := h.reached_eq hn
    omega

end RatchetSession.Session
