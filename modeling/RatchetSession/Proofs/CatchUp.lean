import Mathlib.Algebra.Group.Nat.Defs
import Mathlib.Logic.Function.Iterate
import RatchetSession.Fault
import RatchetSession.Proofs.Turning

/-!
# Catching up is bounded turning

A ratchet that is asked to catch up with a counter turns while it lies behind, and the checks made
before the first turn see to it that no turn fails. `Catching` is that loop, `Refuses` says when it
is not entered and why, and `turnUntil_decided` that catching up does the one or the other. A
refusal whose text cannot be written out is reported as another fault.
-/

set_option autoImplicit false
set_option relaxedAutoImplicit false

namespace RatchetSession.Ratchet

/-- The ratchet is turned while its counter lies behind the target, and no turn fails: how many
turns that takes, and where it ends. -/
inductive Catching (target : Int) : Ratchet → Nat → Ratchet → Prop
  | there {r : Ratchet} (reached : target ≤ r.counter) : Catching target r 0 r
  | turned {r r' r'' : Ratchet} {n : Nat} (behind : r.counter < target) (turns : r.turn = .ok r')
      (rest : Catching target r' n r'') : Catching target r (n + 1) r''

/-- Why a ratchet does not catch up with a target. Causes are looked for in this order, so that a
later one stands only where none before it does. -/
inductive Refuses (r : Ratchet) (target : Int) : FaultKind → Fault → Prop
  | discarded (spent : r.chainKey = none) :
      r.Refuses target .ratchetExhausted (.discarded r.counter)
  | regression (keyed : r.chainKey.isSome) (behind : target < r.counter) :
      r.Refuses target .ratchetRegression (.regression r.counter target)
  | skipTooLarge (keyed : r.chainKey.isSome) (ahead : r.counter ≤ target)
      (far : r.maxSkip < target - r.counter) :
      r.Refuses target .ratchetSkipTooLarge (.skipTooLarge r.counter target r.maxSkip)
  | targetOutOfRange (keyed : r.chainKey.isSome) (ahead : r.counter ≤ target)
      (near : target - r.counter ≤ r.maxSkip) (beyond : maxCounter < target) :
      r.Refuses target .ratchetExhausted (.targetOutOfRange target)

variable {r r' r'' : Ratchet} {target a b : Int} {m n : Nat}

namespace Catching

private theorem iterate (h : Catching target r n r') : (· >>= turn)^[n] (.ok r) = .ok r' := by
  induction h with
  | there reached => rfl
  | turned behind turns rest ih =>
    rw [Function.iterate_succ_apply]
    have hfirst : ((.ok _ : Except Fault Ratchet) >>= turn) = .ok _ := turns
    rw [hfirst]
    exact ih

/-- A turn leads to one ratchet, so there is one way to catch up. -/
private theorem unique {q : Ratchet} (h : Catching target r m r') (h' : Catching target r n q) :
    m = n ∧ r' = q := by
  induction h generalizing n with
  | there reached =>
    cases h' with
    | there reached' => exact ⟨rfl, rfl⟩
    | turned behind' turns' rest' => omega
  | turned behind turns rest ih =>
    cases h' with
    | there reached' => omega
    | turned behind' turns' rest' =>
      obtain rfl := Except.ok.inj (turns.symm.trans turns')
      obtain ⟨rfl, rfl⟩ := ih rest'
      exact ⟨rfl, rfl⟩

private theorem trans (hab : a ≤ b) (h : Catching a r m r') (h' : Catching b r' n r'') :
    Catching b r (m + n) r'' := by
  induction h with
  | there reached =>
    rw [Nat.zero_add]
    exact h'
  | turned behind turns rest ih =>
    rw [Nat.succ_add]
    exact .turned (by omega) turns (ih h')

end Catching

private theorem catching_advance (hk : r.chainKey.isSome) (hroom : r.counter + n ≤ maxCounter) :
    Catching (r.counter + n) r n (r.advance n) := by
  induction n generalizing r with
  | zero =>
    rw [advance_zero]
    apply Catching.there
    omega
  | succ n ih =>
    obtain ⟨k, hkey⟩ := Option.isSome_iff_exists.mp hk
    have hturn : r.turn = .ok (r.advance 1) := turn_of_live hkey (by omega)
    have hlive : (r.advance 1).chainKey.isSome := by simp [advance, hkey]
    have hcounter : (r.advance 1).counter = r.counter + 1 := rfl
    have hrest := ih hlive (by omega)
    rw [advance_advance, Nat.add_comm 1 n, hcounter] at hrest
    refine .turned (by omega) hturn ?_
    have htarget :
        ((r.counter + 1 : Nat) : Int) + (n : Nat) = r.counter + ((n + 1 : Nat) : Int) := by
      omega
    rw [htarget] at hrest
    exact hrest

private theorem exists_liveKey (h : r.chainKey.isSome) : ∃ key, r.liveKey = .ok key := by
  obtain ⟨key, hkey⟩ := Option.isSome_iff_exists.mp h
  exact ⟨key, by rw [liveKey, hkey]⟩

theorem turnUntil_of_refuses {k : FaultKind} {f : Fault} (h : r.Refuses target k f) :
    r.turnUntil target = (r, .error f.reported) ∧ f.kind = k := by
  cases h with
  | discarded spent =>
    have hdead : r.liveKey = .error (.discarded r.counter) := by rw [liveKey, spent]
    have hwritable : (Fault.discarded r.counter).Writable := by
      intro n hn
      cases hn
    rw [turnUntil, turnsTo, hdead, Fault.reported_of_writable hwritable]
    exact ⟨rfl, rfl⟩
  | regression keyed behind =>
    obtain ⟨key, hkey⟩ := exists_liveKey keyed
    simp only [turnUntil, turnsTo, hkey, if_pos behind]
    exact ⟨trivial, rfl⟩
  | skipTooLarge keyed ahead far =>
    obtain ⟨key, hkey⟩ := exists_liveKey keyed
    simp only [turnUntil, turnsTo, hkey, if_neg (Int.not_lt.mpr ahead), if_pos far]
    exact ⟨trivial, rfl⟩
  | targetOutOfRange keyed ahead near beyond =>
    obtain ⟨key, hkey⟩ := exists_liveKey keyed
    simp only [turnUntil, turnsTo, hkey, if_neg (Int.not_lt.mpr ahead),
      if_neg (Int.not_lt.mpr near), if_pos beyond]
    exact ⟨trivial, rfl⟩

private theorem Refuses.writable {k : FaultKind} {f : Fault} (h : r.Refuses target k f)
    (htarget : target.natAbs < Fault.leastOverlong)
    (hskip : r.maxSkip.natAbs < Fault.leastOverlong) : f.Writable := by
  intro n hn
  cases h with
  | discarded spent => cases hn
  | regression keyed behind =>
    obtain rfl := List.mem_singleton.mp hn
    exact htarget
  | skipTooLarge keyed ahead far =>
    rcases List.mem_cons.mp hn with rfl | hlast
    · omega
    · obtain rfl := List.mem_singleton.mp hlast
      exact hskip
  | targetOutOfRange keyed ahead near beyond =>
    obtain rfl := List.mem_singleton.mp hn
    exact htarget

private theorem turnUntil_of_not_refuses (h : ∀ k f, ¬ r.Refuses target k f) :
    ∃ n : Nat, target = r.counter + n ∧ (n : Int) ≤ r.maxSkip ∧
      r.turnUntil target = (r.advance n, .ok n) ∧ Catching target r n (r.advance n) := by
  have hkeyed : r.chainKey.isSome := by
    cases hkey : r.chainKey with
    | none => exact absurd (.discarded hkey) (h _ _)
    | some key => rfl
  have hahead : (r.counter : Int) ≤ target := by
    by_contra hbehind
    exact h _ _ (.regression hkeyed (by omega))
  have hnear : target - r.counter ≤ r.maxSkip := by
    by_contra hfar
    exact h _ _ (.skipTooLarge hkeyed hahead (by omega))
  have hrange : target ≤ maxCounter := by
    by_contra hbeyond
    exact h _ _ (.targetOutOfRange hkeyed hahead hnear (by omega))
  obtain ⟨n, hn⟩ := Int.eq_ofNat_of_zero_le (show 0 ≤ target - r.counter by omega)
  have htarget : target = r.counter + n := by omega
  subst htarget
  have hroom : r.counter + n ≤ maxCounter := by omega
  exact ⟨n, rfl, by omega, turnUntil_of_le hkeyed (by omega) hroom, catching_advance hkeyed hroom⟩

/-- The failures to catch up are the refusals, as they are reported. -/
theorem refuses_of_error {f : Fault} (h : (r.turnUntil target).2 = .error f) :
    ∃ k g, r.Refuses target k g ∧ g.kind = k ∧ f = g.reported := by
  by_cases hrefuses : ∃ k g, r.Refuses target k g
  · obtain ⟨k, g, hg⟩ := hrefuses
    obtain ⟨hreported, hkind⟩ := turnUntil_of_refuses hg
    rw [hreported] at h
    exact ⟨k, g, hg, hkind, (Except.error.inj h).symm⟩
  · obtain ⟨n, -, -, hcaught, -⟩ :=
      turnUntil_of_not_refuses fun k g hg => hrefuses ⟨k, g, hg⟩
    rw [hcaught] at h
    cases h

private theorem not_refuses_of_ok {q : Ratchet} (h : r.turnUntil target = (q, .ok n))
    (k : FaultKind) (f : Fault) : ¬ r.Refuses target k f := by
  intro hrefuses
  rw [(turnUntil_of_refuses hrefuses).1] at h
  cases (Prod.mk.inj h).2

private theorem catching_of_ok {q : Ratchet} (h : r.turnUntil target = (q, .ok n)) :
    Catching target r n q ∧ (q.counter : Int) = target := by
  obtain ⟨m, htarget, -, hcaught, hcatching⟩ := turnUntil_of_not_refuses (not_refuses_of_ok h)
  rw [hcaught] at h
  obtain ⟨rfl, hn⟩ := Prod.mk.inj h
  obtain rfl := Except.ok.inj hn
  refine ⟨hcatching, ?_⟩
  have hcounter : (r.advance m).counter = r.counter + m := rfl
  omega

/-- A ratchet that is asked to catch up, whatever its state and the target, either refuses for the
first cause that there is and stays as it is, or makes as many turns as the target lies ahead, at
most as many as it may skip and none of which fails. To stop on the way makes no difference. A
refusal is reported as such exactly if its text can be written out, as it can wherever the target
and the bound on skips can; otherwise the argument is called invalid. -/
theorem turnUntil_decided (r : Ratchet) (target : Int) :
    (∀ k f, r.Refuses target k f →
      (f.Writable → r.turnUntil target = (r, .error f) ∧ f.kind = k) ∧
        (¬ f.Writable → r.turnUntil target = (r, .error .unwritable) ∧
          Fault.unwritable.kind = .invalidArgument) ∧
        (target.natAbs < Fault.leastOverlong → r.maxSkip.natAbs < Fault.leastOverlong →
          f.Writable)) ∧
      ((∀ k f, ¬ r.Refuses target k f) →
        ∃ (n : Nat) (r' : Ratchet), r.turnUntil target = (r', .ok n) ∧
          (n : Int) = target - r.counter ∧ (n : Int) ≤ r.maxSkip ∧
          r'.counter = target ∧ r'.maxSkip = r.maxSkip ∧
          Catching target r n r' ∧ (· >>= turn)^[n] (.ok r) = .ok r') ∧
      ∀ (a b : Int) (r₁ r₂ r₃ : Ratchet) (m n k : Nat), r.turnUntil a = (r₁, .ok m) →
        r₁.turnUntil b = (r₂, .ok n) → r.turnUntil b = (r₃, .ok k) → r₂ = r₃ ∧ m + n = k := by
  refine ⟨?_, ?_, ?_⟩
  · intro k f h
    obtain ⟨hrefused, hkind⟩ := turnUntil_of_refuses h
    refine ⟨fun hwritable => ?_, fun hlong => ?_, h.writable⟩
    · rw [Fault.reported_of_writable hwritable] at hrefused
      exact ⟨hrefused, hkind⟩
    · rw [Fault.reported_of_not_writable hlong] at hrefused
      exact ⟨hrefused, rfl⟩
  · intro h
    obtain ⟨n, htarget, hnear, hcaught, hcatching⟩ := turnUntil_of_not_refuses h
    have hcounter : (r.advance n).counter = r.counter + n := rfl
    refine ⟨n, r.advance n, hcaught, ?_, hnear, ?_, rfl, hcatching, hcatching.iterate⟩
    · omega
    · omega
  · intro a b r₁ r₂ r₃ m n k hfirst hsecond hwhole
    obtain ⟨hto, hthere⟩ := catching_of_ok hfirst
    obtain ⟨hon, -⟩ := catching_of_ok hsecond
    obtain ⟨hdirect, -⟩ := catching_of_ok hwhole
    -- The second target is not behind, for the ratchet would have refused it.
    have hab : a ≤ b := by
      obtain ⟨i, hi, -⟩ := turnUntil_of_not_refuses (not_refuses_of_ok hsecond)
      omega
    obtain ⟨hcount, hsame⟩ := (hto.trans hab hon).unique hdirect
    exact ⟨hsame, hcount⟩

/-- A ratchet that has three turns left. -/
def sampleNearEnd : Ratchet :=
  ⟨some ⟨List.replicate 32 6, List.length_replicate⟩, maxCounter - 3, 10⟩

/-- A target of five thousand digits and one more lies too far ahead, which is not what is said. -/
theorem overlong_target_unwritable :
    let target : Int := (10 ^ 5000 : Nat)
    sampleNearEnd.Refuses target .ratchetSkipTooLarge
        (.skipTooLarge (maxCounter - 3) target 10) ∧
      ¬ ∀ k f, sampleNearEnd.Refuses target k f →
        sampleNearEnd.turnUntil target = (sampleNearEnd, .error f) ∧ f.kind = k := by
  intro target
  have hrefuses : sampleNearEnd.Refuses target .ratchetSkipTooLarge
      (.skipTooLarge (maxCounter - 3) target 10) :=
    .skipTooLarge rfl (by decide +kernel) (by decide +kernel)
  have hlong : ¬ (Fault.skipTooLarge (maxCounter - 3) target 10).Writable := by decide +kernel
  refine ⟨hrefuses, fun h => ?_⟩
  have hreported := (turnUntil_of_refuses hrefuses).1
  rw [Fault.reported_of_not_writable hlong, (h _ _ hrefuses).1] at hreported
  cases (Prod.mk.inj hreported).2

/-- The last counter is reached; the one after it is refused though it is near enough, and one that
lies behind is, too. A target of very many digits is refused by another name. -/
theorem turnUntil_decided_sample :
    (∃ last, sampleNearEnd.turnUntil maxCounter = (last, .ok 3) ∧
        Catching maxCounter sampleNearEnd 3 last) ∧
      sampleNearEnd.turnUntil (maxCounter + 1) =
        (sampleNearEnd, .error (.targetOutOfRange (maxCounter + 1))) ∧
      sampleNearEnd.turnUntil 1 = (sampleNearEnd, .error (.regression (maxCounter - 3) 1)) ∧
      sampleNearEnd.turnUntil ((10 ^ 5000 : Nat) : Int) =
        (sampleNearEnd, .error .unwritable) := by
  have hcounter : (sampleNearEnd.counter : Int) = maxCounter - 3 := rfl
  have hskip : sampleNearEnd.maxSkip = 10 := rfl
  have hkeyed : sampleNearEnd.chainKey.isSome := rfl
  have hlarge : (10 : Int) < maxCounter := by decide
  have hnot : ∀ k f, ¬ sampleNearEnd.Refuses maxCounter k f := by
    intro k f h
    cases h with
    | discarded spent => cases spent
    | regression keyed behind => omega
    | skipTooLarge keyed ahead far => omega
    | targetOutOfRange keyed ahead near beyond => omega
  have hroom : 2 * maxCounter ≤ Fault.leastOverlong := by decide +kernel
  have hshort (target : Int) (h : target.natAbs < 2 * maxCounter) :
      target.natAbs < Fault.leastOverlong :=
    Nat.lt_of_lt_of_le h hroom
  refine ⟨?_, ?_, ?_, ?_⟩
  · obtain ⟨n, last, hcaught, hn, -, -, -, hcatching, -⟩ :=
      (turnUntil_decided sampleNearEnd maxCounter).2.1 hnot
    obtain rfl : n = 3 := by omega
    exact ⟨last, hcaught, hcatching⟩
  · have hbeyond : sampleNearEnd.Refuses (maxCounter + 1) .ratchetExhausted
        (.targetOutOfRange (maxCounter + 1)) :=
      .targetOutOfRange hkeyed (by omega) (by omega) (by omega)
    obtain ⟨hrefused, -, hwritable⟩ :=
      (turnUntil_decided sampleNearEnd (maxCounter + 1)).1 _ _ hbeyond
    exact (hrefused (hwritable (hshort _ (by decide)) (hshort _ (by decide)))).1
  · have hbehind : sampleNearEnd.Refuses 1 .ratchetRegression (.regression (maxCounter - 3) 1) :=
      .regression hkeyed (by omega)
    obtain ⟨hrefused, -, hwritable⟩ := (turnUntil_decided sampleNearEnd 1).1 _ _ hbehind
    exact (hrefused (hwritable (hshort _ (by decide)) (hshort _ (by decide)))).1
  · have hfar : sampleNearEnd.Refuses ((10 ^ 5000 : Nat) : Int) .ratchetSkipTooLarge
        (.skipTooLarge (maxCounter - 3) ((10 ^ 5000 : Nat) : Int) 10) :=
      .skipTooLarge hkeyed (by decide +kernel) (by decide +kernel)
    obtain ⟨-, hunwritable, -⟩ := (turnUntil_decided sampleNearEnd _).1 _ _ hfar
    exact (hunwritable (by decide +kernel)).1

end RatchetSession.Ratchet
