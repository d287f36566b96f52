import RatchetSession.Proofs.Changes

/-!
# Runs of a scenario

Whatever the commands, objects in memory stay separate, and a session there is one that its own
operations and handles lead to: `Sound.after`. A ratchet is where the calls on it have brought it,
whoever made them: `Sound.ratchet_after`. What is not touched stays in its state:
`Sound.state?_after`.
-/

set_option autoImplicit false
set_option relaxedAutoImplicit false

namespace RatchetSession

namespace Slot

variable {x : Slot} {r : Ratchet}

private theorem kept_eq_live : x.kept = .live r ↔ x = .live r := by
  cases x with
  | live r' => rfl
  | empty => exact ⟨nofun, nofun⟩
  | retired r' => exact ⟨nofun, nofun⟩

private theorem kept_ne_retired (x : Slot) (r : Ratchet) : x.kept ≠ .retired r := by
  cases x <;> nofun

end Slot

namespace Session

variable {s : Session} {c : Channel} {r : Ratchet}

private theorem get_slots_kept (s : Session) (c : Channel) :
    s.kept.slots.get c = (s.slots.get c).kept :=
  Slots.get_kept ..

private theorem Orderly.orderly_kept (hs : s.Orderly) : s.kept.Orderly := by
  have hnone (c : Channel) (r : Ratchet) : s.kept.slots.get c ≠ .retired r := by
    rw [get_slots_kept]
    exact Slot.kept_ne_retired _ r
  refine ⟨fun c r hr => ?_, fun d => hnone _, fun c r hr => absurd hr (hnone c r),
    fun hphase d => ?_⟩
  · rcases Slot.ratchet?_eq_some hr with hlive | hretired
    · rw [get_slots_kept, Slot.kept_eq_live] at hlive
      exact hs.range c r (by rw [hlive]; rfl)
    · exact absurd hretired (hnone c r)
  · rw [phase_kept] at hphase
    rw [get_slots_kept, hs.together hphase d]
    rfl

private theorem performOnHandle_of_live (live : s.slots.get c = .live r) (op : Ratchet.Operation) :
    (s.performOnHandle c op).after = s.putRatchet c (r.perform op).after := by
  simp only [performOnHandle, live, Slot.ratchet?]

private theorem performOnHandle_kept (live : s.slots.get c = .live r) (op : Ratchet.Operation) :
    (s.kept.performOnHandle c op).after.kept = (s.performOnHandle c op).after.kept := by
  have hlive : s.kept.slots.get c = .live r := by rw [get_slots_kept, Slot.kept_eq_live, live]
  rw [performOnHandle_of_live live, performOnHandle_of_live hlive, kept_putRatchet]

end Session

namespace Scenario

def after (w : Scenario) (commands : List (List Bytes × Command)) : Scenario :=
  commands.foldl (fun w p => (w.perform p.1 p.2).1) w

theorem after_cons (w : Scenario) (p : List Bytes × Command)
    (commands : List (List Bytes × Command)) :
    w.after (p :: commands) = (w.perform p.1 p.2).1.after commands := rfl

/-- The calls that some work makes on the ratchet at a place, where it leads from one memory to
another. -/
def callsBy (x : Nat) (m m' : Memory) : Option Work → List Ratchet.Call
  | some (.session a op) => m.callsOn a op m' x
  | some (.ratchet y op) => if y = x then op.calls else []
  | none => []

def callsOn (w : Scenario) (x : Nat) (p : List Bytes × Command) : List Ratchet.Call :=
  callsBy x w.memory (w.after [p]).memory (w.work? p.2)

/-- The calls that commands make on the ratchet at a place, whoever refers to it. -/
def callsIn (w : Scenario) (x : Nat) : List (List Bytes × Command) → List Ratchet.Call
  | [] => []
  | p :: commands => w.callsOn x p ++ (w.after [p]).callsIn x commands

/-- What some work is done with. -/
def Work.subject : Work → Referent
  | .session a _ => .session a
  | .ratchet x _ => .ratchet x

/-- What is done with one object may be felt by the other. -/
def Touches (m : Memory) : Referent → Referent → Prop
  | .session a, .session b => a = b
  | .session a, .ratchet x | .ratchet x, .session a => m.Uses a x
  | .ratchet x, .ratchet y => x = y
  | _, _ => False

instance (m : Memory) (u v : Referent) : Decidable (Touches m u v) := by
  unfold Touches
  split <;> infer_instance

/-- No command works on something that touches an object. -/
def LeavesAlone (w : Scenario) (v : Referent) : List (List Bytes × Command) → Prop
  | [] => True
  | p :: commands =>
    (∀ work ∈ w.work? p.2, ¬ Touches w.memory work.subject v) ∧ (w.after [p]).LeavesAlone v commands

instance decidableLeavesAlone (w : Scenario) (v : Referent) :
    (commands : List (List Bytes × Command)) → Decidable (w.LeavesAlone v commands)
  | [] => isTrue trivial
  | p :: commands =>
    have := decidableLeavesAlone (w.after [p]) v commands
    inferInstanceAs (Decidable ((∀ work ∈ w.work? p.2, ¬ Touches w.memory work.subject v) ∧
      (w.after [p]).LeavesAlone v commands))

structure Sound (w : Scenario) : Prop where
  separate : w.memory.Separate
  /-- A session is one that its own operations and handles lead to. -/
  reachable : ∀ a s, w.memory.session? a = some s → ∃ t : Session, t.Reachable ∧ s = t.kept
  there : ∀ name x, w.referent? name = some (.ratchet x) → x < w.memory.ratchets.size
  range : ∀ name x, w.referent? name = some (.ratchet x) →
    (w.memory.ratchet x).counter ≤ maxCounter

section

variable {w w' : Scenario} {command : Command} {work : Option Work} {answer : Except Failure Reply}
  {a x : Nat} {s : Session} {c : Channel} {r : Ratchet} {name : String} {v : Referent}

theorem sound_empty : ({} : Scenario).Sound := by
  have hnone (name : String) : ({} : Scenario).referent? name = none := rfl
  refine ⟨Memory.separate_empty, fun a s hs => ?_, fun name x hx => ?_, fun name x hx => ?_⟩
  · cases hs
  · rw [hnone] at hx
    cases hx
  · rw [hnone] at hx
    cases hx

theorem Sound.orderly (hw : w.Sound) (hs : w.memory.session? a = some s) : s.Orderly := by
  obtain ⟨t, ht, rfl⟩ := hw.reachable a s hs
  exact ht.orderly.orderly_kept

private theorem Sound.range_of_field (hw : w.Sound) (hx : w.memory.field? a c = some x) :
    (w.memory.ratchet x).counter ≤ maxCounter := by
  obtain ⟨o, ho, -⟩ := Option.bind_eq_some_iff.mp hx
  have hs := Memory.session?_eq ho
  exact (hw.orderly hs).range c _ (by rw [Memory.get_of_field hs hx]; rfl)

theorem Effect.size_le (hw : w.Sound) (h : Effect w command work w' answer) :
    w.memory.ratchets.size ≤ w'.memory.ratchets.size := by
  cases h with
  | unchanged answer => exact Nat.le_refl _
  | bound answer binds lent => exact Nat.le_refl _
  | opened answer binds made => exact (Memory.rewrites_addSession hw.separate _).frame.size
  | started answer binds range => exact (Memory.evolves_addRatchet hw.separate _).size
  | session op there => exact (Memory.perform_follows hw.separate there op).after.frame.size
  | ratchet op there =>
    exact (Memory.performOn_spec hw.separate (hw.there _ _ there) op).2.size

theorem Effect.ratchet_after (hw : w.Sound) (h : Effect w command work w' answer)
    (hx : x < w.memory.ratchets.size) :
    w'.memory.ratchet x = (w.memory.ratchet x).afterCalls (callsBy x w.memory w'.memory work) := by
  cases h with
  | unchanged answer => rfl
  | bound answer binds lent => rfl
  | opened answer binds made =>
    apply (Memory.rewrites_addSession hw.separate _).frame.ratchet x hx
    intro c hc
    rw [Memory.field?, Array.getElem?_eq_none (Nat.le_refl _)] at hc
    cases hc
  | started answer binds range =>
    exact (Memory.evolves_addRatchet hw.separate _).others x (Nat.ne_of_lt hx)
  | session op there =>
    exact (Memory.written_perform hw.separate _ _ op).ratchet hw.separate there
      (hw.orderly there).together hx
  | @ratchet name y op there =>
    obtain ⟨-, hafter⟩ := Memory.performOn_spec hw.separate (hw.there name y there) op
    by_cases hxy : y = x
    · subst hxy
      rw [hafter.ratchet, Ratchet.perform_after, callsBy, if_pos rfl]
    · rw [hafter.others x (Ne.symm hxy), callsBy, if_neg hxy, Ratchet.afterCalls_nil]

theorem Effect.named (h : Effect w command work w' answer)
    (hx : w'.referent? name = some (.ratchet x)) :
    w.referent? name = some (.ratchet x) ∨ command.binds? = some name ∧
      ((∃ a c, w.memory.field? a c = some x) ∨ x = w.memory.ratchets.size ∧
        ∃ r : Ratchet, r.counter ≤ maxCounter ∧ w'.memory = w.memory.addRatchet r) := by
  have hbind {other : String} {u : Referent} (hx : (w.bind other u).referent? name =
      some (.ratchet x)) : w.referent? name = some (.ratchet x) ∨
        name = other ∧ u = .ratchet x := by
    by_cases hname : name = other
    · rw [hname, referent?_bind_self] at hx
      exact .inr ⟨hname, Option.some.inj hx⟩
    · rw [referent?_bind_of_ne w u hname] at hx
      exact .inl hx
  cases h with
  | unchanged answer => exact .inl hx
  | bound answer binds lent =>
    rcases hbind hx with hold | ⟨rfl, rfl⟩
    · exact .inl hold
    · exact .inr ⟨binds, .inl (lent x rfl)⟩
  | opened answer binds made =>
    rcases hbind hx with hold | ⟨rfl, hnew⟩
    · exact .inl hold
    · cases hnew
  | started answer binds range =>
    rcases hbind hx with hold | ⟨rfl, hnew⟩
    · exact .inl hold
    · exact .inr ⟨binds, .inr ⟨(Referent.ratchet.inj hnew).symm, _, range, rfl⟩⟩
  | session op there => exact .inl hx
  | ratchet op there => exact .inl hx

private theorem Sound.reachable_of_rewrites {t : Session} {m' : Memory} (hw : w.Sound)
    (ht : t.Reachable)
    (h : w.memory.Rewrites a t.kept m') (b : Nat) (s : Session) (hs : m'.session? b = some s) :
    ∃ t : Session, t.Reachable ∧ s = t.kept := by
  by_cases hb : b = a
  · subst hb
    exact ⟨t, ht, Option.some.inj (hs.symm.trans h.session)⟩
  · rw [h.frame.session b hb] at hs
    exact hw.reachable b s hs

private theorem Sound.reachable_of_performOn (hw : w.Sound) (hx : x < w.memory.ratchets.size)
    (op : Ratchet.Operation) (b : Nat) (s : Session)
    (hs : (w.memory.performOn x op).after.session? b = some s) :
    ∃ t : Session, t.Reachable ∧ s = t.kept := by
  by_cases hused : ∃ c, w.memory.field? b c = some x
  · obtain ⟨c, hc⟩ := hused
    obtain ⟨o, ho, -⟩ := Option.bind_eq_some_iff.mp hc
    have hold := Memory.session?_eq ho
    obtain ⟨t, ht, hkept⟩ := hw.reachable b _ hold
    have hlive : t.slots.get c = .live (w.memory.ratchet x) := by
      rw [← Slot.kept_eq_live, ← Session.get_slots_kept, ← hkept]
      exact Memory.get_of_field hold hc
    have hafter := (Memory.performOn_of_field hw.separate hold hc op).2.kept
    rw [hkept, Session.performOnHandle_kept hlive] at hafter
    exact ⟨_, ht.performOnHandle c op, Option.some.inj (hs.symm.trans hafter.session)⟩
  · have hafter := (Memory.performOn_spec hw.separate hx op).2
    rw [hafter.session?_of_unused fun c hc => hused ⟨c, hc⟩] at hs
    exact hw.reachable b s hs

theorem Effect.sound (hw : w.Sound) (h : Effect w command work w' answer) : w'.Sound := by
  have hkept (x : Nat) (hx : x < w.memory.ratchets.size)
      (hrange : (w.memory.ratchet x).counter ≤ maxCounter) :
      x < w'.memory.ratchets.size ∧ (w'.memory.ratchet x).counter ≤ maxCounter := by
    refine ⟨Nat.lt_of_lt_of_le hx (h.size_le hw), ?_⟩
    rw [h.ratchet_after hw hx]
    exact Ratchet.counter_afterCalls_le hrange _
  have hnamed (name : String) (x : Nat) (hx : w'.referent? name = some (.ratchet x)) :
      x < w'.memory.ratchets.size ∧ (w'.memory.ratchet x).counter ≤ maxCounter := by
    rcases h.named hx with hold | ⟨-, ⟨a, c, hc⟩ | ⟨rfl, r, hr, hnew⟩⟩
    · exact hkept x (hw.there name x hold) (hw.range name x hold)
    · exact hkept x (hw.separate.object a c x hc) (hw.range_of_field hc)
    · rw [hnew, Memory.size_addRatchet, (Memory.evolves_addRatchet hw.separate r).ratchet]
      exact ⟨Nat.lt_succ_self _, hr⟩
  have hrest : w'.memory.Separate ∧ ∀ a s, w'.memory.session? a = some s →
      ∃ t : Session, t.Reachable ∧ s = t.kept := by
    cases h with
    | unchanged answer => exact ⟨hw.separate, hw.reachable⟩
    | bound answer binds lent => exact ⟨hw.separate, hw.reachable⟩
    | opened answer binds made =>
      have hafter := Memory.rewrites_addSession hw.separate ‹Session›
      exact ⟨hafter.separate, hw.reachable_of_rewrites made.reachable hafter⟩
    | started answer binds range =>
      have hafter := Memory.evolves_addRatchet hw.separate ‹Ratchet›
      refine ⟨hafter.separate, fun a s hs => hw.reachable a s ?_⟩
      rwa [← hafter.session?_of_unused fun c hc => Nat.lt_irrefl _ (hw.separate.object a c _ hc)]
    | session op there =>
      have hafter := (Memory.perform_follows hw.separate there op).after
      obtain ⟨t, ht, rfl⟩ := hw.reachable _ _ there
      rw [(Session.perform_kept t op).2] at hafter
      exact ⟨hafter.separate, hw.reachable_of_rewrites (ht.perform op) hafter⟩
    | ratchet op there =>
      have hx := hw.there _ _ there
      exact ⟨(Memory.performOn_spec hw.separate hx op).2.separate,
        hw.reachable_of_performOn hx op⟩
  exact ⟨hrest.1, hrest.2, fun name x hx => (hnamed name x hx).1,
    fun name x hx => (hnamed name x hx).2⟩

theorem effect_step (w : Scenario) (p : List Bytes × Command) :
    Effect w p.2 (w.work? p.2) (w.after [p]) (w.perform p.1 p.2).2.answer :=
  effect_perform w p.1 p.2

theorem Sound.after (hw : w.Sound) (commands : List (List Bytes × Command)) :
    (w.after commands).Sound := by
  induction commands generalizing w with
  | nil => exact hw
  | cons p commands ih => exact ih ((effect_step w p).sound hw)

theorem Sound.size_after (hw : w.Sound) (commands : List (List Bytes × Command)) :
    w.memory.ratchets.size ≤ (w.after commands).memory.ratchets.size := by
  induction commands generalizing w with
  | nil => exact Nat.le_refl _
  | cons p commands ih =>
    have heffect := effect_step w p
    exact Nat.le_trans (heffect.size_le hw) (ih (heffect.sound hw))

/-- Whatever the commands, what is left of a ratchet is what the calls on it leave. -/
theorem Sound.ratchet_after (hw : w.Sound) (hx : x < w.memory.ratchets.size)
    (commands : List (List Bytes × Command)) :
    (w.after commands).memory.ratchet x =
      (w.memory.ratchet x).afterCalls (w.callsIn x commands) := by
  induction commands generalizing w with
  | nil => rfl
  | cons p commands ih =>
    have heffect := effect_step w p
    rw [callsIn, Ratchet.afterCalls_append]
    have hrest := ih (heffect.sound hw) (Nat.lt_of_lt_of_le hx (heffect.size_le hw))
    rw [heffect.ratchet_after hw hx] at hrest
    exact hrest

private theorem session_lt (hs : w.memory.session? a = some s) : a < w.memory.sessions.size := by
  obtain ⟨o, ho, -⟩ := Memory.session?_eq_some hs
  exact (Array.getElem?_eq_some_iff.mp ho).1

theorem Effect.field_fresh (hw : w.Sound) (h : Effect w command work w' answer)
    (hx : w'.memory.field? a c = some x) :
    w.memory.field? a c = some x ∨ w.memory.ratchets.size ≤ x := by
  have hframe {b : Nat} (hframe : w.memory.Frame b w'.memory) :
      w.memory.field? a c = some x ∨ w.memory.ratchets.size ≤ x := by
    by_cases hb : a = b
    · subst hb
      exact hframe.fresh c x hx
    · rw [hframe.field a c hb] at hx
      exact .inl hx
  cases h with
  | unchanged answer => exact .inl hx
  | bound answer binds lent => exact .inl hx
  | opened answer binds made => exact hframe (Memory.rewrites_addSession hw.separate _).frame
  | @started _ r answer binds range =>
    have hafter := Memory.evolves_addRatchet hw.separate r
    exact .inl ((hafter.field? a c).symm.trans hx)
  | session op there => exact hframe (Memory.perform_follows hw.separate there op).after.frame
  | ratchet op there =>
    have hafter := (Memory.performOn_spec hw.separate (hw.there _ _ there) op).2
    exact .inl ((hafter.field? a c).symm.trans hx)

theorem Effect.session_untouched (hw : w.Sound) (h : Effect w command work w' answer)
    (hs : w.memory.session? a = some s)
    (hwork : ∀ done ∈ work, ¬ Touches w.memory done.subject (.session a)) :
    w'.memory.session? a = some s ∧ ∀ c, w'.memory.field? a c = w.memory.field? a c := by
  cases h with
  | unchanged answer => exact ⟨hs, fun c => rfl⟩
  | bound answer binds lent => exact ⟨hs, fun c => rfl⟩
  | opened answer binds made =>
    have hframe := (Memory.rewrites_addSession hw.separate ‹Session›).frame
    have hne : a ≠ w.memory.sessions.size := Nat.ne_of_lt (session_lt hs)
    exact ⟨(hframe.session a hne).trans hs, fun c => hframe.field a c hne⟩
  | started answer binds range =>
    have hafter := Memory.evolves_addRatchet hw.separate ‹Ratchet›
    have hfresh (c : Channel) : w.memory.field? a c ≠ some w.memory.ratchets.size := fun hc =>
      Nat.lt_irrefl _ (hw.separate.object a c _ hc)
    exact ⟨(hafter.session?_of_unused hfresh).trans hs, hafter.field? a⟩
  | @session b t op there =>
    have hne : a ≠ b := fun heq => hwork _ rfl heq.symm
    have hframe := (Memory.perform_follows hw.separate there op).after.frame
    exact ⟨(hframe.session a hne).trans hs, fun c => hframe.field a c hne⟩
  | @ratchet name y op there =>
    have hafter := (Memory.performOn_spec hw.separate (hw.there name y there) op).2
    have hunused (c : Channel) : w.memory.field? a c ≠ some y := fun hc =>
      hwork _ rfl (Memory.uses_iff.mpr ⟨c, hc⟩)
    exact ⟨(hafter.session?_of_unused hunused).trans hs, hafter.field? a⟩

theorem callsBy_of_untouched {m' : Memory}
    (hwork : ∀ done ∈ work, ¬ Touches w.memory done.subject (.ratchet x)) :
    callsBy x w.memory m' work = [] := by
  cases work with
  | none => rfl
  | some done =>
  have hne := hwork done rfl
  cases done with
  | ratchet y op => exact if_neg hne
  | session b op =>
    simp only [callsBy, Memory.callsOn]
    split
    · rename_i c call hcall
      exact if_neg fun hc => hne (Memory.uses_iff.mpr ⟨c, hc⟩)
    · exact if_neg fun hboth => hne hboth.1

private theorem Effect.ratchet_untouched (hw : w.Sound) (h : Effect w command work w' answer)
    (hx : x < w.memory.ratchets.size)
    (hwork : ∀ done ∈ work, ¬ Touches w.memory done.subject (.ratchet x)) :
    w'.memory.ratchet x = w.memory.ratchet x := by
  rw [h.ratchet_after hw hx, callsBy_of_untouched hwork, Ratchet.afterCalls_nil]

private theorem Effect.state?_untouched (hw : w.Sound) (h : Effect w command work w' answer)
    {state : View} (hstate : w.state? v = some state)
    (hwork : ∀ done ∈ work, ¬ Touches w.memory done.subject v) : w'.state? v = some state := by
  cases v with
  | party l => exact hstate
  | contact c => exact hstate
  | message b => cases hstate
  | session a =>
    obtain ⟨s, hs, rfl⟩ := Option.map_eq_some_iff.mp hstate
    simp only [state?, (h.session_untouched hw hs hwork).1, Option.map_some]
  | ratchet x =>
    obtain ⟨o, ho, rfl⟩ := Option.map_eq_some_iff.mp hstate
    have hx : x < w.memory.ratchets.size := (Array.getElem?_eq_some_iff.mp ho).1
    obtain ⟨o', ho'⟩ := Memory.exists_object (Nat.lt_of_lt_of_le hx (h.size_le hw))
    simp only [state?, ho', Option.map_some, h.ratchet_untouched hw hx hwork]

/-- What no command touches stays in its state. -/
theorem Sound.state?_after (hw : w.Sound) {state : View} (hstate : w.state? v = some state)
    {commands : List (List Bytes × Command)} (alone : w.LeavesAlone v commands) :
    (w.after commands).state? v = some state := by
  induction commands generalizing w with
  | nil => exact hstate
  | cons p commands ih =>
    have heffect := effect_step w p
    exact ih (heffect.sound hw) (heffect.state?_untouched hw hstate alone.1) alone.2

end

end Scenario

end RatchetSession
