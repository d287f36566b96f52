import RatchetSession.Proofs.ScenarioRuns

/-!
# Ratchets that are taken from a session

Who takes a ratchet from a session refers to the object that the session uses, and both go on with
it: it is where all calls have brought it, whoever made them. The session uses it for good, or gives
it up and is established then; from then on the ratchet is of no use to anyone: `handles_coherent`.
-/

set_option autoImplicit false
set_option relaxedAutoImplicit false

namespace RatchetSession

namespace Ratchet

def Operation.needsKey : Operation → Bool
  | .encryptionKey | .turnUntil _ => true
  | .turn times => times ≠ 0
  | .discard => false

private theorem perform_of_keyless {r : Ratchet} (hk : r.chainKey = none) {op : Operation}
    (hop : op.needsKey) : (r.perform op).answer = .error (.ratchet (.discarded r.counter)) := by
  have hlive : r.liveKey = .error (.discarded r.counter) := by simp only [liveKey, hk]
  cases op with
  | encryptionKey =>
    simp only [perform, encryptionKey, hlive]
    rfl
  | turn times =>
    cases times with
    | zero => cases hop
    | succ n =>
      simp only [perform, turns, turn_of_keyless hk]
      rfl
  | turnUntil target =>
    simp only [perform, turnUntil_of_keyless hk]
    rfl
  | discard => cases hop

end Ratchet

private theorem Session.not_has_twoDh_of_established {s : Session} (h : s.phase = .established)
    (d : Direction) :
    ¬ s.Has ⟨d, .twoDh⟩ := by
  intro hhas
  rw [phase_eq] at h
  split_ifs at h with hfour htwo
  apply htwo
  cases d with
  | outgoing => exact .inl hhas
  | incoming => exact .inr hhas

namespace Scenario

/-- The command asks for the chain key of the ratchet at a place, through a name of it. -/
inductive NeedsKey (w : Scenario) (x : Nat) : Command → Prop
  | works {command : Command} {op : Ratchet.Operation}
      (work : w.work? command = some (.ratchet x op)) (needs : op.needsKey) : NeedsKey w x command
  | copies {on : String} (as : String) (named : w.referent? on = some (.ratchet x)) :
      NeedsKey w x (.copy as on)

/-- The failure is that of a ratchet that cannot go on. -/
def Exhausts (answer : Except Failure Reply) : Prop :=
  ∃ f, answer = .error (.fault f) ∧ f.kind = .ratchetExhausted

/-- The ratchet at a place has no key, stays as it is, and is of no use to whoever refers to it. -/
structure Spent (w : Scenario) (x : Nat) : Prop where
  keyless : (w.memory.ratchet x).chainKey = none
  stays : ∀ commands, (w.after commands).memory.ratchet x = w.memory.ratchet x
  fails : ∀ commands random command, (w.after commands).NeedsKey x command →
    Exhausts ((w.after commands).perform random command).2.answer

/-- A ratchet that was taken from a channel of a session: the session uses it still, or it is
established and has given it up. -/
inductive Lent (w : Scenario) (a : Nat) (c : Channel) (x : Nat) : Prop
  | used (field : w.memory.field? a c = some x)
  | givenUp {s : Session} (there : w.memory.session? a = some s) (phase : s.phase = .established)
      (twoDh : c.generation = .twoDh) (field : w.memory.field? a c = none)
      (keyless : (w.memory.ratchet x).chainKey = none)

variable {w w' : Scenario} {command : Command} {work : Option Work} {answer : Except Failure Reply}
  {a x : Nat} {s : Session} {c : Channel} {r : Ratchet}

private theorem session_of_field (h : w.memory.field? a c = some x) :
    ∃ s, w.memory.session? a = some s ∧ s.slots.get c = .live (w.memory.ratchet x) := by
  obtain ⟨o, ho, -⟩ := Option.bind_eq_some_iff.mp h
  have hs := Memory.session?_eq ho
  exact ⟨_, hs, Memory.get_of_field hs h⟩

/-- A session that there is stays there, and refers to ratchets as before unless it is worked on. -/
private theorem Effect.session_of_ne (hw : w.Sound) (h : Effect w command work w' answer)
    (hs : w.memory.session? a = some s) (hwork : ∀ op, work ≠ some (.session a op)) :
    (∃ t, w'.memory.session? a = some t ∧ t.phase = s.phase) ∧
      ∀ c, w'.memory.field? a c = w.memory.field? a c := by
  by_cases htouched : ∃ done ∈ work, Touches w.memory done.subject (.session a)
  · obtain ⟨done, hdone, htouches⟩ := htouched
    obtain rfl : work = some done := hdone
    cases done with
    | session b op => exact absurd (congrArg (some <| Work.session · op) htouches) (hwork op)
    | ratchet y op =>
      obtain ⟨c, hc⟩ := Memory.uses_iff.mp htouches
      cases h with
      | ratchet op there =>
      have hafter := (Memory.performOn_spec hw.separate (hw.there _ y there) op).2
      refine ⟨⟨_, hafter.session?_of_field hw.separate hc hs, ?_⟩, hafter.field? a⟩
      exact Session.phase_congr (Session.has_putRatchet _ (Memory.get_of_field hs hc))
  · obtain ⟨hsame, hfield⟩ := h.session_untouched hw hs fun done hdone htouches =>
      htouched ⟨done, hdone, htouches⟩
    exact ⟨⟨s, hsame, rfl⟩, hfield⟩

private theorem Lent.session (h : w.Lent a c x) : ∃ s, w.memory.session? a = some s := by
  cases h with
  | used field =>
    obtain ⟨s, hs, -⟩ := session_of_field field
    exact ⟨s, hs⟩
  | givenUp there phase twoDh field keyless => exact ⟨_, there⟩

private theorem Effect.keyless (hw : w.Sound) (h : Effect w command work w' answer)
    (hx : x < w.memory.ratchets.size) (hk : (w.memory.ratchet x).chainKey = none) :
    (w'.memory.ratchet x).chainKey = none := by
  rw [h.ratchet_after hw hx, (Ratchet.afterCalls_of_keyless hk _).1, hk]

private theorem Effect.lent (hw : w.Sound) (h : Effect w command work w' answer)
    (hx : x < w.memory.ratchets.size) (hlent : w.Lent a c x) : w'.Lent a c x := by
  obtain ⟨s, hs⟩ := hlent.session
  by_cases hwork : ∃ op, work = some (.session a op)
  · obtain ⟨op, rfl⟩ := hwork
    have hkeyless := h.keyless hw hx
    cases h with
    | @session _ s₁ op there =>
    have hfollows := Memory.perform_follows hw.separate there op
    have hwritten := Memory.written_perform hw.separate a s₁ op
    cases hlent with
    | used field =>
      rcases hwritten.field hw.separate there (hw.orderly there).together field with
        hused | ⟨hnone, htwo, hgone, hphase⟩
      · exact .used hused
      · exact .givenUp hfollows.after.session (hphase _ hfollows.after.session) htwo hnone hgone
    | givenUp there' phase twoDh field keyless =>
      obtain rfl := Option.some.inj (there.symm.trans there')
      obtain ⟨d, g⟩ := c
      obtain rfl : g = .twoDh := twoDh
      refine .givenUp hfollows.after.session ?_ rfl (hwritten.field_twoDh hw.separate there field)
        (hkeyless keyless)
      have hstep := (Session.step_perform s₁ op).phase
      rw [phase] at hstep
      rw [Session.phase_kept]
      exact hstep.of_established
  · obtain ⟨⟨t, ht, hphase⟩, hfield⟩ :=
      h.session_of_ne hw hs fun op heq => hwork ⟨op, heq⟩
    cases hlent with
    | used field => exact .used (by rw [hfield, field])
    | givenUp there phase twoDh field keyless =>
      obtain rfl := Option.some.inj (hs.symm.trans there)
      exact .givenUp ht (hphase.trans phase) twoDh (by rw [hfield, field]) (h.keyless hw hx keyless)

theorem act_copy {on : String} (as : String) (random : List Bytes)
    (named : w.referent? on = some (.ratchet x)) :
    w.act random (.copy as on) =
      (lift ((w.memory.copy x).mapError .ratchet)).map fun r => w.made as r := by
  have hact : w.act random (.copy as on) = w.ratchet on >>= fun x =>
      (lift ((w.memory.copy x).mapError .ratchet)).map fun r => w.made as r := rfl
  rw [hact, ratchet_of_referent named]
  rfl

theorem perform_copy_of_keyless {on : String} (as : String) (random : List Bytes)
    (named : w.referent? on = some (.ratchet x)) (hk : (w.memory.ratchet x).chainKey = none) :
    (w.perform random (.copy as on)).1 = w ∧ (w.perform random (.copy as on)).2.answer =
      .error (.fault (.ratchet (.discarded (w.memory.ratchet x).counter))) := by
  have hcopy : w.memory.copy x = .error (.discarded (w.memory.ratchet x).counter) := by
    simp only [Memory.copy, Ratchet.liveKey, hk]
    rfl
  rw [perform, act_copy as random named, hcopy]
  exact ⟨rfl, rfl⟩

private theorem NeedsKey.exhausts (hw : w.Sound) (hx : x < w.memory.ratchets.size)
    (hk : (w.memory.ratchet x).chainKey = none) (h : w.NeedsKey x command) (random : List Bytes) :
    Exhausts (w.perform random command).2.answer := by
  cases h with
  | @works _ op work needs =>
    have heffect := effect_perform w random command
    rw [work] at heffect
    generalize (w.perform random command).1 = w', (w.perform random command).2.answer = answer
      at heffect ⊢
    cases heffect with
    | ratchet op there =>
    obtain ⟨hseen, -⟩ := Memory.performOn_spec hw.separate hx op
    have hanswer : (w.memory.performOn x op).answer =
        .error (.ratchet (.discarded (w.memory.ratchet x).counter)) :=
      (congrArg Outcome.answer hseen).trans (Ratchet.perform_of_keyless hk needs)
    exact ⟨_, by rw [hanswer]; rfl, rfl⟩
  | copies as named => exact ⟨_, (perform_copy_of_keyless as random named hk).2, rfl⟩

private theorem Sound.spent_of_keyless (hw : w.Sound) (hx : x < w.memory.ratchets.size)
    (hk : (w.memory.ratchet x).chainKey = none) : w.Spent x := by
  have hstays (commands : List (List Bytes × Command)) :
      (w.after commands).memory.ratchet x = w.memory.ratchet x := by
    rw [hw.ratchet_after hx, (Ratchet.afterCalls_of_keyless hk _).1]
  refine ⟨hk, hstays, fun commands random command hneeds => ?_⟩
  apply hneeds.exhausts (hw.after commands) (Nat.lt_of_lt_of_le hx (hw.size_after commands))
  rw [hstays, hk]

private theorem Sound.lent_after (hw : w.Sound) (hx : x < w.memory.ratchets.size) (h : w.Lent a c x)
    (commands : List (List Bytes × Command)) : (w.after commands).Lent a c x := by
  induction commands generalizing w with
  | nil => exact h
  | cons p commands ih =>
    have heffect := effect_step w p
    exact ih (heffect.sound hw) (Nat.lt_of_lt_of_le hx (heffect.size_le hw)) (heffect.lent hw hx h)

private theorem Lent.same (h : w.Lent a c x) (hs : w.memory.session? a = some s)
    (hr : s.ratchet c = .ok r) :
    w.memory.field? a c = some x ∧ w.memory.ratchet x = r := by
  have hlive := Session.ratchet_eq_ok.mp hr
  cases h with
  | used field =>
    rw [Memory.get_of_field hs field] at hlive
    exact ⟨field, Slot.live.inj hlive⟩
  | givenUp there phase twoDh field keyless =>
    rw [Memory.get_of_no_field hs field] at hlive
    cases hlive

private theorem Lent.used_or_established (h : w.Lent a c x) (hs : w.memory.session? a = some s) :
    (∃ r, s.ratchet c = .ok r) ∨ c.generation = .twoDh ∧ s.phase = .established := by
  cases h with
  | used field => exact .inl ⟨_, Session.ratchet_eq_ok.mpr (Memory.get_of_field hs field)⟩
  | givenUp there phase twoDh field keyless =>
    obtain rfl := Option.some.inj (hs.symm.trans there)
    exact .inr ⟨twoDh, phase⟩

private theorem Lent.keyless_of_established (h : w.Lent a c x) (hs : w.memory.session? a = some s)
    (htwo : c.generation = .twoDh) (hphase : s.phase = .established) :
    (w.memory.ratchet x).chainKey = none := by
  cases h with
  | used field =>
    obtain ⟨d, g⟩ := c
    obtain rfl : g = .twoDh := htwo
    have hlive := Memory.get_of_field hs field
    exact absurd (Session.has_iff.mpr ⟨_, hlive⟩) (Session.not_has_twoDh_of_established hphase d)
  | givenUp there phase twoDh field keyless => exact keyless

private theorem grab_eq_ok {random : List Bytes} {as on : String} {words : ChannelWords}
    (h : (w.perform random (.grab as on words)).2.answer = .ok .done) :
    ∃ a c x, w.referent? on = some (.session a) ∧ words.channel = .ok c ∧
      w.memory.field? a c = some x ∧
      (w.perform random (.grab as on words)).1 = w.bind as (.ratchet x) := by
  cases hact : w.act random (.grab as on words) with
  | error e =>
    rw [(perform_of_act_error hact).2] at h
    cases h
  | ok d =>
    have hperform := (perform_of_act hact).1
    obtain ⟨⟨a, s⟩, hs, hact⟩ := bind_eq_ok hact
    obtain ⟨c, hc, hact⟩ := bind_eq_ok hact
    obtain ⟨x, hx, hact⟩ := bind_eq_ok hact
    obtain rfl := Except.ok.inj hact
    exact ⟨a, c, x, (session_eq_ok hs).1, hc, field_eq_ok (mapError_eq_ok hx), hperform⟩

/-- Whatever the commands before, who takes a ratchet from a channel of a session refers to the
object that the session uses there. Whatever the commands after, the session uses that one or none
on the channel, and none only on one of two agreements and when it is established; and the ratchet
is where the calls of all of them have brought it, so the turns that they answered for add up. When
the session is established, a ratchet of two agreements has no key, nothing that is done later
changes it, and no name of it is of any use. -/
theorem handles_coherent (before : List (List Bytes × Command)) {random : List Bytes}
    {as on : String} {words : ChannelWords}
    (taken : ((({} : Scenario).after before).perform random (.grab as on words)).2.answer =
      .ok .done) :
    let w := (({} : Scenario).after before).perform random (.grab as on words) |>.1
    ∃ a c x, (({} : Scenario).after before).referent? on = some (.session a) ∧
      words.channel = .ok c ∧ w.referent? as = some (.ratchet x) ∧
      w.memory.field? a c = some x ∧ ∀ later,
        let w' := w.after later
        let r := w.memory.ratchet x
        ∃ s, w'.memory.session? a = some s ∧
          (∀ r', s.ratchet c = .ok r' →
            w'.memory.field? a c = some x ∧ w'.memory.ratchet x = r') ∧
          ((∃ r', s.ratchet c = .ok r') ∨ c.generation = .twoDh ∧ s.phase = .established) ∧
          w'.memory.ratchet x = r.afterCalls (w.callsIn x later) ∧
          (w'.memory.ratchet x).counter = r.counter + r.turnsIn (w.callsIn x later) ∧
          (c.generation = .twoDh → s.phase = .established → w'.Spent x) := by
  have hbefore : (({} : Scenario).after before).Sound := sound_empty.after before
  obtain ⟨a, c, x, hon, hc, hx, hw'⟩ := grab_eq_ok taken
  intro w
  have hw : w.Sound := (effect_perform _ random (.grab as on words)).sound hbefore
  have hmemory : w.memory = (({} : Scenario).after before).memory :=
    (congrArg Scenario.memory hw').trans rfl
  have hfield : w.memory.field? a c = some x := by rw [hmemory, hx]
  have hthere : x < w.memory.ratchets.size := hw.separate.object a c x hfield
  refine ⟨a, c, x, hon, hc, ?_, hfield, fun later => ?_⟩
  · show (_ : Scenario × Report).1.referent? as = _
    rw [hw', referent?_bind_self]
  intro w' r
  have hlater : w'.Sound := hw.after later
  have hlent : w'.Lent a c x := hw.lent_after hthere (.used hfield) later
  have hcalls : w'.memory.ratchet x = r.afterCalls (w.callsIn x later) :=
    hw.ratchet_after hthere later
  obtain ⟨s, hs⟩ := hlent.session
  refine ⟨s, hs, fun r' hr' => hlent.same hs hr', hlent.used_or_established hs, hcalls, ?_,
    fun htwo hphase => ?_⟩
  · rw [hcalls, Ratchet.counter_afterCalls]
  · exact hlater.spent_of_keyless (Nat.lt_of_lt_of_le hthere (hw.size_after later))
      (hlent.keyless_of_established hs htwo hphase)

def sampleOpening : List (List Bytes × Command) :=
  let m : Meeting := { store := "initiator", peer := "responder" }
  [([], .store "initiator" (some "initiator") (.fixed (List.replicate 32 1))),
    ([], .store "responder" (some "responder") (.fixed (List.replicate 32 2))),
    ([], .initiate "first" m), ([], .initiate "second" m)]

/-- The ratchet that was taken is turned by both names, before the responder answers. -/
def sampleHandshake : List (List Bytes × Command) :=
  [([], .turn "taken" none 1), ([], .turn "first" (some ⟨"outgoing", "2dh"⟩) 1),
    ([], .accept "first" (.given (.fixed (List.replicate 32 9))) (.part "responder" .publicKey))]

theorem handles_coherent_sample :
    let w := (({} : Scenario).after sampleOpening).perform [] (.grab "taken" "first"
      ⟨"outgoing", "2dh"⟩) |>.1
    let w' := w.after sampleHandshake
    ∃ x, w.referent? "taken" = some (.ratchet x) ∧ (w.memory.ratchet x).counter = 1 ∧
      (w'.memory.ratchet x).counter = 3 ∧ w'.Spent x := by
  intro w w'
  have hrun : ((({} : Scenario).after sampleOpening).perform [] (.grab "taken" "first"
        ⟨"outgoing", "2dh"⟩)).2.answer = .ok .done ∧
      (({} : Scenario).after sampleOpening).referent? "first" = some (.session 0) ∧
      w.referent? "taken" = some (.ratchet 0) ∧ (w.memory.ratchet 0).counter = 1 ∧
      (w'.memory.ratchet 0).counter = 3 ∧
      (w'.memory.session? 0).map (·.phase) = some .established := by decide +kernel
  obtain ⟨htaken, hfirst, hname, hbefore, hafter, hphase⟩ := hrun
  obtain ⟨a, c, x, ha, hc, hx, -, hlater⟩ := handles_coherent sampleOpening htaken
  obtain rfl : a = 0 := Referent.session.inj (Option.some.inj (ha.symm.trans hfirst))
  obtain rfl : x = 0 := Referent.ratchet.inj (Option.some.inj (hx.symm.trans hname))
  obtain rfl : (⟨.outgoing, .twoDh⟩ : Channel) = c := Except.ok.inj hc
  obtain ⟨s, hs, -, -, -, -, hspent⟩ := hlater sampleHandshake
  rw [hs] at hphase
  exact ⟨0, hname, hbefore, hafter, hspent rfl (Option.some.inj hphase)⟩

end Scenario

end RatchetSession
