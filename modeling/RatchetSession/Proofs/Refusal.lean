import RatchetSession.Proofs.Lifecycle

/-!
# Refusals by the listener

The listener hears of what an operation has done already, and nothing takes that back. So a call
that ends with a refusal has done its work, and the same call made again does nothing more and tells
nobody: `refused_committed`.
-/

set_option autoImplicit false
set_option relaxedAutoImplicit false

namespace RatchetSession

/-- If this fails, it is not for a refusal. -/
def Unrefused {α : Type} (x : Except Fault α) : Prop := ∀ f, x = .error f → ¬ f.IsRefusal

theorem Unrefused.bind {α β : Type} {x : Except Fault α} {next : α → Except Fault β}
    (hx : Unrefused x) (hn : ∀ a, Unrefused (next a)) : Unrefused (x >>= next) :=
  FailsOnly.bind hx fun a _ => hn a

theorem Unrefused.ok {α : Type} (a : α) : Unrefused (.ok a : Except Fault α) := nofun

theorem Unrefused.error {α : Type} {f : Fault} (h : ¬ f.IsRefusal) :
    Unrefused (.error f : Except Fault α) :=
  FailsOnly.error h

theorem Unrefused.map {α β : Type} {x : Except Fault α} (hx : Unrefused x) (g : α → β) :
    Unrefused (x.map g) :=
  FailsOnly.map hx g

theorem Unrefused.mapError {ε α : Type} {g : ε → Fault} (hg : ∀ e, ¬ (g e).IsRefusal)
    (x : Except ε α) : Unrefused (x.mapError g) :=
  FailsOnly.mapError fun e _ => hg e

private theorem Unrefused.agreeEphemeral (secret : Bytes) (key : Offered) :
    Unrefused (agreeEphemeral secret key) :=
  .mapError (fun _ ⟨_, h⟩ => nomatch h) _

namespace Session

variable {s t : Session} {op : Operation} {c : Channel} {hook : Hook}

theorem ratchet_unrefused (s : Session) (c : Channel) : Unrefused (s.ratchet c) := by
  unfold ratchet
  split
  · exact .ok _
  · exact .error fun ⟨_, h⟩ => nomatch h

theorem encryptionKey_unrefused (s : Session) (c : Channel) : Unrefused (s.encryptionKey c) :=
  (ratchet_unrefused s c).bind fun _ => .mapError (fun _ ⟨_, h⟩ => nomatch h) _

theorem associatedData_unrefused (s : Session) (c : Channel) : Unrefused (s.associatedData c) :=
  (ratchet_unrefused s c).bind fun _ => .ok _

private theorem turn_unrefused (s : Session) (c : Channel) : Unrefused (turn c s).answer := by
  rw [turn_eq]
  cases hr : s.ratchet c with
  | error f => exact .error (ratchet_unrefused s c f hr)
  | ok r =>
    cases hturn : r.turn with
    | error f =>
      simp only [hturn]
      exact .error fun ⟨_, h⟩ => nomatch h
    | ok r' =>
      simp only [hturn]
      exact .ok _

private theorem pendingSecret_unrefused (s : Session) : Unrefused s.pendingSecret := by
  unfold pendingSecret
  split
  · exact .ok _
  · exact .error fun ⟨_, h⟩ => nomatch h

private theorem checkLongTerm_unrefused (s : Session) (longTerm : Offered) :
    Unrefused (s.checkLongTerm longTerm) := by
  unfold checkLongTerm
  split
  · exact .ok _
  · exact .error fun ⟨_, h⟩ => nomatch h

private theorem initiatorMaterial_unrefused (s : Session) (secret : Bytes) (ephemeral : Offered) :
    Unrefused (initiatorMaterial s secret ephemeral) :=
  (Unrefused.agreeEphemeral _ _).bind fun _ => (Unrefused.agreeEphemeral _ _).bind fun _ =>
    (Unrefused.agreeEphemeral _ _).bind fun _ => (Unrefused.agreeEphemeral _ _).bind fun _ => .ok _

private theorem startRatchets_unrefused (me : LocalIdentity) (peer : Contact) (config : Config)
    (g : Generation) (material : Bytes) : Unrefused (startRatchets me peer config g material) :=
  have hstart (x : Except Ratchet.Fault Ratchet) : Unrefused (x.mapError Fault.ratchet) :=
    .mapError (fun _ ⟨_, h⟩ => nomatch h) x
  (hstart _).bind fun _ => (hstart _).bind fun _ => .ok _

theorem accepted_unrefused (s : Session) (ephemeral longTerm : Offered) :
    Unrefused (s.accepted ephemeral longTerm) :=
  (pendingSecret_unrefused s).bind fun _ => (checkLongTerm_unrefused s longTerm).bind fun _ =>
    (initiatorMaterial_unrefused s _ ephemeral).bind fun _ =>
      (startRatchets_unrefused s.me s.peer s.config .fourDh _).bind fun _ => .ok _

private theorem accept_refused {ephemeral longTerm : Offered}
    (h : (accept ephemeral longTerm s).answer = .error (.listener hook)) :
    s.accepted ephemeral longTerm = .ok (accept ephemeral longTerm s).after := by
  rw [accept_eq] at h ⊢
  cases ht : s.accepted ephemeral longTerm with
  | error f =>
    rw [ht] at h
    exact absurd ⟨hook, Except.error.inj h⟩ (accepted_unrefused s ephemeral longTerm f ht)
  | ok t => rfl

private theorem discardTwoDh_refused (h : (discardTwoDh s).answer = .error (.listener hook)) :
    s.phase = .responderFourDh ∧ (discardTwoDh s).after = s.withoutTwoDh := by
  rw [discardTwoDh_eq] at h ⊢
  split_ifs at h ⊢ with hwaiting hresponder
  · cases h
  · exact ⟨hresponder, rfl⟩

private theorem turnUntil_refused {target : Int}
    (h : (turnUntil c target s).answer = .error (.listener hook)) :
    ∃ r n, s.ratchet c = .ok r ∧ n ≠ 0 ∧ r.turnUntil target = (r.advance n, .ok n) ∧
      (turnUntil c target s).after = s.putRatchet c (r.advance n) := by
  rw [turnUntil_eq] at h ⊢
  cases hr : s.ratchet c with
  | error f =>
    rw [hr] at h
    exact absurd ⟨hook, Except.error.inj h⟩ (ratchet_unrefused s c f hr)
  | ok r =>
    simp only [hr] at h ⊢
    rcases r.turnUntil_spec target with ⟨f, hf⟩ | ⟨n, hn, -⟩
    · simp only [hf] at h
      cases h
    · simp only [hn] at h ⊢
      by_cases hzero : n = 0
      · rw [if_pos hzero] at h
        cases h
      · rw [if_neg hzero]
        exact ⟨r, n, rfl, hzero, hn, rfl⟩

/-- How a call can end with a refusal, and what it leaves behind. -/
inductive RefusedAfter (s : Session) : Operation → Session → Prop
  | accepted {ephemeral longTerm : Offered} {t : Session}
      (taken : s.accepted ephemeral longTerm = .ok t) :
      RefusedAfter s (.accept ephemeral longTerm) t
  | stripped (phase : s.phase = .responderFourDh) : RefusedAfter s .discardTwoDh s.withoutTwoDh
  | turned {c : Channel} {target : Int} {r : Ratchet} {n : Nat} (has : s.ratchet c = .ok r)
      (some : n ≠ 0) (caught : r.turnUntil target = (r.advance n, .ok n)) :
      RefusedAfter s (.turnUntil c target) (s.putRatchet c (r.advance n))

private theorem answer_eq_error_of_map {α β : Type} {o : Outcome Session α} {g : α → β} {f : Fault}
    (h : (o.map g).answer = .error f) : o.answer = .error f := by
  cases ho : o.answer with
  | error e =>
    simp only [Outcome.map, ho] at h
    exact congrArg _ (Except.error.inj h)
  | ok a =>
    simp only [Outcome.map, ho] at h
    cases h

private theorem refusedAfter_perform (h : (s.perform op).answer = .error (.listener hook)) :
    RefusedAfter s op (s.perform op).after := by
  have himpossible {α : Type} {x : Except Fault α} (hx : Unrefused x)
      (hf : x = .error (.listener hook)) : False := hx _ hf ⟨hook, rfl⟩
  cases op with
  | accept ephemeral longTerm =>
    rw [perform_accept] at h ⊢
    exact .accepted (accept_refused (answer_eq_error_of_map h))
  | discardTwoDh =>
    rw [perform_discardTwoDh] at h ⊢
    obtain ⟨hphase, hafter⟩ := discardTwoDh_refused (answer_eq_error_of_map h)
    show RefusedAfter s _ (discardTwoDh s).after
    rw [hafter]
    exact .stripped hphase
  | take c => exact (himpossible ((ratchet_unrefused s c).map _) h).elim
  | encryptionKey c => exact (himpossible ((encryptionKey_unrefused s c).map _) h).elim
  | associatedData c => exact (himpossible ((associatedData_unrefused s c).map _) h).elim
  | turn c =>
    rw [perform_turn] at h
    exact (himpossible (turn_unrefused s c) (answer_eq_error_of_map h)).elim
  | turnUntil c target =>
    rw [perform_turnUntil] at h ⊢
    obtain ⟨r, n, hr, hn, hcaught, hafter⟩ := turnUntil_refused (answer_eq_error_of_map h)
    show RefusedAfter s _ (turnUntil c target s).after
    rw [hafter]
    exact .turned hr hn hcaught

def heardBy (l : Listener) (s : Session) : Session := { s with listener := l }

private theorem accepted_heardBy {ephemeral longTerm : Offered} (l : Listener)
    (h : s.accepted ephemeral longTerm = .ok t) :
    (s.heardBy l).accepted ephemeral longTerm = .ok (t.heardBy l) := by
  obtain ⟨secret, hsecret, h⟩ := bind_eq_ok h
  obtain ⟨_, hcheck, h⟩ := bind_eq_ok h
  obtain ⟨material, hmaterial, h⟩ := bind_eq_ok h
  obtain ⟨four, hfour, h⟩ := bind_eq_ok h
  obtain rfl := Except.ok.inj h
  have hsecret' : (s.heardBy l).pendingSecret = .ok secret := hsecret
  have hcheck' : (s.heardBy l).checkLongTerm longTerm = .ok () := hcheck
  have hmaterial' : initiatorMaterial (s.heardBy l) secret ephemeral = .ok material := hmaterial
  have hfour' : startRatchets (s.heardBy l).me (s.heardBy l).peer (s.heardBy l).config .fourDh
    material = .ok four := hfour
  simp only [accepted, hsecret', hcheck', hmaterial', hfour', bind, Except.bind]
  rfl

private theorem perform_heardBy_silent (h : RefusedAfter s op t) :
    ∃ a, ((s.heardBy .silent).perform op).answer = .ok a ∧
      ((s.heardBy .silent).perform op).after = t.heardBy .silent := by
  cases h with
  | accepted taken =>
    refine ⟨.done, ?_⟩
    rw [perform_accept, accept_eq, accepted_heardBy .silent taken]
    exact ⟨rfl, rfl⟩
  | stripped phase =>
    have hphase : (s.heardBy .silent).phase = .responderFourDh := phase
    refine ⟨.done, ?_⟩
    rw [perform_discardTwoDh, discardTwoDh_eq, if_neg (by rw [hphase]; nofun), if_pos hphase]
    exact ⟨rfl, rfl⟩
  | @turned c target r n has some caught =>
    have hhas : (s.heardBy .silent).ratchet c = .ok r := has
    refine ⟨.turns n, ?_⟩
    rw [perform_turnUntil, turnUntil_eq]
    simp only [hhas, caught, if_neg some]
    exact ⟨rfl, rfl⟩

private theorem RefusedAfter.ne (h : RefusedAfter s op t) : t ≠ s := by
  intro hsame
  cases h with
  | @accepted ephemeral longTerm t taken =>
    obtain ⟨_, _, four, hpending, -, -, -, rfl⟩ := accepted_eq_ok taken
    have hwaiting := phase_of_pendingSecret hpending
    rw [← hsame, phase_completed] at hwaiting
    cases hwaiting
  | stripped phase =>
    have hstripped : s.withoutTwoDh.phase = .established :=
      phase_withoutTwoDh (by rw [phase]; nofun)
    rw [hsame, phase] at hstripped
    cases hstripped
  | @turned c target r n has some caught =>
    have hturned := ratchet_putRatchet_self (r.advance n) has
    rw [hsame, has] at hturned
    have hcounter : r.counter = r.counter + n := congrArg Ratchet.counter (Except.ok.inj hturned)
    omega

/-- What a call answers that was made before and refused then. -/
def again (s : Session) : Operation → Except Fault Answer
  | .accept _ _ => .error (.alreadyEstablished s.id)
  | .turnUntil _ _ => .ok (.turns 0)
  | .discardTwoDh | .take _ | .encryptionKey _ | .associatedData _ | .turn _ => .ok .done

private theorem withoutTwoDh_withoutTwoDh (s : Session) :
    s.withoutTwoDh.withoutTwoDh = s.withoutTwoDh := by
  have hslot (x : Slot) : x.retire.retire = x.retire := by cases x <;> rfl
  simp only [withoutTwoDh, Slots.retireTwoDh, hslot]

private theorem RefusedAfter.perform_again (h : RefusedAfter s op t) :
    (t.perform op).answer = t.again op ∧ (t.perform op).after = t ∧ (t.perform op).Unheard := by
  cases h with
  | @accepted ephemeral longTerm t taken =>
    obtain ⟨_, _, four, -, -, -, -, rfl⟩ := accepted_eq_ok taken
    have hrefused : (s.completed ephemeral four).accepted ephemeral longTerm =
      .error (.alreadyEstablished s.id) := rfl
    rw [perform_accept, accept_eq, hrefused]
    exact ⟨rfl, rfl, rfl, fun _ => List.not_mem_nil⟩
  | stripped phase =>
    have hphase : s.withoutTwoDh.phase = .established :=
      phase_withoutTwoDh (by rw [phase]; nofun)
    rw [perform_discardTwoDh, discardTwoDh_eq, if_neg (by rw [hphase]; nofun),
      if_neg (by rw [hphase]; nofun), withoutTwoDh_withoutTwoDh]
    exact ⟨rfl, rfl, rfl, fun _ => List.not_mem_nil⟩
  | @turned c target r n has some caught =>
    have hhas := ratchet_putRatchet_self (r.advance n) has
    rcases r.turnUntil_spec target with ⟨f, hf⟩ | ⟨m, hm, hkey, rfl, hskip, hroom⟩
    · rw [caught] at hf
      cases congrArg Prod.snd hf
    obtain rfl : m = n := Except.ok.inj (congrArg Prod.snd (hm.symm.trans caught))
    have hkey' : (r.advance m).chainKey.isSome := by simpa [Ratchet.advance] using hkey
    -- The target is where the ratchet is by now.
    have hthere : (r.advance m).turnUntil (r.counter + m) = (r.advance m, .ok 0) := by
      have h := Ratchet.turnUntil_of_le (n := 0) hkey' (by show (0 : Int) ≤ r.maxSkip; omega) hroom
      rwa [Ratchet.advance_zero] at h
    rw [perform_turnUntil, turnUntil_eq]
    simp only [hhas, hthere, if_pos, putRatchet_self hhas]
    exact ⟨rfl, rfl, rfl, fun _ => List.not_mem_nil⟩

/-- A call that ends with a refusal leaves behind what it does when nobody listens, and never what
was there before. To make the same call again changes nothing and tells the listener nothing: an
accept fails then, and a ratchet reports no turns. -/
theorem refused_committed (h : (s.perform op).answer = .error (.listener hook)) :
    (∃ a, ((s.heardBy .silent).perform op).answer = .ok a ∧
        ((s.heardBy .silent).perform op).after = (s.perform op).after.heardBy .silent) ∧
      (s.perform op).after ≠ s ∧
      ((s.perform op).after.perform op).answer = (s.perform op).after.again op ∧
      ((s.perform op).after.perform op).after = (s.perform op).after ∧
      ((s.perform op).after.perform op).Unheard := by
  have hrefused : RefusedAfter s op (s.perform op).after := refusedAfter_perform h
  exact ⟨perform_heardBy_silent hrefused, hrefused.ne, hrefused.perform_again⟩

def sampleRefusing (hook : Hook) : Except Fault Session :=
  (initiate sampleInitiator sampleResponder.contact {} (.recorder [hook]) sampleEphemeral
    sampleId).answer

theorem refused_committed_skip :
    ∃ s, sampleRefusing .messagesSkipped = .ok s ∧
      let op : Operation := .turnUntil ⟨.incoming, .twoDh⟩ 3
      (s.perform op).answer = .error (.listener .messagesSkipped) ∧ (s.perform op).after ≠ s ∧
        ((s.perform op).after.perform op).answer = .ok (.turns 0) := by
  have hanswer : (do
      let s ← sampleRefusing .messagesSkipped
      return (s.perform (.turnUntil ⟨.incoming, .twoDh⟩ 3)).answer) =
        .ok (.error (.listener .messagesSkipped)) := by decide +kernel
  obtain ⟨s, hs, hanswer⟩ := bind_eq_ok hanswer
  have hrefused := Except.ok.inj hanswer
  obtain ⟨-, hchanged, hagain, -, -⟩ := refused_committed hrefused
  exact ⟨s, hs, hrefused, hchanged, hagain⟩

/-- An accept that fails by its listener, though the session is established then and takes no other
accept. -/
theorem refused_accept_established :
    ∃ s, sampleRefusing (.milestone .initiatorSessionEstablished) = .ok s ∧
      let op : Operation := .accept (.fixed (List.replicate 32 9)) (.fixed s.peer.key.val)
      (s.perform op).answer = .error (.listener (.milestone .initiatorSessionEstablished)) ∧
        (s.perform op).after ≠ s ∧
        s.phase = .initiatorTwoDh ∧ (s.perform op).after.phase = .established ∧
        ((s.perform op).after.perform op).answer = .error (.alreadyEstablished s.id) := by
  have hrun : (do
      let s ← sampleRefusing (.milestone .initiatorSessionEstablished)
      let op : Operation := .accept (.fixed (List.replicate 32 9)) (.fixed s.peer.key.val)
      return ((s.perform op).answer, s.phase, (s.perform op).after.phase,
        ((s.perform op).after.perform op).answer, s.id)) =
      .ok (.error (.listener (.milestone .initiatorSessionEstablished)), .initiatorTwoDh,
        .established, .error (.alreadyEstablished sampleId), sampleId) := by decide +kernel
  obtain ⟨s, hs, hrun⟩ := bind_eq_ok hrun
  obtain ⟨hanswer, hrun⟩ := Prod.mk.inj (Except.ok.inj hrun)
  obtain ⟨hbefore, hrun⟩ := Prod.mk.inj hrun
  obtain ⟨hafter, hrun⟩ := Prod.mk.inj hrun
  obtain ⟨hagain, hid⟩ := Prod.mk.inj hrun
  refine ⟨s, hs, hanswer, fun hsame => ?_, hbefore, hafter, hid ▸ hagain⟩
  rw [hsame, hbefore] at hafter
  cases hafter

end Session

end RatchetSession
