import RatchetSession.Proofs.Calls

/-!
# Channels are independent

What an operation on a channel shows, and what it leaves of the ratchet there, rests on that ratchet
alone. So the operations on one channel are unaffected by those on the others, by what an initiator
does before its handshake is completed and by when a responder gives its ratchets of two agreements
up: `channels_independent`.
-/

set_option autoImplicit false
set_option relaxedAutoImplicit false

namespace RatchetSession

/-- What an outcome shows, apart from what it leaves. -/
def Outcome.seen {σ α : Type} (o : Outcome σ α) : Outcome Unit α :=
  { after := (), answer := o.answer, draws := o.draws, events := o.events, log := o.log }

namespace Slot

/-- The slot, without a ratchet that the session has given up. -/
def kept : Slot → Slot
  | .live r => .live r
  | .empty | .retired _ => .empty

@[simp] theorem live?_kept (x : Slot) : x.kept.live? = x.live? := by
  cases x <;> rfl

@[simp] theorem kept_kept (x : Slot) : x.kept.kept = x.kept := by
  cases x <;> rfl

@[simp] theorem kept_retire (x : Slot) : x.retire.kept = .empty := by
  cases x <;> rfl

@[simp] theorem kept_replace_kept (r : Ratchet) (x : Slot) :
    (x.kept.replace r).kept = (x.replace r).kept := by
  cases x <;> rfl

end Slot

namespace Slots

def kept (s : Slots) : Slots where
  twoOutgoing := s.twoOutgoing.kept
  twoIncoming := s.twoIncoming.kept
  fourOutgoing := s.fourOutgoing.kept
  fourIncoming := s.fourIncoming.kept

@[simp] theorem get_kept (s : Slots) (c : Channel) : s.kept.get c = (s.get c).kept := by
  rcases c with ⟨_ | _, _ | _⟩ <;> rfl

@[simp] theorem phase_kept (s : Slots) : s.kept.phase = s.phase := by
  simp only [phase, kept, Slot.live?_kept]

@[simp] theorem kept_kept (s : Slots) : s.kept.kept = s.kept := by
  simp only [kept, Slot.kept_kept]

private theorem kept_set (s : Slots) (x : Slot) (c : Channel) :
    (s.set x c).kept = s.kept.set x.kept c := by
  rcases c with ⟨_ | _, _ | _⟩ <;> rfl

@[simp] theorem kept_retireTwoDh (s : Slots) : s.kept.retireTwoDh.kept = s.retireTwoDh.kept := by
  simp only [kept, retireTwoDh, Slot.kept_retire, Slot.kept_kept]

end Slots

namespace Session

/-- What the session still uses. A ratchet that it has given up is only there for handles. -/
def kept (s : Session) : Session := { s with slots := s.slots.kept }

def Operation.leaves (op : Operation) (r : Ratchet) : Ratchet :=
  match op.call? with
  | some (_, x) => r.afterCall x
  | none => r

def on (c : Channel) (ops : List Operation) : List Operation :=
  ops.filter (·.channel? = some c)

def replies (s : Session) : List Operation → List (Outcome Unit Answer)
  | [] => []
  | op :: ops => (s.perform op).seen :: (s.perform op).after.replies ops

/-- What those operations of a run show that are on a channel. -/
def repliesOn (c : Channel) (s : Session) : List Operation → List (Outcome Unit Answer)
  | [] => []
  | op :: ops =>
    (if op.channel? = some c then [(s.perform op).seen] else []) ++
      (s.perform op).after.repliesOn c ops

/-- The sessions are alike for all that is done on a channel. The phase is part of the answer where
there is no ratchet. -/
structure AlikeAt (c : Channel) (s t : Session) : Prop where
  fixed : s.fixedPart = t.fixedPart
  slot : s.slots.get c = t.slots.get c
  phase : s.Has c ∨ s.phase = t.phase

variable {s t : Session} {op : Operation} {c d : Channel}

private theorem seen_congr (hop : op.channel? = some c) (hfixed : s.fixedPart = t.fixedPart)
    (hr : s.ratchet c = t.ratchet c) : (s.perform op).seen = (t.perform op).seen := by
  obtain ⟨hid, -, -, hpeer, -⟩ := fields_of_fixedPart hfixed
  have hlistener : s.listener = t.listener := listener_of_fixedPart hfixed
  cases op with
  | accept ephemeral longTerm => cases hop
  | discardTwoDh => cases hop
  | take d =>
    obtain rfl := Option.some.inj hop
    simp only [perform, Operation.task, Task.ask, hr]
    rfl
  | encryptionKey d =>
    obtain rfl := Option.some.inj hop
    simp only [perform, Operation.task, Task.ask, encryptionKey, hr]
    rfl
  | associatedData d =>
    obtain rfl := Option.some.inj hop
    simp only [perform, Operation.task, Task.ask, associatedData, hr, hid]
    rfl
  | turn d =>
    obtain rfl := Option.some.inj hop
    rw [perform_turn, perform_turn, turn_eq, turn_eq, hr]
    cases t.ratchet d with
    | error f => rfl
    | ok r =>
      cases hturn : r.turn with
      | error f =>
        simp only [hturn]
        rfl
      | ok r' =>
        simp only [hturn]
        rfl
  | turnUntil d target =>
    obtain rfl := Option.some.inj hop
    rw [perform_turnUntil, perform_turnUntil, turnUntil_eq, turnUntil_eq, hr]
    cases t.ratchet d with
    | error f => rfl
    | ok r =>
      rcases r.turnUntil_spec target with ⟨f, hf⟩ | ⟨n, hn, -⟩
      · simp only [hf]
        rfl
      · simp only [hn, hid, hpeer, hlistener]
        split <;> rfl

private theorem perform_of_channel (hop : op.channel? = some c) (s : Session) :
    (s.perform op).after =
      match s.ratchet c with
      | .ok r => s.putRatchet c (op.leaves r)
      | .error _ => s := by
  have hread (hafter : (s.perform op).after = s) (hleaves : ∀ r, op.leaves r = r) :
      (s.perform op).after =
        match s.ratchet c with
        | .ok r => s.putRatchet c (op.leaves r)
        | .error _ => s := by
    rw [hafter]
    cases hr : s.ratchet c with
    | error f => rfl
    | ok r =>
      simp only [hleaves]
      exact (putRatchet_self hr).symm
  cases op with
  | accept ephemeral longTerm => cases hop
  | discardTwoDh => cases hop
  | take d => exact hread rfl fun _ => rfl
  | encryptionKey d => exact hread rfl fun _ => rfl
  | associatedData d => exact hread rfl fun _ => rfl
  | turn d =>
    obtain rfl := Option.some.inj hop
    have hcall : (Operation.turn d).call? = some (d, .turn) := rfl
    exact perform_of_call hcall s
  | turnUntil d target =>
    obtain rfl := Option.some.inj hop
    have hcall : (Operation.turnUntil d target).call? = some (d, .turnUntil target) := rfl
    exact perform_of_call hcall s

private theorem phase_of_channel (hop : op.channel? = some c) (s : Session) :
    (s.perform op).after.phase = s.phase :=
  (step_perform s op).phase.of_channel hop

private theorem get_of_channel_of_ne (hop : op.channel? = some d) (s : Session) (h : c ≠ d) :
    (s.perform op).after.slots.get c = s.slots.get c := by
  rw [perform_of_channel hop]
  cases s.ratchet d with
  | error f => rfl
  | ok r => exact get_putRatchet_of_ne s _ h

private theorem AlikeAt.refl (c : Channel) (s : Session) : AlikeAt c s s := ⟨rfl, rfl, .inr rfl⟩

private theorem has_congr (h : s.slots.get c = t.slots.get c) : s.Has c ↔ t.Has c := by
  unfold Has
  rw [h]

private theorem AlikeAt.trans {u : Session} (h : AlikeAt c s t) (h' : AlikeAt c t u) :
    AlikeAt c s u := by
  refine ⟨h.fixed.trans h'.fixed, h.slot.trans h'.slot, ?_⟩
  rcases h.phase with hhas | hphase
  · exact .inl hhas
  · rcases h'.phase with hhas' | hphase'
    · exact .inl ((has_congr h.slot).mpr hhas')
    · exact .inr (hphase.trans hphase')

private theorem AlikeAt.ratchet (h : AlikeAt c s t) : s.ratchet c = t.ratchet c := by
  obtain ⟨hid, -⟩ := fields_of_fixedPart h.fixed
  unfold Session.ratchet
  rw [h.slot, hid]
  cases hlive : (t.slots.get c).live? with
  | some r => rfl
  | none =>
    have hnot : ¬ s.Has c := by
      unfold Has
      rw [h.slot, hlive]
      exact Bool.false_ne_true
    simp only [h.phase.resolve_left hnot]

private theorem AlikeAt.perform (h : AlikeAt c s t) (hop : op.channel? = some c) :
    (s.perform op).seen = (t.perform op).seen ∧
      AlikeAt c (s.perform op).after (t.perform op).after := by
  have hr : s.ratchet c = t.ratchet c := h.ratchet
  refine ⟨seen_congr hop h.fixed hr, ?_, ?_, ?_⟩
  · rw [fixedPart_perform, fixedPart_perform, h.fixed]
  · rw [perform_of_channel hop, perform_of_channel hop, hr]
    cases hlive : t.ratchet c with
    | error f => exact h.slot
    | ok r =>
      simp only [get_putRatchet_self _ (ratchet_eq_ok.mp hlive),
        get_putRatchet_self _ (ratchet_eq_ok.mp (hr.trans hlive))]
  · rcases h.phase with hhas | hphase
    · left
      obtain ⟨r, hr⟩ := has_iff.mp hhas
      rw [perform_of_channel hop, ratchet_eq_ok.mpr hr]
      exact (has_putRatchet _ hr c).mpr hhas
    · right
      rw [phase_of_channel hop, phase_of_channel hop, hphase]

/-- If the other operations leave a channel as it is, a run shows there what its operations on that
channel show when they are made alone. -/
private theorem AlikeAt.run {P : Session → Prop} {Q : Operation → Prop}
    (hkeep : ∀ u op, P u → Q op → P (u.perform op).after)
    (hother : ∀ u op, P u → Q op → op.channel? ≠ some c → AlikeAt c (u.perform op).after u)
    (h : AlikeAt c s t) (hs : P s) (ops : List Operation) (hops : ∀ op ∈ ops, Q op) :
    s.repliesOn c ops = t.replies (on c ops) ∧ AlikeAt c (s.run ops) (t.run (on c ops)) := by
  induction ops generalizing s t with
  | nil => exact ⟨rfl, h⟩
  | cons op ops ih =>
    have hop : Q op := hops op List.mem_cons_self
    have hrest : ∀ op' ∈ ops, Q op' := fun op' hmem => hops op' (List.mem_cons_of_mem op hmem)
    have hnext : P (s.perform op).after := hkeep s op hs hop
    by_cases hc : op.channel? = some c
    · obtain ⟨hseen, hafter⟩ := h.perform hc
      obtain ⟨hreplies, hrun⟩ := ih hafter hnext hrest
      have hon : on c (op :: ops) = op :: on c ops := by simp [on, hc]
      rw [hon, repliesOn, if_pos hc, replies, hseen, hreplies]
      exact ⟨rfl, hrun⟩
    · obtain ⟨hreplies, hrun⟩ := ih ((hother s op hs hop hc).trans h) hnext hrest
      have hon : on c (op :: ops) = on c ops := by simp [on, hc]
      rw [hon, repliesOn, if_neg hc, hreplies]
      exact ⟨rfl, hrun⟩

private theorem alikeAt_of_channel (hop : op.channel? = some d) (h : op.channel? ≠ some c)
    (s : Session) :
    AlikeAt c (s.perform op).after s := by
  refine ⟨fixedPart_perform s op, get_of_channel_of_ne hop s ?_, .inr (phase_of_channel hop s)⟩
  rintro rfl
  exact h hop

private theorem run_on_channels (s : Session) (c : Channel) (ops : List Operation)
    (hops : ∀ op ∈ ops, op.channel?.isSome) :
    s.repliesOn c ops = s.replies (on c ops) ∧ AlikeAt c (s.run ops) (s.run (on c ops)) := by
  refine AlikeAt.run (P := fun _ => True) (Q := fun op => op.channel?.isSome) ?_ ?_
    (AlikeAt.refl c s) trivial ops hops
  · intro u op _ _
    trivial
  · intro u op _ hop hne
    obtain ⟨d, hd⟩ := Option.isSome_iff_exists.mp hop
    exact alikeAt_of_channel hd hne u

private theorem WellPhased.run_responder (hs : s.WellPhased) (hrole : s.role = .responder)
    (d : Direction) (ops : List Operation) :
    s.repliesOn ⟨d, .fourDh⟩ ops = s.replies (on ⟨d, .fourDh⟩ ops) ∧
      AlikeAt ⟨d, .fourDh⟩ (s.run ops) (s.run (on ⟨d, .fourDh⟩ ops)) := by
  refine AlikeAt.run (P := fun u => u.WellPhased ∧ u.role = .responder) (Q := fun _ => True) ?_ ?_
    (AlikeAt.refl _ s) ⟨hs, hrole⟩ ops fun _ _ => trivial
  · intro u op hu _
    have hstep := step_perform u op
    obtain ⟨-, hsame, -⟩ := fields_of_fixedPart hstep.fixedPart
    exact ⟨hu.1.step hstep, hsame.trans hu.2⟩
  · intro u op hu _ hne
    obtain ⟨hphased, hrole⟩ := hu
    cases hchannel : op.channel? with
    | some d' => exact alikeAt_of_channel hchannel hne u
    | none =>
      have hstep := step_perform u op
      generalize (u.perform op).after = v at hstep
      cases hstep with
      | idle op => exact AlikeAt.refl _ u
      | turned n asked live keyed room =>
        rcases asked with rfl | ⟨target, rfl⟩
        · cases hchannel
        · cases hchannel
      | accepted taken =>
        have hwaiting := (hphased.waiting_of_accepted taken).phase
        exact absurd hwaiting (hphased.responder hrole).1
      | stripped known =>
        -- The phase changes, but it shows only where there is no ratchet, and here there is one.
        refine ⟨rfl, get_withoutTwoDh_fourDh u d, .inl ?_⟩
        rw [has_withoutTwoDh_fourDh]
        exact (hphased.fourDh d).mpr known

private theorem frame_of_channels (s : Session) (ops : List Operation)
    (hops : ∀ op ∈ ops, op.channel?.isSome) :
    s.run ops = { s with slots := (s.run ops).slots } := by
  induction ops generalizing s with
  | nil => rfl
  | cons op ops ih =>
    obtain ⟨c, hc⟩ := Option.isSome_iff_exists.mp (hops op List.mem_cons_self)
    have hrest := ih (s.perform op).after fun op' hmem => hops op' (List.mem_cons_of_mem op hmem)
    have hop : (s.perform op).after = { s with slots := (s.perform op).after.slots } := by
      rw [perform_of_channel hc]
      cases s.ratchet c <;> rfl
    rw [run_cons]
    rw [hop] at hrest ⊢
    exact hrest

theorem phase_kept (s : Session) : s.kept.phase = s.phase := Slots.phase_kept s.slots

theorem summary_kept (s : Session) : s.kept.summary = s.summary := by
  simp only [summary, phase_kept]
  rfl

private theorem ratchet_kept (s : Session) (c : Channel) : s.kept.ratchet c = s.ratchet c := by
  have hslot : (s.kept.slots.get c).live? = (s.slots.get c).live? := by
    simp only [kept, Slots.get_kept, Slot.live?_kept]
  unfold Session.ratchet
  rw [hslot, phase_kept]
  rfl

theorem kept_putRatchet (s : Session) (c : Channel) (r : Ratchet) :
    (s.kept.putRatchet c r).kept = (s.putRatchet c r).kept := by
  simp only [kept, putRatchet, Slots.kept_set, Slots.kept_kept, Slots.get_kept,
    Slot.kept_replace_kept]

private theorem kept_withoutTwoDh (s : Session) :
    s.kept.withoutTwoDh.kept = s.withoutTwoDh.kept := by
  simp only [kept, withoutTwoDh, Slots.kept_retireTwoDh]

private theorem kept_completed_congr (hfixed : s.fixedPart = t.fixedPart) (ephemeral : Offered)
    (four : Ratchet × Ratchet) :
    (s.completed ephemeral four).kept = (t.completed ephemeral four).kept := by
  obtain ⟨hid, hrole, hme, hpeer, hconfig, hpublic⟩ := fields_of_fixedPart hfixed
  have hlistener : s.listener = t.listener := listener_of_fixedPart hfixed
  simp only [kept, completed, Slots.kept, Slots.retireTwoDh, Slot.kept_retire, hid, hrole, hme,
    hpeer, hconfig, hpublic, hlistener]

private theorem accepted_congr (hfixed : s.fixedPart = t.fixedPart)
    (hpending : s.pendingSecret = t.pendingSecret) (ephemeral longTerm : Offered) :
    (s.accepted ephemeral longTerm).map kept = (t.accepted ephemeral longTerm).map kept := by
  obtain ⟨hid, -, hme, hpeer, hconfig, -⟩ := fields_of_fixedPart hfixed
  have haccepted (u : Session) : u.accepted ephemeral longTerm =
      u.pendingSecret.bind fun secret => (u.checkLongTerm longTerm).bind fun _ =>
        (initiatorMaterial u secret ephemeral).bind fun m =>
          (startRatchets u.me u.peer u.config .fourDh m).bind fun four =>
            .ok (u.completed ephemeral four) := rfl
  have hcheck : s.checkLongTerm longTerm = t.checkLongTerm longTerm := by
    rw [checkLongTerm, checkLongTerm, hpeer, hid]
  have hmaterial (secret : Bytes) :
      initiatorMaterial s secret ephemeral = initiatorMaterial t secret ephemeral := by
    rw [initiatorMaterial, initiatorMaterial, hme, hpeer]
  simp only [haccepted, hpending, hcheck, hmaterial, hme, hpeer, hconfig]
  cases t.pendingSecret with
  | error f => rfl
  | ok secret =>
  cases t.checkLongTerm longTerm with
  | error f => rfl
  | ok u =>
  cases hm : initiatorMaterial t secret ephemeral with
  | error f => simp only [Except.bind, hm]
  | ok material =>
  cases hfour : startRatchets t.me t.peer t.config .fourDh material with
  | error f => simp only [Except.bind, hm, hfour]
  | ok four =>
    simp only [Except.bind, hm, hfour, Except.map, kept_completed_congr hfixed]

private theorem seen_told (h : s.summary = t.summary) (l : Listener) {m : Milestone} :
    (Outcome.tell l (.milestone m s) { after := s, answer := .ok () }).seen =
      (Outcome.tell l (.milestone m t) { after := t, answer := .ok () }).seen := by
  have hevent : (HookCall.milestone m s).event = (HookCall.milestone m t).event :=
    congrArg (Event.milestone m) h
  simp only [Outcome.seen, Outcome.tell]
  rw [hevent]

/-- An accept that rests on the same shows the same, and leaves both sessions as they are or makes
them the same in all that is of use. -/
private theorem perform_accept_congr (hfixed : s.fixedPart = t.fixedPart)
    (hpending : s.pendingSecret = t.pendingSecret) (ephemeral longTerm : Offered) :
    let op : Operation := .accept ephemeral longTerm
    (s.perform op).seen = (t.perform op).seen ∧
      ((s.perform op).after = s ∧ (t.perform op).after = t ∨
        (s.perform op).after.kept = (t.perform op).after.kept) := by
  intro op
  obtain ⟨hid, -, -, hpeer, -⟩ := fields_of_fixedPart hfixed
  have hmap := accepted_congr hfixed hpending ephemeral longTerm
  rw [perform_accept, perform_accept, accept_eq, accept_eq]
  cases hs : s.accepted ephemeral longTerm with
  | error f =>
    cases ht : t.accepted ephemeral longTerm with
    | error g =>
      rw [hs, ht] at hmap
      obtain rfl : f = g := Except.error.inj hmap
      have hlog : acceptLog s f = acceptLog t f := by rw [acceptLog, acceptLog, hid, hpeer]
      refine ⟨?_, .inl ⟨rfl, rfl⟩⟩
      simp only [hlog]
      rfl
    | ok v =>
      rw [hs, ht] at hmap
      cases hmap
  | ok u =>
    cases ht : t.accepted ephemeral longTerm with
    | error g =>
      rw [hs, ht] at hmap
      cases hmap
    | ok v =>
      rw [hs, ht] at hmap
      have hsame : u.kept = v.kept := Except.ok.inj hmap
      have hlistener : u.listener = v.listener := by
        show u.kept.listener = v.kept.listener
        rw [hsame]
      have hsummary : u.summary = v.summary := by rw [← summary_kept, hsame, summary_kept]
      refine ⟨?_, .inr hsame⟩
      simp only [hlistener]
      exact congrArg (Outcome.map fun _ => Answer.done) (seen_told hsummary v.listener)

private theorem kept_kept (s : Session) : s.kept.kept = s.kept := by
  simp only [kept, Slots.kept_kept]

private theorem perform_accept_kept (s : Session) (ephemeral longTerm : Offered) :
    let op : Operation := .accept ephemeral longTerm
    (s.kept.perform op).seen = (s.perform op).seen ∧
      (s.kept.perform op).after.kept = (s.perform op).after.kept := by
  intro op
  have hpending : s.kept.pendingSecret = s.pendingSecret := by
    simp only [pendingSecret, kept, Slots.kept, Slot.live?_kept]
  obtain ⟨hseen, ⟨hkept, hs⟩ | hafter⟩ :=
    perform_accept_congr (s := s.kept) (t := s) rfl hpending ephemeral longTerm
  · refine ⟨hseen, ?_⟩
    rw [hkept, hs, kept_kept]
  · exact ⟨hseen, hafter⟩

private theorem perform_discardTwoDh_kept (s : Session) :
    (s.kept.perform .discardTwoDh).seen = (s.perform .discardTwoDh).seen ∧
      (s.kept.perform .discardTwoDh).after.kept = (s.perform .discardTwoDh).after.kept := by
  have hsummary : s.kept.withoutTwoDh.summary = s.withoutTwoDh.summary := by
    rw [← summary_kept, kept_withoutTwoDh, summary_kept]
  rw [perform_discardTwoDh, perform_discardTwoDh, discardTwoDh_eq, discardTwoDh_eq, phase_kept]
  by_cases hwaiting : s.phase = .initiatorTwoDh
  · rw [if_pos hwaiting, if_pos hwaiting]
    exact ⟨rfl, kept_kept s⟩
  · rw [if_neg hwaiting, if_neg hwaiting]
    split
    · refine ⟨?_, kept_withoutTwoDh s⟩
      exact congrArg (Outcome.map fun _ => Answer.done) (seen_told hsummary s.listener)
    · exact ⟨rfl, kept_withoutTwoDh s⟩

/-- What an operation shows, and what is of use of what it leaves, does not rest on ratchets that
were given up. -/
theorem perform_kept (s : Session) (op : Operation) :
    (s.kept.perform op).seen = (s.perform op).seen ∧
      (s.kept.perform op).after.kept = (s.perform op).after.kept := by
  cases hop : op.channel? with
  | some c =>
    refine ⟨seen_congr hop rfl (ratchet_kept s c), ?_⟩
    rw [perform_of_channel hop, perform_of_channel hop, ratchet_kept]
    cases s.ratchet c with
    | error f => exact kept_kept s
    | ok r => exact kept_putRatchet s c _
  | none =>
    cases op with
    | accept ephemeral longTerm => exact perform_accept_kept s ephemeral longTerm
    | discardTwoDh => exact perform_discardTwoDh_kept s
    | take c => cases hop
    | encryptionKey c => cases hop
    | associatedData c => cases hop
    | turn c => cases hop
    | turnUntil c target => cases hop

private theorem run_of_kept (h : s.kept = t.kept) (ops : List Operation) :
    s.replies ops = t.replies ops ∧ (s.run ops).kept = (t.run ops).kept := by
  induction ops generalizing s t with
  | nil => exact ⟨rfl, h⟩
  | cons op ops ih =>
    obtain ⟨hseen, hafter⟩ := perform_kept s op
    obtain ⟨hseen', hafter'⟩ := perform_kept t op
    rw [h] at hseen hafter
    have hnext : (s.perform op).after.kept = (t.perform op).after.kept :=
      hafter.symm.trans hafter'
    obtain ⟨hreplies, hrun⟩ := ih hnext
    rw [replies, replies, ← hseen, hseen', hreplies]
    exact ⟨rfl, hrun⟩

private theorem secret_of_waiting {ops : List Operation} (h : (s.run ops).phase = .initiatorTwoDh) :
    (s.run ops).ephemeralSecret = s.ephemeralSecret := by
  have hboth := run_induction
    (P := fun u => u.phase = .established ∨ u.ephemeralSecret = s.ephemeralSecret)
    (fun u op v hstep hu => by
      rcases hu with hdone | hsecret
      · have hphase := hstep.phase
        rw [hdone] at hphase
        exact .inl hphase.of_established
      · cases hstep with
        | idle op => exact .inr hsecret
        | turned n asked live keyed room => exact .inr hsecret
        | accepted taken =>
          obtain ⟨_, _, _, -, -, -, -, rfl⟩ := accepted_eq_ok taken
          exact .inl (phase_completed ..)
        | stripped known => exact .inr hsecret)
    (.inr rfl) ops
  rcases hboth with hdone | hsecret
  · rw [h] at hdone
    cases hdone
  · exact hsecret

private theorem pendingSecret_congr (hs : s.phase = .initiatorTwoDh)
    (ht : t.phase = .initiatorTwoDh)
    (hid : s.id = t.id) (hsecret : s.ephemeralSecret = t.ephemeralSecret) :
    s.pendingSecret = t.pendingSecret := by
  have hnone (u : Session) (hu : u.phase = .initiatorTwoDh) :
      u.slots.fourOutgoing.live? = none :=
    Option.not_isSome_iff_eq_none.mp (phase_eq_initiatorTwoDh_iff.mp hu)
  rw [pendingSecret, pendingSecret, hnone s hs, hnone t ht, hsecret, hid]

private theorem accept_after_waiting {ops ops' : List Operation}
    (h : (s.run ops).phase = .initiatorTwoDh) (h' : (s.run ops').phase = .initiatorTwoDh)
    (ephemeral longTerm : Offered) :
    let o := (s.run ops).perform (.accept ephemeral longTerm)
    let o' := (s.run ops').perform (.accept ephemeral longTerm)
    o.seen = o'.seen ∧ o.after.phase = o'.after.phase ∧
      (o.after.phase = .established → o.after.kept = o'.after.kept ∧ ∀ more,
        o.after.replies more = o'.after.replies more ∧
          (o.after.run more).kept = (o'.after.run more).kept) := by
  intro o o'
  have hfixed : (s.run ops).fixedPart = (s.run ops').fixedPart := by
    rw [fixedPart_run, fixedPart_run]
  obtain ⟨hid, -⟩ := fields_of_fixedPart hfixed
  have hsecret : (s.run ops).ephemeralSecret = (s.run ops').ephemeralSecret := by
    rw [secret_of_waiting h, secret_of_waiting h']
  have hpending := pendingSecret_congr h h' hid hsecret
  -- Both accepts are rejected, and both sessions still wait, or both are carried out.
  obtain ⟨hseen, ⟨hsame, hsame'⟩ | hkept⟩ := perform_accept_congr hfixed hpending ephemeral longTerm
  · have hwaiting : o.after.phase = .initiatorTwoDh := (congrArg phase hsame).trans h
    have hwaiting' : o'.after.phase = .initiatorTwoDh := (congrArg phase hsame').trans h'
    refine ⟨hseen, hwaiting.trans hwaiting'.symm, fun hdone => ?_⟩
    rw [hwaiting] at hdone
    cases hdone
  · refine ⟨hseen, ?_, fun _ => ⟨hkept, run_of_kept hkept⟩⟩
    rw [← phase_kept o.after, ← phase_kept o'.after]
    exact congrArg phase hkept

private theorem run_eq_of_channels (s : Session) {ops ops' : List Operation}
    (hops : ∀ op ∈ ops, op.channel?.isSome) (hops' : ∀ op ∈ ops', op.channel?.isSome)
    (h : ∀ c, on c ops = on c ops') : s.run ops = s.run ops' := by
  have hslots : (s.run ops).slots = (s.run ops').slots := by
    apply Slots.ext_get
    intro c
    rw [(run_on_channels s c ops hops).2.slot, (run_on_channels s c ops' hops').2.slot, h c]
  rw [frame_of_channels s ops hops, frame_of_channels s ops' hops', hslots]

/-- In whatever state a session is, what operations on one channel show and what they make of its
ratchet depends on them alone, and operations on channels may be put in any order that keeps those
on each in theirs. What is done while an initiator waits, so far as it is not the accept that ends
it, makes no difference to that accept and to anything after it. What a responder does on a channel
of four agreements shows the same whatever else is done before, between and after. -/
theorem channels_independent {role : Role} (h : Founded role s) (before : List Operation) :
    let t := s.run before
    (∀ ops ops' : List Operation, (∀ op ∈ ops, op.channel?.isSome) →
        (∀ op ∈ ops', op.channel?.isSome) →
        (∀ c, on c ops = on c ops' → (t.run ops).slots.get c = (t.run ops').slots.get c ∧
          t.repliesOn c ops = t.repliesOn c ops') ∧
        ((∀ c, on c ops = on c ops') → t.run ops = t.run ops')) ∧
      (∀ ops ops' : List Operation, (s.run ops).phase = .initiatorTwoDh →
        (s.run ops').phase = .initiatorTwoDh → ∀ ephemeral longTerm,
        let o := (s.run ops).perform (.accept ephemeral longTerm)
        let o' := (s.run ops').perform (.accept ephemeral longTerm)
        o.seen = o'.seen ∧ o.after.phase = o'.after.phase ∧
          (o.after.phase = .established → o.after.kept = o'.after.kept ∧ ∀ more,
            o.after.replies more = o'.after.replies more ∧
              (o.after.run more).kept = (o'.after.run more).kept)) ∧
      (role = .responder → ∀ d (ops ops' : List Operation),
        on ⟨d, .fourDh⟩ ops = on ⟨d, .fourDh⟩ ops' →
        (s.run ops).slots.get ⟨d, .fourDh⟩ = (s.run ops').slots.get ⟨d, .fourDh⟩ ∧
          s.repliesOn ⟨d, .fourDh⟩ ops = s.repliesOn ⟨d, .fourDh⟩ ops') := by
  intro t
  refine ⟨fun ops ops' hops hops' => ⟨fun c hc => ?_, run_eq_of_channels t hops hops'⟩,
    fun ops ops' hs hs' => accept_after_waiting hs hs', fun hresponder d ops ops' hd => ?_⟩
  · obtain ⟨hreplies, hrun⟩ := run_on_channels t c ops hops
    obtain ⟨hreplies', hrun'⟩ := run_on_channels t c ops' hops'
    rw [hrun.slot, hrun'.slot, hreplies, hreplies', hc]
    exact ⟨rfl, rfl⟩
  · obtain ⟨hrole, hphased⟩ := h.wellPhased
    obtain ⟨hreplies, hrun⟩ := hphased.run_responder (hrole.trans hresponder) d ops
    obtain ⟨hreplies', hrun'⟩ := hphased.run_responder (hrole.trans hresponder) d ops'
    rw [hrun.slot, hrun'.slot, hreplies, hreplies', hd]
    exact ⟨rfl, rfl⟩

def sampleWaiting : List Operation :=
  [.turn ⟨.outgoing, .twoDh⟩, .turnUntil ⟨.incoming, .twoDh⟩ 4,
    .accept (.fixed (List.replicate 32 0)) (.fixed sampleResponder.publicKey.val)]

theorem channels_independent_sample :
    ∃ s, (initiate sampleInitiator sampleResponder.contact {} .silent sampleEphemeral
        sampleId).answer = .ok s ∧
      let op : Operation := .accept (.fixed (List.replicate 32 9))
        (.fixed sampleResponder.publicKey.val)
      (s.perform op).after.phase = .established ∧
        (s.perform op).after.kept = ((s.run sampleWaiting).perform op).after.kept := by
  have hrun : (do
      let s ← (initiate sampleInitiator sampleResponder.contact {} .silent sampleEphemeral
        sampleId).answer
      return (s.phase, (s.run sampleWaiting).phase, (s.perform (.accept
        (.fixed (List.replicate 32 9)) (.fixed sampleResponder.publicKey.val))).after.phase)) =
        .ok (.initiatorTwoDh, .initiatorTwoDh, .established) := by decide +kernel
  obtain ⟨s, hs, hrun⟩ := bind_eq_ok hrun
  obtain ⟨hbefore, hrun⟩ := Prod.mk.inj (Except.ok.inj hrun)
  obtain ⟨hwaiting, hdone⟩ := Prod.mk.inj hrun
  obtain ⟨-, haccept, -⟩ := channels_independent (.initiated hs) []
  obtain ⟨-, -, hkept⟩ := haccept [] sampleWaiting hbefore hwaiting (.fixed (List.replicate 32 9))
    (.fixed sampleResponder.publicKey.val)
  exact ⟨s, hs, hdone, (hkept hdone).1⟩

end Session

end RatchetSession
