import Mathlib.Algebra.GroupWithZero.Nat
import RatchetSession.Proofs.Calls
import RatchetSession.Proofs.Replies

/-!
# What a listener hears

A listener that refuses nothing hears of the beginning of a session, of the one change of its phase
and of every catch-up that moved a ratchet, each when its work is done, and of nothing else. With
the turns made one at a time, the turns it hears of are all that the ratchets have made: `history`.
-/

set_option autoImplicit false
set_option relaxedAutoImplicit false

namespace RatchetSession

namespace Role

/-- What is told of a session when it begins. -/
def opening : Role → Milestone
  | .initiator => .newSessionInitiated
  | .responder => .responderSessionEstablished

/-- What is told of a session when only the keys of four agreements are left. -/
def completion : Role → Milestone
  | .initiator => .initiatorSessionEstablished
  | .responder => .firstFourDhMessageReceived

end Role

namespace HookCall

def isMilestone : HookCall → Bool
  | .milestone _ _ => true
  | .skipped _ _ _ => false

/-- The turns that a call tells of. -/
def turns : HookCall → Nat
  | .milestone _ _ => 0
  | .skipped _ _ n => n

end HookCall

/-- The turns that a listener has heard of. -/
def reported (calls : List HookCall) : Nat := (calls.map HookCall.turns).sum

private theorem reported_append (calls more : List HookCall) :
    reported (calls ++ more) = reported calls + reported more := by
  simp [reported]

def LogRecord.isNote : LogRecord → Bool
  | .noted _ => true
  | .ratchetTurned _ _ | .handshakeRejected _ _ | .acceptRejected _ _ => false

namespace Outcome

variable {σ α β : Type} {l : Listener} {o : Outcome σ α}

/-- These are the calls of the listener and there are no others: what it recorded and what it wrote
to the log is what it makes of them. -/
structure Told (l : Listener) (told : List HookCall) (o : Outcome σ α) : Prop where
  calls : o.calls = told
  events : o.events = told.flatMap fun call => (l.tell call.event).events
  log : o.log.filter LogRecord.isNote = told.flatMap fun call => (l.tell call.event).log

private theorem Told.map {told : List HookCall} (h : o.Told l told) (g : α → β) :
    (o.map g).Told l told :=
  ⟨h.calls, h.events, h.log⟩

private theorem told_nil (hc : o.calls = []) (he : o.events = [])
    (hl : o.log.filter LogRecord.isNote = []) : o.Told l [] :=
  ⟨hc, he, hl⟩

private theorem filter_tell_log (l : Listener) (e : Event) :
    (l.tell e).log.filter LogRecord.isNote = (l.tell e).log := by
  cases l <;> rfl

private theorem told_tell (call : HookCall) (hc : o.calls = []) (he : o.events = [])
    (hl : o.log.filter LogRecord.isNote = []) : (o.tell l call).Told l [call] := by
  refine ⟨?_, ?_, ?_⟩
  · show o.calls ++ [call] = _
    rw [hc, List.nil_append]
  · show o.events ++ (l.tell call.event).events = _
    rw [he, List.nil_append, List.flatMap_singleton]
  · show (o.log ++ (l.tell call.event).log).filter LogRecord.isNote = _
    rw [List.filter_append, hl, filter_tell_log, List.nil_append, List.flatMap_singleton]

end Outcome

namespace Session

/-- What comes of beginning a session in one of the roles. -/
inductive Opening (l : Listener) : Role → Outcome Unit Session → Prop
  | initiate (me : LocalIdentity) (peer : Contact) (config : Config) (secret : Key)
      (id : SessionId) : Opening l .initiator (initiate me peer config l secret id)
  | respond (me : LocalIdentity) (peer : Contact) (config : Config)
      (sessionId ephemeral : Offered) (secret : Key) :
      Opening l .responder (respond me peer config l sessionId ephemeral secret)

/-- How far a channel has come from its initial counter. -/
def covered (s : Session) (c : Channel) : Nat :=
  match s.reached c with
  | some n => n - s.config.initialCounter.toNat
  | none => 0

/-- How far all ratchets together have come, those that are given up until then. -/
def progress (s : Session) : Nat :=
  s.covered ⟨.outgoing, .twoDh⟩ + s.covered ⟨.incoming, .twoDh⟩ +
    s.covered ⟨.outgoing, .fourDh⟩ + s.covered ⟨.incoming, .fourDh⟩

/-- How far an operation has moved the ratchet of a channel. -/
def moved (s : Session) (op : Operation) (c : Channel) : Nat :=
  (s.perform op).after.covered c - s.covered c

/-- What there is to tell of an operation: that an accept succeeded, that the responder's phase came
to its end, or that a catch-up moved its ratchet. -/
def due (s : Session) (op : Operation) : List HookCall :=
  let o := s.perform op
  match op with
  | .accept _ _ =>
    match o.answer with
    | .ok _ => [.milestone .initiatorSessionEstablished o.after]
    | .error _ => []
  | .discardTwoDh =>
    if s.phase = .responderFourDh ∧ o.after.phase ≠ .responderFourDh then
      [.milestone .firstFourDhMessageReceived o.after]
    else []
  | .turnUntil c _ =>
    if s.moved op c = 0 then [] else [.skipped s.id s.peer.identity (s.moved op c)]
  | .take _ | .encryptionKey _ | .associatedData _ | .turn _ => []

def told (s : Session) : List Operation → List HookCall
  | [] => []
  | op :: ops => s.due op ++ (s.perform op).after.told ops

/-- Whether the operation is a single turn, and is made. -/
def turns (s : Session) (op : Operation) : Bool :=
  match op with
  | .turn _ => (s.perform op).answer.isOk
  | .accept _ _ | .discardTwoDh | .take _ | .encryptionKey _ | .associatedData _ | .turnUntil _ _ =>
    false

def turned (s : Session) : List Operation → Nat
  | [] => 0
  | op :: ops => (s.turns op).toNat + (s.perform op).after.turned ops

variable {s t : Session} {op : Operation} {c : Channel} {l : Listener} {role : Role}
  {o : Outcome Unit Session}

private theorem Opening.told (h : Opening l role o) (quiet : l.Quiet) :
    o.Told l (match o.answer with
      | .ok s => [.milestone role.opening s]
      | .error _ => []) := by
  cases h with
  | initiate me peer config secret id =>
    unfold Session.initiate
    cases checkPeer me peer with
    | error f => exact Outcome.told_nil rfl rfl rfl
    | ok u =>
      cases me.agree (.fixed peer.key.val) with
      | error f => exact Outcome.told_nil rfl rfl rfl
      | ok staticStatic =>
        simp only
        cases opened me peer config l staticStatic secret id with
        | error f => exact Outcome.told_nil rfl rfl rfl
        | ok s =>
          simp only [Outcome.answer_tell quiet]
          exact Outcome.told_tell _ rfl rfl rfl
  | respond me peer config sessionId ephemeral secret =>
    unfold Session.respond
    cases checkPeer me peer with
    | error f => exact Outcome.told_nil rfl rfl rfl
    | ok u =>
      cases SessionId.ofOffer sessionId with
      | error f => exact Outcome.told_nil rfl rfl rfl
      | ok id =>
        simp only
        cases responderStatics me peer ephemeral with
        | error f =>
          refine Outcome.told_nil rfl rfl ?_
          simp only
          split <;> rfl
        | ok statics =>
          simp only
          cases answered me peer config l id ephemeral statics.1 statics.2 secret with
          | error f => exact Outcome.told_nil rfl rfl rfl
          | ok s =>
            simp only [Outcome.answer_tell quiet]
            exact Outcome.told_tell _ rfl rfl rfl

private theorem Opening.founded (h : Opening l role o) (given : o.answer = .ok s) :
    Founded role s ∧ s.listener = l := by
  cases h with
  | initiate me peer config secret id =>
    refine ⟨.initiated given, ?_⟩
    obtain ⟨-, -, _, _, -, -, rfl⟩ := initiate_eq_ok given
    rfl
  | respond me peer config sessionId ephemeral secret =>
    refine ⟨.responded given, ?_⟩
    obtain ⟨-, -, _, _, _, _, _, _, -, -, -, -, -, -, rfl⟩ := respond_eq_ok given
    rfl

private theorem acceptLog_not_note (s : Session) (f : Fault) :
    (acceptLog s f).filter LogRecord.isNote = [] := by
  unfold acceptLog
  split <;> rfl

private theorem turnLog_not_note (n : Nat) (r : Ratchet) :
    (turnLog n r).filter LogRecord.isNote = [] := by
  unfold turnLog
  split <;> rfl

private theorem Counted.covered_step (hs : s.Counted) (h : Step s op t)
    (hop : op.turned? ≠ some c) :
    t.covered c = s.covered c := by
  obtain ⟨-, -, -, -, hconfig, -⟩ := fields_of_fixedPart h.fixedPart
  unfold covered
  rw [hconfig]
  rcases hs.step_reached h c with hsame | ⟨hnone, hfirst⟩ | ⟨hturned, -⟩
  · rw [hsame]
  · rw [hnone, hfirst]
    simp only [Nat.sub_self]
  · exact absurd hturned hop

private theorem Counted.covered_of_call {x : Ratchet.Call} {r : Ratchet} (hs : s.Counted)
    (h : op.call? = some (c, x)) (hr : s.ratchet c = .ok r) :
    (s.perform op).after.covered c = s.covered c + r.turnsOf x := by
  have hlive : s.slots.get c = .live r := ratchet_eq_ok.mp hr
  have hbefore : s.reached c = some r.counter := reached_of_ratchet hr
  have hcounter : (r.afterCall x).counter = r.counter + r.turnsOf x := by
    have hone := Ratchet.counter_afterCalls r [x]
    simpa only [Ratchet.afterCalls_cons, Ratchet.afterCalls_nil, Ratchet.turnsIn,
      Nat.add_zero] using hone
  have hafter : (s.perform op).after = s.putRatchet c (r.afterCall x) := by
    rw [perform_of_call h, hr]
  have hreached : (s.perform op).after.reached c = some (r.counter + r.turnsOf x) := by
    rw [hafter, reached_putRatchet_self _ hlive, hcounter]
  have hconfig : (s.perform op).after.config = s.config := by
    rw [hafter]
    rfl
  obtain ⟨hrange, -⟩ := hs.range c r.counter hbefore
  simp only [covered, hreached, hbefore, hconfig]
  omega

private theorem Counted.moved_of_call {x : Ratchet.Call} {r : Ratchet} (hs : s.Counted)
    (h : op.call? = some (c, x)) (hr : s.ratchet c = .ok r) : s.moved op c = r.turnsOf x := by
  rw [moved, hs.covered_of_call h hr]
  omega

private theorem moved_of_idle (h : (s.perform op).after = s) (c : Channel) : s.moved op c = 0 := by
  rw [moved, h, Nat.sub_self]

private theorem told_accept (quiet : s.listener.Quiet) (ephemeral longTerm : Offered) :
    (s.perform (.accept ephemeral longTerm)).Told s.listener
      (s.due (.accept ephemeral longTerm)) := by
  simp only [due]
  rw [perform_accept, accept_eq]
  cases htaken : s.accepted ephemeral longTerm with
  | error f => exact Outcome.told_nil rfl rfl (acceptLog_not_note s f)
  | ok t =>
    have hlistener : t.listener = s.listener := by
      obtain ⟨_, _, _, -, -, -, -, rfl⟩ := accepted_eq_ok htaken
      rfl
    simp only [hlistener, Outcome.map, Outcome.answer_tell quiet, Except.map]
    have htold := Outcome.told_tell (l := s.listener) (o := { after := t, answer := .ok () })
      (.milestone .initiatorSessionEstablished t) rfl rfl rfl
    exact ⟨htold.calls, htold.events, htold.log⟩

private theorem told_discardTwoDh (s : Session) :
    (s.perform .discardTwoDh).Told s.listener (s.due .discardTwoDh) := by
  simp only [due]
  rw [perform_discardTwoDh, discardTwoDh_eq]
  by_cases hwaiting : s.phase = .initiatorTwoDh
  · rw [if_pos hwaiting, if_neg (by rw [hwaiting]; exact fun hboth => absurd hboth.1 (by decide))]
    exact Outcome.told_nil rfl rfl rfl
  · rw [if_neg hwaiting]
    by_cases hresponder : s.phase = .responderFourDh
    · have hafter : s.withoutTwoDh.phase ≠ .responderFourDh := by
        rw [phase_withoutTwoDh hwaiting]
        decide
      rw [if_pos hresponder, if_pos ⟨hresponder, hafter⟩]
      exact (Outcome.told_tell (o := { after := s.withoutTwoDh, answer := .ok () })
        (.milestone .firstFourDhMessageReceived s.withoutTwoDh) rfl rfl rfl).map _
    · rw [if_neg hresponder, if_neg (fun h => hresponder h.1)]
      exact Outcome.told_nil rfl rfl rfl

private theorem told_turn (s : Session) (c : Channel) :
    (s.perform (.turn c)).Told s.listener (s.due (.turn c)) := by
  rw [perform_turn, turn_eq]
  cases s.ratchet c with
  | error f => exact Outcome.told_nil rfl rfl rfl
  | ok r =>
    cases hturn : r.turn with
    | error f =>
      simp only [hturn]
      exact Outcome.told_nil rfl rfl rfl
    | ok r' =>
      simp only [hturn]
      exact Outcome.told_nil rfl rfl rfl

private theorem Counted.told_turnUntil (hs : s.Counted) (c : Channel) (target : Int) :
    (s.perform (.turnUntil c target)).Told s.listener (s.due (.turnUntil c target)) := by
  have hidle {f : Fault} (hfailed : s.perform (.turnUntil c target) = .failed s f) :
      (s.perform (.turnUntil c target)).Told s.listener (s.due (.turnUntil c target)) := by
    have hsame : (s.perform (.turnUntil c target)).after = s := by rw [hfailed]; rfl
    simp only [due, moved_of_idle hsame, if_true]
    rw [hfailed]
    exact Outcome.told_nil rfl rfl rfl
  cases hr : s.ratchet c with
  | error f => exact hidle (by rw [perform_turnUntil, turnUntil_eq, hr]; rfl)
  | ok r =>
    rcases r.turnUntil_spec target with ⟨f, hf⟩ | ⟨n, hn, -⟩
    · refine hidle (f := .ratchet f) ?_
      rw [perform_turnUntil, turnUntil_eq, hr]
      simp only [hf]
      rfl
    · -- What is due is read off the counters, what is told off the answer of the ratchet.
      have hmoved : s.moved (.turnUntil c target) c = n := by
        rw [hs.moved_of_call rfl hr]
        simp only [Ratchet.turnsOf, hn]
      simp only [due, hmoved]
      rw [perform_turnUntil, turnUntil_eq, hr]
      simp only [hn]
      by_cases hzero : n = 0
      · rw [if_pos hzero, if_pos hzero]
        exact Outcome.told_nil rfl rfl (turnLog_not_note n _)
      · rw [if_neg hzero, if_neg hzero]
        exact (Outcome.told_tell _ rfl rfl (turnLog_not_note n _)).map _

/-- The listener is told what is due, and nothing else. -/
private theorem Counted.perform_told (hs : s.Counted) (quiet : s.listener.Quiet) (op : Operation) :
    (s.perform op).Told s.listener (s.due op) := by
  cases op with
  | accept ephemeral longTerm => exact told_accept quiet ephemeral longTerm
  | discardTwoDh => exact told_discardTwoDh s
  | take c => exact Outcome.told_nil rfl rfl rfl
  | encryptionKey c => exact Outcome.told_nil rfl rfl rfl
  | associatedData c => exact Outcome.told_nil rfl rfl rfl
  | turn c => exact told_turn s c
  | turnUntil c target => exact hs.told_turnUntil c target

private theorem due_of_error {f : Fault} (quiet : s.listener.Quiet)
    (h : (s.perform op).answer = .error f) : s.due op = [] := by
  have hidle : (s.perform op).after = s := perform_after_of_error quiet h
  cases op with
  | accept ephemeral longTerm => simp only [due, h]
  | discardTwoDh =>
    simp only [due, hidle]
    rw [if_neg (fun hboth => hboth.2 hboth.1)]
  | turnUntil c target => simp only [due, moved_of_idle hidle, if_true]
  | take c => rfl
  | encryptionKey c => rfl
  | associatedData c => rfl
  | turn c => rfl

private theorem due_skips (s : Session) (op : Operation) {call : HookCall} (he : call ∈ s.due op)
    (hskip : call.isMilestone = false) :
    ∃ n, 0 < n ∧ call = .skipped s.id s.peer.identity n := by
  cases op with
  | accept ephemeral longTerm =>
    simp only [due] at he
    split at he
    · obtain rfl := List.mem_singleton.mp he
      cases hskip
    · cases he
  | discardTwoDh =>
    simp only [due] at he
    split at he
    · obtain rfl := List.mem_singleton.mp he
      cases hskip
    · cases he
  | turnUntil c target =>
    simp only [due] at he
    split at he
    · cases he
    · rename_i hmoved
      obtain rfl := List.mem_singleton.mp he
      exact ⟨_, Nat.pos_of_ne_zero hmoved, rfl⟩
  | take c => cases he
  | encryptionKey c => cases he
  | associatedData c => cases he
  | turn c => cases he

private theorem summary_run_of_established (h : s.phase = .established) (ops : List Operation) :
    (s.run ops).summary = s.summary := by
  obtain ⟨hid, hrole, -, hpeer, -⟩ := fields_of_fixedPart (fixedPart_run s ops)
  simp only [summary, hid, hrole, hpeer, h, phase_run_of_established h ops]

private theorem WellPhased.role_of_responding (hs : s.WellPhased) (h : s.phase = .responderFourDh) :
    s.role = .responder := by
  cases hrole : s.role with
  | responder => rfl
  | initiator =>
    rcases hs.initiator hrole with hw | hw
    · rw [hw.phase] at h
      cases h
    · rw [hw.phase] at h
      cases h

private theorem WellPhased.due_accept_milestones (hs : s.WellPhased) (quiet : s.listener.Quiet)
    (ephemeral longTerm : Offered) :
    (s.due (.accept ephemeral longTerm)).filter HookCall.isMilestone =
      if (s.perform (.accept ephemeral longTerm)).after.phase = s.phase then []
      else [.milestone s.role.completion (s.perform (.accept ephemeral longTerm)).after] := by
  cases htaken : s.accepted ephemeral longTerm with
  | error f =>
    have hanswer : (s.perform (.accept ephemeral longTerm)).answer = .error f := by
      rw [perform_answer quiet, reply, htaken]
      rfl
    rw [due_of_error quiet hanswer, perform_after_of_error quiet hanswer, if_pos rfl]
    rfl
  | ok t =>
    have hanswer : (s.perform (.accept ephemeral longTerm)).answer = .ok .done := by
      rw [perform_answer quiet, reply, htaken]
      rfl
    have hafter : (s.perform (.accept ephemeral longTerm)).after = t := by
      rw [perform_accept, accept_eq, htaken]
      rfl
    have hwaiting : s.phase = .initiatorTwoDh := (hs.waiting_of_accepted htaken).phase
    have hdone : t.phase = .established := by
      obtain ⟨_, _, _, -, -, -, -, rfl⟩ := accepted_eq_ok htaken
      exact phase_completed ..
    simp only [due, hanswer, hafter]
    rw [if_neg (by rw [hdone, hwaiting]; decide), hs.role_of_waiting hwaiting]
    rfl

private theorem WellPhased.due_discard_milestones (hs : s.WellPhased) :
    (s.due .discardTwoDh).filter HookCall.isMilestone =
      if (s.perform .discardTwoDh).after.phase = s.phase then []
      else [.milestone s.role.completion (s.perform .discardTwoDh).after] := by
  have hphase : PhaseStep s.phase .discardTwoDh (s.perform .discardTwoDh).after.phase :=
    (step_perform s .discardTwoDh).phase
  by_cases hresponder : s.phase = .responderFourDh
  · have hdone : (s.perform .discardTwoDh).after.phase = .established := by
      rw [perform_discardTwoDh, discardTwoDh_eq, if_neg (by rw [hresponder]; decide),
        if_pos hresponder]
      exact phase_withoutTwoDh (by rw [hresponder]; decide)
    simp only [due]
    rw [if_pos ⟨hresponder, by rw [hdone]; decide⟩, if_neg (by rw [hdone, hresponder]; decide),
      hs.role_of_responding hresponder]
    rfl
  · have hsame : (s.perform .discardTwoDh).after.phase = s.phase := by
      generalize s.phase = p at hphase hresponder
      generalize (s.perform .discardTwoDh).after.phase = q at hphase
      cases hphase with
      | same p op => rfl
      | stripped => exact absurd rfl hresponder
    simp only [due]
    rw [if_neg (fun hboth => hresponder hboth.1), if_pos hsame]
    rfl

private theorem WellPhased.due_milestones (hs : s.WellPhased) (quiet : s.listener.Quiet)
    (op : Operation) :
    (s.due op).filter HookCall.isMilestone =
      if (s.perform op).after.phase = s.phase then []
      else [.milestone s.role.completion (s.perform op).after] := by
  have hphase : PhaseStep s.phase op (s.perform op).after.phase := (step_perform s op).phase
  cases op with
  | accept ephemeral longTerm => exact hs.due_accept_milestones quiet ephemeral longTerm
  | discardTwoDh => exact hs.due_discard_milestones
  | turnUntil c target =>
    rw [if_pos (hphase.of_channel rfl)]
    simp only [due]
    split <;> rfl
  | turn c =>
    rw [if_pos (hphase.of_channel rfl)]
    rfl
  | take c => exact (if_pos rfl).symm
  | encryptionKey c => exact (if_pos rfl).symm
  | associatedData c => exact (if_pos rfl).symm

private theorem progress_of_covered {n : Nat} (hc : t.covered c = s.covered c + n)
    (hd : ∀ d, d ≠ c → t.covered d = s.covered d) : t.progress = s.progress + n := by
  have h₁ := hd ⟨.outgoing, .twoDh⟩
  have h₂ := hd ⟨.incoming, .twoDh⟩
  have h₃ := hd ⟨.outgoing, .fourDh⟩
  have h₄ := hd ⟨.incoming, .fourDh⟩
  unfold progress
  rcases c with ⟨_ | _, _ | _⟩
  · rw [hc, h₂ nofun, h₃ nofun, h₄ nofun]
    omega
  · rw [hc, h₁ nofun, h₂ nofun, h₄ nofun]
    omega
  · rw [hc, h₁ nofun, h₃ nofun, h₄ nofun]
    omega
  · rw [hc, h₁ nofun, h₂ nofun, h₃ nofun]
    omega

private theorem Counted.progress_of_call {x : Ratchet.Call} {r : Ratchet} (hs : s.Counted)
    (h : op.call? = some (c, x)) (hturned : op.turned? = some c) (hr : s.ratchet c = .ok r) :
    (s.perform op).after.progress = s.progress + r.turnsOf x := by
  refine progress_of_covered (hs.covered_of_call h hr) fun d hd => ?_
  refine hs.covered_step (step_perform s op) fun hother => hd ?_
  rw [hturned] at hother
  exact (Option.some.inj hother).symm

private theorem Counted.progress_of_other (hs : s.Counted) (h : op.turned? = none) :
    (s.perform op).after.progress = s.progress := by
  have hcovered (d : Channel) : (s.perform op).after.covered d = s.covered d :=
    hs.covered_step (step_perform s op) (by rw [h]; nofun)
  simp only [progress, hcovered]

/-- What an operation adds to the turns of all ratchets is a single turn or is reported. -/
private theorem Counted.progress_perform (hs : s.Counted) (quiet : s.listener.Quiet)
    (op : Operation) :
    (s.perform op).after.progress =
      s.progress + (s.turns op).toNat + reported (s.due op) := by
  have hunmoved {f : Fault} (h : (s.perform op).answer = .error f) :
      (s.perform op).after.progress = s.progress := by
    rw [perform_after_of_error quiet h]
  cases op with
  | accept ephemeral longTerm =>
    rw [hs.progress_of_other rfl]
    simp only [due, turns]
    split <;> rfl
  | discardTwoDh =>
    rw [hs.progress_of_other rfl]
    simp only [due, turns]
    split <;> rfl
  | take c => exact hs.progress_of_other rfl
  | encryptionKey c => exact hs.progress_of_other rfl
  | associatedData c => exact hs.progress_of_other rfl
  | turn c =>
    have hanswer := perform_answer quiet (.turn c)
    cases hr : s.ratchet c with
    | error f =>
      simp only [reply, hr] at hanswer
      rw [hunmoved hanswer, turns, hanswer]
      rfl
    | ok r =>
      have hreply : s.reply (.turn c) = (r.turn.mapError Fault.ratchet).map fun _ => .done := by
        rw [reply, hr]
        rfl
      rw [hs.progress_of_call rfl rfl hr, turns, hanswer, hreply]
      cases hturn : r.turn with
      | error f => simp only [Ratchet.turnsOf, hturn]; rfl
      | ok r' => simp only [Ratchet.turnsOf, hturn]; rfl
  | turnUntil c target =>
    cases hr : s.ratchet c with
    | error f =>
      have hanswer : (s.perform (.turnUntil c target)).answer = .error f := by
        rw [perform_answer quiet, reply, hr]
        rfl
      rw [hunmoved hanswer, due_of_error quiet hanswer]
      rfl
    | ok r =>
      have hmoved : s.moved (.turnUntil c target) c = r.turnsOf (.turnUntil target) :=
        hs.moved_of_call rfl hr
      rw [hs.progress_of_call rfl rfl hr, ← hmoved]
      simp only [due, turns]
      split
      · rename_i hzero
        rw [hzero]
        rfl
      · simp [reported, HookCall.turns]

private theorem Counted.progress_run (hs : s.Counted) (quiet : s.listener.Quiet)
    (ops : List Operation) :
    (s.run ops).progress = s.progress + s.turned ops + reported (s.told ops) := by
  induction ops generalizing s with
  | nil => rfl
  | cons op ops ih =>
    have hnext : (s.perform op).after.Counted := hs.step (step_perform s op)
    have hrest := ih hnext (by rw [listener_perform]; exact quiet)
    rw [run_cons, hrest, hs.progress_perform quiet op, told, turned, reported_append]
    omega

private theorem WellPhased.told_milestones (hs : s.WellPhased) (quiet : s.listener.Quiet)
    (ops : List Operation) :
    ((s.told ops).filter HookCall.isMilestone).map HookCall.event =
      if (s.run ops).phase = s.phase then []
      else [.milestone s.role.completion (s.run ops).summary] := by
  induction ops generalizing s with
  | nil => exact (if_pos rfl).symm
  | cons op ops ih =>
    have hstep := step_perform s op
    have hrest := ih (hs.step hstep) (by rw [listener_perform]; exact quiet)
    obtain ⟨-, hrole, -⟩ := fields_of_fixedPart hstep.fixedPart
    rw [told, List.filter_append, List.map_append, hs.due_milestones quiet op, hrest, run_cons,
      hrole]
    by_cases hsame : (s.perform op).after.phase = s.phase
    · rw [if_pos hsame, hsame]
      rfl
    · -- The phase changes here, so it is the last one and no other change follows.
      have hdone : (s.perform op).after.phase = .established :=
        hstep.phase.eq_or_established.resolve_left hsame
      have hlast : ((s.perform op).after.run ops).phase = .established :=
        phase_run_of_established hdone ops
      rw [if_neg hsame, hlast, if_pos hdone.symm, if_neg (by rw [← hdone]; exact hsame),
        List.append_nil, summary_run_of_established hdone]
      rfl

private theorem session_of_due {op : Operation} {m : Milestone}
    (h : .milestone m t ∈ s.due op) : t = (s.perform op).after := by
  cases op with
  | accept ephemeral longTerm =>
    simp only [due] at h
    split at h
    · exact (HookCall.milestone.inj (List.mem_singleton.mp h)).2
    · cases h
  | discardTwoDh =>
    simp only [due] at h
    split at h
    · exact (HookCall.milestone.inj (List.mem_singleton.mp h)).2
    · cases h
  | turnUntil c target =>
    simp only [due] at h
    split at h
    · cases h
    · cases List.mem_singleton.mp h
  | take c => cases h
  | encryptionKey c => cases h
  | associatedData c => cases h
  | turn c => cases h

private theorem told_skips (s : Session) (ops : List Operation) {call : HookCall}
    (he : call ∈ s.told ops) (hskip : call.isMilestone = false) :
    ∃ n, 0 < n ∧ call = .skipped s.id s.peer.identity n := by
  induction ops generalizing s with
  | nil => cases he
  | cons op ops ih =>
    rcases List.mem_append.mp he with hnow | hlater
    · exact due_skips s op hnow hskip
    · obtain ⟨n, hn, rfl⟩ := ih (s.perform op).after hlater
      obtain ⟨hid, -, -, hpeer, -⟩ := fields_of_fixedPart (step_perform s op).fixedPart
      refine ⟨n, hn, ?_⟩
      rw [hid, hpeer]

private theorem Founded.progress_eq (h : Founded role s) : s.progress = 0 := by
  have hcovered (c : Channel) : s.covered c = 0 := by
    unfold covered
    cases hn : s.reached c with
    | none => rfl
    | some n =>
      rw [h.reached_eq hn]
      exact Nat.sub_self _
  simp only [progress, hcovered]

/-- A listener that refuses nothing is called once by the factory that gives a session out, with
that session. After that it is called for each operation as is due, and for one that fails not at
all; at a milestone it is handed the session in the state in which the operation leaves it. Whatever
is done, the milestones are none before the phase changes and then the one that completes the role;
all else are catch-ups of some turns; and the single turns with the turns that were reported are
those that all ratchets have made. -/
theorem history (h : Opening l role o) (given : o.answer = .ok s) (quiet : l.Quiet)
    (ops : List Operation) :
    o.Told l [.milestone role.opening s] ∧
      (∀ op, ((s.run ops).perform op).Told l ((s.run ops).due op)) ∧
      (∀ op f, ((s.run ops).perform op).answer = .error f → (s.run ops).due op = []) ∧
      (∀ op m t, .milestone m t ∈ ((s.run ops).perform op).calls →
        t = ((s.run ops).perform op).after) ∧
      ((s.told ops).filter HookCall.isMilestone).map HookCall.event =
        (if (s.run ops).phase = s.phase then []
        else [.milestone role.completion (s.run ops).summary]) ∧
      (∀ call ∈ s.told ops, call.isMilestone = false →
        ∃ n, 0 < n ∧ call = .skipped s.id s.peer.identity n) ∧
      s.turned ops + reported (s.told ops) = (s.run ops).progress := by
  obtain ⟨hfounded, hlistener⟩ := h.founded given
  obtain ⟨hrole, hphased⟩ := hfounded.wellPhased
  have hquiet : s.listener.Quiet := by
    rw [hlistener]
    exact quiet
  have hlater : (s.run ops).listener = l :=
    (listener_of_fixedPart (fixedPart_run s ops)).trans hlistener
  have hlaterQuiet : (s.run ops).listener.Quiet := by
    rw [hlater]
    exact quiet
  have htold (op : Operation) : ((s.run ops).perform op).Told l ((s.run ops).due op) :=
    hlater ▸ (hfounded.counted.run ops).perform_told hlaterQuiet op
  refine ⟨?_, htold, fun op f hf => ?_, fun op m t ht => ?_, ?_, fun call hcall => ?_, ?_⟩
  · have hopened := h.told quiet
    simp only [given] at hopened
    exact hopened
  · exact due_of_error hlaterQuiet hf
  · rw [(htold op).calls] at ht
    exact session_of_due ht
  · rw [← hrole]
    exact hphased.told_milestones hquiet ops
  · exact told_skips s ops hcall
  · rw [hfounded.counted.progress_run hquiet ops, hfounded.progress_eq, Nat.zero_add]

def sampleHistory : List Operation :=
  let longTerm : Offered := .fixed sampleResponder.publicKey.val
  [.turn ⟨.outgoing, .twoDh⟩, .turnUntil ⟨.incoming, .twoDh⟩ 3,
    .accept (.fixed (List.replicate 32 0)) longTerm,
    .accept (.fixed (List.replicate 32 9)) longTerm,
    .accept (.fixed (List.replicate 32 9)) longTerm, .turnUntil ⟨.incoming, .twoDh⟩ 9,
    .discardTwoDh, .turnUntil ⟨.incoming, .fourDh⟩ 4, .turnUntil ⟨.incoming, .fourDh⟩ 4]

def sampleAccept : Operation :=
  .accept (.fixed (List.replicate 32 9)) (.fixed sampleResponder.publicKey.val)

/-- What the listener of the accept is handed is the session with its handshake completed. -/
theorem history_sample :
    ∃ s, (initiate sampleInitiator sampleResponder.contact {} (.recorder []) sampleEphemeral
        sampleId).answer = .ok s ∧
      (initiate sampleInitiator sampleResponder.contact {} (.recorder []) sampleEphemeral
        sampleId).events = [.milestone .newSessionInitiated s.summary] ∧
      (∃ t, (s.perform sampleAccept).calls = [.milestone .initiatorSessionEstablished t] ∧
        t.ephemeralSecret = none ∧ t.peerEphemeral = some (List.replicate 32 9)) ∧
      ((s.told sampleHistory).filter HookCall.isMilestone).map HookCall.event =
        [.milestone .initiatorSessionEstablished (s.run sampleHistory).summary] ∧
      s.turned sampleHistory + reported (s.told sampleHistory) = 6 := by
  have hquiet : (Listener.recorder []).Quiet := fun _ => rfl
  have hopening : Opening (.recorder []) .initiator (initiate sampleInitiator
    sampleResponder.contact {} (.recorder []) sampleEphemeral sampleId) := .initiate ..
  have hrun : (do
      let s ← (initiate sampleInitiator sampleResponder.contact {} (.recorder []) sampleEphemeral
        sampleId).answer
      let o := s.perform sampleAccept
      return (s.phase, (s.run sampleHistory).phase, (s.run sampleHistory).progress,
        o.answer, decide (o.after.ephemeralSecret = none ∧
          o.after.peerEphemeral = some (List.replicate 32 9)))) =
        .ok (.initiatorTwoDh, .established, 6, .ok .done, true) := by decide +kernel
  obtain ⟨s, hs, hrun⟩ := bind_eq_ok hrun
  obtain ⟨hbefore, hrun⟩ := Prod.mk.inj (Except.ok.inj hrun)
  obtain ⟨hafter, hrun⟩ := Prod.mk.inj hrun
  obtain ⟨hprogress, hrun⟩ := Prod.mk.inj hrun
  obtain ⟨hanswer, hkeys⟩ := Prod.mk.inj hrun
  obtain ⟨hsecret, hpeer⟩ := of_decide_eq_true hkeys
  obtain ⟨hopened, -, -, -, hmilestones, -, hturns⟩ := history hopening hs hquiet sampleHistory
  have hcalls : (s.perform sampleAccept).calls = s.due sampleAccept :=
    ((history hopening hs hquiet []).2.1 sampleAccept).calls
  have hdue : s.due sampleAccept =
      [.milestone .initiatorSessionEstablished (s.perform sampleAccept).after] := by
    have hanswer : (s.perform (.accept _ _)).answer = .ok .done := hanswer
    simp only [due, sampleAccept, hanswer]
  rw [hbefore, hafter, if_neg (by nofun)] at hmilestones
  rw [hprogress] at hturns
  exact ⟨s, hs, hopened.events, ⟨_, hcalls.trans hdue, hsecret, hpeer⟩, hmilestones, hturns⟩

end Session

end RatchetSession
