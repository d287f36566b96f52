import Mathlib.Data.List.Forall2
import RatchetSession.Proofs.Coherence
import RatchetSession.Proofs.Replies

/-!
# Isolation of sessions and of copies

A new ratchet, a copy as well, is an object that no session ever uses: `Sound.standalone_after`. So
a copy and its original that are asked for the same calls answer them alike and end alike, and
nothing that is done with one object is felt by another that does not use it: `isolation`.
-/

set_option autoImplicit false
set_option relaxedAutoImplicit false

namespace RatchetSession

namespace Session

variable {s : Session} {op : Operation} {c : Channel} {x : Ratchet.Call} {r : Ratchet}

private theorem answer_told {σ α β : Type} {o : Outcome σ α} {answer : α} (l : Listener)
    (call : HookCall) (f : α → β) (h : o.answer = .ok answer) :
    ((Outcome.tell l call o).map f).answer = .ok (f answer) ∨
      ¬ l.Quiet ∧ ∃ hook, ((Outcome.tell l call o).map f).answer = .error (.listener hook) := by
  cases hrefused : (l.tell call.event).refused with
  | false =>
    left
    simp only [Outcome.map, Outcome.tell, hrefused, h]
    rfl
  | true =>
    refine .inr ⟨fun quiet => ?_, call.event.hook, ?_⟩
    · rw [quiet] at hrefused
      cases hrefused
    · simp only [Outcome.map, Outcome.tell, hrefused]
      rfl

private theorem answer_of_call (h : op.call? = some (c, x)) (live : s.slots.get c = .live r) :
    (s.perform op).answer = r.answerTo x ∨
      ¬ s.listener.Quiet ∧ ∃ hook, (s.perform op).answer = .error (.listener hook) := by
  have hr : s.ratchet c = .ok r := ratchet_eq_ok.mpr live
  cases op with
  | turn d =>
    obtain ⟨rfl, rfl⟩ := Prod.mk.inj (Option.some.inj h)
    left
    rw [perform_turn, turn_eq, hr]
    cases hturn : r.turn with
    | error f => simp only [Outcome.map, Outcome.failed, Ratchet.answerTo, hturn]; rfl
    | ok r' => simp only [Outcome.map, Ratchet.answerTo, hturn]; rfl
  | turnUntil d target =>
    obtain ⟨rfl, rfl⟩ := Prod.mk.inj (Option.some.inj h)
    rw [perform_turnUntil, turnUntil_eq, hr]
    rcases r.turnUntil_spec target with ⟨f, hf⟩ | ⟨n, hn, -⟩
    · left
      simp only [Outcome.map, Outcome.failed, Ratchet.answerTo, hf]
      rfl
    · simp only [Ratchet.answerTo, hn]
      split
      · exact .inl rfl
      · exact answer_told _ _ _ rfl
  | accept ephemeral longTerm => cases h
  | discardTwoDh => cases h
  | take d => cases h
  | encryptionKey d => cases h
  | associatedData d => cases h

end Session

namespace Memory

variable {m : Memory} {a x : Nat} {s : Session} {op : Session.Operation}

private theorem answer_of_unused (hm : m.Separate) (hs : m.session? a = some s)
    (hcall : op.call? = none) (huses : m.Uses a x) (hunused : ¬ (m.perform a s op).after.Uses a x) :
    (m.perform a s op).answer = .ok .done ∨
      ¬ s.listener.Quiet ∧ ∃ hook, (m.perform a s op).answer = .error (.listener hook) := by
  cases op with
  | accept ephemeral longTerm =>
    rw [perform, task, Task.bind_pure_eq_map] at hunused ⊢
    rcases accept_cases m a s ephemeral longTerm with
      ⟨f, log, hmem, -⟩ | ⟨secret, four, -, hmem, -⟩
    · rw [hmem] at hunused
      exact absurd huses hunused
    · have hafter := (rewrites_complete hm hs ephemeral four).1
      rw [hmem, tell_eq hafter.session]
      exact Session.answer_told _ _ _ rfl
  | discardTwoDh =>
    rw [perform, task, Task.bind_pure_eq_map, discardTwoDh] at hunused ⊢
    by_cases hwaiting : s.phase = .initiatorTwoDh
    · have hcheck : s.checkFourDh = .error (.notEstablished s.id) := by
        rw [Session.checkFourDh, if_pos hwaiting]
      rw [Task.ask_bind_of_error (s := m) hcheck] at hunused
      exact absurd huses hunused
    · have hcheck : s.checkFourDh = .ok () := by rw [Session.checkFourDh, if_neg hwaiting]
      rw [Task.ask_bind_of_ok (s := m) hcheck, Task.write_bind]
      split
      · rw [tell_eq (rewrites_giveUpTwoDh hm hs).session]
        exact Session.answer_told _ _ _ rfl
      · exact .inl rfl
  | take c =>
    rw [perform, task, Task.bind_pure_eq_map] at hunused
    exact absurd huses hunused
  | encryptionKey c => exact absurd huses hunused
  | associatedData c => exact absurd huses hunused
  | turn c => cases hcall
  | turnUntil c target => cases hcall

/-- What a session is asked for that calls on a ratchet is answered as the ratchet answers it, unless
a listener refuses to hear of it. -/
private theorem answer_of_asked (hm : m.Separate) (hs : m.session? a = some s)
    {calls : List Ratchet.Call} (hcalls : m.callsOn a op (m.perform a s op).after x = calls)
    (hne : calls ≠ []) :
    (m.perform a s op).answer = (m.ratchet x).answerToAll calls ∨
      ¬ s.listener.Quiet ∧ ∃ hook, (m.perform a s op).answer = .error (.listener hook) := by
  simp only [callsOn] at hcalls
  split at hcalls
  · rename_i c call hcall
    split_ifs at hcalls with hfield
    · have hanswer : (m.perform a s op).answer = (s.perform op).answer :=
        congrArg Outcome.answer (perform_follows hm hs op).seen
      rw [← hcalls, hanswer]
      exact Session.answer_of_call hcall (get_of_field hs hfield)
    · exact absurd hcalls.symm hne
  · rename_i hcall
    split_ifs at hcalls with hunused
    · rw [← hcalls]
      exact answer_of_unused hm hs hcall hunused.1 hunused.2
    · exact absurd hcalls.symm hne

end Memory

namespace Scenario

/-- The listener of the session that does some work. What is done with a ratchet is told to no
one. -/
def listener? (w : Scenario) : Option Work → Option Listener
  | some (.session a _) => (w.memory.session? a).map (·.listener)
  | some (.ratchet _ _) | none => none

/-- What a ratchet is asked for by a command, who may be told of it, and the answer. -/
structure Asked where
  calls : List Ratchet.Call
  listener : Option Listener
  answer : Except Failure Reply

/-- What the ratchet at a place is asked for by some commands, whoever refers to it. -/
def asked (w : Scenario) (x : Nat) : List (List Bytes × Command) → List Asked
  | [] => []
  | p :: commands =>
    match w.callsOn x p with
    | [] => (w.after [p]).asked x commands
    | call :: calls =>
      ⟨call :: calls, w.listener? (w.work? p.2), (w.perform p.1 p.2).2.answer⟩ ::
        (w.after [p]).asked x commands

/-- An answer as expected, or the refusal of the listener that is told. -/
def Agrees (expected : Except Failure Reply) (given : Asked) : Prop :=
  given.answer = expected ∨
    (∃ l, given.listener = some l ∧ ¬ l.Quiet) ∧
      ∃ hook, given.answer = .error (.fault (.listener hook))

/-- The ratchet at a place touches nothing else, and has this name or none. -/
structure Standalone (w : Scenario) (name : String) (x : Nat) : Prop where
  alone : ∀ v, Touches w.memory v (.ratchet x) → v = .ratchet x
  named : ∀ other, w.referent? other = some (.ratchet x) → other = name

def Command.makes? : Command → Option String
  | .ratchet as .. | .copy as _ => some as
  | _ => none

variable {w w' : Scenario} {command : Command} {work : Option Work} {answer : Except Failure Reply}
  {a x y : Nat} {s : Session} {c : Channel} {r : Ratchet} {name : String}

private theorem alone_iff : (∀ v, Touches w.memory v (.ratchet x) → v = .ratchet x) ↔
    ∀ a c, w.memory.field? a c ≠ some x := by
  constructor
  · intro h a c hc
    have hsame := h (.session a) (Memory.uses_iff.mpr ⟨c, hc⟩)
    cases hsame
  · intro h v hv
    cases v with
    | session a =>
      obtain ⟨c, hc⟩ := Memory.uses_iff.mp hv
      exact absurd hc (h a c)
    | ratchet y => exact congrArg Referent.ratchet hv
    | party l => cases hv
    | contact k => cases hv
    | message b => cases hv

private theorem Effect.standalone (hw : w.Sound) (h : Effect w command work w' answer)
    (hx : x < w.memory.ratchets.size) (halone : w.Standalone name x) : w'.Standalone name x := by
  have hunused := alone_iff.mp halone.alone
  refine ⟨alone_iff.mpr fun a c hc => ?_, fun other hother => ?_⟩
  · rcases h.field_fresh hw hc with hold | hnew
    · exact hunused a c hold
    · omega
  · rcases h.named hother with hold | ⟨-, ⟨a, c, hc⟩ | ⟨rfl, -⟩⟩
    · exact halone.named other hold
    · exact absurd hc (hunused a c)
    · exact absurd hx (Nat.lt_irrefl _)

theorem Sound.standalone_after (hw : w.Sound) (hx : x < w.memory.ratchets.size)
    (h : w.Standalone name x) (commands : List (List Bytes × Command)) :
    (w.after commands).Standalone name x := by
  induction commands generalizing w with
  | nil => exact h
  | cons p commands ih =>
    have heffect := effect_step w p
    exact ih (heffect.sound hw) (Nat.lt_of_lt_of_le hx (heffect.size_le hw))
      (heffect.standalone hw hx h)

private theorem Sound.standalone_addRatchet (hw : w.Sound) (name : String) (r : Ratchet) :
    (w.addRatchet name r).Standalone name w.memory.ratchets.size := by
  refine ⟨alone_iff.mpr fun a c hc => ?_, fun other hother => ?_⟩
  · have hafter := Memory.evolves_addRatchet hw.separate r
    exact Nat.lt_irrefl _ (hw.separate.object a c _ ((hafter.field? a c).symm.trans hc))
  · by_contra hne
    have hold : w.referent? other = some (.ratchet w.memory.ratchets.size) :=
      (referent?_bind_of_ne w _ hne).symm.trans hother
    exact Nat.lt_irrefl _ (hw.there other _ hold)

private theorem makes_eq_ok {random : List Bytes} (hmakes : command.makes? = some name)
    (h : (w.perform random command).2.answer = .ok .done) :
    ∃ r, (w.perform random command).1 = w.addRatchet name r := by
  cases hact : w.act random command with
  | error e =>
    rw [(perform_of_act_error hact).2] at h
    cases h
  | ok d =>
  rw [(perform_of_act hact).1]
  cases command with
  | ratchet as chainKey counter maxSkip =>
    obtain rfl := Option.some.inj hmakes
    obtain ⟨r, -, hact⟩ := bind_eq_ok hact
    obtain rfl := Except.ok.inj hact
    exact ⟨r, rfl⟩
  | copy as on =>
    obtain rfl := Option.some.inj hmakes
    obtain ⟨x, -, hact⟩ := bind_eq_ok hact
    obtain ⟨r, -, hact⟩ := bind_eq_ok hact
    obtain rfl := Except.ok.inj hact
    exact ⟨r, rfl⟩
  | _ => cases hmakes

private theorem Effect.agrees (hw : w.Sound) (h : Effect w command work w' answer)
    (hx : x < w.memory.ratchets.size) {calls : List Ratchet.Call}
    (hcalls : callsBy x w.memory w'.memory work = calls) (hne : calls ≠ []) :
    Agrees (replied ((w.memory.ratchet x).answerToAll calls))
      ⟨calls, w.listener? work, answer⟩ := by
  cases h with
  | unchanged answer => exact absurd hcalls.symm hne
  | bound answer binds lent => exact absurd hcalls.symm hne
  | opened answer binds made => exact absurd hcalls.symm hne
  | started answer binds range => exact absurd hcalls.symm hne
  | @ratchet name y op there =>
    simp only [callsBy] at hcalls
    split_ifs at hcalls with hy
    · subst hy
      obtain ⟨hseen, -⟩ := Memory.performOn_spec hw.separate hx op
      have hanswer : (w.memory.performOn y op).answer = ((w.memory.ratchet y).perform op).answer :=
        congrArg Outcome.answer hseen
      rw [← hcalls] at hne ⊢
      rw [hanswer, Ratchet.answer_of_calls hne]
      exact .inl rfl
    · exact absurd hcalls.symm hne
  | @session a s op there =>
    rcases Memory.answer_of_asked hw.separate there hcalls hne with hsame | ⟨hloud, hook, hrefused⟩
    · exact .inl (by rw [hsame])
    · refine .inr ⟨⟨s.listener, ?_, hloud⟩, hook, ?_⟩
      · simp only [listener?, there, Option.map_some]
      · simp only [hrefused]
        rfl

/-- A ratchet goes on by the calls that are made on it, and answers so. -/
private theorem Sound.asked_agree (hw : w.Sound) (hx : x < w.memory.ratchets.size)
    (commands : List (List Bytes × Command)) :
    w.callsIn x commands = ((w.asked x commands).map (·.calls)).flatten ∧
      List.Forall₂ Agrees
        (((w.memory.ratchet x).answers ((w.asked x commands).map (·.calls))).map replied)
        (w.asked x commands) := by
  induction commands generalizing w with
  | nil => exact ⟨rfl, .nil⟩
  | cons p commands ih =>
    have heffect := effect_step w p
    obtain ⟨hcalls, hanswers⟩ :=
      ih (heffect.sound hw) (Nat.lt_of_lt_of_le hx (heffect.size_le hw))
    have hratchet : (w.after [p]).memory.ratchet x =
        (w.memory.ratchet x).afterCalls (w.callsOn x p) := heffect.ratchet_after hw hx
    rw [hratchet] at hanswers
    cases hon : w.callsOn x p with
    | nil =>
      rw [hon] at hanswers
      simp only [callsIn, asked, hon, List.nil_append]
      exact ⟨hcalls, hanswers⟩
    | cons call calls =>
      rw [hon] at hanswers
      simp only [callsIn, asked, hon, List.map_cons, List.flatten_cons, Ratchet.answers]
      refine ⟨by rw [hcalls], .cons ?_ hanswers⟩
      exact heffect.agrees hw hx hon (List.cons_ne_nil _ _)

private theorem Sound.untold (hw : w.Sound) (hx : x < w.memory.ratchets.size)
    (halone : w.Standalone name x) {commands : List (List Bytes × Command)} {given : Asked}
    (h : given ∈ w.asked x commands) : given.listener = none := by
  induction commands generalizing w with
  | nil => cases h
  | cons p commands ih =>
    have heffect := effect_step w p
    have hrest := ih (heffect.sound hw) (Nat.lt_of_lt_of_le hx (heffect.size_le hw))
      (heffect.standalone hw hx halone)
    simp only [asked] at h
    cases hon : w.callsOn x p with
    | nil =>
      simp only [hon] at h
      exact hrest h
    | cons call calls =>
      simp only [hon] at h
      rcases List.mem_cons.mp h with rfl | hmem
      · cases hwork : w.work? p.2 with
        | none => rfl
        | some done =>
          cases done with
          | ratchet y op => rfl
          | session a op =>
            have hempty : w.callsOn x p = [] := by
              apply callsBy_of_untouched
              intro done hdone htouches
              obtain rfl := Option.some.inj (hwork.symm.trans hdone)
              cases halone.alone _ htouches
            rw [hempty] at hon
            cases hon
      · exact hrest hmem

private theorem agrees_untold {expected : List (Except Failure Reply)} {given : List Asked}
    (h : List.Forall₂ Agrees expected given) (untold : ∀ g ∈ given, g.listener = none) :
    given.map (·.answer) = expected := by
  induction h with
  | nil => rfl
  | cons hagrees _ ih =>
    have htail := ih fun g hg => untold g (List.mem_cons_of_mem _ hg)
    rcases hagrees with hsame | ⟨⟨l, htold, -⟩, -⟩
    · rw [List.map_cons, hsame, htail]
    · rw [untold _ List.mem_cons_self] at htold
      cases htold

private theorem subject_of_ratchetWork {op : Ratchet.Operation} {done : Work}
    (h : w.ratchetWork? name op = some done) : w.referent? name = some done.subject := by
  unfold ratchetWork? at h
  split at h
  · rename_i x hx
    obtain rfl := Option.some.inj h
    exact hx
  · cases h
  · cases h

private theorem subject_of_channelWork {words : ChannelWords}
    {onChannel : Channel → Session.Operation}
    {done : Work} (h : w.channelWork? name words onChannel = some done) :
    w.referent? name = some done.subject := by
  unfold channelWork? at h
  split at h
  · rename_i a s c hs hc
    obtain rfl := Option.some.inj h
    exact (session_eq_ok hs).1
  · cases h

private theorem subject_of_eitherWork {words : Option ChannelWords} {op : Ratchet.Operation}
    {onChannel : Channel → Session.Operation} {done : Work}
    (h : w.eitherWork? name words onChannel op = some done) :
    w.referent? name = some done.subject := by
  unfold eitherWork? at h
  split at h
  · exact subject_of_channelWork h
  · exact subject_of_ratchetWork h

private theorem subject_of_work {done : Work} (h : w.work? command = some done) :
    ∃ on, command.subject? = some on ∧ w.referent? on = some done.subject := by
  cases command with
  | accept on ephemeral longTerm =>
    simp only [work?] at h
    split at h
    · rename_i a s e l hs he hl
      obtain rfl := Option.some.inj h
      exact ⟨on, rfl, (session_eq_ok hs).1⟩
    · cases h
  | discardTwoDh on =>
    simp only [work?] at h
    split at h
    · rename_i a s hs
      obtain rfl := Option.some.inj h
      exact ⟨on, rfl, (session_eq_ok hs).1⟩
    · cases h
  | discard on => exact ⟨on, rfl, subject_of_ratchetWork h⟩
  | encryptionKey on c => exact ⟨on, rfl, subject_of_eitherWork h⟩
  | associatedData on c => exact ⟨on, rfl, subject_of_channelWork h⟩
  | turn on c times => exact ⟨on, rfl, subject_of_eitherWork h⟩
  | turnUntil on c target => exact ⟨on, rfl, subject_of_eitherWork h⟩
  | _ => cases h

private theorem Effect.referent? (h : Effect w command work w' answer)
    (hname : command.binds? ≠ some name) :
    w'.referent? name = w.referent? name := by
  have hbind {other : String} (v : Referent) (hother : command.binds? = some other) :
      (w.bind other v).referent? name = w.referent? name := by
    apply referent?_bind_of_ne
    rintro rfl
    exact hname hother
  cases h with
  | unchanged answer => rfl
  | bound answer binds lent => exact hbind _ binds
  | opened answer binds made => exact hbind _ binds
  | started answer binds range => exact hbind _ binds
  | session op there => rfl
  | ratchet op there => rfl

private theorem perform_copy_of_keyed {on : String} {key : Key} (as : String) (random : List Bytes)
    (named : w.referent? on = some (.ratchet x))
    (hkey : (w.memory.ratchet x).chainKey = some key)
    (range : (w.memory.ratchet x).counter ≤ maxCounter) :
    (w.perform random (.copy as on)).1 = w.addRatchet as (w.memory.ratchet x) ∧
      (w.perform random (.copy as on)).2.answer = .ok .done := by
  have hcopy : w.memory.copy x = .ok (w.memory.ratchet x) := by
    have hrange : (0 : Int) ≤ (w.memory.ratchet x).counter ∧
        ((w.memory.ratchet x).counter : Int) ≤ maxCounter := by omega
    simp only [Memory.copy, Ratchet.liveKey, hkey]
    show Ratchet.start key _ _ = _
    rw [Ratchet.start, if_pos hrange, Int.toNat_natCast, ← hkey]
  rw [perform, act_copy as random named, hcopy]
  exact ⟨rfl, rfl⟩

private theorem Sound.asked_alike (hw : w.Sound) (hx : x < w.memory.ratchets.size)
    (hy : y < w.memory.ratchets.size) (halone : w.Standalone name y)
    (hsame : w.memory.ratchet x = w.memory.ratchet y) {commands : List (List Bytes × Command)}
    (hasked : (w.asked x commands).map (·.calls) = (w.asked y commands).map (·.calls)) :
    (w.after commands).memory.ratchet x = (w.after commands).memory.ratchet y ∧
      List.Forall₂ (fun copied original => Agrees copied.answer original) (w.asked y commands)
        (w.asked x commands) := by
  obtain ⟨hcalls, hanswers⟩ := hw.asked_agree hx commands
  obtain ⟨hcalls', hanswers'⟩ := hw.asked_agree hy commands
  constructor
  · rw [hw.ratchet_after hx, hw.ratchet_after hy, hcalls, hcalls', hasked, hsame]
  · rw [hasked, hsame, ← agrees_untold hanswers' fun _ => hw.untold hy halone] at hanswers
    exact List.forall₂_map_left_iff.mp hanswers

/-- Whatever the commands before, objects in memory are separate. A command works on nothing but
what its own name stands for, no other name than the one that it binds comes to stand for something
else, and what is not touched stays in its state. A new ratchet touches nothing else, ever. A copy
of a discarded ratchet fails and makes nothing. Another copy is a new object in the state of its
original; asked for the same calls in the same order, whatever else is done between, both end in the
same state and answer alike, unless a listener refuses to hear of the original. -/
theorem isolation (before : List (List Bytes × Command)) :
    let w := ({} : Scenario).after before
    w.memory.Separate ∧
    (∀ command done, w.work? command = some done →
      ∃ on, command.subject? = some on ∧ w.referent? on = some done.subject) ∧
    (∀ random command name, command.binds? ≠ some name →
      (w.perform random command).1.referent? name = w.referent? name) ∧
    (∀ v state later, w.state? v = some state → w.LeavesAlone v later →
      (w.after later).state? v = some state) ∧
    (∀ random command as, command.makes? = some as →
      (w.perform random command).2.answer = .ok .done →
      let w' := (w.perform random command).1
      ∃ y, w'.referent? as = some (.ratchet y) ∧ w.state? (.ratchet y) = none ∧
        ∀ later, (w'.after later).Standalone as y) ∧
    ∀ as on x random, w.referent? on = some (.ratchet x) →
      let r := w.memory.ratchet x
      let made := w.perform random (.copy as on)
      (r.chainKey = none → made.1 = w ∧ Exhausts made.2.answer) ∧
      (r.chainKey.isSome →
        made.2.answer = .ok .done ∧
        ∃ y, made.1.referent? as = some (.ratchet y) ∧ y ≠ x ∧
          made.1.memory.ratchet y = r ∧ made.1.memory.ratchet x = r ∧ ∀ later,
            (made.1.asked x later).map (·.calls) = (made.1.asked y later).map (·.calls) →
            (made.1.after later).memory.ratchet x = (made.1.after later).memory.ratchet y ∧
            List.Forall₂ (fun copied original => Agrees copied.answer original)
              (made.1.asked y later) (made.1.asked x later)) := by
  intro w
  have hw : w.Sound := sound_empty.after before
  refine ⟨hw.separate, fun command done => subject_of_work,
    fun random command name hname => (effect_perform w random command).referent? hname,
    fun v state later hstate alone => hw.state?_after hstate alone,
    fun random command as hmakes hanswer => ?_,
    fun as on x random hx => ⟨fun hkey => ?_, fun hkey => ?_⟩⟩
  · have hsound : (w.perform random command).1.Sound := (effect_perform w random command).sound hw
    obtain ⟨r, hr⟩ := makes_eq_ok hmakes hanswer
    rw [hr] at hsound ⊢
    refine ⟨w.memory.ratchets.size, referent?_bind_self .., ?_, fun later => ?_⟩
    · simp only [state?, Array.getElem?_eq_none (Nat.le_refl _), Option.map_none]
    · have hsize : w.memory.ratchets.size < (w.addRatchet as r).memory.ratchets.size :=
        Nat.lt_of_lt_of_eq (Nat.lt_succ_self _) (Memory.size_addRatchet w.memory r).symm
      exact hsound.standalone_after hsize (hw.standalone_addRatchet as r) later
  · obtain ⟨hsame, hanswer⟩ := perform_copy_of_keyless as random hx hkey
    exact ⟨hsame, _, hanswer, rfl⟩
  · obtain ⟨key, hkey⟩ := Option.isSome_iff_exists.mp hkey
    obtain ⟨hmade, hanswer⟩ := perform_copy_of_keyed as random hx hkey (hw.range on x hx)
    have hsound : (w.perform random (.copy as on)).1.Sound :=
      (effect_perform w random (.copy as on)).sound hw
    have hlt : x < w.memory.ratchets.size := hw.there on x hx
    have hnew := Memory.evolves_addRatchet hw.separate (w.memory.ratchet x)
    have hold := hnew.others x (Nat.ne_of_lt hlt)
    have hsize := Memory.size_addRatchet w.memory (w.memory.ratchet x)
    rw [hmade] at hsound ⊢
    refine ⟨hanswer, w.memory.ratchets.size, referent?_bind_self .., (Nat.ne_of_lt hlt).symm,
      hnew.ratchet, hold, fun later hasked => ?_⟩
    refine hsound.asked_alike (Nat.lt_of_lt_of_le hlt hnew.size) ?_
      (hw.standalone_addRatchet as _) (hold.trans hnew.ratchet.symm) hasked
    exact Nat.lt_of_lt_of_eq (Nat.lt_succ_self _) hsize.symm

def sampleTurns : List (List Bytes × Command) :=
  [([], .turn "taken" none 1), ([], .turn "spare" none 1), ([], .turnUntil "spare" none 4),
    ([], .turnUntil "first" (some ⟨"outgoing", "2dh"⟩) 4)]

/-- The second session feels nothing of what is done with the ratchet of the first and with its
copy, and these end alike. -/
theorem isolation_sample :
    let w := ({} : Scenario).after
      (sampleOpening ++ [([], .grab "taken" "first" ⟨"outgoing", "2dh"⟩)])
    let copied := (w.perform [] (.copy "spare" "taken")).1
    (∃ state, w.state? (.session 1) = some state ∧
      (copied.after sampleTurns).state? (.session 1) = some state) ∧
    ∃ y, copied.referent? "spare" = some (.ratchet y) ∧
      (copied.after sampleTurns).memory.ratchet 0 = (copied.after sampleTurns).memory.ratchet y ∧
      ((copied.after sampleTurns).memory.ratchet y).counter = 4 := by
  intro w copied
  have hrun : (w.state? (.session 1)).isSome ∧
      w.LeavesAlone (.session 1) (([], .copy "spare" "taken") :: sampleTurns) ∧
      w.referent? "taken" = some (.ratchet 0) ∧ (w.memory.ratchet 0).chainKey.isSome ∧
      copied.referent? "spare" = some (.ratchet 4) ∧
      (copied.asked 0 sampleTurns).map (·.calls) = (copied.asked 4 sampleTurns).map (·.calls) ∧
      ((copied.after sampleTurns).memory.ratchet 4).counter = 4 := by decide +kernel
  obtain ⟨hsecond, halone, htaken, hkey, hspare, hasked, hcounter⟩ := hrun
  obtain ⟨-, -, -, hframe, -, hcopy⟩ :=
    isolation (sampleOpening ++ [([], .grab "taken" "first" ⟨"outgoing", "2dh"⟩)])
  obtain ⟨state, hstate⟩ := Option.isSome_iff_exists.mp hsecond
  have hsame := hframe _ _ _ hstate halone
  rw [after_cons] at hsame
  refine ⟨⟨state, hstate, hsame⟩, ?_⟩
  obtain ⟨-, y, hy, -, -, -, hlater⟩ := (hcopy "spare" "taken" 0 [] htaken).2 hkey
  obtain rfl : y = 4 := Referent.ratchet.inj (Option.some.inj (hy.symm.trans hspare))
  exact ⟨4, hspare, (hlater sampleTurns hasked).1, hcounter⟩

end Scenario

end RatchetSession
