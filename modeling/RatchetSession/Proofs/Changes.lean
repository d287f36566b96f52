import RatchetSession.Proofs.Refinement
import RatchetSession.Proofs.Upkeep
import RatchetSession.Scenario.Perform

/-!
# What a command of a scenario changes

A command works on one session or on one ratchet in memory, or it makes something new under a name:
`effect_perform`.
-/

set_option autoImplicit false
set_option relaxedAutoImplicit false

namespace RatchetSession

namespace Scenario

/-- What a command does with something that is there. -/
inductive Work
  | session (a : Nat) (op : Session.Operation)
  | ratchet (x : Nat) (op : Ratchet.Operation)

def Command.binds? : Command → Option String
  | .store as .. | .storeBase64 as .. | .generateStore as _ | .contact as .. | .contactOf as _
  | .ratchet as .. | .initiate as _ | .respond as .. | .newSession as .. | .grab as .. | .copy as _
  | .encrypt as .. => some as
  | .storeAgreement .. | .accept .. | .discardTwoDh _ | .discard _ | .encryptionKey ..
  | .associatedData .. | .turn .. | .turnUntil .. | .decrypt .. | .describe _ => none

def ratchetWork? (w : Scenario) (name : String) (op : Ratchet.Operation) : Option Work :=
  match w.referent? name with
  | some (.ratchet x) => some (.ratchet x op)
  | some _ | none => none

def channelWork? (w : Scenario) (name : String) (c : ChannelWords)
    (onChannel : Channel → Session.Operation) : Option Work :=
  match w.session name, c.channel with
  | .ok (a, _), .ok c => some (.session a (onChannel c))
  | _, _ => none

def eitherWork? (w : Scenario) (name : String) (c : Option ChannelWords)
    (onChannel : Channel → Session.Operation) (op : Ratchet.Operation) : Option Work :=
  match w.referent? name, c with
  | some (.session _), some c => w.channelWork? name c onChannel
  | _, _ => w.ratchetWork? name op

/-- The work that a command does, unless it fails before or makes something new. -/
def work? (w : Scenario) : Command → Option Work
  | .accept on ephemeral longTerm =>
    match w.session on, w.resolve ephemeral, w.resolve longTerm with
    | .ok (a, _), .ok e, .ok l => some (.session a (.accept e l))
    | _, _, _ => none
  | .discardTwoDh on =>
    match w.session on with
    | .ok (a, _) => some (.session a .discardTwoDh)
    | .error _ => none
  | .discard on => w.ratchetWork? on .discard
  | .encryptionKey on c => w.eitherWork? on c .encryptionKey .encryptionKey
  | .associatedData on c => w.channelWork? on c .associatedData
  | .turn on c times => w.eitherWork? on c .turn (.turn times)
  | .turnUntil on c target => w.eitherWork? on c (fun c => .turnUntil c target) (.turnUntil target)
  | .store .. | .storeBase64 .. | .generateStore .. | .contact .. | .contactOf ..
  | .storeAgreement .. | .ratchet .. | .initiate .. | .respond .. | .newSession .. | .grab ..
  | .copy .. | .encrypt .. | .decrypt .. | .describe .. => none

def replied (a : Except Fault Answer) : Except Failure Reply := lift (a.map .ofAnswer)

/-- What comes of a command that does this work, or none. -/
inductive Effect (w : Scenario) (command : Command) :
    Option Work → Scenario → Except Failure Reply → Prop
  | unchanged (answer : Except Failure Reply) : Effect w command none w answer
  | bound {name : String} {v : Referent} (answer : Except Failure Reply)
      (binds : command.binds? = some name)
      (lent : ∀ x, v = .ratchet x → ∃ a c, w.memory.field? a c = some x) :
      Effect w command none (w.bind name v) answer
  | opened {name : String} {s : Session} (answer : Except Failure Reply)
      (binds : command.binds? = some name) (made : s.Made) :
      Effect w command none (w.addSession name s) answer
  | started {name : String} {r : Ratchet} (answer : Except Failure Reply)
      (binds : command.binds? = some name) (range : r.counter ≤ maxCounter) :
      Effect w command none (w.addRatchet name r) answer
  | session {a : Nat} {s : Session} (op : Session.Operation)
      (there : w.memory.session? a = some s) :
      Effect w command (some (.session a op))
        { w with memory := (w.memory.perform a s op).after }
        (replied (w.memory.perform a s op).answer)
  | ratchet {name : String} {x : Nat} (op : Ratchet.Operation)
      (there : w.referent? name = some (.ratchet x)) :
      Effect w command (some (.ratchet x op))
        { w with memory := (w.memory.performOn x op).after }
        (replied (w.memory.performOn x op).answer)

section

variable {w : Scenario} {random : List Bytes} {command : Command} {name : String} {a x : Nat}
  {s : Session} {r : Ratchet} {v : Referent} {d : Result} {work : Work}

private theorem lookup_eq_ok (h : w.lookup name = .ok v) : w.referent? name = some v := by
  unfold lookup at h
  split at h
  · rename_i u hu
    rw [hu, Except.ok.inj h]
  · cases h

theorem session_eq_ok (h : w.session name = .ok (a, s)) :
    w.referent? name = some (.session a) ∧ w.memory.session? a = some s := by
  obtain ⟨v, hv, h⟩ := bind_eq_ok h
  have hname := lookup_eq_ok hv
  cases v with
  | session a' =>
    simp only at h
    split at h
    · rename_i s' hs'
      obtain ⟨rfl, rfl⟩ := Prod.mk.inj (Except.ok.inj h)
      exact ⟨hname, hs'⟩
    · cases h
  | party l => cases h
  | contact c => cases h
  | ratchet x => cases h
  | message b => cases h

private theorem ratchet_eq_ok (h : w.ratchet name = .ok x) :
    w.referent? name = some (.ratchet x) := by
  obtain ⟨v, hv, h⟩ := bind_eq_ok h
  have hname := lookup_eq_ok hv
  cases v with
  | ratchet x' =>
    obtain rfl := Except.ok.inj h
    exact hname
  | party l => cases h
  | contact c => cases h
  | session a => cases h
  | message b => cases h

theorem ratchet_of_referent (h : w.referent? name = some (.ratchet x)) :
    w.ratchet name = .ok x := by
  have hlookup : w.lookup name = .ok (.ratchet x) := by rw [lookup, h]
  rw [ratchet, hlookup]
  rfl

theorem perform_of_act (hact : w.act random command = .ok d) :
    (w.perform random command).1 = d.after ∧
      (w.perform random command).2.answer = d.report.answer := by
  simp only [perform, hact]
  cases hanswer : d.report.answer with
  | ok a => exact ⟨rfl, rfl⟩
  | error e => exact ⟨rfl, rfl⟩

theorem perform_of_act_error {e : Failure} (hact : w.act random command = .error e) :
    (w.perform random command).1 = w ∧ (w.perform random command).2.answer = .error e := by
  simp only [perform, hact]
  exact ⟨trivial, trivial⟩

private theorem effect_of_ok {work : Option Work} (hact : w.act random command = .ok d)
    (h : Effect w command work d.after d.report.answer) :
    Effect w command work (w.perform random command).1 (w.perform random command).2.answer := by
  rwa [(perform_of_act hact).1, (perform_of_act hact).2]

private theorem effect_of_error {e : Failure} (hact : w.act random command = .error e) :
    Effect w command none (w.perform random command).1 (w.perform random command).2.answer := by
  rw [(perform_of_act_error hact).1]
  exact .unchanged _

private theorem effect_of_making
    (h : ∀ d, w.act random command = .ok d → Effect w command none d.after d.report.answer) :
    Effect w command none (w.perform random command).1 (w.perform random command).2.answer := by
  cases hact : w.act random command with
  | error e => exact effect_of_error hact
  | ok d => exact effect_of_ok hact (h d hact)

private theorem effect_onSession (there : w.memory.session? a = some s) (op : Session.Operation)
    (shown : Option String) :
    Effect w command (some (.session a op)) (w.onSession a s op shown).after
      (w.onSession a s op shown).report.answer := .session op there

private theorem effect_onRatchet (op : Ratchet.Operation)
    (hact : w.act random command = w.onRatchet name op) :
    Effect w command (w.ratchetWork? name op) (w.perform random command).1
      (w.perform random command).2.answer := by
  cases hx : w.ratchet name with
  | ok x =>
    have hname := ratchet_eq_ok hx
    have hwork : w.ratchetWork? name op = some (.ratchet x op) := by
      simp only [ratchetWork?, hname]
    rw [onRatchet, hx] at hact
    rw [hwork]
    exact effect_of_ok hact (.ratchet op hname)
  | error e =>
    have hwork : w.ratchetWork? name op = none := by
      unfold ratchetWork?
      split
      · rename_i x hname
        rw [ratchet_of_referent hname] at hx
        cases hx
      · rfl
      · rfl
    rw [onRatchet, hx] at hact
    rw [hwork]
    exact effect_of_error hact

private theorem effect_onChannel (c : ChannelWords) (onChannel : Channel → Session.Operation)
    {shown : Option String}
    (hact : w.act random command = w.session name >>= fun p => c.channel >>= fun c =>
      .ok (w.onSession p.1 p.2 (onChannel c) shown)) :
    Effect w command (w.channelWork? name c onChannel) (w.perform random command).1
      (w.perform random command).2.answer := by
  unfold channelWork?
  cases hs : w.session name with
  | error e =>
    rw [hs] at hact
    exact effect_of_error hact
  | ok p =>
    rw [hs] at hact
    cases hc : c.channel with
    | error e =>
      rw [hc] at hact
      exact effect_of_error hact
    | ok c =>
      rw [hc] at hact
      exact effect_of_ok hact (effect_onSession (session_eq_ok hs).2 ..)

private theorem effect_onEither (c : Option ChannelWords) (onChannel : Channel → Session.Operation)
    (op : Ratchet.Operation) {shown : Option String}
    (hact : w.act random command = w.onEither name c onChannel op shown) :
    Effect w command (w.eitherWork? name c onChannel op) (w.perform random command).1
      (w.perform random command).2.answer := by
  by_cases hsession : ∃ a, w.referent? name = some (.session a) ∧ c.isSome
  · obtain ⟨a, hv, hc⟩ := hsession
    obtain ⟨c, rfl⟩ := Option.isSome_iff_exists.mp hc
    have hlookup : w.lookup name = .ok (.session a) := by rw [lookup, hv]
    rw [onEither, hlookup] at hact
    have hwork : w.eitherWork? name (some c) onChannel op = w.channelWork? name c onChannel := by
      simp only [eitherWork?, hv]
    rw [hwork]
    exact effect_onChannel c onChannel hact
  · have hwork : w.eitherWork? name c onChannel op = w.ratchetWork? name op := by
      unfold eitherWork?
      split
      · rename_i a c hv
        exact absurd ⟨a, hv, rfl⟩ hsession
      · rfl
    have hratchet : w.onEither name c onChannel op shown = w.onRatchet name op := by
      unfold onEither
      cases hlookup : w.lookup name with
      | error e =>
        rw [onRatchet, ratchet, hlookup]
        rfl
      | ok v =>
        cases v with
        | session a =>
          cases c with
          | none => rfl
          | some c => exact absurd ⟨a, lookup_eq_ok hlookup, rfl⟩ hsession
        | _ => rfl
    rw [hwork]
    exact effect_onRatchet op (hact.trans hratchet)

private theorem effect_accept {on : String} {ephemeral longTerm : Source} :
    Effect w (.accept on ephemeral longTerm) (w.work? (.accept on ephemeral longTerm))
      (w.perform random (.accept on ephemeral longTerm)).1
      (w.perform random (.accept on ephemeral longTerm)).2.answer := by
  have hact : w.act random (.accept on ephemeral longTerm) =
      w.session on >>= fun p => w.resolve ephemeral >>= fun e => w.resolve longTerm >>= fun l =>
        .ok (w.onSession p.1 p.2 (.accept e l) (some on)) := rfl
  simp only [work?]
  cases hs : w.session on with
  | error f =>
    rw [hs] at hact
    exact effect_of_error hact
  | ok p =>
    rw [hs] at hact
    cases he : w.resolve ephemeral with
    | error f =>
      rw [he] at hact
      exact effect_of_error hact
    | ok e =>
      rw [he] at hact
      cases hl : w.resolve longTerm with
      | error f =>
        rw [hl] at hact
        exact effect_of_error hact
      | ok l =>
        rw [hl] at hact
        exact effect_of_ok hact (effect_onSession (session_eq_ok hs).2 ..)

private theorem effect_opened {as : String} {o : Outcome Unit Session}
    (hbinds : command.binds? = some as) (hmade : ∀ s, o.answer = .ok s → s.Made) :
    Effect w command none (w.opened as o).after (w.opened as o).report.answer := by
  unfold opened
  cases ho : o.answer with
  | error f => exact .unchanged _
  | ok s => exact .opened _ hbinds (hmade s ho)

private theorem effect_bound (binds : command.binds? = some name) (h : ∀ x, v ≠ .ratchet x) :
    Effect w command none (w.bound name v).after (w.bound name v).report.answer :=
  .bound _ binds fun x hx => absurd hx (h x)

theorem field_eq_ok {c : Channel} (h : (Memory.field a s c w.memory).answer = .ok x) :
    w.memory.field? a c = some x := by
  simp only [Memory.field, Task.ask] at h
  split at h
  · rename_i x' hx'
    obtain rfl := Except.ok.inj h
    exact hx'
  · cases h

private theorem counter_of_make {chainKey : Offered} {counter maxSkip : Option Int}
    (h : Ratchet.make chainKey counter maxSkip = .ok r) : r.counter ≤ maxCounter := by
  unfold Ratchet.make at h
  split at h
  · cases h
  · obtain ⟨⟨hmin, hmax⟩, rfl⟩ := Ratchet.start_eq_ok h
    show (counter.getD _).toNat ≤ maxCounter
    omega

private theorem copy_eq_ok {m : Memory} (h : m.copy x = .ok r) :
    r = m.ratchet x ∧ r.chainKey.isSome ∧ r.counter ≤ maxCounter := by
  obtain ⟨k, hk, h⟩ := bind_eq_ok h
  obtain ⟨⟨-, hmax⟩, rfl⟩ := Ratchet.start_eq_ok h
  have hkey : (m.ratchet x).chainKey = some k := by
    unfold Ratchet.liveKey at hk
    split at hk
    · rename_i k' hk'
      rw [hk', Except.ok.inj hk]
    · cases hk
  refine ⟨?_, rfl, ?_⟩
  · rw [← hkey]
    rfl
  · show ((m.ratchet x).counter : Int).toNat ≤ maxCounter
    omega

/-- What a command can do. -/
theorem effect_perform (w : Scenario) (random : List Bytes) (command : Command) :
    Effect w command (w.work? command) (w.perform random command).1
      (w.perform random command).2.answer := by
  cases command with
  | store as identity secret =>
    refine effect_of_making fun d h => ?_
    obtain ⟨l, -, h⟩ := bind_eq_ok h
    obtain rfl := Except.ok.inj h
    exact effect_bound rfl nofun
  | storeBase64 as identity secret =>
    refine effect_of_making fun d h => ?_
    obtain ⟨l, -, h⟩ := bind_eq_ok h
    obtain rfl := Except.ok.inj h
    exact effect_bound rfl nofun
  | generateStore as identity =>
    refine effect_of_making fun d h => ?_
    simp only [act] at h
    split at h
    · obtain rfl := Except.ok.inj h
      exact .bound _ rfl nofun
    · obtain rfl := Except.ok.inj h
      exact .unchanged _
  | contact as identity key =>
    refine effect_of_making fun d h => ?_
    obtain ⟨key, -, h⟩ := bind_eq_ok h
    obtain ⟨c, -, h⟩ := bind_eq_ok h
    obtain rfl := Except.ok.inj h
    exact effect_bound rfl nofun
  | contactOf as on =>
    refine effect_of_making fun d h => ?_
    obtain ⟨l, -, h⟩ := bind_eq_ok h
    obtain rfl := Except.ok.inj h
    exact effect_bound rfl nofun
  | storeAgreement on key =>
    refine effect_of_making fun d h => ?_
    obtain ⟨l, -, h⟩ := bind_eq_ok h
    obtain ⟨key, -, h⟩ := bind_eq_ok h
    obtain ⟨z, -, h⟩ := bind_eq_ok h
    obtain rfl := Except.ok.inj h
    exact .unchanged _
  | ratchet as chainKey counter maxSkip =>
    refine effect_of_making fun d h => ?_
    obtain ⟨r, hr, h⟩ := bind_eq_ok h
    obtain rfl := Except.ok.inj h
    exact .started _ rfl (counter_of_make (mapError_eq_ok (mapError_eq_ok hr)))
  | initiate as m =>
    refine effect_of_making fun d h => ?_
    obtain ⟨⟨me, peer, config⟩, -, h⟩ := bind_eq_ok h
    obtain rfl := Except.ok.inj h
    exact effect_opened rfl fun s hs => .founded (.initiated hs)
  | respond as m sessionId ephemeral =>
    refine effect_of_making fun d h => ?_
    obtain ⟨⟨me, peer, config⟩, -, h⟩ := bind_eq_ok h
    obtain ⟨sessionId, -, h⟩ := bind_eq_ok h
    obtain ⟨ephemeral, -, h⟩ := bind_eq_ok h
    obtain rfl := Except.ok.inj h
    exact effect_opened rfl fun s hs => .founded (.responded hs)
  | newSession as m sessionId role ephemeralPublic ephemeralSecret =>
    refine effect_of_making fun d h => ?_
    obtain ⟨⟨me, peer, config⟩, -, h⟩ := bind_eq_ok h
    obtain ⟨sessionId, -, h⟩ := bind_eq_ok h
    obtain ⟨id, -, h⟩ := bind_eq_ok h
    cases hrole : Role.ofText? role with
    | none =>
      simp only [hrole] at h
      cases h
    | some role =>
      simp only [hrole] at h
      obtain rfl := Except.ok.inj h
      exact effect_opened rfl fun s hs => .bare hs
  | accept on ephemeral longTerm => exact effect_accept
  | discardTwoDh on =>
    have hact : w.act random (.discardTwoDh on) =
        w.session on >>= fun p => .ok (w.onSession p.1 p.2 .discardTwoDh (some on)) := rfl
    simp only [work?]
    cases hs : w.session on with
    | error f =>
      rw [hs] at hact
      exact effect_of_error hact
    | ok p =>
      rw [hs] at hact
      exact effect_of_ok hact (effect_onSession (session_eq_ok hs).2 ..)
  | grab as on c =>
    refine effect_of_making fun d h => ?_
    obtain ⟨⟨a, s⟩, -, h⟩ := bind_eq_ok h
    obtain ⟨c, -, h⟩ := bind_eq_ok h
    obtain ⟨x, hx, h⟩ := bind_eq_ok h
    obtain rfl := Except.ok.inj h
    refine .bound _ rfl fun y hy => ?_
    obtain rfl := Referent.ratchet.inj hy
    exact ⟨a, c, field_eq_ok (mapError_eq_ok hx)⟩
  | copy as on =>
    refine effect_of_making fun d h => ?_
    obtain ⟨x, -, h⟩ := bind_eq_ok h
    obtain ⟨r, hr, h⟩ := bind_eq_ok h
    obtain rfl := Except.ok.inj h
    exact .started _ rfl (copy_eq_ok (mapError_eq_ok (mapError_eq_ok hr))).2.2
  | discard on => exact effect_onRatchet .discard rfl
  | encryptionKey on c => exact effect_onEither c _ _ rfl
  | associatedData on c => exact effect_onChannel c _ rfl
  | turn on c times => exact effect_onEither c _ _ rfl
  | turnUntil on c target => exact effect_onEither c _ _ rfl
  | encrypt as on c text =>
    refine effect_of_making fun d h => ?_
    obtain ⟨⟨a, s⟩, -, h⟩ := bind_eq_ok h
    obtain ⟨c, -, h⟩ := bind_eq_ok h
    obtain rfl := Except.ok.inj h
    simp only
    split
    · exact .bound _ rfl nofun
    · exact .unchanged _
  | decrypt on c message =>
    refine effect_of_making fun d h => ?_
    obtain ⟨⟨a, s⟩, -, h⟩ := bind_eq_ok h
    obtain ⟨c, -, h⟩ := bind_eq_ok h
    obtain ⟨_, -, h⟩ := bind_eq_ok h
    obtain ⟨message, -, h⟩ := bind_eq_ok h
    obtain ⟨text, -, h⟩ := bind_eq_ok h
    obtain rfl := Except.ok.inj h
    exact .unchanged _
  | describe on =>
    refine effect_of_making fun d h => ?_
    simp only [act] at h
    split at h
    · obtain rfl := Except.ok.inj h
      exact .unchanged _
    · obtain rfl := Except.ok.inj h
      exact .unchanged _
    · cases h
    · cases h

end

end Scenario

end RatchetSession
