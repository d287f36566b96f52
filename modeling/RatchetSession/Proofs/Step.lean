import RatchetSession.Proofs.Failure

/-!
# What one operation does

Each operation in closed form, and what it can do to a session: `step_perform` says that it leaves
the session alone, turns one ratchet on, completes the handshake or gives the ratchets of two
agreements up. What every such step keeps, every run keeps: `run_induction`.
-/

set_option autoImplicit false
set_option relaxedAutoImplicit false

namespace RatchetSession.Session

theorem ratchet_eq_ok {s : Session} {c : Channel} {r : Ratchet} :
    s.ratchet c = .ok r ↔ s.slots.get c = .live r := by
  unfold ratchet
  cases s.slots.get c <;> simp [Slot.live?]

theorem encryptionKey_of_ratchet {s : Session} {c : Channel} {r : Ratchet} {k : Key}
    (h : s.ratchet c = .ok r) (hk : r.encryptionKey = .ok k) : s.encryptionKey c = .ok k := by
  rw [encryptionKey, h]
  show r.encryptionKey.mapError Fault.ratchet = .ok k
  rw [hk]
  rfl

theorem associatedData_of_ratchet {s : Session} {c : Channel} {r : Ratchet}
    (h : s.ratchet c = .ok r) :
    s.associatedData c =
      .ok (s.id.bytes.val ++ Bytes.ascii c.generation.text ++ Bytes.mostFirst 8 r.counter) := by
  rw [associatedData, h]
  rfl

theorem get_putRatchet_self {s : Session} {c : Channel} {r : Ratchet} (r' : Ratchet)
    (h : s.slots.get c = .live r) : (s.putRatchet c r').slots.get c = .live r' := by
  simp only [putRatchet, Slots.get_set, h, Slot.replace]

theorem ratchet_putRatchet_self {s : Session} {c : Channel} {r : Ratchet} (r' : Ratchet)
    (h : s.ratchet c = .ok r) : (s.putRatchet c r').ratchet c = .ok r' :=
  ratchet_eq_ok.mpr (get_putRatchet_self r' (ratchet_eq_ok.mp h))

theorem get_putRatchet_of_ne (s : Session) {c d : Channel} (r : Ratchet) (h : d ≠ c) :
    (s.putRatchet c r).slots.get d = s.slots.get d :=
  Slots.get_set_of_ne _ _ h

@[simp] theorem get_withoutTwoDh_twoDh (s : Session) (d : Direction) :
    s.withoutTwoDh.slots.get ⟨d, .twoDh⟩ = (s.slots.get ⟨d, .twoDh⟩).retire := by
  cases d <;> rfl

@[simp] theorem get_withoutTwoDh_fourDh (s : Session) (d : Direction) :
    s.withoutTwoDh.slots.get ⟨d, .fourDh⟩ = s.slots.get ⟨d, .fourDh⟩ := by
  cases d <;> rfl

def completed (s : Session) (ephemeral : Offered) (four : Ratchet × Ratchet) : Session :=
  { s with
    ephemeralSecret := none
    peerEphemeral := ephemeral.octets?
    slots := { s.slots.retireTwoDh with
      fourOutgoing := .live four.1, fourIncoming := .live four.2 } }

/-- What an accept makes of a session, unless it fails. -/
def accepted (s : Session) (ephemeral longTerm : Offered) : Except Fault Session := do
  let secret ← s.pendingSecret
  s.checkLongTerm longTerm
  let material ← initiatorMaterial s secret ephemeral
  let four ← startRatchets s.me s.peer s.config .fourDh material
  return s.completed ephemeral four

theorem accepted_eq_ok {s t : Session} {ephemeral longTerm : Offered}
    (h : s.accepted ephemeral longTerm = .ok t) :
    ∃ secret material four, s.pendingSecret = .ok secret ∧
      longTerm.octets? = some s.peer.key.val ∧
      initiatorMaterial s secret ephemeral = .ok material ∧
      startRatchets s.me s.peer s.config .fourDh material = .ok four ∧
      t = s.completed ephemeral four := by
  obtain ⟨secret, hsecret, h⟩ := bind_eq_ok h
  obtain ⟨_, hcheck, h⟩ := bind_eq_ok h
  obtain ⟨material, hmaterial, h⟩ := bind_eq_ok h
  obtain ⟨four, hfour, h⟩ := bind_eq_ok h
  have hkey : longTerm.octets? = some s.peer.key.val := by
    unfold checkLongTerm at hcheck
    split at hcheck
    · assumption
    · cases hcheck
  exact ⟨secret, material, four, hsecret, hkey, hmaterial, hfour, (Except.ok.inj h).symm⟩

private theorem acceptLog_pendingSecret {s : Session} {f : Fault} (h : s.pendingSecret = .error f) :
    acceptLog s f = [] := by
  unfold pendingSecret at h
  split at h
  · cases h
  · obtain rfl := Except.error.inj h
    rfl

private theorem acceptLog_checkLongTerm {s : Session} {longTerm : Offered} {f : Fault}
    (h : s.checkLongTerm longTerm = .error f) : acceptLog s f = [] := by
  unfold checkLongTerm at h
  split at h
  · cases h
  · obtain rfl := Except.error.inj h
    rfl

private theorem startRatchet_error {k : Key} {config : Config} {f : Fault}
    (h : (Ratchet.start k config.initialCounter config.maxSkip).mapError .ratchet = .error f) :
    isPeerKeyFault f = false := by
  cases hstart : Ratchet.start k config.initialCounter config.maxSkip with
  | ok r =>
    rw [hstart] at h
    cases h
  | error g =>
    rw [hstart] at h
    obtain rfl := Except.error.inj h
    have hkind : (Fault.ratchet g).kind = .invalidArgument := Ratchet.start_error hstart
    rw [isPeerKeyFault, hkind]
    rfl

private theorem acceptLog_startRatchets {s : Session} {material : Bytes} {f : Fault}
    (h : startRatchets s.me s.peer s.config .fourDh material = .error f) : acceptLog s f = [] := by
  have hf : isPeerKeyFault f = false := by
    cases hmine : (Ratchet.start (firstChainKey .fourDh s.me.identity material)
        s.config.initialCounter s.config.maxSkip).mapError Fault.ratchet with
    | error g =>
      simp only [startRatchets, hmine] at h
      obtain rfl := Except.error.inj h
      exact startRatchet_error hmine
    | ok mine =>
      cases hpeer : (Ratchet.start (firstChainKey .fourDh s.peer.identity material)
          s.config.initialCounter s.config.maxSkip).mapError Fault.ratchet with
      | error g =>
        simp only [startRatchets, hmine, hpeer] at h
        obtain rfl := Except.error.inj h
        exact startRatchet_error hpeer
      | ok peer =>
        simp only [startRatchets, hmine, hpeer] at h
        cases h
  simp only [acceptLog, hf, Bool.false_eq_true, if_false]

theorem accept_eq (s : Session) (ephemeral longTerm : Offered) :
    accept ephemeral longTerm s =
      match s.accepted ephemeral longTerm with
      | .error f => { after := s, answer := .error f, log := acceptLog s f }
      | .ok t =>
        Outcome.tell t.listener (.milestone .initiatorSessionEstablished t)
          { after := t, answer := .ok () } := by
  have haccepted : s.accepted ephemeral longTerm = s.pendingSecret.bind fun secret =>
      (s.checkLongTerm longTerm).bind fun _ => (initiatorMaterial s secret ephemeral).bind fun m =>
        (startRatchets s.me s.peer s.config .fourDh m).bind fun four =>
          .ok (s.completed ephemeral four) := rfl
  rw [haccepted, accept]
  cases hsecret : s.pendingSecret with
  | error f =>
    rw [Task.ask_bind_of_error (s := s) hsecret, Outcome.failed]
    simp only [Except.bind, acceptLog_pendingSecret hsecret]
  | ok secret =>
  rw [Task.ask_bind_of_ok (s := s) hsecret]
  cases hcheck : s.checkLongTerm longTerm with
  | error f =>
    rw [Task.ask_bind_of_error (s := s) hcheck, Outcome.failed]
    simp only [Except.bind, acceptLog_checkLongTerm hcheck]
  | ok u =>
  rw [Task.ask_bind_of_ok (s := s) hcheck]
  cases hmaterial : initiatorMaterial s secret ephemeral with
  | error f =>
    rw [Task.noting_bind_of_error (s := s) hmaterial]
    simp only [Except.bind, hmaterial]
  | ok material =>
  rw [Task.noting_bind_of_ok (s := s) hmaterial]
  cases hfour : startRatchets s.me s.peer s.config .fourDh material with
  | error f =>
    rw [Task.ask_bind_of_error (s := s) hfour, Outcome.failed]
    simp only [Except.bind, hmaterial, hfour, acceptLog_startRatchets hfour]
  | ok four =>
    rw [Task.ask_bind_of_ok (s := s) hfour, Task.write_bind, Task.write_bind, Task.write_bind,
      Task.write_bind]
    simp only [Except.bind, hmaterial, hfour]
    rfl

theorem discardTwoDh_eq (s : Session) :
    discardTwoDh s =
      if s.phase = .initiatorTwoDh then .failed s (.notEstablished s.id)
      else if s.phase = .responderFourDh then
        Outcome.tell s.listener (.milestone .firstFourDhMessageReceived s.withoutTwoDh)
          { after := s.withoutTwoDh, answer := .ok () }
      else { after := s.withoutTwoDh, answer := .ok () } := by
  rw [discardTwoDh]
  by_cases hwaiting : s.phase = .initiatorTwoDh
  · have hcheck : s.checkFourDh = .error (.notEstablished s.id) := by
      rw [checkFourDh, if_pos hwaiting]
    rw [Task.ask_bind_of_error (s := s) hcheck, if_pos hwaiting]
  · have hcheck : s.checkFourDh = .ok () := by rw [checkFourDh, if_neg hwaiting]
    rw [Task.ask_bind_of_ok (s := s) hcheck, Task.ask_bind_of_ok (s := s) (a := s.phase) rfl,
      Task.write_bind, if_neg hwaiting]
    by_cases hresponder : s.phase = .responderFourDh
    · rw [if_pos hresponder, if_pos hresponder]
      rfl
    · rw [if_neg hresponder, if_neg hresponder]
      rfl

theorem turn_eq (s : Session) (c : Channel) :
    turn c s =
      match s.ratchet c with
      | .error f => .failed s f
      | .ok r =>
        match r.turn with
        | .error f => .failed s (.ratchet f)
        | .ok r' => { after := s.putRatchet c r', answer := .ok () } := by
  rw [turn]
  cases hr : s.ratchet c with
  | error f => rw [Task.ask_bind_of_error (s := s) hr]
  | ok r =>
    rw [Task.ask_bind_of_ok (s := s) hr]
    cases hturn : r.turn with
    | error f =>
      simp only [hturn]
      rfl
    | ok r' =>
      simp only [hturn]
      rfl

private theorem tell_map {α : Type} (call : Session → HookCall) (a : α) (s : Session) :
    (tell call s).map (fun _ => a) =
      Outcome.tell s.listener (call s) { after := s, answer := .ok a } := by
  simp only [tell, Outcome.tell, Outcome.map]
  split <;> rfl

theorem turnUntil_eq (s : Session) (c : Channel) (target : Int) :
    turnUntil c target s =
      match s.ratchet c with
      | .error f => .failed s f
      | .ok r =>
        match r.turnUntil target with
        | (_, .error f) => .failed s (.ratchet f)
        | (r', .ok n) =>
          let o : Outcome Session Nat :=
            { after := s.putRatchet c r', answer := .ok n, log := turnLog n r' }
          if n = 0 then o else Outcome.tell s.listener (.skipped s.id s.peer.identity n) o := by
  rw [turnUntil]
  cases hr : s.ratchet c with
  | error f => rw [Task.ask_bind_of_error (s := s) hr]
  | ok r =>
    rw [Task.ask_bind_of_ok (s := s) hr]
    rcases r.turnUntil_spec target with ⟨f, hf⟩ | ⟨n, hn, -⟩
    · simp only [hf]
      rw [Task.write_bind, Task.ask_bind_of_error (s := s.putRatchet c r) (by rfl),
        putRatchet_self hr]
    · simp only [hn]
      rw [Task.write_bind, Task.ask_bind_of_ok (s := s.putRatchet c _) (by rfl),
        Task.bind_of_ok (by rfl)]
      by_cases hzero : n = 0
      · rw [if_pos hzero, tellTurns, if_pos hzero]
        simp only [Task.note, pure, Task.ask, bind, Task.bind, Nat.add_zero, List.append_nil]
      · rw [if_neg hzero, tellTurns, if_neg hzero]
        rw [Task.bind_pure_eq_map, tell_map]
        simp only [Outcome.tell, Task.note, List.nil_append, Nat.add_zero]
        rfl

/-- What an operation can do to a session. -/
inductive Step (s : Session) : Operation → Session → Prop
  | idle (op : Operation) : Step s op s
  | turned {c : Channel} {r : Ratchet} {op : Operation} (n : Nat)
      (asked : op = .turn c ∨ ∃ target, op = .turnUntil c target)
      (live : s.slots.get c = .live r) (keyed : r.chainKey.isSome)
      (room : r.counter + n ≤ maxCounter) : Step s op (s.putRatchet c (r.advance n))
  | accepted {ephemeral longTerm : Offered} {t : Session}
      (taken : s.accepted ephemeral longTerm = .ok t) : Step s (.accept ephemeral longTerm) t
  | stripped (known : s.phase ≠ .initiatorTwoDh) : Step s .discardTwoDh s.withoutTwoDh

private theorem step_accept (s : Session) (ephemeral longTerm : Offered) :
    Step s (.accept ephemeral longTerm) (accept ephemeral longTerm s).after := by
  rw [accept_eq]
  cases h : s.accepted ephemeral longTerm with
  | error f => exact .idle _
  | ok t => exact .accepted h

private theorem step_discardTwoDh (s : Session) :
    Step s .discardTwoDh (discardTwoDh s).after := by
  rw [discardTwoDh_eq]
  split
  · exact .idle _
  · rename_i hknown
    split <;> exact .stripped hknown

private theorem step_turn (s : Session) (c : Channel) : Step s (.turn c) (turn c s).after := by
  rw [turn_eq]
  cases hr : s.ratchet c with
  | error f => exact .idle _
  | ok r =>
    cases hturn : r.turn with
    | error f =>
      simp only [hturn]
      exact .idle _
    | ok r' =>
      simp only [hturn]
      obtain ⟨hkey, hroom, rfl⟩ := Ratchet.turn_eq_ok hturn
      exact .turned 1 (.inl rfl) (ratchet_eq_ok.mp hr) hkey hroom

private theorem step_turnUntil (s : Session) (c : Channel) (target : Int) :
    Step s (.turnUntil c target) (turnUntil c target s).after := by
  rw [turnUntil_eq]
  cases hr : s.ratchet c with
  | error f => exact .idle _
  | ok r =>
    rcases r.turnUntil_spec target with ⟨f, hf⟩ | ⟨n, hn, hkey, -, -, hroom⟩
    · simp only [hf]
      exact .idle _
    · simp only [hn]
      split <;> exact .turned n (.inr ⟨target, rfl⟩) (ratchet_eq_ok.mp hr) hkey hroom

theorem perform_accept (s : Session) (ephemeral longTerm : Offered) :
    s.perform (.accept ephemeral longTerm) = (accept ephemeral longTerm s).map fun _ => .done :=
  Task.bind_pure_eq_map ..

theorem perform_discardTwoDh (s : Session) :
    s.perform .discardTwoDh = (discardTwoDh s).map fun _ => .done :=
  Task.bind_pure_eq_map ..

theorem perform_turn (s : Session) (c : Channel) :
    s.perform (.turn c) = (turn c s).map fun _ => .done :=
  Task.bind_pure_eq_map ..

theorem perform_turnUntil (s : Session) (c : Channel) (target : Int) :
    s.perform (.turnUntil c target) = (turnUntil c target s).map .turns :=
  Task.bind_pure_eq_map ..

theorem step_perform (s : Session) (op : Operation) : Step s op (s.perform op).after := by
  cases op with
  | accept ephemeral longTerm =>
    rw [perform_accept]
    exact step_accept s ephemeral longTerm
  | discardTwoDh =>
    rw [perform_discardTwoDh]
    exact step_discardTwoDh s
  | take c => exact .idle _
  | encryptionKey c => exact .idle _
  | associatedData c => exact .idle _
  | turn c =>
    rw [perform_turn]
    exact step_turn s c
  | turnUntil c target =>
    rw [perform_turnUntil]
    exact step_turnUntil s c target

@[simp] theorem run_nil (s : Session) : s.run [] = s := rfl

theorem run_cons (s : Session) (op : Operation) (ops : List Operation) :
    s.run (op :: ops) = (s.perform op).after.run ops := rfl

theorem run_append (s : Session) (ops ops' : List Operation) :
    s.run (ops ++ ops') = (s.run ops).run ops' := List.foldl_append

theorem run_induction {P : Session → Prop} (hstep : ∀ s op t, Step s op t → P s → P t)
    {s : Session} (h : P s) (ops : List Operation) : P (s.run ops) := by
  induction ops generalizing s with
  | nil => exact h
  | cons op ops ih => exact ih (hstep s op _ (step_perform s op) h)

/-- All of a session that no operation changes. -/
def fixedPart (s : Session) : Session :=
  { s with ephemeralSecret := none, peerEphemeral := none, slots := {} }

theorem Step.fixedPart {s t : Session} {op : Operation} (h : Step s op t) :
    t.fixedPart = s.fixedPart := by
  cases h with
  | idle op => rfl
  | turned n asked live keyed room => rfl
  | accepted taken =>
    obtain ⟨_, _, _, -, -, -, -, rfl⟩ := accepted_eq_ok taken
    rfl
  | stripped known => rfl

theorem fixedPart_perform (s : Session) (op : Operation) :
    (s.perform op).after.fixedPart = s.fixedPart :=
  (step_perform s op).fixedPart

theorem fixedPart_run (s : Session) (ops : List Operation) :
    (s.run ops).fixedPart = s.fixedPart :=
  run_induction (P := fun t => t.fixedPart = s.fixedPart)
    (fun _ _ _ hstep ht => hstep.fixedPart.trans ht) rfl ops

theorem fields_of_fixedPart {s t : Session} (h : t.fixedPart = s.fixedPart) :
    t.id = s.id ∧ t.role = s.role ∧ t.me = s.me ∧ t.peer = s.peer ∧ t.config = s.config ∧
      t.ephemeralPublic = s.ephemeralPublic := by
  simp only [fixedPart, Session.mk.injEq] at h
  obtain ⟨hid, hrole, hme, hpeer, hconfig, -, hpublic, -⟩ := h
  exact ⟨hid, hrole, hme, hpeer, hconfig, hpublic⟩

theorem listener_of_fixedPart {s t : Session} (h : t.fixedPart = s.fixedPart) :
    t.listener = s.listener := by
  show t.fixedPart.listener = s.fixedPart.listener
  rw [h]

end RatchetSession.Session
