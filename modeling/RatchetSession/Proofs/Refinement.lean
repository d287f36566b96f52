import RatchetSession.Proofs.Objects

/-!
# Operations on objects and on values

What is done with objects in memory answers, tells and logs what the same operation on values does,
and leaves objects that read as the values it leaves: `Memory.performOn_spec`,
`Memory.perform_follows`.
-/

set_option autoImplicit false
set_option relaxedAutoImplicit false

namespace RatchetSession

/-- The call, with the session without what it has given up. -/
def HookCall.kept : HookCall → HookCall
  | .milestone m s => .milestone m s.kept
  | .skipped id peer turns => .skipped id peer turns

private theorem HookCall.event_kept (call : HookCall) : call.kept.event = call.event := by
  cases call with
  | milestone m s => simp only [HookCall.kept, HookCall.event, Session.summary_kept]
  | skipped id peer turns => rfl

namespace Memory

variable {m m' : Memory} {a x : Nat} {c : Channel} {r : Ratchet} {s t : Session}

private theorem turn_spec (hm : m.Separate) (hx : x < m.ratchets.size) :
    (m.turn x).2 = (m.ratchet x).turn.map (fun _ => ()) ∧
      m.Evolves x ((m.ratchet x).afterCall .turn) (m.turn x).1 := by
  cases hturn : (m.ratchet x).turn with
  | error f =>
    simp only [turn, Ratchet.afterCall, hturn]
    exact ⟨rfl, .refl hm x⟩
  | ok r =>
    obtain ⟨-, -, rfl⟩ := Ratchet.turn_eq_ok hturn
    simp only [turn, Ratchet.afterCall, hturn]
    exact ⟨rfl, evolves_putRatchet hm hx rfl⟩

private theorem turns_spec (hm : m.Separate) (hx : x < m.ratchets.size) (n : Nat) :
    (turns x n m).2 = ((m.ratchet x).turns n).2 ∧
      m.Evolves x ((m.ratchet x).turns n).1 (turns x n m).1 := by
  induction n generalizing m with
  | zero => exact ⟨rfl, .refl hm x⟩
  | succ n ih =>
    obtain ⟨hanswer, hafter⟩ := turn_spec hm hx
    cases hturn : (m.ratchet x).turn with
    | error f =>
      have hmem : m.turn x = (m, .error f) := by simp only [turn, hturn]
      simp only [turns, hmem, Ratchet.turns, hturn]
      exact ⟨trivial, .refl hm x⟩
    | ok r =>
      have hmem : m.turn x = (m.putRatchet x r, .ok ()) := by simp only [turn, hturn]
      simp only [hmem, Ratchet.afterCall, hturn] at hafter
      obtain ⟨hrest, hlater⟩ := ih hafter.separate (Nat.lt_of_lt_of_le hx hafter.size)
      rw [hafter.ratchet] at hrest hlater
      simp only [turns, hmem, Ratchet.turns, hturn]
      exact ⟨hrest, hafter.trans hlater⟩

private theorem turnUntil_spec (hm : m.Separate) (hx : x < m.ratchets.size) (target : Int) :
    (m.turnUntil x target).2 = ((m.ratchet x).turnUntil target).2 ∧
      m.Evolves x ((m.ratchet x).turnUntil target).1 (m.turnUntil x target).1 := by
  cases hn : (m.ratchet x).turnsTo target with
  | error f =>
    simp only [turnUntil, Ratchet.turnUntil, hn]
    exact ⟨trivial, .refl hm x⟩
  | ok n =>
    obtain ⟨hanswer, hafter⟩ := turns_spec hm hx n
    simp only [turnUntil, Ratchet.turnUntil, hn, hanswer]
    exact ⟨trivial, hafter⟩

/-- An operation on the ratchet at a place is the operation on what is there. -/
theorem performOn_spec (hm : m.Separate) (hx : x < m.ratchets.size) (op : Ratchet.Operation) :
    (m.performOn x op).seen = ((m.ratchet x).perform op).seen ∧
      m.Evolves x ((m.ratchet x).perform op).after (m.performOn x op).after := by
  cases op with
  | encryptionKey => exact ⟨rfl, .refl hm x⟩
  | turn times =>
    obtain ⟨hanswer, hafter⟩ := turns_spec hm hx times
    simp only [performOn, Ratchet.perform, Outcome.seen, hanswer]
    exact ⟨trivial, hafter⟩
  | turnUntil target =>
    obtain ⟨hanswer, hafter⟩ := turnUntil_spec hm hx target
    refine ⟨?_, hafter⟩
    cases hcount : ((m.ratchet x).turnUntil target).2 <;>
      simp only [performOn, Ratchet.perform, Outcome.seen, hanswer, hafter.ratchet, hcount]
  | discard => exact ⟨rfl, evolves_discard hm hx⟩

private theorem kept_of_session (hs : m.session? a = some s) : s.kept = s := by
  obtain ⟨o, -, rfl⟩ := session?_eq_some hs
  have hslots : (o.ratchets.slots m.slot).kept = o.ratchets.slots m.slot := by
    apply Slots.ext_get
    intro c
    rw [Slots.get_kept, Fields.get_slots]
    cases o.ratchets.get c <;> rfl
  simp only [Session.kept, read, hslots]

theorem Rewrites.kept (h : m.Rewrites a s m') : m.Rewrites a s.kept m' := by
  rw [kept_of_session h.session]
  exact h

theorem get_of_field (hs : m.session? a = some s) (hx : m.field? a c = some x) :
    s.slots.get c = .live (m.ratchet x) := by
  obtain ⟨o, ho, rfl⟩ := session?_eq_some hs
  rw [field?_eq ho] at hx
  simp only [read, Fields.get_slots, hx]
  rfl

theorem get_of_no_field (hs : m.session? a = some s) (hx : m.field? a c = none) :
    s.slots.get c = .empty := by
  obtain ⟨o, ho, rfl⟩ := session?_eq_some hs
  rw [field?_eq ho] at hx
  simp only [read, Fields.get_slots, hx]
  rfl

private theorem ratchet_of_no_field (hs : m.session? a = some s) (hx : m.field? a c = none) :
    s.ratchet c = .error (.noRatchet c s.id s.phase) := by
  simp only [Session.ratchet, get_of_no_field hs hx, Slot.live?]

theorem performOn_of_field (hm : m.Separate) (hs : m.session? a = some s)
    (hx : m.field? a c = some x) (op : Ratchet.Operation) :
    (m.performOn x op).seen = (s.performOnHandle c op).seen ∧
      m.Rewrites a (s.performOnHandle c op).after (m.performOn x op).after := by
  obtain ⟨hseen, hafter⟩ := performOn_spec hm (hm.object a c x hx) op
  have hhandle : s.performOnHandle c op =
      { (m.ratchet x).perform op with
        after := s.putRatchet c ((m.ratchet x).perform op).after } := by
    simp only [Session.performOnHandle, get_of_field hs hx, Slot.ratchet?]
  rw [hhandle]
  exact ⟨hseen, hafter.rewrites hm hx hs⟩

/-- What comes of a session in memory, and what of it as a value. -/
structure Follows {α : Type} (m : Memory) (a : Nat) (o : Outcome Memory α) (v : Outcome Session α) :
    Prop where
  seen : o.seen = v.seen
  calls : o.calls = v.calls.map HookCall.kept
  after : m.Rewrites a v.after.kept o.after

namespace Follows

variable {α β : Type} {o : Outcome Memory α} {v : Outcome Session α}

private theorem failed (hm : m.Separate) (hs : m.session? a = some s) (f : Fault) :
    m.Follows a (.failed m f : Outcome Memory α) (.failed s f) :=
  ⟨rfl, rfl, (Rewrites.refl hm hs).kept⟩

private theorem written (h : m.Rewrites a t.kept m') (y : α) :
    m.Follows a { after := m', answer := .ok y } { after := t, answer := .ok y } :=
  ⟨rfl, rfl, h⟩

private theorem map (h : m.Follows a o v) (g : α → β) : m.Follows a (o.map g) (v.map g) :=
  ⟨congrArg (Outcome.map g) h.seen, h.calls, h.after⟩

private theorem tell (h : m.Follows a o v) (l : Listener) (call : HookCall) :
    m.Follows a (Outcome.tell l call.kept o) (Outcome.tell l call v) := by
  have hanswer : o.answer = v.answer := congrArg Outcome.answer h.seen
  have hdraws : o.draws = v.draws := congrArg Outcome.draws h.seen
  have hevents : o.events = v.events := congrArg Outcome.events h.seen
  have hlog : o.log = v.log := congrArg Outcome.log h.seen
  refine ⟨?_, ?_, h.after⟩
  · simp only [Outcome.seen, Outcome.tell, HookCall.event_kept, hanswer, hdraws, hevents, hlog]
  · simp only [Outcome.tell, h.calls, List.map_append, List.map_cons, List.map_nil]

end Follows

theorem tell_eq (hs : m.session? a = some s) (call : Session → HookCall) :
    tell a call m = Outcome.tell s.listener (call s) { after := m, answer := .ok () } := by
  simp only [tell, hs]

private theorem field_follows (hm : m.Separate) (hs : m.session? a = some s) (c : Channel) :
    m.Follows a ((field a s c m).map fun _ => .done) (s.perform (.take c)) := by
  have hvalue : s.perform (.take c) =
      { after := s, answer := (s.ratchet c).map fun _ => .done } := rfl
  have hsame := (Rewrites.refl hm hs).kept
  rw [hvalue, field, Task.ask]
  cases hx : m.field? a c with
  | none =>
    rw [ratchet_of_no_field hs hx]
    exact ⟨rfl, rfl, hsame⟩
  | some x =>
    rw [Session.ratchet_eq_ok.mpr (get_of_field hs hx)]
    exact ⟨rfl, rfl, hsame⟩

private theorem turnField_follows (hm : m.Separate) (hs : m.session? a = some s) (c : Channel) :
    m.Follows a (turnField a s c m) (Session.turn c s) := by
  rw [turnField, field, Session.turn_eq]
  cases hx : m.field? a c with
  | none =>
    rw [Task.ask_bind_of_error (s := m) (e := .noRatchet c s.id s.phase) (by simp only [hx]),
      ratchet_of_no_field hs hx]
    exact .failed hm hs _
  | some x =>
    have hslot := get_of_field hs hx
    obtain ⟨hanswer, hafter⟩ := turn_spec hm (hm.object a c x hx)
    rw [Task.ask_bind_of_ok (s := m) (a := x) (by simp only [hx]),
      Session.ratchet_eq_ok.mpr hslot]
    cases hturn : (m.ratchet x).turn with
    | error f =>
      have hmem : m.turn x = (m, .error f) := by simp only [turn, hturn]
      simp only [Task.ofRatchet, hmem, hturn]
      exact .failed hm hs _
    | ok r =>
      have hmem : m.turn x = (m.putRatchet x r, .ok ()) := by simp only [turn, hturn]
      simp only [hmem, Ratchet.afterCall, hturn] at hafter
      simp only [Task.ofRatchet, hmem, hturn]
      exact ⟨rfl, rfl, (hafter.rewrites hm hx hs).kept⟩

private theorem caughtUp_eq (hs : m.session? a = some s) (hr : m.ratchet x = r) (n : Nat) :
    (do
      let r ← Task.ask fun m : Memory => .ok (m.ratchet x)
      Task.note (turnLog n r)
      tellTurns a n
      return n : Task Memory Nat) m =
      let o : Outcome Memory Nat := { after := m, answer := .ok n, log := turnLog n r }
      if n = 0 then o else Outcome.tell s.listener (.skipped s.id s.peer.identity n) o := by
  rw [Task.ask_bind_of_ok (s := m) (a := r) (by rw [hr]), Task.bind_of_ok (a := ()) rfl]
  by_cases hzero : n = 0
  · rw [tellTurns, if_pos hzero, if_pos hzero]
    simp only [Task.note, pure, Task.ask, bind, Task.bind, Nat.add_zero, List.append_nil]
  · rw [tellTurns, if_neg hzero, if_neg hzero, Task.bind_pure_eq_map]
    simp only [Task.note, Outcome.map, tell_eq hs, Outcome.tell, List.nil_append, Nat.add_zero]
    split <;> rfl

private theorem catchUpField_follows (hm : m.Separate) (hs : m.session? a = some s) (c : Channel)
    (target : Int) :
    m.Follows a (catchUpField a s c target m) (Session.turnUntil c target s) := by
  rw [catchUpField, field, Session.turnUntil_eq]
  cases hx : m.field? a c with
  | none =>
    rw [Task.ask_bind_of_error (s := m) (e := .noRatchet c s.id s.phase) (by simp only [hx]),
      ratchet_of_no_field hs hx]
    exact .failed hm hs _
  | some x =>
    have hslot := get_of_field hs hx
    obtain ⟨hanswer, hafter⟩ := turnUntil_spec hm (hm.object a c x hx) target
    have hrewrites := hafter.rewrites hm hx hs
    rw [Task.ask_bind_of_ok (s := m) (a := x) (by simp only [hx]),
      Session.ratchet_eq_ok.mpr hslot]
    rcases (m.ratchet x).turnUntil_spec target with ⟨f, hf⟩ | ⟨n, hn, -⟩
    · rw [hf] at hanswer hrewrites
      rw [Session.putRatchet_self (Session.ratchet_eq_ok.mpr hslot)] at hrewrites
      rw [Task.bind_of_error (f := .ratchet f) (by simp only [Task.ofRatchet, hanswer]; rfl)]
      simp only [hf]
      exact ⟨rfl, rfl, hrewrites.kept⟩
    · rw [hn] at hanswer hafter hrewrites
      have hturned : Task.ofRatchet (·.turnUntil x target) m =
          { after := (m.turnUntil x target).1, answer := .ok n } := by
        simp only [Task.ofRatchet, hanswer]
        rfl
      rw [Task.bind_of_ok (a := n) (by rw [hturned]), hturned,
        caughtUp_eq hrewrites.session hafter.ratchet]
      simp only [hn, Nat.zero_add, List.nil_append]
      have hquiet : m.Follows a
          { after := (m.turnUntil x target).1, answer := .ok n,
            log := turnLog n ((m.ratchet x).advance n) }
          { after := s.putRatchet c ((m.ratchet x).advance n), answer := .ok n,
            log := turnLog n ((m.ratchet x).advance n) } :=
        ⟨rfl, rfl, hrewrites.kept⟩
      by_cases hzero : n = 0
      · simp only [if_pos hzero]
        exact hquiet
      · simp only [if_neg hzero]
        exact hquiet.tell s.listener (.skipped s.id s.peer.identity n)

private theorem kept_withoutTwoDh_of_kept (h : s.kept = s) :
    s.withoutTwoDh.kept =
      { s with slots := { s.slots with twoOutgoing := .empty, twoIncoming := .empty } } := by
  have hslots : s.slots.kept = s.slots := congrArg Session.slots h
  have hout : s.slots.fourOutgoing.kept = s.slots.fourOutgoing := congrArg Slots.fourOutgoing hslots
  have hin : s.slots.fourIncoming.kept = s.slots.fourIncoming := congrArg Slots.fourIncoming hslots
  simp only [Session.kept, Session.withoutTwoDh, Slots.retireTwoDh, Slots.kept, Slot.kept_retire,
    hout, hin]

theorem rewrites_giveUpTwoDh (hm : m.Separate) (hs : m.session? a = some s) :
    m.Rewrites a s.withoutTwoDh.kept (m.giveUpTwoDh a) := by
  rw [kept_withoutTwoDh_of_kept (kept_of_session hs)]
  exact (giveUpTwoDh_spec hm hs).1

private theorem discardTwoDh_follows (hm : m.Separate) (hs : m.session? a = some s) :
    m.Follows a (discardTwoDh a s m) (Session.discardTwoDh s) := by
  rw [discardTwoDh, Session.discardTwoDh_eq]
  by_cases hwaiting : s.phase = .initiatorTwoDh
  · have hcheck : s.checkFourDh = .error (.notEstablished s.id) := by
      rw [Session.checkFourDh, if_pos hwaiting]
    rw [Task.ask_bind_of_error (s := m) hcheck, if_pos hwaiting]
    exact .failed hm hs _
  · have hcheck : s.checkFourDh = .ok () := by rw [Session.checkFourDh, if_neg hwaiting]
    have hafter := rewrites_giveUpTwoDh hm hs
    have hquiet := Follows.written hafter ()
    rw [Task.ask_bind_of_ok (s := m) hcheck, Task.write_bind, if_neg hwaiting]
    by_cases hresponder : s.phase = .responderFourDh
    · rw [if_pos hresponder, if_pos hresponder, tell_eq hafter.session]
      exact hquiet.tell s.listener (.milestone .firstFourDhMessageReceived s.withoutTwoDh)
    · rw [if_neg hresponder, if_neg hresponder]
      exact hquiet

def complete (m : Memory) (a : Nat) (ephemeral : Offered) (four : Ratchet × Ratchet) : Memory :=
  ((((m.attach a ⟨.outgoing, .fourDh⟩ four.1).attach a ⟨.incoming, .fourDh⟩ four.2).setPeerEphemeral
    a ephemeral.octets?).wipeSecret a).giveUpTwoDh a

theorem rewrites_complete (hm : m.Separate) (hs : m.session? a = some s) (ephemeral : Offered)
    (four : Ratchet × Ratchet) :
    m.Rewrites a (s.completed ephemeral four).kept (m.complete a ephemeral four) ∧
      (∀ d, (m.complete a ephemeral four).field? a ⟨d, .twoDh⟩ = none) ∧
      (∀ d x, (m.complete a ephemeral four).field? a ⟨d, .fourDh⟩ = some x →
        m.ratchets.size ≤ x) ∧
      ∀ d x, m.field? a ⟨d, .twoDh⟩ = some x →
        (m.complete a ephemeral four).ratchet x = (m.ratchet x).discard := by
  obtain ⟨h₁, hratchet₁, hfield₁⟩ := rewrites_attach hm hs ⟨.outgoing, .fourDh⟩ four.1
  obtain ⟨h₂, hratchet₂, hfield₂⟩ :=
    rewrites_attach h₁.separate h₁.session ⟨.incoming, .fourDh⟩ four.2
  obtain ⟨h₃, hfield₃, hratchet₃⟩ :=
    rewrites_setPeerEphemeral h₂.separate h₂.session ephemeral.octets?
  obtain ⟨h₄, hfield₄, hratchet₄⟩ := rewrites_wipeSecret h₃.separate h₃.session
  obtain ⟨-, hfield₅, hratchet₅⟩ := giveUpTwoDh_spec h₄.separate h₄.session
  have h₅ := rewrites_giveUpTwoDh h₄.separate h₄.session
  refine ⟨(((h₁.trans h₂).trans h₃).trans h₄).trans h₅, fun d => ?_, fun d x hx => ?_,
    fun d x hx => ?_⟩
  · rw [complete, hfield₅, if_pos rfl]
  · rw [complete, hfield₅, if_neg nofun, hfield₄, hfield₃, hfield₂] at hx
    cases d with
    | outgoing =>
      rw [if_neg nofun, hfield₁, if_pos rfl] at hx
      exact Nat.le_of_eq (Option.some.inj hx)
    | incoming =>
      rw [if_pos rfl] at hx
      exact Nat.le_trans h₁.frame.size (Nat.le_of_eq (Option.some.inj hx))
  · have hlt : x < m.ratchets.size := hm.object a _ x hx
    have hlt' := Nat.lt_of_lt_of_le hlt h₁.frame.size
    have hlater : ((((m.attach a ⟨.outgoing, .fourDh⟩ four.1).attach a ⟨.incoming, .fourDh⟩
        four.2).setPeerEphemeral a ephemeral.octets?).wipeSecret a).field? a ⟨d, .twoDh⟩ =
          some x := by
      rw [hfield₄, hfield₃, hfield₂, if_neg (by cases d <;> nofun), hfield₁,
        if_neg (by cases d <;> nofun), hx]
    rw [complete, hratchet₅ d x hlater, hratchet₄, hratchet₃, hratchet₂ x hlt', hratchet₁ x hlt]

theorem accept_cases (m : Memory) (a : Nat) (s : Session) (ephemeral longTerm : Offered) :
    (∃ f log, accept a s ephemeral longTerm m = { after := m, answer := .error f, log } ∧
      Session.accept ephemeral longTerm s = { after := s, answer := .error f, log }) ∨
    ∃ secret four, s.pendingSecret = .ok secret ∧
      accept a s ephemeral longTerm m =
        tell a (.milestone .initiatorSessionEstablished) (m.complete a ephemeral four) ∧
      Session.accept ephemeral longTerm s =
        Session.tell (.milestone .initiatorSessionEstablished) (s.completed ephemeral four) := by
  rw [accept, Session.accept]
  cases hsecret : s.pendingSecret with
  | error f =>
    rw [Task.ask_bind_of_error (f := fun _ => .error f) (s := m) rfl,
      Task.ask_bind_of_error (s := s) hsecret]
    exact .inl ⟨f, [], rfl, rfl⟩
  | ok secret =>
  rw [Task.ask_bind_of_ok (f := fun _ => .ok secret) (s := m) rfl,
    Task.ask_bind_of_ok (s := s) hsecret]
  cases hcheck : s.checkLongTerm longTerm with
  | error f =>
    rw [Task.ask_bind_of_error (f := fun _ => .error f) (s := m) rfl,
      Task.ask_bind_of_error (s := s) hcheck]
    exact .inl ⟨f, [], rfl, rfl⟩
  | ok u =>
  rw [Task.ask_bind_of_ok (f := fun _ => .ok u) (s := m) rfl,
    Task.ask_bind_of_ok (s := s) hcheck]
  cases hmaterial : s.initiatorMaterial secret ephemeral with
  | error f =>
    rw [Task.noting_bind_of_error (f := fun _ => .error f) (s := m) rfl,
      Task.noting_bind_of_error (s := s) hmaterial]
    exact .inl ⟨f, _, rfl, rfl⟩
  | ok material =>
  rw [Task.noting_bind_of_ok (f := fun _ => .ok material) (s := m) rfl,
    Task.noting_bind_of_ok (s := s) hmaterial]
  cases hfour : Session.startRatchets s.me s.peer s.config .fourDh material with
  | error f =>
    rw [Task.ask_bind_of_error (f := fun _ => .error f) (s := m) rfl,
      Task.ask_bind_of_error (s := s) hfour]
    exact .inl ⟨f, [], rfl, rfl⟩
  | ok four =>
    rw [Task.ask_bind_of_ok (f := fun _ => .ok four) (s := m) rfl,
      Task.ask_bind_of_ok (s := s) hfour]
    simp only [Task.write_bind]
    exact .inr ⟨secret, four, rfl, rfl, rfl⟩

private theorem accept_follows (hm : m.Separate) (hs : m.session? a = some s)
    (ephemeral longTerm : Offered) :
    m.Follows a (accept a s ephemeral longTerm m) (Session.accept ephemeral longTerm s) := by
  rcases accept_cases m a s ephemeral longTerm with
    ⟨f, log, hmem, hvalue⟩ | ⟨secret, four, -, hmem, hvalue⟩
  · rw [hmem, hvalue]
    exact ⟨rfl, rfl, (Rewrites.refl hm hs).kept⟩
  · have hafter := (rewrites_complete hm hs ephemeral four).1
    rw [hmem, hvalue, tell_eq hafter.session]
    exact (Follows.written hafter ()).tell s.listener
      (.milestone .initiatorSessionEstablished (s.completed ephemeral four))

/-- An operation on the session at a place is the operation on what is there. -/
theorem perform_follows (hm : m.Separate) (hs : m.session? a = some s) (op : Session.Operation) :
    m.Follows a (m.perform a s op) (s.perform op) := by
  cases op with
  | accept ephemeral longTerm =>
    rw [Session.perform_accept, perform, task, Task.bind_pure_eq_map]
    exact (accept_follows hm hs ephemeral longTerm).map _
  | discardTwoDh =>
    rw [Session.perform_discardTwoDh, perform, task, Task.bind_pure_eq_map]
    exact (discardTwoDh_follows hm hs).map _
  | take c =>
    rw [perform, task, Task.bind_pure_eq_map]
    exact field_follows hm hs c
  | encryptionKey c => exact ⟨rfl, rfl, (Rewrites.refl hm hs).kept⟩
  | associatedData c => exact ⟨rfl, rfl, (Rewrites.refl hm hs).kept⟩
  | turn c =>
    rw [Session.perform_turn, perform, task, Task.bind_pure_eq_map]
    exact (turnField_follows hm hs c).map _
  | turnUntil c target =>
    rw [Session.perform_turnUntil, perform, task, Task.bind_pure_eq_map]
    exact (catchUpField_follows hm hs c target).map _

/-- What an operation on the session at a place can do to objects. -/
inductive Written (m : Memory) (a : Nat) (s : Session) : Session.Operation → Memory → Prop
  | idle {op : Session.Operation}
      (unasked : ∀ c call, op.call? = some (c, call) → m.field? a c = none) : Written m a s op m
  | called {op : Session.Operation} {c : Channel} {x : Nat} {call : Ratchet.Call} {m' : Memory}
      (asked : op.call? = some (c, call)) (used : m.field? a c = some x)
      (evolves : m.Evolves x ((m.ratchet x).afterCall call) m') : Written m a s op m'
  | completed {ephemeral longTerm : Offered} {secret : Bytes} (four : Ratchet × Ratchet)
      (pending : s.pendingSecret = .ok secret) :
      Written m a s (.accept ephemeral longTerm) (m.complete a ephemeral four)
  | givenUp (known : s.phase ≠ .initiatorTwoDh) : Written m a s .discardTwoDh (m.giveUpTwoDh a)

private theorem tell_after (a : Nat) (call : Session → HookCall) (m : Memory) :
    (tell a call m).after = m := by
  unfold tell
  split <;> rfl

private theorem written_turn (hm : m.Separate) (c : Channel) :
    m.Written a s (.turn c) (turnField a s c m).after := by
  rw [turnField, field]
  cases hx : m.field? a c with
  | none =>
    rw [Task.ask_bind_of_error (s := m) (e := .noRatchet c s.id s.phase) (by simp only [hx])]
    refine .idle fun d call hasked => ?_
    obtain ⟨rfl, -⟩ := Prod.mk.inj (Option.some.inj hasked)
    exact hx
  | some x =>
    rw [Task.ask_bind_of_ok (s := m) (a := x) (by simp only [hx])]
    exact .called rfl hx (turn_spec hm (hm.object a c x hx)).2

private theorem caughtUp_after (m : Memory) (a x n : Nat) :
    ((do
      let r ← Task.ask fun m : Memory => .ok (m.ratchet x)
      Task.note (turnLog n r)
      tellTurns a n
      return n : Task Memory Nat) m).after = m := by
  rw [Task.ask_bind_of_ok (s := m) (a := m.ratchet x) rfl, Task.bind_of_ok (a := ()) rfl,
    Task.bind_pure_eq_map]
  unfold tellTurns
  split
  · rfl
  · exact tell_after ..

private theorem written_turnUntil (hm : m.Separate) (c : Channel) (target : Int) :
    m.Written a s (.turnUntil c target) (catchUpField a s c target m).after := by
  rw [catchUpField, field]
  cases hx : m.field? a c with
  | none =>
    rw [Task.ask_bind_of_error (s := m) (e := .noRatchet c s.id s.phase) (by simp only [hx])]
    refine .idle fun d call hasked => ?_
    obtain ⟨rfl, -⟩ := Prod.mk.inj (Option.some.inj hasked)
    exact hx
  | some x =>
    rw [Task.ask_bind_of_ok (s := m) (a := x) (by simp only [hx])]
    have hturned := (turnUntil_spec hm (hm.object a c x hx) target).2
    have hafter : (Task.ofRatchet (·.turnUntil x target) m).after = (m.turnUntil x target).1 := rfl
    cases hanswer : (Task.ofRatchet (·.turnUntil x target) m).answer with
    | error f =>
      rw [Task.bind_of_error hanswer]
      exact .called rfl hx hturned
    | ok n =>
      rw [Task.bind_of_ok hanswer, caughtUp_after _ a x n]
      exact .called rfl hx hturned

private theorem Written.of_uncalled {op : Session.Operation} (h : op.call? = none) :
    m.Written a s op m := by
  refine .idle fun c call hasked => ?_
  rw [h] at hasked
  cases hasked

theorem written_perform (hm : m.Separate) (a : Nat) (s : Session) (op : Session.Operation) :
    m.Written a s op (m.perform a s op).after := by
  cases op with
  | accept ephemeral longTerm =>
    rw [perform, task, Task.bind_pure_eq_map]
    rcases accept_cases m a s ephemeral longTerm with
      ⟨f, log, hmem, -⟩ | ⟨secret, four, hsecret, hmem, -⟩
    · rw [hmem]
      exact .of_uncalled rfl
    · rw [hmem]
      simp only [Outcome.map, tell_after]
      exact .completed four hsecret
  | discardTwoDh =>
    rw [perform, task, Task.bind_pure_eq_map, discardTwoDh]
    by_cases hwaiting : s.phase = .initiatorTwoDh
    · have hcheck : s.checkFourDh = .error (.notEstablished s.id) := by
        rw [Session.checkFourDh, if_pos hwaiting]
      rw [Task.ask_bind_of_error (s := m) hcheck]
      exact .of_uncalled rfl
    · have hcheck : s.checkFourDh = .ok () := by rw [Session.checkFourDh, if_neg hwaiting]
      rw [Task.ask_bind_of_ok (s := m) hcheck, Task.write_bind]
      have hafter : ((if s.phase = .responderFourDh then
          tell a (.milestone .firstFourDhMessageReceived) else pure ()) (m.giveUpTwoDh a)).after =
          m.giveUpTwoDh a := by
        split
        · exact tell_after ..
        · rfl
      simp only [Outcome.map, hafter]
      exact .givenUp hwaiting
  | take c =>
    rw [perform, task, Task.bind_pure_eq_map]
    exact .of_uncalled rfl
  | encryptionKey c => exact .of_uncalled rfl
  | associatedData c => exact .of_uncalled rfl
  | turn c =>
    rw [perform, task, Task.bind_pure_eq_map]
    exact written_turn hm c
  | turnUntil c target =>
    rw [perform, task, Task.bind_pure_eq_map]
    exact written_turnUntil hm c target

/-- The session at a place uses the ratchet at another place. -/
def Uses (m : Memory) (a x : Nat) : Prop := ∃ c ∈ Channel.all, m.field? a c = some x

instance (m : Memory) (a x : Nat) : Decidable (m.Uses a x) :=
  inferInstanceAs (Decidable (∃ c ∈ Channel.all, m.field? a c = some x))

theorem uses_iff : m.Uses a x ↔ ∃ c, m.field? a c = some x := by
  constructor
  · rintro ⟨c, -, hc⟩
    exact ⟨c, hc⟩
  · rintro ⟨c, hc⟩
    refine ⟨c, ?_, hc⟩
    rcases c with ⟨_ | _, _ | _⟩ <;> decide

/-- The calls that an operation of a session makes on the ratchet at a place, where it leads from
one memory to another. A ratchet that the session uses no more is discarded. -/
def callsOn (m : Memory) (a : Nat) (op : Session.Operation) (m' : Memory) (x : Nat) :
    List Ratchet.Call :=
  match op.call? with
  | some (c, call) => if m.field? a c = some x then [call] else []
  | none => if m.Uses a x ∧ ¬ m'.Uses a x then [.discard] else []

private theorem Rewrites.ratchet_of_field {d : Channel} (h : m.Rewrites a t m')
    (hs : m.session? a = some s) (hsame : t.slots.get d = s.slots.get d)
    (hx : m.field? a d = some x) (hx' : m'.field? a d = some x) :
    m'.ratchet x = m.ratchet x := by
  have hlive := get_of_field hs hx
  rw [← hsame, get_of_field h.session hx'] at hlive
  exact Slot.live.inj hlive

private theorem ratchet_complete {ephemeral longTerm : Offered} {secret : Bytes}
    (hm : m.Separate) (hs : m.session? a = some s)
    (together : s.phase = .initiatorTwoDh → ∀ d, s.slots.get ⟨d, .fourDh⟩ = .empty)
    (pending : s.pendingSecret = .ok secret) (four : Ratchet × Ratchet)
    (hx : x < m.ratchets.size) :
    (m.complete a ephemeral four).ratchet x = (m.ratchet x).afterCalls
      (m.callsOn a (.accept ephemeral longTerm) (m.complete a ephemeral four) x) := by
  obtain ⟨hafter, htwo, hfour, hdiscard⟩ := rewrites_complete hm hs ephemeral four
  have hunused : ¬ (m.complete a ephemeral four).Uses a x := by
    rintro ⟨⟨d, _ | _⟩, -, hd⟩
    · rw [htwo] at hd
      cases hd
    · have hle := hfour d x hd
      omega
  simp only [callsOn, Session.Operation.call?, hunused, not_false_eq_true, and_true]
  by_cases huses : m.Uses a x
  · rw [if_pos huses]
    obtain ⟨⟨d, _ | _⟩, hd⟩ := uses_iff.mp huses
    · exact hdiscard d x hd
    · have hempty := together (Session.phase_of_pendingSecret pending) d
      rw [get_of_field hs hd] at hempty
      cases hempty
  · rw [if_neg huses, Ratchet.afterCalls_nil]
    exact hafter.frame.ratchet x hx fun c hc => huses (uses_iff.mpr ⟨c, hc⟩)

private theorem ratchet_giveUpTwoDh (hm : m.Separate) (hs : m.session? a = some s)
    (hx : x < m.ratchets.size) :
    (m.giveUpTwoDh a).ratchet x =
      (m.ratchet x).afterCalls (m.callsOn a .discardTwoDh (m.giveUpTwoDh a) x) := by
  obtain ⟨hafter, hfield, hdiscard⟩ := giveUpTwoDh_spec hm hs
  simp only [callsOn, Session.Operation.call?]
  by_cases huses : m.Uses a x
  · obtain ⟨⟨d, _ | _⟩, hd⟩ := uses_iff.mp huses
    · have hunused : ¬ (m.giveUpTwoDh a).Uses a x := by
        rintro ⟨⟨d', _ | _⟩, -, hd'⟩
        · rw [hfield, if_pos rfl] at hd'
          cases hd'
        · rw [hfield, if_neg nofun] at hd'
          cases (hm.channel _ _ _ _ _ hd hd').2
      rw [if_pos ⟨huses, hunused⟩]
      exact hdiscard d x hd
    · have hd' : (m.giveUpTwoDh a).field? a ⟨d, .fourDh⟩ = some x := by
        rw [hfield, if_neg nofun, hd]
      rw [if_neg (fun hboth => hboth.2 (uses_iff.mpr ⟨_, hd'⟩)), Ratchet.afterCalls_nil]
      exact hafter.ratchet_of_field hs (by cases d <;> rfl) hd hd'
  · rw [if_neg (fun hboth => huses hboth.1), Ratchet.afterCalls_nil]
    exact hafter.frame.ratchet x hx fun c hc => huses (uses_iff.mpr ⟨c, hc⟩)

theorem Written.ratchet {op : Session.Operation} (hm : m.Separate) (hs : m.session? a = some s)
    (together : s.phase = .initiatorTwoDh → ∀ d, s.slots.get ⟨d, .fourDh⟩ = .empty)
    (h : m.Written a s op m') (hx : x < m.ratchets.size) :
    m'.ratchet x = (m.ratchet x).afterCalls (m.callsOn a op m' x) := by
  cases h with
  | idle unasked =>
    have hnone : m.callsOn a op m x = [] := by
      unfold callsOn
      split
      · rename_i c call hasked
        rw [if_neg]
        rw [unasked c call hasked]
        exact nofun
      · rw [if_neg (fun hboth => hboth.2 hboth.1)]
    rw [hnone, Ratchet.afterCalls_nil]
  | @called _ c y call _ asked used evolves =>
    simp only [callsOn, asked]
    by_cases hxy : x = y
    · subst hxy
      rw [if_pos used, evolves.ratchet]
      rfl
    · have hne : m.field? a c ≠ some x := by
        rw [used]
        exact fun heq => hxy (Option.some.inj heq).symm
      rw [if_neg hne, evolves.others x hxy, Ratchet.afterCalls_nil]
  | completed four pending => exact ratchet_complete hm hs together pending four hx
  | givenUp known => exact ratchet_giveUpTwoDh hm hs hx

/-- A session refers to a ratchet for good, or gives it up and is established then. -/
theorem Written.field {op : Session.Operation} (hm : m.Separate) (hs : m.session? a = some s)
    (together : s.phase = .initiatorTwoDh → ∀ d, s.slots.get ⟨d, .fourDh⟩ = .empty)
    (h : m.Written a s op m') (hx : m.field? a c = some x) :
    m'.field? a c = some x ∨ m'.field? a c = none ∧ c.generation = .twoDh ∧
      (m'.ratchet x).chainKey = none ∧ ∀ t, m'.session? a = some t → t.phase = .established := by
  cases h with
  | idle unasked => exact .inl hx
  | called asked used evolves => exact .inl (by rw [evolves.field?, hx])
  | @completed ephemeral longTerm secret four pending =>
    obtain ⟨hafter, htwo, -, hdiscard⟩ := rewrites_complete hm hs ephemeral four
    obtain ⟨d, _ | _⟩ := c
    · refine .inr ⟨htwo d, rfl, by rw [hdiscard d x hx]; rfl, fun t ht => ?_⟩
      obtain rfl := Option.some.inj (hafter.session.symm.trans ht)
      rw [Session.phase_kept, Session.phase_completed]
    · have hempty := together (Session.phase_of_pendingSecret pending) d
      rw [get_of_field hs hx] at hempty
      cases hempty
  | givenUp known =>
    obtain ⟨-, hfield, hdiscard⟩ := giveUpTwoDh_spec hm hs
    have hafter := rewrites_giveUpTwoDh hm hs
    obtain ⟨d, _ | _⟩ := c
    · refine .inr ⟨by rw [hfield, if_pos rfl], rfl, by rw [hdiscard d x hx]; rfl, fun t ht => ?_⟩
      obtain rfl := Option.some.inj (hafter.session.symm.trans ht)
      rw [Session.phase_kept, Session.phase_withoutTwoDh known]
    · left
      rw [hfield, if_neg nofun, hx]

theorem Written.field_twoDh {op : Session.Operation} {d : Direction} (hm : m.Separate)
    (hs : m.session? a = some s) (h : m.Written a s op m')
    (hx : m.field? a ⟨d, .twoDh⟩ = none) : m'.field? a ⟨d, .twoDh⟩ = none := by
  cases h with
  | idle unasked => exact hx
  | called asked used evolves => rw [evolves.field?, hx]
  | @completed ephemeral longTerm secret four pending =>
    exact (rewrites_complete hm hs ephemeral four).2.1 d
  | givenUp known => rw [(giveUpTwoDh_spec hm hs).2.1, if_pos rfl]

end Memory

end RatchetSession
