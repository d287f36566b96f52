import RatchetSession.Proofs.Founding

/-!
# Runs that differ in secrets only

Sessions are twins if they differ only in keys, and no public key that they may meet tells their
secrets apart by having a shared secret with one of them only. Whatever is done to twins leaves
twins, and what is answered and reported differs in no more than the keys that were asked for:
`Session.Twin.perform`, `Session.Twin.performOnHandle`.
-/

set_option autoImplicit false
set_option relaxedAutoImplicit false

namespace RatchetSession

/-- Both computations fail in the same way, or give results that are related. -/
inductive Matched {ε α β : Type} (R : α → β → Prop) : Except ε α → Except ε β → Prop
  | ok {a : α} {b : β} (h : R a b) : Matched R (.ok a) (.ok b)
  | error (e : ε) : Matched R (.error e) (.error e)

namespace Matched

variable {ε ε' α β γ δ : Type} {R : α → β → Prop} {S : γ → δ → Prop} {x : Except ε α}
  {y : Except ε β}

private theorem of_eq {x y : Except ε α} (h : x = y) : Matched Eq x y := by
  subst h
  cases x with
  | error e => exact .error e
  | ok a => exact .ok rfl

theorem eq {x y : Except ε α} (h : Matched Eq x y) : x = y := by
  cases h with
  | ok h => rw [h]
  | error e => rfl

theorem bind {next : α → Except ε γ} {next' : β → Except ε δ} (h : Matched R x y)
    (hn : ∀ a b, R a b → Matched S (next a) (next' b)) : Matched S (x >>= next) (y >>= next') := by
  cases h with
  | ok h => exact hn _ _ h
  | error e => exact .error e

theorem map {f : α → γ} {g : β → δ} (h : Matched R x y) (hfg : ∀ a b, R a b → S (f a) (g b)) :
    Matched S (x.map f) (y.map g) := by
  cases h with
  | ok h => exact .ok (hfg _ _ h)
  | error e => exact .error e

private theorem mapError (h : Matched R x y) (f : ε → ε') :
    Matched R (x.mapError f) (y.mapError f) := by
  cases h with
  | ok h => exact .ok h
  | error e => exact .error (f e)

end Matched

/-- Two keys of which nothing is to be known. -/
def Hidden (_ _ : Key) : Prop := True

/-- Every public key of the list has a shared secret with both secrets or with neither. -/
def Indifferent (keys : List Key) (x y : Key) : Prop :=
  ∀ k ∈ keys, (Curve25519.agree? x k).isSome = (Curve25519.agree? y k).isSome

instance (keys : List Key) (x y : Key) : Decidable (Indifferent keys x y) :=
  inferInstanceAs (Decidable (∀ k ∈ keys, _ = _))

/-- The public key in what is offered, if it has the right length. -/
def Offered.keys (offer : Offered) : List Key :=
  (offer.octets?.bind (Sized.ofBytes? 32)).toList

private theorem Offered.keys_fixed (k : Key) : (Offered.fixed k.val).keys = [k] := by
  have hk : (Offered.fixed k.val).octets?.bind (Sized.ofBytes? 32) = some k := Sized.ofBytes?_val k
  rw [keys, hk]
  rfl

theorem Offered.keys_fixed_subset {keys : List Key} {k : Key} (h : k ∈ keys) :
    (Offered.fixed k.val).keys ⊆ keys := by
  rw [keys_fixed]
  exact List.cons_subset.mpr ⟨h, List.nil_subset keys⟩

theorem Indifferent.agree {keys : List Key} {x y : Key} (h : Indifferent keys x y)
    {offer : Offered} (hoffer : offer.keys ⊆ keys) :
    Matched Hidden (agreeEphemeral x.val offer) (agreeEphemeral y.val offer) := by
  refine Matched.mapError ?_ _
  unfold KeyAgreement.exchange KeyAgreement.publicKey
  cases hkey : offer.octets?.bind (Sized.ofBytes? 32) with
  | none => exact .error _
  | some k =>
    have hmem : k ∈ offer.keys := by
      rw [Offered.keys, hkey]
      exact List.mem_singleton.mpr rfl
    have hboth := h k (hoffer hmem)
    simp only [Sized.ofBytes?_val]
    cases hx : Curve25519.agree? x k <;> cases hy : Curve25519.agree? y k
    · exact .error _
    · rw [hx, hy] at hboth
      cases hboth
    · rw [hx, hy] at hboth
      cases hboth
    · exact .ok trivial

namespace Ratchet

/-- The ratchets differ in no more than their keys. -/
structure Twin (r r' : Ratchet) : Prop where
  keyed : r.chainKey.isSome = r'.chainKey.isSome
  counter : r.counter = r'.counter
  maxSkip : r.maxSkip = r'.maxSkip

namespace Twin

variable {r r' : Ratchet}

private theorem atCounter (k k' : Key) (counter : Nat) (maxSkip : Int) :
    Twin ⟨some k, counter, maxSkip⟩ ⟨some k', counter, maxSkip⟩ := ⟨rfl, rfl, rfl⟩

private theorem liveKey (h : r.Twin r') : Matched Hidden r.liveKey r'.liveKey := by
  have hkeyed := h.keyed
  unfold Ratchet.liveKey
  rw [h.counter]
  cases hk : r.chainKey <;> cases hk' : r'.chainKey
  · exact .error _
  · rw [hk, hk'] at hkeyed
    cases hkeyed
  · rw [hk, hk'] at hkeyed
    cases hkeyed
  · exact .ok trivial

private theorem encryptionKey (h : r.Twin r') : Matched Hidden r.encryptionKey r'.encryptionKey :=
  h.liveKey.map fun _ _ _ => trivial

theorem turn (h : r.Twin r') : Matched Twin r.turn r'.turn := by
  unfold Ratchet.turn
  generalize r.liveKey = x, r'.liveKey = y, h.liveKey = hlive
  cases hlive with
  | error f => exact .error f
  | ok _ =>
    rw [h.counter]
    by_cases hfull : maxCounter ≤ r'.counter
    · simp only [if_pos hfull]
      exact .error _
    · simp only [if_neg hfull]
      rw [h.maxSkip]
      exact .ok (atCounter ..)

private theorem turns (h : r.Twin r') (n : Nat) :
    (r.turns n).1.Twin (r'.turns n).1 ∧ (r.turns n).2 = (r'.turns n).2 := by
  induction n generalizing r r' with
  | zero => exact ⟨h, rfl⟩
  | succ n ih =>
    unfold Ratchet.turns
    generalize r.turn = x, r'.turn = y, h.turn = hturn
    cases hturn with
    | error f => exact ⟨h, rfl⟩
    | ok hnext => exact ih hnext

theorem turnUntil (h : r.Twin r') (target : Int) :
    (r.turnUntil target).1.Twin (r'.turnUntil target).1 ∧
      (r.turnUntil target).2 = (r'.turnUntil target).2 := by
  have hturns : r.turnsTo target = r'.turnsTo target := by
    unfold Ratchet.turnsTo
    rw [h.counter, h.maxSkip]
    generalize r.liveKey = x, r'.liveKey = y, h.liveKey = hlive
    cases hlive <;> rfl
  unfold Ratchet.turnUntil
  rw [hturns]
  cases r'.turnsTo target with
  | error f => exact ⟨h, rfl⟩
  | ok n =>
    obtain ⟨hafter, hanswer⟩ := h.turns n
    exact ⟨hafter, congrArg (Except.map fun () => n) hanswer⟩

private theorem discard (h : r.Twin r') : r.discard.Twin r'.discard := ⟨rfl, h.counter, h.maxSkip⟩

theorem describe (h : r.Twin r') : r.describe = r'.describe := by
  obtain ⟨k, counter, _⟩ := r
  obtain ⟨k', counter', _⟩ := r'
  obtain ⟨hkeyed, hcounter, -⟩ := h
  obtain rfl : counter = counter' := hcounter
  cases k <;> cases k' <;> first | rfl | cases hkeyed

end Twin

end Ratchet

/-- What comes out is related, and what is reported is the same. -/
structure Outcome.Twin {σ τ α β : Type} (R : σ → τ → Prop) (S : α → β → Prop) (o : Outcome σ α)
    (o' : Outcome τ β) : Prop where
  after : R o.after o'.after
  answer : Matched S o.answer o'.answer
  draws : o.draws = o'.draws
  events : o.events = o'.events
  log : o.log = o'.log

namespace Outcome.Twin

variable {σ τ α β γ δ : Type} {R : σ → τ → Prop} {S : α → β → Prop} {o : Outcome σ α}
  {o' : Outcome τ β} {x : σ} {y : τ}

theorem failed (h : R x y) (f : Fault) :
    Twin R S (.failed x f : Outcome σ α) (.failed y f : Outcome τ β) :=
  ⟨h, .error f, rfl, rfl, rfl⟩

theorem map {T : γ → δ → Prop} {f : α → γ} {g : β → δ} (h : Twin R S o o')
    (hfg : ∀ a b, S a b → T (f a) (g b)) : Twin R T (o.map f) (o'.map g) :=
  ⟨h.after, h.answer.map hfg, h.draws, h.events, h.log⟩

theorem tell (h : Twin R S o o') (l : Listener) {call call' : HookCall}
    (hsame : call.event = call'.event) :
    Twin R S (Outcome.tell l call o) (Outcome.tell l call' o') := by
  refine ⟨h.after, ?_, h.draws, ?_, ?_⟩
  · unfold Outcome.tell
    rw [← hsame]
    by_cases hrefused : (l.tell call.event).refused
    · simp only [if_pos hrefused]
      exact .error _
    · simp only [if_neg hrefused]
      exact h.answer
  · show o.events ++ _ = o'.events ++ _
    rw [h.events, hsame]
  · show o.log ++ _ = o'.log ++ _
    rw [h.log, hsame]

end Outcome.Twin

def Ratchet.Operation.shown : Ratchet.Operation → Answer → Option Answer
  | .encryptionKey, _ => none
  | .turn _, a | .turnUntil _, a | .discard, a => some a

private theorem Ratchet.Twin.perform {r r' : Ratchet} (h : r.Twin r') (op : Ratchet.Operation) :
    Outcome.Twin Ratchet.Twin (fun a b => op.shown a = op.shown b) (r.perform op)
      (r'.perform op) := by
  cases op with
  | encryptionKey =>
    refine ⟨h, Matched.mapError ?_ _, rfl, rfl, rfl⟩
    exact h.encryptionKey.map fun _ _ _ => rfl
  | turn times =>
    obtain ⟨hafter, hanswer⟩ := h.turns times
    refine ⟨hafter, ?_, rfl, rfl, rfl⟩
    show Matched _ (((r.turns times).2.map _).mapError _) (((r'.turns times).2.map _).mapError _)
    rw [hanswer]
    refine Matched.mapError ?_ _
    exact (Matched.of_eq rfl).map fun _ _ _ => rfl
  | turnUntil target =>
    obtain ⟨hafter, hanswer⟩ := h.turnUntil target
    refine ⟨hafter, ?_, rfl, rfl, ?_⟩
    · show Matched _ (((r.turnUntil target).2.map _).mapError _)
        (((r'.turnUntil target).2.map _).mapError _)
      rw [hanswer]
      refine Matched.mapError ?_ _
      exact (Matched.of_eq rfl).map fun a b hab => by rw [hab]
    · simp only [Ratchet.perform, hanswer]
      cases (r'.turnUntil target).2 with
      | error f => rfl
      | ok n =>
        show turnLog n _ = turnLog n _
        rw [turnLog, turnLog, hafter.counter]
  | discard => exact ⟨h.discard, .ok rfl, rfl, rfl, rfl⟩

inductive Slot.Twin : Slot → Slot → Prop
  | empty : Twin .empty .empty
  | live {r r' : Ratchet} (h : r.Twin r') : Twin (.live r) (.live r')
  | retired {r r' : Ratchet} (h : r.Twin r') : Twin (.retired r) (.retired r')

namespace Slot.Twin

variable {x y : Slot} {r r' : Ratchet}

private theorem replace (h : x.Twin y) (hr : r.Twin r') : (x.replace r).Twin (y.replace r') := by
  cases h with
  | empty => exact .empty
  | live h => exact .live hr
  | retired h => exact .retired hr

private theorem retire (h : x.Twin y) : x.retire.Twin y.retire := by
  cases h with
  | empty => exact .empty
  | live h => exact .retired h.discard
  | retired h => exact .retired h

private theorem isSome_live? (h : x.Twin y) : x.live?.isSome = y.live?.isSome := by
  cases h <;> rfl

end Slot.Twin

structure LocalIdentity.Twin (keys : List Key) (l l' : LocalIdentity) : Prop where
  identity : l.identity = l'.identity
  secret : Indifferent keys l.secret l'.secret

/-- Both ephemeral secrets are wiped, or neither is and nothing tells them apart. -/
inductive TwinSecrets (keys : List Key) : Option Bytes → Option Bytes → Prop
  | wiped : TwinSecrets keys none none
  | kept {x y : Key} (h : Indifferent keys x y) : TwinSecrets keys (some x.val) (some y.val)

namespace Session

/-- The sessions differ in no more than secrets and what was derived from them. -/
structure Twin (keys : List Key) (s t : Session) : Prop where
  id : s.id = t.id
  role : s.role = t.role
  me : s.me.Twin keys t.me
  peer : s.peer = t.peer
  peerKey : s.peer.key ∈ keys
  config : s.config = t.config
  listener : s.listener = t.listener
  secrets : TwinSecrets keys s.ephemeralSecret t.ephemeralSecret
  peerEphemeral : s.peerEphemeral = t.peerEphemeral
  slots : ∀ c, (s.slots.get c).Twin (t.slots.get c)

/-- The answer of an operation on a session, unless it is a key. -/
def Operation.shown : Operation → Answer → Option Answer
  | .encryptionKey _, _ => none
  | .accept _ _, a | .discardTwoDh, a | .take _, a | .associatedData _, a | .turn _, a
  | .turnUntil _ _, a => some a

def Operation.keys : Operation → List Key
  | .accept ephemeral _ => ephemeral.keys
  | .discardTwoDh | .take _ | .encryptionKey _ | .associatedData _ | .turn _ | .turnUntil _ _ => []

def TwinPair (p q : Ratchet × Ratchet) : Prop := p.1.Twin q.1 ∧ p.2.Twin q.2

theorem startRatchets_twin (me me' : LocalIdentity) (peer : Contact) (config : Config)
    (g : Generation) (m m' : Bytes) :
    Matched TwinPair (startRatchets me peer config g m) (startRatchets me' peer config g m') := by
  have hstart (k k' : Key) : Matched Ratchet.Twin
      ((Ratchet.start k config.initialCounter config.maxSkip).mapError Fault.ratchet)
      ((Ratchet.start k' config.initialCounter config.maxSkip).mapError Fault.ratchet) := by
    refine Matched.mapError ?_ _
    unfold Ratchet.start
    split_ifs
    · exact .ok (Ratchet.Twin.atCounter ..)
    · exact .error _
  exact (hstart _ _).bind fun _ _ hmine => (hstart _ _).bind fun _ _ htheirs => .ok ⟨hmine, htheirs⟩

namespace Twin

variable {keys : List Key} {s t : Session} {c : Channel}

theorem phase (h : s.Twin keys t) : s.phase = t.phase := by
  have hlive (c : Channel) : (s.slots.get c).live?.isSome = (t.slots.get c).live?.isSome :=
    (h.slots c).isSome_live?
  have htwo := hlive ⟨.outgoing, .twoDh⟩
  have htwo' := hlive ⟨.incoming, .twoDh⟩
  have hfour := hlive ⟨.outgoing, .fourDh⟩
  simp only [Slots.get] at htwo htwo' hfour
  simp only [Session.phase, Slots.phase, ← Option.not_isSome, htwo, htwo', hfour]

theorem summary (h : s.Twin keys t) : s.summary = t.summary := by
  rw [Session.summary, Session.summary, h.id, h.role, h.phase, h.peer]

private theorem ratchet (h : s.Twin keys t) (c : Channel) :
    Matched Ratchet.Twin (s.ratchet c) (t.ratchet c) := by
  unfold Session.ratchet
  rw [h.id, h.phase]
  generalize s.slots.get c = x, t.slots.get c = y, h.slots c = hslot
  cases hslot with
  | empty => exact .error _
  | live hr => exact .ok hr
  | retired hr => exact .error _

private theorem putRatchet (h : s.Twin keys t) (c : Channel) {r r' : Ratchet} (hr : r.Twin r') :
    (s.putRatchet c r).Twin keys (t.putRatchet c r') := by
  refine { h with slots := fun d => ?_ }
  by_cases hd : d = c
  · subst hd
    simp only [Session.putRatchet, Slots.get_set]
    exact (h.slots d).replace hr
  · rw [get_putRatchet_of_ne s r hd, get_putRatchet_of_ne t r' hd]
    exact h.slots d

private theorem withoutTwoDh (h : s.Twin keys t) : s.withoutTwoDh.Twin keys t.withoutTwoDh := by
  refine { h with slots := ?_ }
  rintro ⟨d, _ | _⟩
  · rw [get_withoutTwoDh_twoDh, get_withoutTwoDh_twoDh]
    exact (h.slots _).retire
  · rw [get_withoutTwoDh_fourDh, get_withoutTwoDh_fourDh]
    exact h.slots _

private theorem pendingSecret (h : s.Twin keys t) :
    Matched (fun x y => TwinSecrets keys (some x) (some y)) s.pendingSecret t.pendingSecret := by
  have hfour := (h.slots ⟨.outgoing, .fourDh⟩).isSome_live?
  simp only [Slots.get] at hfour
  unfold Session.pendingSecret
  rw [h.id]
  cases hx : s.slots.fourOutgoing.live? <;> cases hy : t.slots.fourOutgoing.live?
  · generalize s.ephemeralSecret = x, t.ephemeralSecret = y, h.secrets = hsecrets
    cases hsecrets with
    | wiped => exact .error _
    | kept h => exact .ok (.kept h)
  · rw [hx, hy] at hfour
    cases hfour
  · rw [hx, hy] at hfour
    cases hfour
  · exact .error _

private theorem initiatorMaterial (h : s.Twin keys t) {x y : Bytes}
    (hsecrets : TwinSecrets keys (some x) (some y)) {ephemeral : Offered}
    (hoffer : ephemeral.keys ⊆ keys) :
    Matched (fun _ _ => True) (initiatorMaterial s x ephemeral)
      (initiatorMaterial t y ephemeral) := by
  have hpeer : (Offered.fixed t.peer.key.val).keys ⊆ keys :=
    Offered.keys_fixed_subset (h.peer ▸ h.peerKey)
  cases hsecrets with
  | kept hown =>
    unfold Session.initiatorMaterial
    rw [h.peer]
    refine Matched.bind (h.me.secret.agree hpeer) fun _ _ _ => ?_
    refine Matched.bind (h.me.secret.agree hoffer) fun _ _ _ => ?_
    refine Matched.bind (hown.agree hpeer) fun _ _ _ => ?_
    exact Matched.bind (hown.agree hoffer) fun _ _ _ => .ok trivial

private theorem completed (h : s.Twin keys t) (ephemeral : Offered) {four four' : Ratchet × Ratchet}
    (hfour : TwinPair four four') :
    (s.completed ephemeral four).Twin keys (t.completed ephemeral four') := by
  refine { h with secrets := .wiped, peerEphemeral := rfl, slots := ?_ }
  rintro ⟨_ | _, _ | _⟩
  · exact (h.slots ⟨.outgoing, .twoDh⟩).retire
  · exact .live hfour.1
  · exact (h.slots ⟨.incoming, .twoDh⟩).retire
  · exact .live hfour.2

private theorem accepted (h : s.Twin keys t) {ephemeral : Offered} (hoffer : ephemeral.keys ⊆ keys)
    (longTerm : Offered) :
    Matched (Twin keys) (s.accepted ephemeral longTerm) (t.accepted ephemeral longTerm) := by
  have hcheck : s.checkLongTerm longTerm = t.checkLongTerm longTerm := by
    rw [checkLongTerm, checkLongTerm, h.peer, h.id]
  refine Matched.bind h.pendingSecret fun _ _ hsecrets => ?_
  refine Matched.bind (Matched.of_eq hcheck) fun _ _ _ => ?_
  refine Matched.bind (h.initiatorMaterial hsecrets hoffer) fun m m' _ => ?_
  rw [h.peer, h.config]
  exact Matched.bind (startRatchets_twin _ _ _ _ _ m m') fun _ _ hfour =>
    .ok (h.completed ephemeral hfour)

private theorem accept (h : s.Twin keys t) {ephemeral longTerm : Offered}
    (hoffer : ephemeral.keys ⊆ keys) :
    Outcome.Twin (Twin keys) Eq (accept ephemeral longTerm s) (accept ephemeral longTerm t) := by
  rw [accept_eq, accept_eq]
  generalize s.accepted ephemeral longTerm = x, t.accepted ephemeral longTerm = y,
    h.accepted hoffer longTerm = htaken
  cases htaken with
  | error f =>
    refine ⟨h, .error f, rfl, rfl, ?_⟩
    show acceptLog s f = acceptLog t f
    rw [acceptLog, acceptLog, h.id, h.peer]
  | ok htaken =>
    have hevent : ∀ m, Event.milestone m _ = .milestone m _ :=
      fun m => congrArg (Event.milestone m) htaken.summary
    simp only [htaken.listener]
    refine Outcome.Twin.tell ?_ _ (hevent _)
    exact ⟨htaken, .ok rfl, rfl, rfl, rfl⟩

private theorem discardTwoDh (h : s.Twin keys t) :
    Outcome.Twin (Twin keys) Eq (discardTwoDh s) (discardTwoDh t) := by
  rw [discardTwoDh_eq, discardTwoDh_eq, h.phase, h.id, h.listener]
  split_ifs
  · exact .failed h _
  · refine Outcome.Twin.tell ?_ _ (congrArg (Event.milestone _) h.withoutTwoDh.summary)
    exact ⟨h.withoutTwoDh, .ok rfl, rfl, rfl, rfl⟩
  · exact ⟨h.withoutTwoDh, .ok rfl, rfl, rfl, rfl⟩

theorem turn (h : s.Twin keys t) (c : Channel) :
    Outcome.Twin (Twin keys) Eq (turn c s) (turn c t) := by
  rw [turn_eq, turn_eq]
  generalize s.ratchet c = x, t.ratchet c = y, h.ratchet c = hratchet
  cases hratchet with
  | error f => exact .failed h f
  | @ok r r' hr =>
    simp only
    generalize r.turn = x, r'.turn = y, hr.turn = hturn
    cases hturn with
    | error f => exact .failed h _
    | ok hnext => exact ⟨h.putRatchet c hnext, .ok rfl, rfl, rfl, rfl⟩

theorem turnUntil (h : s.Twin keys t) (c : Channel) (target : Int) :
    Outcome.Twin (Twin keys) Eq (turnUntil c target s) (turnUntil c target t) := by
  rw [turnUntil_eq, turnUntil_eq]
  generalize s.ratchet c = x, t.ratchet c = y, h.ratchet c = hratchet
  cases hratchet with
  | error f => exact .failed h f
  | @ok r r' hr =>
    obtain ⟨hafter, hanswer⟩ := hr.turnUntil target
    simp only
    generalize r.turnUntil target = x, r'.turnUntil target = y at hafter hanswer
    obtain ⟨q, e⟩ := x
    obtain ⟨q', e'⟩ := y
    obtain rfl : e = e' := hanswer
    cases e with
    | error f => exact .failed h _
    | ok n =>
      have hlog : turnLog n q = turnLog n q' := by rw [turnLog, turnLog, hafter.counter]
      have hcaught : Outcome.Twin (Twin keys) Eq
          { after := s.putRatchet c q, answer := .ok n, log := turnLog n q }
          { after := t.putRatchet c q', answer := .ok n, log := turnLog n q' } :=
        ⟨h.putRatchet c hafter, .ok rfl, rfl, rfl, hlog⟩
      simp only [h.id, h.peer, h.listener]
      split_ifs
      · exact hcaught
      · exact hcaught.tell _ rfl

theorem perform (h : s.Twin keys t) {op : Operation} (hop : op.keys ⊆ keys) :
    Outcome.Twin (Twin keys) (fun a b => op.shown a = op.shown b) (s.perform op)
      (t.perform op) := by
  cases op with
  | accept ephemeral longTerm =>
    rw [perform_accept, perform_accept]
    exact (h.accept hop).map fun _ _ _ => rfl
  | discardTwoDh =>
    rw [perform_discardTwoDh, perform_discardTwoDh]
    exact h.discardTwoDh.map fun _ _ _ => rfl
  | take c => exact ⟨h, (h.ratchet c).map fun _ _ _ => rfl, rfl, rfl, rfl⟩
  | encryptionKey c =>
    have hkey : Matched Hidden (s.encryptionKey c) (t.encryptionKey c) :=
      (h.ratchet c).bind fun _ _ hr => hr.encryptionKey.mapError _
    exact ⟨h, hkey.map fun _ _ _ => rfl, rfl, rfl, rfl⟩
  | associatedData c =>
    have hdata : Matched Eq (s.associatedData c) (t.associatedData c) := by
      refine (h.ratchet c).bind fun _ _ hr => .ok ?_
      rw [h.id, hr.counter]
    exact ⟨h, hdata.map fun _ _ hab => by rw [hab], rfl, rfl, rfl⟩
  | turn c =>
    rw [perform_turn, perform_turn]
    exact (h.turn c).map fun _ _ _ => rfl
  | turnUntil c target =>
    rw [perform_turnUntil, perform_turnUntil]
    exact (h.turnUntil c target).map fun _ _ hab => by rw [hab]

theorem performOnHandle (h : s.Twin keys t) (c : Channel) (op : Ratchet.Operation) :
    Outcome.Twin (Twin keys) (fun a b => op.shown a = op.shown b) (s.performOnHandle c op)
      (t.performOnHandle c op) := by
  unfold Session.performOnHandle
  rw [h.id, h.phase]
  generalize s.slots.get c = x, t.slots.get c = y, h.slots c = hslot
  have hhandle {r r' : Ratchet} (hr : r.Twin r') : Outcome.Twin (Twin keys)
      (fun a b => op.shown a = op.shown b)
      { r.perform op with after := s.putRatchet c (r.perform op).after }
      { r'.perform op with after := t.putRatchet c (r'.perform op).after } := by
    have hop := hr.perform op
    exact ⟨h.putRatchet c hop.after, hop.answer, hop.draws, hop.events, hop.log⟩
  cases hslot with
  | empty => exact .failed h _
  | live hr => exact hhandle hr
  | retired hr => exact hhandle hr

end Twin

end Session

end RatchetSession
