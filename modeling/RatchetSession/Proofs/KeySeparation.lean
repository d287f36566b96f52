import Mathlib.Data.List.Nodup
import RatchetSession.Proofs.ClosedForm
import RatchetSession.Proofs.Counters
import RatchetSession.Proofs.Directions

/-!
# No key is used twice

All keys of a session come from derivations under labels that keep them apart: a chain begins under
the name of its sender, goes on under another label and gives its message keys under a third. So two
equal keys lead back, turn by turn, to two different derivations with the same result:
`keys_used_once`.
-/

set_option autoImplicit false
set_option relaxedAutoImplicit false

namespace RatchetSession

/-- The key and the salt that a key is derived from. -/
abbrev Derivation := Bytes × Bytes

def Derivation.result (x : Derivation) : Key := KeyDerivation.derive32 x.1 x.2

/-- Different derivations of the list give different keys. -/
def CollisionFree (l : List Derivation) : Prop :=
  ∀ x ∈ l, ∀ y ∈ l, x.result = y.result → x = y

/-- The derivations of a chain that has been turned so often, and of its message keys. -/
def chainDerivations (g : Generation) (sender : Identity) (material : Bytes) (turns : Nat) :
    List Derivation :=
  (material, g.label ++ sender.octets) ::
    ((List.range turns).map fun i =>
      ((chainKeyAt g sender material i).val, Bytes.ascii "kdf-ck")) ++
    ((List.range (turns + 1)).map fun i =>
      ((chainKeyAt g sender material i).val, Bytes.ascii "kdf-aek"))

private theorem chainKeyAt_succ (g : Generation) (sender : Identity) (material : Bytes) (n : Nat) :
    chainKeyAt g sender material (n + 1) =
      Derivation.result ((chainKeyAt g sender material n).val, Bytes.ascii "kdf-ck") := by
  rw [chainKeyAt_eq, chainKeyAt_eq, Ratchet.chainKeyAfter_succ]
  rfl

theorem CollisionFree.of_nodup {l : List Derivation} (h : (l.map Derivation.result).Nodup) :
    CollisionFree l := fun _ hx _ hy hxy => List.inj_on_of_nodup_map h hx hy hxy

theorem CollisionFree.mono {l l' : List Derivation} (h : CollisionFree l)
    (hle : ∀ x ∈ l', x ∈ l) : CollisionFree l' := fun x hx y hy => h x (hle x hx) y (hle y hy)

private theorem label_ne {g : Generation} {i : Identity} {salt : Bytes} (h : salt.length ≤ 7) :
    g.label ++ i.octets ≠ salt := by
  intro hsalt
  have hlength := congrArg List.length hsalt
  have hname : 0 < i.octets.length := List.length_pos_iff.mpr i.ne_nil
  rw [List.length_append, g.length_label] at hlength
  omega

private theorem label_inj {g g' : Generation} {i j : Identity}
    (h : g.label ++ i.octets = g'.label ++ j.octets) : g = g' ∧ i = j := by
  have hlength : g.label.length = g'.label.length := by rw [g.length_label, g'.length_label]
  obtain ⟨hlabel, hname⟩ := List.append_inj h hlength
  refine ⟨?_, Identity.ext hname⟩
  cases g <;> cases g' <;> first | rfl | exact absurd hlabel (by decide)

namespace Session

/-- All derivations that have gone into the keys of a session, up to where its channels are. -/
def derivations (s : Session) (secret : Key) : List Derivation :=
  [⟨.outgoing, .twoDh⟩, ⟨.incoming, .twoDh⟩, ⟨.outgoing, .fourDh⟩, ⟨.incoming, .fourDh⟩].flatMap
    fun c : Channel =>
      match s.reached c, s.material secret c.generation with
      | some n, .ok m =>
        chainDerivations c.generation (s.sender c.direction) m
          (n - s.config.initialCounter.toNat)
      | _, _ => []

/-- The ratchet lies, turn by turn, between one that the session has during the run and one that it
has then or later. -/
def Passes (s : Session) (ops : List Operation) (c : Channel) (r : Ratchet) : Prop :=
  ∃ pre mid post before after i j, ops = pre ++ mid ++ post ∧
    (s.run pre).ratchet c = .ok before ∧ (s.run (pre ++ mid)).ratchet c = .ok after ∧
    r = (before.turns i).1 ∧ after = (r.turns j).1

/-- The key is that of a channel after so many turns, and the channel has come as far. -/
def Placed (s : Session) (secret : Key) (c : Channel) (i : Nat) (k : Key) : Prop :=
  ∃ n m, s.reached c = some n ∧ s.material secret c.generation = .ok m ∧
    s.config.initialCounter.toNat + i ≤ n ∧
    k = chainKeyAt c.generation (s.sender c.direction) m i

variable {s t : Session} {secret : Key} {c d : Channel} {i j : Nat} {k : Key}

private theorem mem_derivations {n : Nat} {m : Bytes} (hn : s.reached c = some n)
    (hm : s.material secret c.generation = .ok m) {x : Derivation}
    (hx : x ∈ chainDerivations c.generation (s.sender c.direction) m
      (n - s.config.initialCounter.toNat)) : x ∈ s.derivations secret := by
  refine List.mem_flatMap.mpr ⟨c, ?_, ?_⟩
  · rcases c with ⟨_ | _, _ | _⟩ <;> decide
  · rw [hn, hm]
    exact hx

/-- A chain key leads back to the one before it or to the start of its chain. -/
private theorem Placed.origin (h : s.Placed secret c i k) :
    (i = 0 ∧ ∃ m, s.material secret c.generation = .ok m ∧
      (m, c.generation.label ++ (s.sender c.direction).octets) ∈ s.derivations secret ∧
      k = Derivation.result (m, c.generation.label ++ (s.sender c.direction).octets)) ∨
    ∃ i' k', i = i' + 1 ∧ s.Placed secret c i' k' ∧
      (k'.val, Bytes.ascii "kdf-ck") ∈ s.derivations secret ∧
      k = Derivation.result (k'.val, Bytes.ascii "kdf-ck") := by
  obtain ⟨n, m, hn, hm, hle, rfl⟩ := h
  cases i with
  | zero => exact .inl ⟨rfl, m, hm, mem_derivations hn hm List.mem_cons_self, rfl⟩
  | succ i =>
    refine .inr ⟨i, _, rfl, ⟨n, m, hn, hm, by omega, rfl⟩, mem_derivations hn hm ?_,
      chainKeyAt_succ ..⟩
    refine List.mem_append_left _ (List.mem_cons_of_mem _ (List.mem_map.mpr ⟨i, ?_, rfl⟩))
    exact List.mem_range.mpr (by omega)

private theorem Placed.message_mem (h : s.Placed secret c i k) :
    (k.val, Bytes.ascii "kdf-aek") ∈ s.derivations secret := by
  obtain ⟨n, m, hn, hm, hle, rfl⟩ := h
  refine mem_derivations hn hm (List.mem_append_right _ (List.mem_map.mpr ⟨i, ?_, rfl⟩))
  exact List.mem_range.mpr (by omega)

private theorem sender_inj (hdistinct : s.me.identity ≠ s.peer.identity) {d d' : Direction}
    (h : s.sender d = s.sender d') : d = d' := by
  cases d <;> cases d' <;> first | rfl | exact absurd h hdistinct | exact absurd h.symm hdistinct

/-- Chains of one session or of two meet only if they have made the same turns of one chain. -/
theorem Placed.meet {other : Key}
    (hfree : CollisionFree (s.derivations secret ++ t.derivations other))
    (hi : s.Placed secret c i k) (hj : t.Placed other d j k) :
    i = j ∧ c.generation = d.generation ∧ s.sender c.direction = t.sender d.direction ∧
      ∃ m, s.material secret c.generation = .ok m ∧ t.material other d.generation = .ok m := by
  have hjoint {x y : Derivation} (hx : x ∈ s.derivations secret) (hy : y ∈ t.derivations other)
      (hsame : x.result = y.result) : x = y :=
    hfree x (List.mem_append_left _ hx) y (List.mem_append_right _ hy) hsame
  induction i generalizing j k with
  | zero =>
    rcases hi.origin with ⟨-, m, hmaterial, hm, rfl⟩ | ⟨_, _, hsucc, -⟩
    · rcases hj.origin with ⟨rfl, m', hmaterial', hm', hsame⟩ | ⟨_, k', -, -, hk', hsame⟩
      · obtain ⟨rfl, hsalt⟩ := Prod.mk.inj (hjoint hm hm' hsame)
        obtain ⟨hgeneration, hsender⟩ := label_inj hsalt
        exact ⟨rfl, hgeneration, hsender, m, hmaterial, hmaterial'⟩
      · obtain ⟨-, hsalt⟩ := Prod.mk.inj (hjoint hm hk' hsame)
        exact absurd hsalt (label_ne (by decide))
    · cases hsucc
  | succ i ih =>
    rcases hi.origin with ⟨hzero, -⟩ | ⟨i', k', hsucc, hplaced, hk', rfl⟩
    · cases hzero
    · obtain rfl := Nat.succ.inj hsucc
      rcases hj.origin with ⟨-, m, -, hm, hsame⟩ | ⟨j', k'', rfl, hplaced', hk'', hsame⟩
      · obtain ⟨-, hsalt⟩ := Prod.mk.inj (hjoint hk' hm hsame)
        exact absurd hsalt.symm (label_ne (by decide))
      · obtain ⟨hval, -⟩ := Prod.mk.inj (hjoint hk' hk'' hsame)
        obtain rfl := Subtype.ext hval
        obtain ⟨rfl, hchain⟩ := ih hplaced hplaced'
        exact ⟨rfl, hchain⟩

private theorem Placed.inj (hdistinct : s.me.identity ≠ s.peer.identity)
    (hfree : CollisionFree (s.derivations secret)) (hi : s.Placed secret c i k)
    (hj : s.Placed secret d j k) : c = d ∧ i = j := by
  have hboth : CollisionFree (s.derivations secret ++ s.derivations secret) :=
    hfree.mono fun x hx => or_self_iff.mp (List.mem_append.mp hx)
  obtain ⟨hturns, hgeneration, hsender, -⟩ := hi.meet hboth hj
  have hdirection := sender_inj hdistinct hsender
  cases c
  cases d
  exact ⟨congrArg₂ Channel.mk hdirection hgeneration, hturns⟩

private theorem Placed.messageKey_inj (hdistinct : s.me.identity ≠ s.peer.identity)
    (hfree : CollisionFree (s.derivations secret)) {k' : Key} (hi : s.Placed secret c i k)
    (hj : s.Placed secret d j k') (h : Ratchet.messageKey k = Ratchet.messageKey k') :
    c = d ∧ i = j := by
  obtain ⟨hval, -⟩ := Prod.mk.inj (hfree _ hi.message_mem _ hj.message_mem h)
  obtain rfl := Subtype.ext hval
  exact hi.inj hdistinct hfree hj

private theorem Placed.messageKey_ne (hfree : CollisionFree (s.derivations secret)) {k' : Key}
    (hi : s.Placed secret c i k) (hj : s.Placed secret d j k') : Ratchet.messageKey k ≠ k' := by
  intro hsame
  rcases hj.origin with ⟨-, m, -, hm, hk'⟩ | ⟨_, k'', -, -, hk'', hk'⟩
  · obtain ⟨-, hsalt⟩ := Prod.mk.inj (hfree _ hi.message_mem _ hm (hsame.trans hk'))
    exact absurd hsalt.symm (label_ne (by decide))
  · obtain ⟨-, hsalt⟩ := Prod.mk.inj (hfree _ hi.message_mem _ hk'' (hsame.trans hk'))
    exact absurd hsalt (by decide)

private theorem Founded.distinct {role : Role} (h : Founded role s) :
    s.me.identity ≠ s.peer.identity := by
  cases h with
  | initiated given =>
    obtain ⟨hdistinct, -, _, _, -, -, rfl⟩ := initiate_eq_ok given
    exact hdistinct
  | responded given =>
    obtain ⟨hdistinct, -, _, _, _, _, _, _, -, -, -, -, -, -, rfl⟩ := respond_eq_ok given
    exact hdistinct

variable {role : Role} {offered : Option Bytes} {ops : List Operation} {r : Ratchet}

private theorem Begun.founded (h : Begun role secret offered s) : s.Founded role := by
  cases h with
  | initiated given => exact .initiated given
  | responded given => exact .responded given

theorem Passes.placed (h : Begun role secret offered s) (hr : s.Passes ops c r) :
    ∃ i k, r.counter = s.config.initialCounter.toNat + i ∧ r.chainKey = some k ∧
      (s.run ops).Placed secret c i k := by
  obtain ⟨pre, mid, post, before, after, i, j, rfl, hbefore, hafter, rfl, hlast⟩ := hr
  have hlive := ratchet_eq_ok.mp hbefore
  have hscheduled : (s.run pre).Scheduled secret := h.scheduled.1.run pre
  obtain ⟨m, a, hm, hfirst⟩ := hscheduled.ratchets c before hlive
  obtain ⟨i', hi'⟩ := before.turns_fst i
  obtain ⟨j', hj'⟩ := (before.turns i).1.turns_fst j
  rw [hj', hi'] at hlast
  -- The session's channels never go back, so the end of the run has come as far.
  have hcounted : (s.run (pre ++ mid)).Counted := h.founded.counted.run _
  obtain ⟨n, hn, hle⟩ := hcounted.run_reached (reached_of_ratchet hafter) post
  rw [← run_append] at hn
  have hmaterial : (s.run (pre ++ mid ++ post)).material secret c.generation = .ok m := by
    rw [List.append_assoc, run_append,
      hscheduled.phased.material_run (has_iff.mpr ⟨before, hlive⟩), hm]
  rw [firstRatchet_run] at hfirst
  have hcounter : before.counter = s.config.initialCounter.toNat + a := by
    rw [hfirst, firstRatchet, Ratchet.counter_advance_fresh]
  have hend : after.counter = before.counter + i' + j' := by
    rw [hlast]
    rfl
  refine ⟨a + i', _, ?_, ?_, n, m, hn, hmaterial, ?_, rfl⟩
  · rw [hi']
    show before.counter + i' = _
    omega
  · rw [hi', hfirst, Ratchet.advance_advance, chainKeyAt_eq, sender_run]
    rfl
  · obtain ⟨-, -, -, -, hconfig, -⟩ :=
      fields_of_fixedPart (fixedPart_run s (pre ++ mid ++ post))
    rw [hconfig]
    omega

/-- If no two derivations that went into the keys of a session collide, then the message keys of
different places that the session passes through are different, and none is a chain key. -/
theorem keys_used_once (h : Begun role secret offered s) (ops : List Operation)
    (hfree : CollisionFree ((s.run ops).derivations secret)) {r r' : Ratchet}
    (hr : s.Passes ops c r) (hr' : s.Passes ops d r') :
    ∃ k' e e', r'.chainKey = some k' ∧ r.encryptionKey = .ok e ∧ r'.encryptionKey = .ok e' ∧
      e ≠ k' ∧ (e = e' → c = d ∧ r.counter = r'.counter) := by
  have hdistinct : (s.run ops).me.identity ≠ (s.run ops).peer.identity := by
    obtain ⟨-, -, hme, hpeer, -⟩ := fields_of_fixedPart (fixedPart_run s ops)
    rw [hme, hpeer]
    exact h.founded.distinct
  obtain ⟨i, k, hcounter, hkey, hplaced⟩ := hr.placed h
  obtain ⟨j, k', hcounter', hkey', hplaced'⟩ := hr'.placed h
  have hmessage : r.encryptionKey = .ok (Ratchet.messageKey k) := by
    rw [Ratchet.encryptionKey, Ratchet.liveKey, hkey]
    rfl
  have hmessage' : r'.encryptionKey = .ok (Ratchet.messageKey k') := by
    rw [Ratchet.encryptionKey, Ratchet.liveKey, hkey']
    rfl
  refine ⟨k', _, _, hkey', hmessage, hmessage', hplaced.messageKey_ne hfree hplaced', ?_⟩
  intro hsame
  obtain ⟨hchannel, rfl⟩ := hplaced.messageKey_inj hdistinct hfree hplaced' hsame
  exact ⟨hchannel, hcounter.trans hcounter'.symm⟩

def sampleKeys : Except Fault (Nat × Nat × Bool) := do
  let s ← (initiate sampleInitiator sampleResponder.contact {} .silent sampleEphemeral
    sampleId).answer
  let before ← s.ratchet ⟨.outgoing, .twoDh⟩
  let after ← (s.run sampleHandshake).ratchet ⟨.outgoing, .fourDh⟩
  let l := (s.run sampleHandshake).derivations sampleEphemeral
  return (before.counter, after.counter, decide (l.map Derivation.result).Nodup)

theorem keys_used_once_sample :
    ∃ s before after k e e',
      (initiate sampleInitiator sampleResponder.contact {} .silent sampleEphemeral
        sampleId).answer = .ok s ∧
      CollisionFree ((s.run sampleHandshake).derivations sampleEphemeral) ∧
      s.ratchet ⟨.outgoing, .twoDh⟩ = .ok before ∧ before.counter = 1 ∧
      (s.run sampleHandshake).ratchet ⟨.outgoing, .fourDh⟩ = .ok after ∧ after.counter = 2 ∧
      after.chainKey = some k ∧ before.encryptionKey = .ok e ∧ after.encryptionKey = .ok e' ∧
      e ≠ k ∧ e ≠ e' := by
  have hkeys : sampleKeys = .ok (1, 2, true) := by decide +kernel
  obtain ⟨s, hs, hkeys⟩ := bind_eq_ok hkeys
  obtain ⟨before, hbefore, hkeys⟩ := bind_eq_ok hkeys
  obtain ⟨after, hafter, hkeys⟩ := bind_eq_ok hkeys
  obtain ⟨hone, hkeys⟩ := Prod.mk.inj (Except.ok.inj hkeys)
  obtain ⟨htwo, hnodup⟩ := Prod.mk.inj hkeys
  have hfree : CollisionFree ((s.run sampleHandshake).derivations sampleEphemeral) :=
    .of_nodup (of_decide_eq_true hnodup)
  have hfirst : s.Passes sampleHandshake ⟨.outgoing, .twoDh⟩ before :=
    ⟨[], [], sampleHandshake, before, before, 0, 0, rfl, hbefore, hbefore, rfl, rfl⟩
  have hlast : s.Passes sampleHandshake ⟨.outgoing, .fourDh⟩ after :=
    ⟨sampleHandshake, [], [], after, after, 0, 0, rfl, hafter, hafter, rfl, rfl⟩
  obtain ⟨k, e, e', hk, he, he', hne, hused⟩ :=
    keys_used_once (.initiated hs) sampleHandshake hfree hfirst hlast
  exact ⟨s, before, after, k, e, e', hs, hfree, hbefore, hone, hafter, htwo, hk, he, he', hne,
    fun hsame => nomatch (hused hsame).1⟩

end Session

end RatchetSession
