import RatchetSession.Proofs.Exchange

/-!
# Delivery

`Underway` keeps the letters that are on their way between the counters of both parties: the
receiver is behind all of them and the sender ahead. So `letters_open`: the receiver opens every
letter that is not too far ahead of it.
-/

set_option autoImplicit false
set_option relaxedAutoImplicit false

namespace RatchetSession

/-- The letter is sealed with the key that its counter has on the chain that begins with `k`. -/
def Letter.SealedOn (l : Letter) (id : SessionId) (g : Generation) (initial : Nat) (k : Key) :
    Prop :=
  ∃ n, ∃ nonce : Nonce, l.counter = initial + n ∧
    l.message = nonce.val ++ Gcm.encrypt (Ratchet.messageKey (Ratchet.chainKeyAfter n k)).val nonce
      l.text (authenticated id g l.counter)

/-- What holds of an exchange that began with the pair `p`. -/
structure Underway (b : Key) (sender : Role) (g : Generation) (p : Pair) (x : Exchange) :
    Prop where
  since : ∃ moves, x.pair = p.run moves
  sealed : ∀ l ∈ x.flight, ∃ m, p.responder.material b g = .ok m ∧
    l.SealedOn (p.session sender).id g (p.session sender).config.initialCounter.toNat
      (firstChainKey g ((p.session sender).sender .outgoing) m)
  sorted : x.flight.Pairwise (·.counter ≤ ·.counter)
  ahead : ∀ l ∈ x.flight, ∃ n, (x.pair.session sender).reached ⟨.outgoing, g⟩ = some n ∧
    l.counter ≤ n
  behind : ∀ n, (x.pair.session sender.other).reached ⟨.incoming, g⟩ = some n →
    ∀ l ∈ x.flight, n ≤ l.counter
  /-- No receiver is ahead of its sender. -/
  following : ∀ n, (x.pair.session sender.other).reached ⟨.incoming, g⟩ = some n →
    n = (p.session sender).config.initialCounter.toNat ∨
      ∃ k, (x.pair.session sender).reached ⟨.outgoing, g⟩ = some k ∧ n ≤ k

namespace Underway

variable {a b : Key} {sender : Role} {g : Generation} {p : Pair} {x : Exchange}

private theorem begun (hp : Honest a b p) : Underway b sender g p ⟨p, []⟩ := by
  refine ⟨⟨[], rfl⟩, nofun, .nil, nofun, nofun, fun n hn => .inl ?_⟩
  have hfirst := (hp.founded sender.other).reached_eq hn
  rw [hfirst, hp.level_eq]

private theorem counted (h : Underway b sender g p x) (hp : Honest a b p) (role : Role) :
    (x.pair.session role).Counted := by
  obtain ⟨moves, hmoves⟩ := h.since
  rw [hmoves]
  exact hp.counted_run role moves

private theorem fixed (h : Underway b sender g p x) (role : Role) :
    (x.pair.session role).fixedPart = (p.session role).fixedPart := by
  obtain ⟨moves, hmoves⟩ := h.since
  rw [hmoves]
  exact Honest.fixed_run p role moves

private theorem since_move (h : Underway b sender g p x) (m : Role × Session.Operation) :
    ∃ moves, x.pair.move m = p.run moves := by
  obtain ⟨moves, hmoves⟩ := h.since
  refine ⟨moves ++ [m], ?_⟩
  rw [hmoves, Pair.run, Pair.run, List.foldl_append]
  rfl

private theorem lose (h : Underway b sender g p x) {rest : List Letter}
    (hrest : rest.Sublist x.flight) : Underway b sender g p { x with flight := rest } where
  since := h.since
  sealed l hl := h.sealed l (hrest.subset hl)
  sorted := h.sorted.sublist hrest
  ahead l hl := h.ahead l (hrest.subset hl)
  behind n hn l hl := h.behind n hn l (hrest.subset hl)
  following := h.following

private theorem moved_sender (h : Underway b sender g p x) (hp : Honest a b p)
    (op : Session.Operation) :
    Underway b sender g p { x with pair := x.pair.move (sender, op) } := by
  have hreceiver : (x.pair.move (sender, op)).session sender.other =
      x.pair.session sender.other := x.pair.session_move_of_ne sender.other_ne.symm
  have hlater {n : Nat} (hn : (x.pair.session sender).reached ⟨.outgoing, g⟩ = some n) :
      ∃ k, ((x.pair.move (sender, op)).session sender).reached ⟨.outgoing, g⟩ = some k ∧ n ≤ k := by
    rw [x.pair.session_move_self]
    exact (h.counted hp sender).run_reached hn [op]
  refine ⟨h.since_move _, h.sealed, h.sorted, fun l hl => ?_, fun n hn => ?_, fun n hn => ?_⟩
  · obtain ⟨n, hn, hle⟩ := h.ahead l hl
    obtain ⟨k, hk, hle'⟩ := hlater hn
    exact ⟨k, hk, Nat.le_trans hle hle'⟩
  · exact h.behind n (hreceiver ▸ hn)
  · rcases h.following n (hreceiver ▸ hn) with hfirst | ⟨k, hk, hle⟩
    · exact .inl hfirst
    · obtain ⟨k', hk', hle'⟩ := hlater hk
      exact .inr ⟨k', hk', Nat.le_trans hle hle'⟩

/-- The receiver goes on as it likes as long as it overtakes no letter and not the sender. -/
private theorem moved_receiver (h : Underway b sender g p x) (op : Session.Operation)
    (hnear : ∀ n, ((x.pair.session sender.other).perform op).after.reached ⟨.incoming, g⟩ = some n →
      (∀ l ∈ x.flight, n ≤ l.counter) ∧
        (n = (p.session sender).config.initialCounter.toNat ∨
          ∃ k, (x.pair.session sender).reached ⟨.outgoing, g⟩ = some k ∧ n ≤ k)) :
    Underway b sender g p { x with pair := x.pair.move (sender.other, op) } := by
  have hsender : (x.pair.move (sender.other, op)).session sender = x.pair.session sender :=
    x.pair.session_move_of_ne sender.other_ne
  refine ⟨h.since_move _, h.sealed, h.sorted, fun l hl => ?_, fun n hn => ?_, fun n hn => ?_⟩
  · rw [hsender]
    exact h.ahead l hl
  · rw [x.pair.session_move_self] at hn
    exact (hnear n hn).1
  · rw [x.pair.session_move_self] at hn
    rw [hsender]
    exact (hnear n hn).2

private theorem moved_elsewhere (h : Underway b sender g p x) (hp : Honest a b p)
    {op : Session.Operation} (hop : op.turned? ≠ some ⟨.incoming, g⟩) :
    Underway b sender g p { x with pair := x.pair.move (sender.other, op) } := by
  refine h.moved_receiver op fun n hn => ?_
  have hstep := Session.step_perform (x.pair.session sender.other) op
  rcases (h.counted hp sender.other).step_reached hstep ⟨.incoming, g⟩ with
    hsame | ⟨-, hfirst⟩ | ⟨hasked, -⟩
  · rw [hsame] at hn
    exact ⟨h.behind n hn, h.following n hn⟩
  · obtain ⟨-, -, -, -, hconfig, -⟩ := Session.fields_of_fixedPart (h.fixed sender.other)
    rw [hconfig, hp.level_eq] at hfirst
    obtain rfl := Option.some.inj (hfirst.symm.trans hn)
    refine ⟨fun l hl => ?_, .inl rfl⟩
    obtain ⟨_, -, k, _, hcounter, -⟩ := h.sealed l hl
    omega
  · exact absurd hasked hop

private theorem moved_to_letter {l : Letter} {rest : List Letter}
    (h : Underway b sender g p { x with flight := l :: rest }) :
    Underway b sender g p
      ⟨x.pair.move (sender.other, .turnUntil ⟨.incoming, g⟩ l.counter), rest⟩ := by
  have hsorted := List.pairwise_cons.mp h.sorted
  refine (h.lose (List.sublist_cons_self l rest)).moved_receiver _ fun n hn => ?_
  rcases (x.pair.session sender.other).reached_turnUntil ⟨.incoming, g⟩ l.counter with
    hsame | hthere
  · have hn' := hsame.symm.trans hn
    exact ⟨fun l' hl' => h.behind n hn' l' (List.mem_cons_of_mem l hl'), h.following n hn'⟩
  · obtain rfl := Option.some.inj (hthere.symm.trans hn)
    exact ⟨hsorted.1, .inr (h.ahead l List.mem_cons_self)⟩

private theorem letter (h : Underway b sender g p x) (hp : Honest a b p)
    (hknown : x.pair.Unmisled b g)
    {r : Ratchet} (hr : (x.pair.session sender).ratchet ⟨.outgoing, g⟩ = .ok r)
    (text : Bytes) (nonce : Nonce) :
    ∃ message,
      ((x.pair.session sender).encrypt ⟨.outgoing, g⟩ text nonce).answer = .ok message ∧
      (x.pair.session sender).letter? g text nonce = some ⟨r.counter, text, message⟩ ∧
      Underway b sender g p { x with flight := x.flight ++ [⟨r.counter, text, message⟩] } := by
  obtain ⟨moves, hmoves⟩ := h.since
  have hreached := Session.reached_of_ratchet hr
  rw [hmoves] at hr hknown
  obtain ⟨m, n, hm, hturned⟩ := hp.ratchet_run moves hr hknown
  rw [← hmoves] at hr
  have hkey : r.encryptionKey = .ok (Ratchet.messageKey (Ratchet.chainKeyAfter n
      (firstChainKey g ((p.session sender).sender .outgoing) m))) := by
    rw [hturned]
    rfl
  have hmessage := Session.encrypt_of_ratchet hr hkey text nonce
  obtain ⟨hid, -⟩ := Session.fields_of_fixedPart (h.fixed sender)
  rw [hid] at hmessage
  refine ⟨_, hmessage, ?_, h.since, ?_, ?_, ?_, ?_, h.following⟩
  · rw [Session.letter?, hr, hmessage]
  · refine List.forall_mem_append.mpr ⟨h.sealed, List.forall_mem_singleton.mpr ?_⟩
    refine ⟨m, hm, n, nonce, ?_, rfl⟩
    show r.counter = _
    rw [hturned]
    rfl
  · refine List.pairwise_append.mpr ⟨h.sorted, List.pairwise_singleton _ _, fun l hl => ?_⟩
    refine List.forall_mem_singleton.mpr ?_
    obtain ⟨k, hk, hle⟩ := h.ahead l hl
    obtain rfl := Option.some.inj (hreached.symm.trans hk)
    exact hle
  · exact List.forall_mem_append.mpr ⟨h.ahead, List.forall_mem_singleton.mpr
      ⟨r.counter, hreached, Nat.le_refl _⟩⟩
  · intro k hk
    refine List.forall_mem_append.mpr ⟨h.behind k hk, List.forall_mem_singleton.mpr ?_⟩
    rcases h.following k hk with hfirst | ⟨k', hk', hle⟩
    · have hrange := (h.counted hp sender).range _ _ hreached
      obtain ⟨-, -, -, -, hconfig, -⟩ := Session.fields_of_fixedPart (h.fixed sender)
      rw [hconfig] at hrange
      show k ≤ r.counter
      omega
    · obtain rfl := Option.some.inj (hreached.symm.trans hk')
      exact hle

private theorem step (h : Underway b sender g p x) (hp : Honest a b p)
    (hknown : x.pair.Unmisled b g) (e : Happening)
    (helsewhere : ∀ op, e = .moved sender.other op → op.turned? ≠ some ⟨.incoming, g⟩) :
    Underway b sender g p (x.step sender g e) := by
  cases e with
  | sent text nonce =>
    cases hr : (x.pair.session sender).ratchet ⟨.outgoing, g⟩ with
    | error f =>
      have hnone : (x.pair.session sender).letter? g text nonce = none := by
        rw [Session.letter?, hr]
      rw [Exchange.step, hnone]
      exact h
    | ok r =>
      obtain ⟨message, -, hletter, hposted⟩ := h.letter hp hknown hr text nonce
      rw [Exchange.step, hletter]
      exact hposted.moved_sender hp _
  | arrived lost =>
    cases hdrop : x.flight.drop lost with
    | nil =>
      rw [Exchange.step, hdrop]
      exact h
    | cons l rest =>
      have hlost := h.lose (x.flight.drop_sublist lost)
      rw [hdrop] at hlost
      rw [Exchange.step, hdrop]
      exact hlost.moved_to_letter
  | moved role op =>
    by_cases hrole : role = sender
    · subst hrole
      exact h.moved_sender hp op
    · obtain rfl : role = sender.other := by
        cases role <;> cases sender <;> first | rfl | exact absurd rfl hrole
      exact h.moved_elsewhere hp (helsewhere op rfl)

/-- The receiver's ratchet is on the chain that a letter was sealed on, some turns before it. -/
private theorem same_chain (h : Underway b sender g p x) (hp : Honest a b p)
    (hknown : x.pair.Unmisled b g) {l : Letter} (hl : l ∈ x.flight) {r : Ratchet}
    (hr : (x.pair.session sender.other).ratchet ⟨.incoming, g⟩ = .ok r) :
    ∃ k i n, ∃ nonce : Nonce,
      r = (Ratchet.fresh k (p.session sender.other).config).advance i ∧
      r.counter + n = l.counter ∧
      l.message = nonce.val ++ Gcm.encrypt
        (Ratchet.messageKey (Ratchet.chainKeyAfter (i + n) k)).val nonce l.text
        (authenticated (p.session sender).id g l.counter) := by
  obtain ⟨m, hm, turns, nonce, hcounter, hmessage⟩ := h.sealed l hl
  obtain ⟨n, hn⟩ := Nat.le.dest (h.behind r.counter (Session.reached_of_ratchet hr) l hl)
  obtain ⟨moves, hmoves⟩ := h.since
  rw [hmoves] at hr hknown
  obtain ⟨m', i, hm', hturned⟩ := hp.ratchet_run moves hr hknown
  obtain rfl : m' = m := Except.ok.inj (hm'.symm.trans hm)
  rw [Session.firstRatchet, hp.sender_eq] at hturned
  have hinitial : r.counter = (p.session sender).config.initialCounter.toNat + i := by
    rw [hturned, Ratchet.counter_advance_fresh, hp.level_eq]
  obtain rfl : turns = i + n := by omega
  exact ⟨_, i, n, nonce, hturned, hn, hmessage⟩

private theorem opens (h : Underway b sender g p x) (hp : Honest a b p)
    (hknown : x.pair.Unmisled b g)
    (hheard : ∀ e, ((p.session sender.other).listener.tell e).refused = false)
    {lost : Nat} {l : Letter} {rest : List Letter} {r : Ratchet}
    (hdrop : x.flight.drop lost = l :: rest)
    (hr : (x.pair.session sender.other).ratchet ⟨.incoming, g⟩ = .ok r)
    (hnear : (l.counter : Int) - r.counter ≤ (x.pair.session sender.other).config.maxSkip) :
    ∃ n, r.counter + n = l.counter ∧
      ((x.pair.session sender.other).perform (.turnUntil ⟨.incoming, g⟩ l.counter)).answer =
        .ok (.turns n) ∧
      ((x.step sender g (.arrived lost)).pair.session sender.other).decrypt ⟨.incoming, g⟩
        l.message = .ok l.text := by
  have hmem : l ∈ x.flight := List.mem_of_mem_drop (hdrop ▸ List.mem_cons_self)
  obtain ⟨k, i, n, nonce, hturned, hn, hmessage⟩ := h.same_chain hp hknown hmem hr
  have hfixed := h.fixed sender.other
  obtain ⟨hid, -, -, -, hconfig, -⟩ := Session.fields_of_fixedPart hfixed
  have hlistener : (x.pair.session sender.other).listener =
      (p.session sender.other).listener := by
    show (x.pair.session sender.other).fixedPart.listener = _
    rw [hfixed]
    rfl
  have hroom : r.counter + n ≤ maxCounter := by
    obtain ⟨j, hj, hle⟩ := h.ahead l hmem
    have hrange := (h.counted hp sender).range _ j hj
    omega
  have hkeyed : r.chainKey.isSome := by
    rw [hturned]
    rfl
  have hskip : (n : Int) ≤ r.maxSkip := by
    have hbound : r.maxSkip = (p.session sender.other).config.maxSkip := by
      rw [hturned]
      rfl
    rw [hconfig] at hnear
    omega
  have hkey : (r.advance n).encryptionKey =
      .ok (Ratchet.messageKey (Ratchet.chainKeyAfter (i + n) k)) := by
    rw [hturned, Ratchet.advance_advance, Ratchet.encryptionKey_advance_fresh]
  have htarget : (l.counter : Int) = r.counter + n := by omega
  obtain ⟨hafter, hanswer⟩ := Session.perform_turnUntil_of_le hr hkeyed hskip hroom
    (hlistener ▸ hheard)
  rw [← htarget] at hafter hanswer
  refine ⟨n, hn, hanswer, ?_⟩
  have hthere := Session.ratchet_putRatchet_self (r.advance n) hr
  have hopened := Session.decrypt_of_ratchet hthere hkey l.text nonce
  have hcount : (r.advance n).counter = l.counter := hn
  have hsession : ((x.pair.session sender.other).putRatchet ⟨.incoming, g⟩ (r.advance n)).id =
      (p.session sender).id := hid.trans hp.id_eq
  rw [hcount, hsession, ← hmessage] at hopened
  rw [Exchange.step, hdrop]
  show ((x.pair.move (sender.other, _)).session sender.other).decrypt _ _ = _
  rw [x.pair.session_move_self, hafter]
  exact hopened

end Underway

namespace Exchange

variable {a b : Key} {sender : Role} {g : Generation} {p : Pair}

private theorem step_pair (sender : Role) (g : Generation) (x : Exchange) (e : Happening) :
    ∃ moves, (x.step sender g e).pair = x.pair.run moves := by
  cases e with
  | sent text nonce =>
    cases hletter : (x.pair.session sender).letter? g text nonce with
    | none =>
      rw [step, hletter]
      exact ⟨[], rfl⟩
    | some l =>
      rw [step, hletter]
      exact ⟨[_], rfl⟩
  | arrived lost =>
    cases hdrop : x.flight.drop lost with
    | nil =>
      rw [step, hdrop]
      exact ⟨[], rfl⟩
    | cons l rest =>
      rw [step, hdrop]
      exact ⟨[_], rfl⟩
  | moved role op => exact ⟨[(role, op)], rfl⟩

private theorem run_pair (sender : Role) (g : Generation) (x : Exchange) (es : List Happening) :
    ∃ moves, (x.run sender g es).pair = x.pair.run moves := by
  induction es generalizing x with
  | nil => exact ⟨[], rfl⟩
  | cons e es ih =>
    obtain ⟨moves, hmoves⟩ := x.step_pair sender g e
    obtain ⟨moves', hmoves'⟩ := ih (x.step sender g e)
    refine ⟨moves ++ moves', ?_⟩
    rw [Pair.run, List.foldl_append]
    exact hmoves'.trans (congrArg (fun q : Pair => q.run moves') hmoves)

private theorem unmisled_of_run {x : Exchange} {es : List Happening}
    (hx : x.pair.initiator.WellPhased)
    (h : (x.run sender g es).pair.Unmisled b g) : x.pair.Unmisled b g := by
  intro hg
  cases he : x.pair.initiator.peerEphemeral with
  | none => exact .inl rfl
  | some e =>
    obtain ⟨moves, hmoves⟩ := x.run_pair sender g es
    have hstays : (x.run sender g es).pair.initiator.peerEphemeral = some e := by
      rw [hmoves, Pair.run_eq]
      exact hx.run_peerEphemeral he _
    have hend := h hg
    rwa [hstays] at hend

private theorem underway_run (hp : Honest a b p) {x : Exchange} (hx : Underway b sender g p x)
    {es : List Happening}
    (helsewhere : ∀ op, .moved sender.other op ∈ es → op.turned? ≠ some ⟨.incoming, g⟩)
    (hknown : (x.run sender g es).pair.Unmisled b g) :
    Underway b sender g p (x.run sender g es) := by
  induction es generalizing x with
  | nil => exact hx
  | cons e es ih =>
    have hphased : x.pair.initiator.WellPhased := (hx.counted hp .initiator).phased
    have hnow : x.pair.Unmisled b g := unmisled_of_run hphased hknown
    have hstep := hx.step hp hnow e fun op hop =>
      helsewhere op (hop ▸ List.mem_cons_self)
    exact ih hstep (fun op hop => helsewhere op (List.mem_cons_of_mem e hop)) hknown

end Exchange

private theorem Honest.of_factories {initiator responder : LocalIdentity} {configI configR : Config}
    {listenerI listenerR : Listener} {a b : Key} {id : SessionId} {I R : Session}
    (hI : (Session.initiate initiator responder.contact configI listenerI a id).answer = .ok I)
    (hR : (Session.respond responder initiator.contact configR listenerR (.identifier I.id)
      I.ephemeralPublic b).answer = .ok R)
    (hdh : Commuting initiator responder a b)
    (hlevel : configI.initialCounter = configR.initialCounter) : Honest a b ⟨I, R⟩ := by
  obtain ⟨hmeI, hconfigI⟩ := Session.initiate_given hI
  obtain ⟨hmeR, hconfigR, -⟩ := Session.respond_given hR
  refine ⟨fun role => ?_, .of_factories hI hR, ?_, ?_⟩
  · cases role with
    | initiator => exact .initiated hI
    | responder => exact .responded hR
  · exact hmeI ▸ hmeR ▸ hdh
  · exact hconfigI ▸ hconfigR ▸ hlevel

/-- Whatever two parties that count from the same number do besides, and whichever letters are lost,
a sender that has its ratchet can send, and a letter that arrives is opened if the receiver has its
ratchet and may skip as many counters. Only letters may turn the receiver's ratchet. For four
agreements, the initiator may have taken no ephemeral key but the responder's. -/
theorem letters_open {initiator responder : LocalIdentity} {configI configR : Config}
    {listenerI listenerR : Listener} {a b : Key} {id : SessionId} {I R : Session}
    (hI : (Session.initiate initiator responder.contact configI listenerI a id).answer = .ok I)
    (hR : (Session.respond responder initiator.contact configR listenerR (.identifier I.id)
      I.ephemeralPublic b).answer = .ok R)
    (hdh : Commuting initiator responder a b)
    (hlevel : configI.initialCounter = configR.initialCounter) (sender : Role) (g : Generation)
    (hheard : ∀ e, (((Pair.mk I R).session sender.other).listener.tell e).refused = false)
    {es : List Happening}
    (helsewhere : ∀ op, .moved sender.other op ∈ es → op.turned? ≠ some ⟨.incoming, g⟩) :
    let x := (Exchange.mk ⟨I, R⟩ []).run sender g es
    (g = .fourDh → x.pair.initiator.peerEphemeral = none ∨
      x.pair.initiator.peerEphemeral = R.ephemeralPublic.octets?) →
    (∀ text nonce r, (x.pair.session sender).ratchet ⟨.outgoing, g⟩ = .ok r →
      ∃ message,
        ((x.pair.session sender).encrypt ⟨.outgoing, g⟩ text nonce).answer = .ok message ∧
        (x.step sender g (.sent text nonce)).flight =
          x.flight ++ [⟨r.counter, text, message⟩]) ∧
    ∀ lost l rest r, x.flight.drop lost = l :: rest →
      (x.pair.session sender.other).ratchet ⟨.incoming, g⟩ = .ok r →
      (l.counter : Int) - r.counter ≤ (x.pair.session sender.other).config.maxSkip →
      ∃ n, r.counter + n = l.counter ∧
        ((x.pair.session sender.other).perform (.turnUntil ⟨.incoming, g⟩ l.counter)).answer =
          .ok (.turns n) ∧
        ((x.step sender g (.arrived lost)).pair.session sender.other).decrypt ⟨.incoming, g⟩
          l.message = .ok l.text := by
  intro x hgenuine
  have hp : Honest a b ⟨I, R⟩ := .of_factories hI hR hdh hlevel
  have hknown : x.pair.Unmisled b g := by
    obtain ⟨-, -, hpublic⟩ := Session.respond_given hR
    rw [hpublic] at hgenuine
    exact hgenuine
  have hx : Underway b sender g ⟨I, R⟩ x :=
    Exchange.underway_run hp (.begun hp) helsewhere hknown
  refine ⟨fun text nonce r hr => ?_, fun lost l rest r hdrop hr hnear => ?_⟩
  · obtain ⟨message, hmessage, hletter, -⟩ := hx.letter hp hknown hr text nonce
    refine ⟨message, hmessage, ?_⟩
    rw [Exchange.step, hletter]
  · exact hx.opens hp hknown hheard hdrop hr hnear

/-- The initiator sends two letters and completes the handshake while they are on their way. -/
def sampleHappenings (R : Session) : List Happening :=
  [.sent (Bytes.ascii "one") ⟨List.replicate 12 1, List.length_replicate⟩,
    .sent (Bytes.ascii "two") ⟨List.replicate 12 2, List.length_replicate⟩,
    .moved .initiator
      (.accept R.ephemeralPublic (.fixed Session.sampleResponder.publicKey.val))]

def sampleFlight : Except Fault (List (Nat × Bytes) × Nat × Int × Phase) := do
  let I ← (Session.initiate Session.sampleInitiator Session.sampleResponder.contact {} .silent
    Session.sampleEphemeral Session.sampleId).answer
  let R ← (Session.respond Session.sampleResponder Session.sampleInitiator.contact {} .silent
    (.identifier I.id) I.ephemeralPublic sampleResponderEphemeral).answer
  let x := (Exchange.mk ⟨I, R⟩ []).run .initiator .twoDh (sampleHappenings R)
  let r ← x.pair.responder.ratchet ⟨.incoming, .twoDh⟩
  return ((x.flight.drop 1).map fun l => (l.counter, l.text), r.counter,
    x.pair.responder.config.maxSkip, x.pair.initiator.phase)

theorem letters_open_sample :
    ∃ I R l, let x := (Exchange.mk ⟨I, R⟩ []).run .initiator .twoDh (sampleHappenings R)
      (Session.initiate Session.sampleInitiator Session.sampleResponder.contact {} .silent
        Session.sampleEphemeral Session.sampleId).answer = .ok I ∧
      (Session.respond Session.sampleResponder Session.sampleInitiator.contact {} .silent
        (.identifier I.id) I.ephemeralPublic sampleResponderEphemeral).answer = .ok R ∧
      x.pair.initiator.phase = .established ∧ x.flight.drop 1 = [l] ∧
      (x.pair.responder.perform (.turnUntil ⟨.incoming, .twoDh⟩ l.counter)).answer =
        .ok (.turns 1) ∧
      (x.step .initiator .twoDh (.arrived 1)).pair.responder.decrypt ⟨.incoming, .twoDh⟩
        l.message = .ok (Bytes.ascii "two") := by
  have hflight : sampleFlight = .ok ([(2, Bytes.ascii "two")], 1, 10000, .established) := by
    decide +kernel
  obtain ⟨I, hI, hflight⟩ := bind_eq_ok hflight
  obtain ⟨R, hR, hflight⟩ := bind_eq_ok hflight
  obtain ⟨r, hr, hflight⟩ := bind_eq_ok hflight
  obtain ⟨hletters, hflight⟩ := Prod.mk.inj (Except.ok.inj hflight)
  obtain ⟨hcounter, hflight⟩ := Prod.mk.inj hflight
  obtain ⟨hskip, hphase⟩ := Prod.mk.inj hflight
  have hlistener : R.listener = .silent := by
    obtain ⟨-, -, _, _, _, _, _, _, -, -, -, -, -, -, rfl⟩ := Session.respond_eq_ok hR
    rfl
  obtain ⟨l, hdrop, hl⟩ := List.map_eq_singleton_iff.mp hletters
  obtain ⟨hnumber, htext⟩ := Prod.mk.inj hl
  have hheard (e : Event) : (R.listener.tell e).refused = false := by
    rw [hlistener]
    rfl
  have helsewhere (op : Session.Operation)
      (hop : .moved .responder op ∈ sampleHappenings R) :
      op.turned? ≠ some ⟨.incoming, .twoDh⟩ := by
    simp [sampleHappenings] at hop
  obtain ⟨-, hopen⟩ :=
    letters_open hI hR commuting_sample rfl .initiator .twoDh hheard helsewhere nofun
  obtain ⟨n, hn, hanswer, hopened⟩ := hopen 1 l [] r hdrop hr (by
    rw [hnumber, hcounter]
    exact hskip.symm ▸ by decide)
  obtain rfl : n = 1 := by omega
  exact ⟨I, R, l, hI, hR, hphase, hdrop, hanswer, htext ▸ hopened⟩

end RatchetSession
