import Mathlib.Data.List.Forall2
import RatchetSession.Proofs.Lifecycle
import RatchetSession.Proofs.TwoRuns

/-!
# What keys leave no trace in

Parties start sessions, answer handshakes and work on their sessions and on ratchets taken from
them. Whoever follows what is told, logged and answered, every text of a failure and every
description, but is given no key, learns nothing of the secrets: `secrets_unseen`.
-/

set_option autoImplicit false
set_option relaxedAutoImplicit false

namespace RatchetSession

namespace Session

variable {keys : List Key} {me me' : LocalIdentity} {peer : Contact} {x y : Key}

private theorem checkPeer_twin (hme : me.Twin keys me') (peer : Contact) :
    checkPeer me peer = checkPeer me' peer := by
  rw [checkPeer, checkPeer, hme.identity]

private theorem opened_twin (hme : me.Twin keys me') (hown : Indifferent keys x y)
    (hpeer : peer.key ∈ keys) (config : Config) (listener : Listener) (id : SessionId)
    (k k' : Key) :
    Matched (Twin keys) (opened me peer config listener k x id)
      (opened me' peer config listener k' y id) := by
  refine Matched.bind (hown.agree (Offered.keys_fixed_subset hpeer)) fun _ _ _ => ?_
  refine Matched.bind (startRatchets_twin me me' peer config _ _ _) fun _ _ htwo => .ok ?_
  refine ⟨rfl, rfl, hme, rfl, hpeer, rfl, rfl, .kept hown, rfl, ?_⟩
  rintro ⟨_ | _, _ | _⟩
  · exact .live htwo.1
  · exact .empty
  · exact .live htwo.2
  · exact .empty

private theorem answered_twin (hme : me.Twin keys me') (hown : Indifferent keys x y)
    (hpeer : peer.key ∈ keys) {ephemeral : Offered} (hoffer : ephemeral.keys ⊆ keys)
    (config : Config) (listener : Listener) (id : SessionId) (k k' l l' : Key) :
    Matched (Twin keys) (answered me peer config listener id ephemeral k l x)
      (answered me' peer config listener id ephemeral k' l' y) := by
  refine Matched.bind (hown.agree (Offered.keys_fixed_subset hpeer)) fun _ _ _ => ?_
  refine Matched.bind (hown.agree hoffer) fun _ _ _ => ?_
  refine Matched.bind (startRatchets_twin me me' peer config _ _ _) fun _ _ htwo => ?_
  refine Matched.bind (startRatchets_twin me me' peer config _ _ _) fun _ _ hfour => .ok ?_
  refine ⟨rfl, rfl, hme, rfl, hpeer, rfl, rfl, .wiped, rfl, ?_⟩
  rintro ⟨_ | _, _ | _⟩
  · exact .empty
  · exact .live hfour.1
  · exact .live htwo.2
  · exact .live hfour.2

private theorem initiate_twin (hme : me.Twin keys me') (hown : Indifferent keys x y)
    (hpeer : peer.key ∈ keys) (config : Config) (listener : Listener) (id : SessionId) :
    Outcome.Twin (fun _ _ => True) (Twin keys) (initiate me peer config listener x id)
      (initiate me' peer config listener y id) := by
  unfold initiate
  rw [checkPeer_twin hme]
  cases checkPeer me' peer with
  | error f => exact .failed trivial f
  | ok u =>
    have hstatic : Matched Hidden (me.agree (.fixed peer.key.val))
        (me'.agree (.fixed peer.key.val)) :=
      hme.secret.agree (Offered.keys_fixed_subset hpeer)
    generalize me.agree (.fixed peer.key.val) = a, me'.agree (.fixed peer.key.val) = b at hstatic
    cases hstatic with
    | error f => exact .failed trivial f
    | @ok k k' _ =>
      have hopened := opened_twin hme hown hpeer config listener id k k'
      simp only
      generalize opened me peer config listener k x id = a,
        opened me' peer config listener k' y id = b at hopened
      cases hopened with
      | error f => exact ⟨trivial, .error f, rfl, rfl, rfl⟩
      | ok hs =>
        refine Outcome.Twin.tell ?_ _ (congrArg (Event.milestone _) hs.summary)
        exact ⟨trivial, .ok hs, rfl, rfl, rfl⟩

private theorem respond_twin (hme : me.Twin keys me') (hown : Indifferent keys x y)
    (hpeer : peer.key ∈ keys) {ephemeral : Offered} (hoffer : ephemeral.keys ⊆ keys)
    (config : Config) (listener : Listener) (sessionId : Offered) :
    Outcome.Twin (fun _ _ => True) (Twin keys)
      (respond me peer config listener sessionId ephemeral x)
      (respond me' peer config listener sessionId ephemeral y) := by
  unfold respond
  rw [checkPeer_twin hme]
  cases checkPeer me' peer with
  | error f => exact .failed trivial f
  | ok u =>
    simp only
    cases SessionId.ofOffer sessionId with
    | error f => exact .failed trivial f
    | ok id =>
      have hstatics : Matched (fun _ _ => True) (responderStatics me peer ephemeral)
          (responderStatics me' peer ephemeral) := by
        refine Matched.bind (hme.secret.agree (Offered.keys_fixed_subset hpeer)) fun _ _ _ => ?_
        exact Matched.bind (hme.secret.agree hoffer) fun _ _ _ => .ok trivial
      simp only
      generalize responderStatics me peer ephemeral = a,
        responderStatics me' peer ephemeral = b at hstatics
      cases hstatics with
      | error f => exact ⟨trivial, .error f, rfl, rfl, rfl⟩
      | @ok p q _ =>
        have hanswered := answered_twin hme hown hpeer hoffer config listener id p.1 q.1 p.2 q.2
        simp only
        generalize answered me peer config listener id ephemeral p.1 p.2 x = a,
          answered me' peer config listener id ephemeral q.1 q.2 y = b at hanswered
        cases hanswered with
        | error f => exact ⟨trivial, .error f, rfl, rfl, rfl⟩
        | ok hs =>
          refine Outcome.Twin.tell ?_ _ (congrArg (Event.milestone _) hs.summary)
          exact ⟨trivial, .ok hs, rfl, rfl, rfl⟩

/-- What can be seen of a session: its texts, its phase, the text of the party that holds it, and
texts and counters of its ratchets. -/
structure Face where
  text : String
  description : String
  phase : Phase
  holder : String
  ratchets : List (Option (String × Nat))
deriving DecidableEq

def face (s : Session) : Face where
  text := s.summary.text
  description := s.summary.describe
  phase := s.phase
  holder := s.me.describe
  ratchets :=
    [⟨.outgoing, .twoDh⟩, ⟨.incoming, .twoDh⟩, ⟨.outgoing, .fourDh⟩, ⟨.incoming, .fourDh⟩].map
      fun c : Channel => (s.slots.get c).ratchet?.map fun r => (r.describe, r.counter)

end Session

private theorem LocalIdentity.Twin.describe {keys : List Key} {l l' : LocalIdentity}
    (h : l.Twin keys l') : l.describe = l'.describe := by
  obtain ⟨identity, _⟩ := l
  obtain ⟨identity', _⟩ := l'
  obtain rfl : identity = identity' := h.identity
  rfl

private theorem Session.Twin.face {keys : List Key} {s t : Session} (h : s.Twin keys t) :
    s.face = t.face := by
  have hratchet (c : Channel) : ((s.slots.get c).ratchet?.map fun r => (r.describe, r.counter)) =
      (t.slots.get c).ratchet?.map fun r => (r.describe, r.counter) := by
    generalize s.slots.get c = x, t.slots.get c = y, h.slots c = hslot
    cases hslot with
    | empty => rfl
    | live hr => exact congrArg some (Prod.ext hr.describe hr.counter)
    | retired hr => exact congrArg some (Prod.ext hr.describe hr.counter)
  simp only [Session.face, h.summary, h.phase, h.me.describe, hratchet]

/-- The parties of a place, and the sessions that they have been given. -/
structure Desk where
  parties : List LocalIdentity
  sessions : List Session := []

/-- What is asked for at a desk. Parties and sessions are named by their places. -/
inductive Request
  | initiate (party : Nat) (peer : Contact) (config : Config) (listener : Listener)
      (id : SessionId)
  | respond (party : Nat) (peer : Contact) (config : Config) (listener : Listener)
      (sessionId ephemeral : Offered)
  | operate (place : Nat) (op : Session.Operation)
  /-- An operation on a ratchet that was taken from a session before. -/
  | handle (place : Nat) (c : Channel) (op : Ratchet.Operation)

def Request.keys : Request → List Key
  | .initiate _ peer _ _ _ => [peer.key]
  | .respond _ peer _ _ _ ephemeral => peer.key :: ephemeral.keys
  | .operate _ op => op.keys
  | .handle _ _ _ => []

/-- What can be heard of a request. A key that it gives is left out. -/
structure Heard where
  answer : Except Fault (Option Answer)
  draws : Nat
  events : List Event
  log : List LogRecord
deriving DecidableEq

def Outcome.heard {σ α : Type} (o : Outcome σ α) (shown : α → Option Answer) : Heard :=
  ⟨o.answer.map shown, o.draws, o.events, o.log⟩

private theorem Outcome.Twin.heard {σ τ α β : Type} {R : σ → τ → Prop} {S : α → β → Prop}
    {o : Outcome σ α} {o' : Outcome τ β} (h : Outcome.Twin R S o o') {shown : α → Option Answer}
    {shown' : β → Option Answer} (hshown : ∀ a b, S a b → shown a = shown' b) :
    o.heard shown = o'.heard shown' := by
  rw [Outcome.heard, Outcome.heard, (h.answer.map hshown).eq, h.draws, h.events, h.log]

namespace Desk

def receive (w : Desk) (o : Outcome Unit Session) : Desk :=
  match o.answer with
  | .ok s => { w with sessions := w.sessions ++ [s] }
  | .error _ => w

/-- The request is served; the secret is there to be drawn. Nothing is heard of a request for a
party or a session that is not there. -/
def serve (w : Desk) (secret : Key) : Request → Desk × Option Heard
  | .initiate party peer config listener id =>
    match w.parties[party]? with
    | none => (w, none)
    | some me =>
      let o := Session.initiate me peer config listener secret id
      (w.receive o, some (o.heard fun _ => some .done))
  | .respond party peer config listener sessionId ephemeral =>
    match w.parties[party]? with
    | none => (w, none)
    | some me =>
      let o := Session.respond me peer config listener sessionId ephemeral secret
      (w.receive o, some (o.heard fun _ => some .done))
  | .operate place op =>
    match w.sessions[place]? with
    | none => (w, none)
    | some s =>
      let o := s.perform op
      ({ w with sessions := w.sessions.set place o.after }, some (o.heard op.shown))
  | .handle place c op =>
    match w.sessions[place]? with
    | none => (w, none)
    | some s =>
      let o := s.performOnHandle c op
      ({ w with sessions := w.sessions.set place o.after }, some (o.heard op.shown))

/-- What can be heard of a request, and what can be seen of all parties and sessions after it. -/
structure Frame where
  heard : Option Heard
  parties : List String
  sessions : List Session.Face
deriving DecidableEq

def frame (w : Desk) (heard : Option Heard) : Frame where
  heard := heard
  parties := w.parties.map (·.describe)
  sessions := w.sessions.map (·.face)

/-- Everything that can be heard and seen while requests are served, each with one of two secrets to
draw. -/
def trace (one : Key × Key → Key) (w : Desk) : List ((Key × Key) × Request) → List Frame
  | [] => []
  | (secrets, q) :: rest =>
    (w.serve (one secrets) q).1.frame (w.serve (one secrets) q).2 ::
      (w.serve (one secrets) q).1.trace one rest

/-- The desks differ in no more than secrets and what was derived from them. -/
structure Twin (keys : List Key) (w w' : Desk) : Prop where
  parties : List.Forall₂ (LocalIdentity.Twin keys) w.parties w'.parties
  sessions : List.Forall₂ (Session.Twin keys) w.sessions w'.sessions

end Desk

private theorem getElem?_of_forall₂ {α β : Type} {R : α → β → Prop} {l : List α} {l' : List β}
    (h : List.Forall₂ R l l') (i : Nat) : Option.Rel R l[i]? l'[i]? := by
  induction h generalizing i with
  | nil => exact .none
  | cons ha _ ih =>
    cases i with
    | zero => exact .some ha
    | succ i => exact ih i

private theorem forall₂_set {α β : Type} {R : α → β → Prop} {l : List α} {l' : List β}
    (h : List.Forall₂ R l l') (i : Nat) {a : α} {b : β} (hab : R a b) :
    List.Forall₂ R (l.set i a) (l'.set i b) := by
  induction h generalizing i with
  | nil => exact .nil
  | cons ha hrest ih =>
    cases i with
    | zero => exact .cons hab hrest
    | succ i => exact .cons ha (ih i)

private theorem map_eq_of_forall₂ {α β γ : Type} {R : α → β → Prop} {l : List α} {l' : List β}
    {f : α → γ} {g : β → γ} (h : List.Forall₂ R l l') (hfg : ∀ a b, R a b → f a = g b) :
    l.map f = l'.map g := by
  induction h with
  | nil => rfl
  | cons ha _ ih => rw [List.map_cons, List.map_cons, hfg _ _ ha, ih]

namespace Desk.Twin

variable {keys : List Key} {w w' : Desk} {x y : Key} {q : Request}

private theorem frame (h : w.Twin keys w') (heard : Option Heard) :
    w.frame heard = w'.frame heard := by
  have hparties := map_eq_of_forall₂ h.parties fun _ _ hl => hl.describe
  have hsessions := map_eq_of_forall₂ h.sessions fun _ _ hs => hs.face
  rw [Desk.frame, Desk.frame, hparties, hsessions]

private theorem receive (h : w.Twin keys w') {o o' : Outcome Unit Session}
    (ho : Outcome.Twin (fun _ _ => True) (Session.Twin keys) o o') :
    (w.receive o).Twin keys (w'.receive o') := by
  unfold Desk.receive
  generalize o.answer = a, o'.answer = b, ho.answer = hanswer
  cases hanswer with
  | error f => exact h
  | ok hs => exact ⟨h.parties, List.rel_append h.sessions (.cons hs .nil)⟩

private theorem serve (h : w.Twin keys w') (hown : Indifferent keys x y) (hq : q.keys ⊆ keys) :
    (w.serve x q).1.Twin keys (w'.serve y q).1 ∧ (w.serve x q).2 = (w'.serve y q).2 := by
  have hset (place : Nat) {s t : Session} (hs : s.Twin keys t) :
      Twin keys { w with sessions := w.sessions.set place s }
        { w' with sessions := w'.sessions.set place t } :=
    ⟨h.parties, forall₂_set h.sessions place hs⟩
  cases q with
  | initiate party peer config listener id =>
    simp only [Desk.serve]
    generalize w.parties[party]? = a, w'.parties[party]? = b,
      getElem?_of_forall₂ h.parties party = hparty
    cases hparty with
    | none => exact ⟨h, rfl⟩
    | some hme =>
      have ho := Session.initiate_twin hme hown (hq List.mem_cons_self) config listener id
      exact ⟨h.receive ho, congrArg some (ho.heard fun _ _ _ => rfl)⟩
  | respond party peer config listener sessionId ephemeral =>
    obtain ⟨hpeer, hoffer⟩ := List.cons_subset.mp hq
    simp only [Desk.serve]
    generalize w.parties[party]? = a, w'.parties[party]? = b,
      getElem?_of_forall₂ h.parties party = hparty
    cases hparty with
    | none => exact ⟨h, rfl⟩
    | some hme =>
      have ho := Session.respond_twin hme hown hpeer hoffer config listener sessionId
      exact ⟨h.receive ho, congrArg some (ho.heard fun _ _ _ => rfl)⟩
  | operate place op =>
    simp only [Desk.serve]
    generalize w.sessions[place]? = a, w'.sessions[place]? = b,
      getElem?_of_forall₂ h.sessions place = hsession
    cases hsession with
    | none => exact ⟨h, rfl⟩
    | some hs =>
      have ho := hs.perform hq
      exact ⟨hset place ho.after, congrArg some (ho.heard fun _ _ hab => hab)⟩
  | handle place c op =>
    simp only [Desk.serve]
    generalize w.sessions[place]? = a, w'.sessions[place]? = b,
      getElem?_of_forall₂ h.sessions place = hsession
    cases hsession with
    | none => exact ⟨h, rfl⟩
    | some hs =>
      have ho := hs.performOnHandle c op
      exact ⟨hset place ho.after, congrArg some (ho.heard fun _ _ hab => hab)⟩

private theorem trace {requests : List ((Key × Key) × Request)} (h : w.Twin keys w')
    (hsecrets : ∀ q ∈ requests, Indifferent keys q.1.1 q.1.2)
    (hkeys : ∀ q ∈ requests, q.2.keys ⊆ keys) :
    w.trace Prod.fst requests = w'.trace Prod.snd requests := by
  induction requests generalizing w w' with
  | nil => rfl
  | cons q rest ih =>
    obtain ⟨hafter, hheard⟩ := h.serve (hsecrets q List.mem_cons_self) (hkeys q List.mem_cons_self)
    have hrest := ih hafter (fun q hq => hsecrets q (List.mem_cons_of_mem _ hq))
      (fun q hq => hkeys q (List.mem_cons_of_mem _ hq))
    rw [Desk.trace, Desk.trace, hrest, hheard, hafter.frame]

end Desk.Twin

def Desk.start (one : Key × Key → Key) (parties : List (Identity × Key × Key)) : Desk where
  parties := parties.map fun p => ⟨p.1, one p.2⟩

/-- The same requests are served twice, with other secrets of the parties and other secrets drawn.
If of no public key that is brought it depends on the secret whether there is a shared secret, then
all that is heard and seen is the same: how each request ends and with what fault, what was drawn,
told and logged, and the texts, phases and counters after it. -/
theorem secrets_unseen (parties : List (Identity × Key × Key))
    (requests : List ((Key × Key) × Request))
    (hzero : ∀ p ∈ parties.map Prod.snd ++ requests.map Prod.fst,
      Indifferent (requests.flatMap (·.2.keys)) p.1 p.2) :
    (Desk.start Prod.fst parties).trace Prod.fst requests =
      (Desk.start Prod.snd parties).trace Prod.snd requests := by
  have hstart : (Desk.start Prod.fst parties).Twin (requests.flatMap (·.2.keys))
      (Desk.start Prod.snd parties) := by
    refine ⟨?_, .nil⟩
    rw [Desk.start, Desk.start, List.forall₂_map_left_iff, List.forall₂_map_right_iff,
      List.forall₂_same]
    intro p hp
    exact ⟨rfl, hzero p.2 (List.mem_append_left _ (List.mem_map_of_mem hp))⟩
  refine hstart.trace (fun q hq => ?_) (fun q hq => ?_)
  · exact hzero q.1 (List.mem_append_right _ (List.mem_map_of_mem hq))
  · intro k hk
    exact List.mem_flatMap.mpr ⟨q, hq, hk⟩

def sampleParties : List (Identity × Key × Key) :=
  [(Session.sampleInitiator.identity, Session.sampleInitiator.secret,
    ⟨List.replicate 32 5, List.length_replicate⟩)]

/-- A handshake with the sample responder, of which either of two ephemeral secrets is drawn. An
ephemeral key of low order is refused in between. -/
def sampleRequests : List ((Key × Key) × Request) :=
  [((Session.sampleEphemeral, ⟨List.replicate 32 7, List.length_replicate⟩),
      .initiate 0 Session.sampleResponder.contact {} (.recorder []) Session.sampleId),
    ((Session.sampleEphemeral, Session.sampleEphemeral),
      .operate 0 (.accept (.fixed (List.replicate 32 0))
        (.fixed Session.sampleResponder.publicKey.val))),
    ((Session.sampleEphemeral, Session.sampleEphemeral),
      .operate 0 (.accept (.fixed (List.replicate 32 9))
        (.fixed Session.sampleResponder.publicKey.val)))]

theorem secrets_unseen_sample :
    (∀ p ∈ sampleParties.map Prod.snd ++ sampleRequests.map Prod.fst,
      Indifferent (sampleRequests.flatMap (·.2.keys)) p.1 p.2) ∧
    (Desk.start Prod.fst sampleParties).trace Prod.fst sampleRequests =
      (Desk.start Prod.snd sampleParties).trace Prod.snd sampleRequests ∧
    ((Desk.start Prod.fst sampleParties).trace Prod.fst sampleRequests).map
      (fun f => f.heard.map (·.answer)) =
        [some (.ok (some .done)), some (.error (.agreement .lowOrder)),
          some (.ok (some .done))] := by
  have hzero : ∀ p ∈ sampleParties.map Prod.snd ++ sampleRequests.map Prod.fst,
      Indifferent (sampleRequests.flatMap (·.2.keys)) p.1 p.2 := by decide +kernel
  exact ⟨hzero, secrets_unseen sampleParties sampleRequests hzero, by decide +kernel⟩

end RatchetSession
