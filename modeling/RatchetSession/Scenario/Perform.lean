import RatchetSession.Scenario.Basic

/-!
# Commands of a scenario

A command first looks its names up, the one it works on first and the others from left to right;
then it acts. One that fails still reports what it drew and logged and shows what it worked on.
-/

set_option autoImplicit false
set_option relaxedAutoImplicit false

namespace RatchetSession.Scenario

def lookup (w : Scenario) (name : String) : Except Failure Referent :=
  match w.referent? name with
  | some v => .ok v
  | none => .error (.unknownName name)

def party (w : Scenario) (name : String) : Except Failure LocalIdentity := do
  match ← w.lookup name with
  | .party l => return l
  | _ => throw (.unsuitable name)

/-- The contact with a name; a party stands for what others know of it. -/
def contact (w : Scenario) (name : String) : Except Failure Contact := do
  match ← w.lookup name with
  | .contact c => return c
  | .party l => return l.contact
  | _ => throw (.unsuitable name)

def session (w : Scenario) (name : String) : Except Failure (Nat × Session) := do
  match ← w.lookup name with
  | .session a =>
    match w.memory.session? a with
    | some s => return (a, s)
    | none => throw (.unsuitable name)
  | _ => throw (.unsuitable name)

def ratchet (w : Scenario) (name : String) : Except Failure Nat := do
  match ← w.lookup name with
  | .ratchet x => return x
  | _ => throw (.unsuitable name)

def message (w : Scenario) (name : String) : Except Failure Bytes := do
  match ← w.lookup name with
  | .message b => return b
  | _ => throw (.unsuitable name)

def sessionPart? (s : Session) : Part → Option Offered
  | .identifier => some (.identifier s.id)
  | .identifierOctets => some (.fixed s.id.bytes.val)
  | .ephemeralKey => some s.ephemeralPublic
  | .publicKey => none

/-- A part of what a name stands for, as it would be offered. -/
def part (w : Scenario) (name : String) (p : Part) : Except Failure Offered := do
  let found : Option Offered :=
    match ← w.lookup name, p with
    | .party l, .publicKey => some (.fixed l.publicKey.val)
    | .contact c, .publicKey => some (.fixed c.key.val)
    | .session a, p => (w.memory.session? a).bind (sessionPart? · p)
    | _, _ => none
  match found with
  | some offer => return offer
  | none => throw (.unsuitable name)

def resolve (w : Scenario) : Source → Except Failure Offered
  | .given offer => .ok offer
  | .part name p => w.part name p

def Settings.build : Settings → Except Failure Config
  | .standard => .ok {}
  | .checked d => (Config.build d).mapError .config
  | .unchecked maxSkip initialCounter =>
    let standard : Config := {}
    .ok ⟨maxSkip.getD standard.maxSkip, initialCounter.getD standard.initialCounter⟩

def meet (w : Scenario) (m : Meeting) : Except Failure (LocalIdentity × Contact × Config) := do
  return (← w.party m.store, ← w.contact m.peer, ← m.settings.build)

/-- The channel that words name; the direction is looked at first. -/
def ChannelWords.channel (c : ChannelWords) : Except Failure Channel :=
  match Direction.ofText? c.direction with
  | none => .error (.fault (.unknownWord .direction c.direction))
  | some d =>
    match Generation.ofText? c.generation with
    | none => .error (.fault (.unknownWord .generation c.generation))
    | some g => .ok ⟨d, g⟩

/-- What a command did: the scenario afterwards, the report, and whose state a success shows. -/
structure Result where
  after : Scenario
  report : Report
  shown : Option String := none

def lift {α : Type} (e : Except Fault α) : Except Failure α := e.mapError .fault

def reportOf {σ α : Type} (o : Outcome σ α) (reply : α → Reply) : Report where
  answer := lift (o.answer.map reply)
  draws := o.draws
  events := o.events
  log := o.log

def bound (w : Scenario) (name : String) (v : Referent) : Result where
  after := w.bind name v
  report := { answer := .ok .done }
  shown := some name

def made (w : Scenario) (name : String) (r : Ratchet) : Result where
  after := w.addRatchet name r
  report := { answer := .ok .done }
  shown := some name

/-- A new session is bound and shown, if there is one. -/
def opened (w : Scenario) (name : String) (o : Outcome Unit Session) : Result where
  after :=
    match o.answer with
    | .ok s => w.addSession name s
    | .error _ => w
  report := reportOf o fun _ => .done
  shown := some name

def worked (w : Scenario) (o : Outcome Memory Answer) (shown : Option String) : Result where
  after := { w with memory := o.after }
  report := reportOf o .ofAnswer
  shown := shown

def onSession (w : Scenario) (a : Nat) (s : Session) (op : Session.Operation)
    (shown : Option String) : Result :=
  w.worked (w.memory.perform a s op) shown

def onRatchet (w : Scenario) (name : String) (op : Ratchet.Operation) : Except Failure Result := do
  return w.worked (w.memory.performOn (← w.ratchet name) op) (some name)

def onEither (w : Scenario) (name : String) (c : Option ChannelWords)
    (onChannel : Channel → Session.Operation) (op : Ratchet.Operation) (shown : Option String) :
    Except Failure Result := do
  match ← w.lookup name, c with
  | .session _, some c =>
    let (a, s) ← w.session name
    return w.onSession a s (onChannel (← c.channel)) shown
  | _, _ => w.onRatchet name op

def draw₂ (n m : Nat) (random : List Bytes) : Sized n × Sized m :=
  (Bytes.fit n (random.headD []), Bytes.fit m (random.tail.headD []))

/-- What a command does, unless it fails before it acts. -/
def act (w : Scenario) (random : List Bytes) : Command → Except Failure Result
  | .store as identity secret => do
    return w.bound as (.party (← lift (LocalIdentity.make identity secret)))
  | .storeBase64 as identity secret => do
    return w.bound as (.party (← lift (LocalIdentity.ofBase64 identity secret)))
  | .generateStore as identity =>
    let secret := Bytes.fit 32 (random.headD [])
    match LocalIdentity.make identity (.fixed secret.val) with
    | .ok l =>
      let d := w.bound as (.party l)
      .ok { d with report := { d.report with draws := 1 } }
    | .error f => .ok { after := w, report := { answer := .error (.fault f), draws := 1 } }
  | .contact as identity key => do
    let key ← w.resolve key
    return w.bound as (.contact (← lift (Contact.make identity key)))
  | .contactOf as on => do
    return w.bound as (.contact (← w.party on).contact)
  | .storeAgreement on key => do
    let l ← w.party on
    let key ← w.resolve key
    let z ← lift (l.agree key)
    return { after := w, report := { answer := .ok (.octets z.val) } }
  | .ratchet as chainKey counter maxSkip => do
    let r ← lift ((Ratchet.make chainKey counter maxSkip).mapError .ratchet)
    return w.made as r
  | .initiate as m => do
    let (me, peer, config) ← w.meet m
    let (secret, id) := draw₂ 32 16 random
    return w.opened as (Session.initiate me peer config m.listener secret ⟨id⟩)
  | .respond as m sessionId ephemeral => do
    let (me, peer, config) ← w.meet m
    let sessionId ← w.resolve sessionId
    let ephemeral ← w.resolve ephemeral
    let secret := Bytes.fit 32 (random.headD [])
    return w.opened as (Session.respond me peer config m.listener sessionId ephemeral secret)
  | .newSession as m sessionId role ephemeralPublic ephemeralSecret => do
    let (me, peer, config) ← w.meet m
    let sessionId ← w.resolve sessionId
    let id ← lift (SessionId.make sessionId)
    match Role.ofText? role with
    | none => .error (.fault (.unknownWord .role role))
    | some role =>
      let s := Session.bare id role me peer config m.listener ephemeralPublic ephemeralSecret
      return w.opened as { after := (), answer := s }
  | .accept on ephemeral longTerm => do
    let (a, s) ← w.session on
    let ephemeral ← w.resolve ephemeral
    let longTerm ← w.resolve longTerm
    return w.onSession a s (.accept ephemeral longTerm) (some on)
  | .discardTwoDh on => do
    let (a, s) ← w.session on
    return w.onSession a s .discardTwoDh (some on)
  | .grab as on c => do
    let (a, s) ← w.session on
    let c ← c.channel
    let x ← lift (Memory.field a s c w.memory).answer
    return w.bound as (.ratchet x)
  | .copy as on => do
    let x ← w.ratchet on
    let r ← lift ((w.memory.copy x).mapError .ratchet)
    return w.made as r
  | .discard on => w.onRatchet on .discard
  | .encryptionKey on c => w.onEither on c .encryptionKey .encryptionKey none
  | .associatedData on c => do
    let (a, s) ← w.session on
    return w.onSession a s (.associatedData (← c.channel)) none
  | .turn on c times => w.onEither on c .turn (.turn times) (some on)
  | .turnUntil on c target =>
    w.onEither on c (fun c => .turnUntil c target) (.turnUntil target) (some on)
  | .encrypt as on c text => do
    let (_, s) ← w.session on
    let o := s.encrypt (← c.channel) text (Bytes.fit 12 (random.headD []))
    let after :=
      match o.answer with
      | .ok b => w.bind as (.message b)
      | .error _ => w
    return { after, report := reportOf o .octets }
  | .decrypt on c message => do
    let (_, s) ← w.session on
    let c ← c.channel
    let _ ← lift (s.encryptionKey c)
    let text ← lift (s.decrypt c (← w.message message))
    return { after := w, report := { answer := .ok (.octets text) } }
  | .describe on => do
    let texts ← match w.view? on with
      | some (.session s) => pure (Reply.texts s.summary.text s.summary.describe)
      | some (.ratchet r) => pure (Reply.texts r.describe r.describe)
      | some _ => throw (.unsuitable on)
      | none => throw (.unknownName on)
    return { after := w, report := { answer := .ok texts }, shown := some on }

/-- One command: the scenario afterwards and the report, with the state that it shows. -/
def perform (w : Scenario) (random : List Bytes) (command : Command) : Scenario × Report :=
  match w.act random command with
  | .error e => (w, { answer := .error e, view := command.subject?.bind w.view? })
  | .ok d =>
    match d.report.answer with
    | .ok _ => (d.after, { d.report with view := d.shown.bind d.after.view? })
    | .error _ => (d.after, { d.report with view := command.subject?.bind d.after.view? })

end RatchetSession.Scenario
