import RatchetSession.Memory.Operation

/-!
# Scenarios

A scenario holds any number of parties, contacts, sessions, ratchets and messages under names, and
goes on by commands. A session or a ratchet is an object in memory, which its name refers to; names
may refer to one object, and to a ratchet that a session refers to as well.
-/

set_option autoImplicit false
set_option relaxedAutoImplicit false

namespace RatchetSession

inductive Scenario.Referent
  | party (l : LocalIdentity)
  | contact (c : Contact)
  /-- The session at a place in memory. -/
  | session (a : Nat)
  /-- The ratchet at a place in memory, whoever else refers to it. -/
  | ratchet (x : Nat)
  | message (b : Bytes)
deriving DecidableEq

structure Scenario where
  names : List (String × Scenario.Referent) := []
  memory : Memory := {}
deriving DecidableEq

namespace Scenario

inductive Failure
  | unknownName (name : String)
  /-- What the name stands for cannot take the command. -/
  | unsuitable (name : String)
  | config (complaints : List Config.Complaint)
  | fault (f : Fault)
deriving DecidableEq

def Failure.message : Failure → String
  | .unknownName name => s!"{name} was not made by an earlier step"
  | .unsuitable name => s!"{name} cannot take this step"
  | .config complaints => ", ".intercalate (complaints.map (·.problem.message))
  | .fault f => f.message

inductive Part
  | publicKey
  | identifier
  | identifierOctets
  | ephemeralKey
deriving DecidableEq

inductive Source
  | given (offer : Offered)
  | part (name : String) (p : Part)

inductive Settings
  | standard
  | checked (d : Config.Draft)
  | unchecked (maxSkip initialCounter : Option Int)

structure Meeting where
  store : String
  peer : String
  settings : Settings := .standard
  listener : Listener := .silent

structure ChannelWords where
  direction : String
  generation : String

/-- `as` is the name that a command binds, `on` the name that it works on. -/
inductive Command
  | store (as : String) (identity : Option String) (secret : Offered)
  | storeBase64 (as : String) (identity : Option String) (secret : String)
  | generateStore (as : String) (identity : Option String)
  | contact (as : String) (identity : Option String) (key : Source)
  | contactOf (as on : String)
  | storeAgreement (on : String) (key : Source)
  | ratchet (as : String) (chainKey : Offered) (counter maxSkip : Option Int)
  | initiate (as : String) (m : Meeting)
  | respond (as : String) (m : Meeting) (sessionId ephemeral : Source)
  | newSession (as : String) (m : Meeting) (sessionId : Source) (role : String)
      (ephemeralPublic : Offered) (ephemeralSecret : Option Bytes)
  | accept (on : String) (ephemeral longTerm : Source)
  | discardTwoDh (on : String)
  | grab (as on : String) (c : ChannelWords)
  | copy (as on : String)
  | discard (on : String)
  | encryptionKey (on : String) (c : Option ChannelWords)
  | associatedData (on : String) (c : ChannelWords)
  | turn (on : String) (c : Option ChannelWords) (times : Nat)
  | turnUntil (on : String) (c : Option ChannelWords) (target : Int)
  | encrypt (as on : String) (c : ChannelWords) (text : Bytes)
  | decrypt (on : String) (c : ChannelWords) (message : String)
  | describe (on : String)

namespace Command

def subject? : Command → Option String
  | .contactOf _ on | .storeAgreement on _ | .accept on _ _ | .discardTwoDh on | .grab _ on _
  | .copy _ on | .discard on | .encryptionKey on _ | .associatedData on _ | .turn on _ _
  | .turnUntil on _ _ | .encrypt _ on _ _ | .decrypt on _ _ | .describe on => some on
  | .store .. | .storeBase64 .. | .generateStore .. | .contact .. | .ratchet .. | .initiate ..
  | .respond .. | .newSession .. => none

end Command

inductive Reply
  | done
  | octets (b : Bytes)
  | turns (n : Nat)
  /-- The short and the long text of a value. -/
  | texts (short long : String)
deriving DecidableEq

def Reply.ofAnswer : Answer → Reply
  | .done => .done
  | .octets b => .octets b
  | .turns n => .turns n

inductive View
  | party (l : LocalIdentity)
  | contact (c : Contact)
  | session (s : Session)
  | ratchet (r : Ratchet)
deriving DecidableEq

structure Report where
  answer : Except Failure Reply
  view : Option View := none
  draws : Nat := 0
  events : List Event := []
  log : List LogRecord := []

def referent? (w : Scenario) (name : String) : Option Referent :=
  (w.names.find? (·.1 = name)).map (·.2)

def bind (w : Scenario) (name : String) (v : Referent) : Scenario :=
  { w with names := (name, v) :: w.names.filter (·.1 ≠ name) }

theorem referent?_bind_self (w : Scenario) (name : String) (v : Referent) :
    (w.bind name v).referent? name = some v := by
  simp [referent?, bind]

theorem referent?_bind_of_ne (w : Scenario) {name other : String} (v : Referent)
    (h : other ≠ name) : (w.bind name v).referent? other = w.referent? other := by
  simp only [referent?, bind, List.find?_cons]
  rw [decide_eq_false (Ne.symm h)]
  simp only [List.find?_filter]
  congr 2
  funext p
  by_cases hp : p.1 = other
  · simp [hp, h]
  · simp [hp]

def addSession (w : Scenario) (name : String) (s : Session) : Scenario :=
  { w.bind name (.session w.memory.sessions.size) with memory := w.memory.addSession s }

def addRatchet (w : Scenario) (name : String) (r : Ratchet) : Scenario :=
  { w.bind name (.ratchet w.memory.ratchets.size) with memory := w.memory.addRatchet r }

/-- The state of what is referred to. -/
def state? (w : Scenario) : Referent → Option View
  | .party l => some (.party l)
  | .contact c => some (.contact c)
  | .session a => (w.memory.session? a).map .session
  | .ratchet x => w.memory.ratchets[x]?.map fun _ => .ratchet (w.memory.ratchet x)
  | .message _ => none

def view? (w : Scenario) (name : String) : Option View := (w.referent? name).bind w.state?

end Scenario

end RatchetSession
