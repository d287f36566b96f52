import RatchetSession.Bytes

/-!
# Channels

A session has a channel for each direction of each generation of keys. The words for roles,
directions, generations and phases are part of texts and of what is authenticated.
-/

set_option autoImplicit false
set_option relaxedAutoImplicit false

namespace RatchetSession

inductive Role
  | initiator
  | responder
deriving DecidableEq

inductive Direction
  | outgoing
  | incoming
deriving DecidableEq

/-- The number of key agreements that the keys rest on. -/
inductive Generation
  | twoDh
  | fourDh
deriving DecidableEq

structure Channel where
  direction : Direction
  generation : Generation
deriving DecidableEq

def Channel.all : List Channel :=
  [⟨.outgoing, .twoDh⟩, ⟨.incoming, .twoDh⟩, ⟨.outgoing, .fourDh⟩, ⟨.incoming, .fourDh⟩]

inductive Phase
  /-- The keys of four agreements are not known yet. -/
  | initiatorTwoDh
  /-- The keys of four agreements are known, those of two are still kept. -/
  | responderFourDh
  /-- Only the keys of four agreements are left. -/
  | established
deriving DecidableEq

namespace Role

def text : Role → String
  | .initiator => "initiator"
  | .responder => "responder"

def ofText? (s : String) : Option Role :=
  if s = "initiator" then some .initiator else if s = "responder" then some .responder else none

end Role

namespace Direction

def text : Direction → String
  | .outgoing => "outgoing"
  | .incoming => "incoming"

def ofText? (s : String) : Option Direction :=
  if s = "outgoing" then some .outgoing else if s = "incoming" then some .incoming else none

/-- The direction as the other party sees it. -/
def opposite : Direction → Direction
  | .outgoing => .incoming
  | .incoming => .outgoing

end Direction

namespace Generation

def text : Generation → String
  | .twoDh => "2dh"
  | .fourDh => "4dh"

def ofText? (s : String) : Option Generation :=
  if s = "2dh" then some .twoDh else if s = "4dh" then some .fourDh else none

/-- What precedes the identity in the label of a chain. -/
def label : Generation → Bytes
  | .twoDh => Bytes.ascii "ke-2dh-"
  | .fourDh => Bytes.ascii "ke-4dh-"

end Generation

namespace Phase

def text : Phase → String
  | .initiatorTwoDh => "initiator-2dh"
  | .responderFourDh => "responder-4dh"
  | .established => "established"

end Phase

end RatchetSession
