import RatchetSession.Config
import RatchetSession.KeyAgreement
import RatchetSession.KeyDerivation

/-!
# Ratchets

A one-way chain of keys. Every turn replaces the chain key by a key derived from it; the key of a
message is derived from the chain key under another label and never enters the chain.
-/

set_option autoImplicit false
set_option relaxedAutoImplicit false

namespace RatchetSession

structure Ratchet where
  /-- The current chain key, until it is discarded. -/
  chainKey : Option Key
  /-- The counter that belongs to the chain key. -/
  counter : Nat
  /-- The most turns that one catch-up may perform. -/
  maxSkip : Int
deriving DecidableEq

namespace Ratchet

inductive Fault
  | chainKeySize (length : Nat)
  | counterOutOfRange (counter : Int)
  | discarded (counter : Nat)
  | counterExhausted
  | targetOutOfRange (target : Int)
  /-- The target lies behind the counter. -/
  | regression (counter : Nat) (target : Int)
  /-- The target lies too far ahead of the counter. -/
  | skipTooLarge (counter : Nat) (target maxSkip : Int)
  /-- The text of another fault would hold an integer of too many digits. -/
  | unwritable
deriving DecidableEq

namespace Fault

/-- The most digits that an integer may have in a text. -/
def digitLimit : Nat := 4300

/-- The least number that has more digits. -/
def leastOverlong : Nat := Nat.pow 10 digitLimit

/-- The integers in the text of a fault that nothing bounds. -/
def numbers : Fault → List Int
  | .counterOutOfRange counter => [counter]
  | .targetOutOfRange target => [target]
  | .regression _ target => [target]
  | .skipTooLarge counter target maxSkip => [target - counter, maxSkip]
  | .chainKeySize _ | .discarded _ | .counterExhausted | .unwritable => []

/-- No integer in the text of the fault has too many digits. -/
def Writable (f : Fault) : Prop := ∀ n ∈ f.numbers, n.natAbs < leastOverlong

instance (f : Fault) : Decidable f.Writable :=
  inferInstanceAs (Decidable (∀ n ∈ f.numbers, n.natAbs < leastOverlong))

/-- The fault as it is reported, with its text written out. -/
def reported (f : Fault) : Fault := if f.Writable then f else .unwritable

theorem reported_of_writable {f : Fault} (h : f.Writable) : f.reported = f := if_pos h

theorem reported_of_not_writable {f : Fault} (h : ¬ f.Writable) : f.reported = .unwritable :=
  if_neg h

end Fault

def nextChainKey (k : Key) : Key := KeyDerivation.derive32 k.val (Bytes.ascii "kdf-ck")

def messageKey (k : Key) : Key := KeyDerivation.derive32 k.val (Bytes.ascii "kdf-aek")

def start (chainKey : Key) (counter maxSkip : Int) : Except Fault Ratchet :=
  if 0 ≤ counter ∧ counter ≤ maxCounter then .ok ⟨some chainKey, counter.toNat, maxSkip⟩
  else .error (Fault.counterOutOfRange counter).reported

/-- A ratchet at an offered chain key; counter and bound default to those of the configuration. -/
def make (chainKey : Offered) (counter maxSkip : Option Int) : Except Fault Ratchet :=
  match chainKey.octets?.bind (Sized.ofBytes? 32) with
  | none => .error (.chainKeySize chainKey.length)
  | some k =>
    let standard : Config := {}
    start k (counter.getD standard.initialCounter) (maxSkip.getD standard.maxSkip)

def liveKey (r : Ratchet) : Except Fault Key :=
  match r.chainKey with
  | some k => .ok k
  | none => .error (.discarded r.counter)

def encryptionKey (r : Ratchet) : Except Fault Key := r.liveKey.map messageKey

def turn (r : Ratchet) : Except Fault Ratchet :=
  match r.liveKey with
  | .error f => .error f
  | .ok k =>
    if maxCounter ≤ r.counter then .error .counterExhausted
    else .ok { r with chainKey := some (nextChainKey k), counter := r.counter + 1 }

/-- The ratchet after up to `n` turns, which end at the first that fails. -/
def turns : Nat → Ratchet → Ratchet × Except Fault Unit
  | 0, r => (r, .ok ())
  | n + 1, r =>
    match r.turn with
    | .ok r' => turns n r'
    | .error f => (r, .error f)

/-- The number of turns that lead to a target, unless there is a reason to refuse it. -/
def turnsTo (r : Ratchet) (target : Int) : Except Fault Nat :=
  match r.liveKey with
  | .error f => .error f
  | .ok _ =>
    if target < r.counter then .error (Fault.regression r.counter target).reported
    else if r.maxSkip < target - r.counter then
      .error (Fault.skipTooLarge r.counter target r.maxSkip).reported
    else if maxCounter < target then .error (Fault.targetOutOfRange target).reported
    else .ok (target - r.counter).toNat

/-- The ratchet turned until its counter reaches the target, and the number of turns. Turns made
before one that fails are not taken back. -/
def turnUntil (r : Ratchet) (target : Int) : Ratchet × Except Fault Nat :=
  match r.turnsTo target with
  | .error f => (r, .error f)
  | .ok n =>
    let (r', e) := r.turns n
    (r', e.map fun () => n)

def discard (r : Ratchet) : Ratchet := { r with chainKey := none }

def describe (r : Ratchet) : String :=
  let state := if r.chainKey.isSome then "active" else "discarded"
  s!"KDFRatchet(counter={r.counter}, {state})"

end Ratchet

end RatchetSession
