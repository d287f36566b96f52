import RatchetSession.Binary64
import RatchetSession.Bytes
import RatchetSession.Text.IntegerText

/-!
# Configuration

Two numbers that both parties have to agree on. A configuration is built from values of several
kinds or from environment variables, and is then within its bounds: `valid_of_build` and
`valid_ofEnvironment`.
-/

set_option autoImplicit false
set_option relaxedAutoImplicit false

namespace RatchetSession

def maxCounter : Nat := 0xffffffffffffffff

/-- What every ratchet of a session starts with. -/
structure Config where
  /-- The most turns that one catch-up may perform. -/
  maxSkip : Int := 10000
  /-- The counter of the first chain key. -/
  initialCounter : Int := 1
deriving DecidableEq

namespace Config

inductive Field
  | maxSkip
  | initialCounter
deriving DecidableEq

namespace Field

def name : Field → String
  | .maxSkip => "max_skip"
  | .initialCounter => "initial_counter"

def variableName : Field → String
  | .maxSkip => "FS_MAX_SKIP"
  | .initialCounter => "FS_INITIAL_COUNTER"

/-- The largest value allowed, if there is one; the smallest is zero. -/
def upper? : Field → Option Nat
  | .maxSkip => none
  | .initialCounter => some maxCounter

end Field

inductive Value
  | integer (n : Int)
  | float (x : Binary64)
  | text (s : String)
  | truth (b : Bool)
  | bytes (b : Bytes)
  | list
  | null

inductive Problem
  | notInteger
  | unreadable
  | tooManyDigits
  | fractional
  | notFinite
  | tooSmall
  | tooLarge (limit : Nat)
  | frozen
deriving DecidableEq

namespace Problem

def name : Problem → String
  | .notInteger => "int_type"
  | .unreadable => "int_parsing"
  | .tooManyDigits => "int_parsing_size"
  | .fractional => "int_from_float"
  | .notFinite => "finite_number"
  | .tooSmall => "greater_than_equal"
  | .tooLarge _ => "less_than_equal"
  | .frozen => "frozen_instance"

def message : Problem → String
  | .notInteger => "Input should be a valid integer"
  | .unreadable => "Input should be a valid integer, unable to parse string as an integer"
  | .tooManyDigits => "Unable to parse input string as an integer, exceeded maximum size"
  | .fractional => "Input should be a valid integer, got a number with a fractional part"
  | .notFinite => "Input should be a finite number"
  | .tooSmall => "Input should be greater than or equal to 0"
  | .tooLarge limit => s!"Input should be less than or equal to {limit}"
  | .frozen => "Instance is frozen"

end Problem

structure Complaint where
  setting : String
  problem : Problem
deriving DecidableEq

def integerOfText (s : String) : Except Problem Int :=
  match IntegerText.parse s with
  | .ok n => .ok n
  | .error .malformed => .error .unreadable
  | .error .tooLong => .error .tooManyDigits

/-- The integer equal to a finite number; one of `2 ^ 63` or more is out of reach. -/
def integerOfFloat : Binary64 → Except Problem Int
  | .notANumber | .infinite _ => .error .notFinite
  | .finite negative significand exponent =>
    match Binary64.whole? significand exponent with
    | none => .error .fractional
    | some n =>
      if 0x8000000000000000 ≤ n then .error .tooManyDigits
      else .ok (if negative then -(n : Int) else n)

def Value.toInteger : Value → Except Problem Int
  | .integer n => .ok n
  | .float x => integerOfFloat x
  | .text s => integerOfText s
  | .truth b => .ok (if b then 1 else 0)
  | .bytes b =>
    match String.fromUTF8? ⟨b.toArray⟩ with
    | some s => integerOfText s
    | none => .error .unreadable
  | .list | .null => .error .notInteger

def Field.read (f : Field) (v : Value) : Except Problem Int :=
  match v.toInteger with
  | .error p => .error p
  | .ok n =>
    if n < 0 then .error .tooSmall
    else
      match f.upper? with
      | some limit => if (limit : Int) < n then .error (.tooLarge limit) else .ok n
      | none => .ok n

/-- The values offered, with nothing where the default is wanted. -/
structure Draft where
  maxSkip : Option Value := none
  initialCounter : Option Value := none

def Field.settle (f : Field) (standard : Int) : Option Value → Except (List Complaint) Int
  | none => .ok standard
  | some v =>
    match f.read v with
    | .ok n => .ok n
    | .error p => .error [⟨f.name, p⟩]

/-- The configuration of a draft, or the complaints about all its settings. -/
def build (d : Draft) : Except (List Complaint) Config :=
  match Field.settle .maxSkip 10000 d.maxSkip, Field.settle .initialCounter 1 d.initialCounter with
  | .ok m, .ok c => .ok ⟨m, c⟩
  | .error a, .error b => .error (a ++ b)
  | .error a, .ok _ => .error a
  | .ok _, .error b => .error b

/-- The configuration of an environment. A variable that is unset or empty leaves the default. -/
def ofEnvironment (env : String → Option String) : Except (List Complaint) Config :=
  let value (f : Field) : Option Value := ((env f.variableName).filter (· ≠ "")).map .text
  build ⟨value .maxSkip, value .initialCounter⟩

/-- A name that starts with an underscore is private to whoever holds the configuration. -/
def isPrivate (name : String) : Bool := name.toList.head? = some '_'

/-- Assigns a value to a name. A setting cannot be changed, nor can any other public name be
given a value; a private name can, and leaves the settings as they are. -/
def set (c : Config) (name : String) (_ : Value) : Except (List Complaint) Config :=
  if isPrivate name then .ok c else .error [⟨name, .frozen⟩]

def describe (c : Config) : String :=
  s!"ForwardSecrecyConfig(max_skip={c.maxSkip}, initial_counter={c.initialCounter})"

def Valid (c : Config) : Prop :=
  0 ≤ c.maxSkip ∧ 0 ≤ c.initialCounter ∧ c.initialCounter ≤ maxCounter

theorem nonneg_of_read {f : Field} {v : Value} {n : Int} (h : f.read v = .ok n) : 0 ≤ n := by
  unfold Field.read at h
  split at h
  · simp at h
  · split at h
    · simp at h
    · split at h
      · split at h
        · simp at h
        · obtain rfl := Except.ok.inj h
          omega
      · obtain rfl := Except.ok.inj h
        omega

theorem le_of_read {v : Value} {n : Int} (h : Field.initialCounter.read v = .ok n) :
    n ≤ maxCounter := by
  unfold Field.read at h
  split at h
  · simp at h
  · split at h
    · simp at h
    · simp only [Field.upper?] at h
      split at h
      · simp at h
      · obtain rfl := Except.ok.inj h
        omega

theorem settle_eq_ok {f : Field} {standard n : Int} {v : Option Value}
    (h : f.settle standard v = .ok n) :
    v = none ∧ n = standard ∨ ∃ w, v = some w ∧ f.read w = .ok n := by
  unfold Field.settle at h
  split at h
  · exact .inl ⟨rfl, (Except.ok.inj h).symm⟩
  · rename_i w
    split at h
    · rename_i m hm
      obtain rfl := Except.ok.inj h
      exact .inr ⟨w, rfl, hm⟩
    · simp at h

theorem valid_of_build {d : Draft} {c : Config} (h : build d = .ok c) : c.Valid := by
  unfold build at h
  split at h <;> simp at h
  rename_i m n hm hn
  subst h
  refine ⟨?_, ?_, ?_⟩
  · rcases settle_eq_ok hm with ⟨-, rfl⟩ | ⟨v, -, hv⟩
    · show (0 : Int) ≤ 10000
      decide
    · exact nonneg_of_read hv
  · rcases settle_eq_ok hn with ⟨-, rfl⟩ | ⟨v, -, hv⟩
    · show (0 : Int) ≤ 1
      decide
    · exact nonneg_of_read hv
  · rcases settle_eq_ok hn with ⟨-, rfl⟩ | ⟨v, -, hv⟩
    · show (1 : Int) ≤ (maxCounter : Nat)
      decide
    · exact le_of_read hv

theorem valid_ofEnvironment {env : String → Option String} {c : Config}
    (h : ofEnvironment env = .ok c) : c.Valid :=
  valid_of_build h

end Config

end RatchetSession
