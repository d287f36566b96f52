import RatchetSession.Text.Blank

/-!
# Integers in text

White space around the number is trimmed. A sign may stand before the digits, single underscores
between them, and a point and zeros after them. Leading zeros do not count towards the limit on
the number of digits. A text that starts with too many digits is refused for its length at once,
whatever follows them; where they come to light only by clearing the text, it is malformed.
-/

set_option autoImplicit false
set_option relaxedAutoImplicit false

namespace RatchetSession.IntegerText

inductive Refusal
  | malformed
  | tooLong
deriving DecidableEq

def maxDigits : Nat := 4300

def digit? (c : Char) : Option Nat :=
  if '0' ≤ c ∧ c ≤ '9' then some (c.toNat - '0'.toNat) else none

/-- The digits of a number, in which single underscores may stand between two digits. -/
def digits? : List Char → Option (List Nat)
  | [] => none
  | [c] => (digit? c).map ([·])
  | c :: d :: rest =>
    match digit? c with
    | none => none
    | some v => (if d = '_' then digits? rest else digits? (d :: rest)).map (v :: ·)

def splitSign : List Char → Bool × List Char
  | '-' :: rest => (true, rest)
  | '+' :: rest => (false, rest)
  | cs => (false, cs)

/-- What follows the digits: nothing, or a point and at least one zero. -/
def isFraction : List Char → Bool
  | [] => true
  | '.' :: zeros => !zeros.isEmpty && zeros.all (· = '0')
  | _ => false

def value (ds : List Nat) : Nat := ds.foldl (fun n d => 10 * n + d) 0

/-- The sign, negative or not, and the digits of a text, without white space, underscores, leading
zeros and the fraction. -/
def cleared? (cs : List Char) : Option (Bool × List Nat) :=
  let (negative, body) := splitSign (Blank.trim cs)
  if isFraction (body.dropWhile (· ≠ '.')) then
    (digits? (body.takeWhile (· ≠ '.'))).map fun ds => (negative, ds.dropWhile (· = 0))
  else none

/-- The digits that a text starts with, a minus sign apart. -/
def leadingDigits (cs : List Char) : List Nat :=
  let unsigned := if cs.head? = some '-' then cs.tail else cs
  (unsigned.takeWhile fun c => (digit? c).isSome).filterMap digit?

/-- The text starts with more digits than a number may have, and not with a zero. -/
def startsTooLong (cs : List Char) : Bool :=
  let ds := leadingDigits cs
  ds.head? ≠ some 0 && maxDigits < ds.length

def parse (s : String) : Except Refusal Int :=
  if startsTooLong s.toList then .error .tooLong
  else
    match cleared? s.toList with
    | none => .error .malformed
    | some (negative, ds) =>
      if maxDigits < ds.length then .error .malformed
      else .ok (if negative then -(value ds : Int) else value ds)

end RatchetSession.IntegerText
