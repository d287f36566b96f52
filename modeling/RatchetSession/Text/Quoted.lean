import RatchetSession.Text.Unprintable
import RatchetSession.Bytes

/-!
# Quoted text

A text is shown between single quotes, or double ones if it holds a single and no double quote.
The quote in use and the backslash are escaped; so are characters that cannot be shown, by their
code in two, four or eight hexadecimal digits.
-/

set_option autoImplicit false
set_option relaxedAutoImplicit false

namespace RatchetSession.Quoted

def code : Nat → Nat → List Char
  | 0, _ => []
  | n + 1, v => code n (v / 16) ++ [Nat.digitChar (v % 16)]

/-- A character as it stands between the quotes `q`. -/
def escape (shown : Char → Bool) (q c : Char) : List Char :=
  if c = q ∨ c = '\\' then ['\\', c]
  else if c = '\n' then ['\\', 'n']
  else if c = '\r' then ['\\', 'r']
  else if c = '\t' then ['\\', 't']
  else if shown c then [c]
  else if c.toNat < 0x100 then '\\' :: 'x' :: code 2 c.toNat
  else if c.toNat < 0x10000 then '\\' :: 'u' :: code 4 c.toNat
  else '\\' :: 'U' :: code 8 c.toNat

def enclose (shown : Char → Bool) (cs : List Char) : List Char :=
  let q := if cs.contains '\'' && !cs.contains '"' then '"' else '\''
  q :: cs.flatMap (escape shown q) ++ [q]

def text (s : String) : String :=
  String.ofList (enclose (fun c => !Unprintable.contains c) s.toList)

/-- A byte string between quotes, after a `b`; only the visible ASCII characters and the space
stand for themselves. -/
def bytes (b : Bytes) : String :=
  String.ofList ('b' :: enclose (fun c => 0x20 ≤ c.toNat && c.toNat < 0x7f)
    (b.map fun o => Char.ofNat o.toNat))

end RatchetSession.Quoted
