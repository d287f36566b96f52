import RatchetSession.Bytes

/-!
# AES

The block cipher with keys of 16, 24 or 32 octets, in the enciphering direction only, which is all
that counter mode needs. Octets are elements of the field of 256 elements; `substitute` is its
reciprocal followed by an affine map.
-/

set_option autoImplicit false
set_option relaxedAutoImplicit false

namespace RatchetSession.Aes

def twice (x : UInt8) : UInt8 := (x <<< 1) ^^^ (if x < 128 then 0 else 0x1b)

/-- The product of two elements, by the lowest `n` binary digits of the second. -/
def productLow (x : UInt8) : Nat → UInt8 → UInt8
  | 0, _ => 0
  | n + 1, y => (if y % 2 = 0 then 0 else x) ^^^ twice (productLow x n (y >>> 1))

def product (x y : UInt8) : UInt8 := productLow x 8 y

/-- The reciprocal, and zero for zero: the power 254. -/
def reciprocal (x : UInt8) : UInt8 :=
  let x2 := product x x
  let x4 := product x2 x2
  let x8 := product x4 x4
  let x16 := product x8 x8
  let x32 := product x16 x16
  let x64 := product x32 x32
  let x128 := product x64 x64
  product x128 (product x64 (product x32 (product x16 (product x8 (product x4 x2)))))

def rotate (x n : UInt8) : UInt8 := (x <<< n) ||| (x >>> (8 - n))

def substitution (x : UInt8) : UInt8 :=
  let y := reciprocal x
  y ^^^ rotate y 1 ^^^ rotate y 2 ^^^ rotate y 3 ^^^ rotate y 4 ^^^ 0x63

def table : Array UInt8 := ((List.range 256).map fun i => substitution i.toUInt8).toArray

def substitute (x : UInt8) : UInt8 := table.getD x.toNat 0

structure Word where
  b₀ : UInt8
  b₁ : UInt8
  b₂ : UInt8
  b₃ : UInt8
deriving DecidableEq

namespace Word

def zero : Word := ⟨0, 0, 0, 0⟩

def xor (v w : Word) : Word := ⟨v.b₀ ^^^ w.b₀, v.b₁ ^^^ w.b₁, v.b₂ ^^^ w.b₂, v.b₃ ^^^ w.b₃⟩

def substituted (w : Word) : Word :=
  ⟨substitute w.b₀, substitute w.b₁, substitute w.b₂, substitute w.b₃⟩

def turned (w : Word) : Word := ⟨w.b₁, w.b₂, w.b₃, w.b₀⟩

def mixed (w : Word) : Word :=
  let all := w.b₀ ^^^ w.b₁ ^^^ w.b₂ ^^^ w.b₃
  ⟨w.b₀ ^^^ all ^^^ twice (w.b₀ ^^^ w.b₁), w.b₁ ^^^ all ^^^ twice (w.b₁ ^^^ w.b₂),
    w.b₂ ^^^ all ^^^ twice (w.b₂ ^^^ w.b₃), w.b₃ ^^^ all ^^^ twice (w.b₃ ^^^ w.b₀)⟩

def ofBytes : Bytes → Word
  | [a, b, c, d] => ⟨a, b, c, d⟩
  | a :: b :: c :: d :: _ => ⟨a, b, c, d⟩
  | _ => zero

def toBytes (w : Word) : Bytes := [w.b₀, w.b₁, w.b₂, w.b₃]

end Word

structure Block where
  first : Word
  second : Word
  third : Word
  fourth : Word
deriving DecidableEq

namespace Block

def ofBytes (b : Bytes) : Block :=
  ⟨Word.ofBytes b, Word.ofBytes (b.drop 4), Word.ofBytes (b.drop 8), Word.ofBytes (b.drop 12)⟩

def toBytes (b : Block) : Bytes :=
  b.first.toBytes ++ b.second.toBytes ++ b.third.toBytes ++ b.fourth.toBytes

@[simp] theorem length_toBytes (b : Block) : b.toBytes.length = 16 := rfl

def xor (a b : Block) : Block :=
  ⟨a.first.xor b.first, a.second.xor b.second, a.third.xor b.third, a.fourth.xor b.fourth⟩

def substituted (b : Block) : Block :=
  ⟨b.first.substituted, b.second.substituted, b.third.substituted, b.fourth.substituted⟩

/-- Row `i` turned left by `i` places. -/
def shifted (b : Block) : Block where
  first := ⟨b.first.b₀, b.second.b₁, b.third.b₂, b.fourth.b₃⟩
  second := ⟨b.second.b₀, b.third.b₁, b.fourth.b₂, b.first.b₃⟩
  third := ⟨b.third.b₀, b.fourth.b₁, b.first.b₂, b.second.b₃⟩
  fourth := ⟨b.fourth.b₀, b.first.b₁, b.second.b₂, b.third.b₃⟩

def mixed (b : Block) : Block := ⟨b.first.mixed, b.second.mixed, b.third.mixed, b.fourth.mixed⟩

end Block

def IsKeySize (n : Nat) : Prop := n = 16 ∨ n = 24 ∨ n = 32

instance (n : Nat) : Decidable (IsKeySize n) := inferInstanceAs (Decidable (_ ∨ _ ∨ _))

/-- The constant added to every `i`-th group of key words: the power `i - 1` of the generator. -/
def roundConstant : Nat → UInt8
  | 0 => 0
  | 1 => 1
  | n + 2 => twice (roundConstant (n + 1))

/-- The words `ws`, of which the first `nk` are the key itself, followed by `n` more. -/
def extend (nk : Nat) : Nat → Array Word → Array Word
  | 0, ws => ws
  | n + 1, ws =>
    let i := ws.size
    let last := ws.getD (i - 1) Word.zero
    let step :=
      if i % nk = 0 then last.turned.substituted.xor ⟨roundConstant (i / nk), 0, 0, 0⟩
      else if 6 < nk ∧ i % nk = 4 then last.substituted
      else last
    extend nk n (ws.push ((ws.getD (i - nk) Word.zero).xor step))

def keyWords (key : Bytes) : Array Word :=
  ((Bytes.chunks 4 (key.length / 4) key).map Word.ofBytes).toArray

def roundKey (ws : Array Word) (i : Nat) : Block :=
  ⟨ws.getD (4 * i) Word.zero, ws.getD (4 * i + 1) Word.zero, ws.getD (4 * i + 2) Word.zero,
    ws.getD (4 * i + 3) Word.zero⟩

def schedule (key : Bytes) : List Block :=
  let nk := key.length / 4
  let ws := extend nk (4 * (nk + 7) - nk) (keyWords key)
  (List.range (nk + 7)).map (roundKey ws)

/-- The rounds after the first key has been added; the last one does not mix. -/
def rounds : List Block → Block → Block
  | [], b => b
  | [k], b => b.substituted.shifted.xor k
  | k :: l :: ks, b => rounds (l :: ks) (b.substituted.shifted.mixed.xor k)

def encipher (keys : List Block) (b : Block) : Block :=
  match keys with
  | [] => b
  | k :: ks => rounds ks (b.xor k)

end RatchetSession.Aes
