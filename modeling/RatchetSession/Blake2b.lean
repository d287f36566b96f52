import RatchetSession.Bytes

/-!
# BLAKE2b

The hash is run on an `Input`: the 64-octet parameter block and the 128-octet message blocks.
`Input.ofMessage` lays out key, salt, personalization and message in them, and `Input.digest` is a
function of the input alone, so equal inputs are all that two runs can have in common.
-/

set_option autoImplicit false
set_option relaxedAutoImplicit false

namespace RatchetSession.Blake2b

def blockSize : Nat := 128

/-- Four of the words that the compression function works on. -/
structure Quad where
  a : UInt64
  b : UInt64
  c : UInt64
  d : UInt64
deriving DecidableEq

namespace Quad

def rotate (x n : UInt64) : UInt64 := (x >>> n) ||| (x <<< (64 - n))

/-- Two message words are mixed into four working words. -/
def mix (q : Quad) (x y : UInt64) : Quad :=
  let a := q.a + q.b + x
  let d := rotate (q.d ^^^ a) 32
  let c := q.c + d
  let b := rotate (q.b ^^^ c) 24
  let a := a + b + y
  let d := rotate (d ^^^ a) 16
  let c := c + d
  let b := rotate (b ^^^ c) 63
  ⟨a, b, c, d⟩

def xor (p q : Quad) : Quad := ⟨p.a ^^^ q.a, p.b ^^^ q.b, p.c ^^^ q.c, p.d ^^^ q.d⟩

def words (q : Quad) : List UInt64 := [q.a, q.b, q.c, q.d]

end Quad

/-- The sixteen working words; a quad is a column. -/
structure Grid where
  first : Quad
  second : Quad
  third : Quad
  fourth : Quad

namespace Grid

/-- Row `i` is turned left by `i` places, which makes diagonals columns. -/
def shear (g : Grid) : Grid where
  first := ⟨g.first.a, g.second.b, g.third.c, g.fourth.d⟩
  second := ⟨g.second.a, g.third.b, g.fourth.c, g.first.d⟩
  third := ⟨g.third.a, g.fourth.b, g.first.c, g.second.d⟩
  fourth := ⟨g.fourth.a, g.first.b, g.second.c, g.third.d⟩

/-- Row `i` is turned right by `i` places. -/
def unshear (g : Grid) : Grid where
  first := ⟨g.first.a, g.fourth.b, g.third.c, g.second.d⟩
  second := ⟨g.second.a, g.first.b, g.fourth.c, g.third.d⟩
  third := ⟨g.third.a, g.second.b, g.first.c, g.fourth.d⟩
  fourth := ⟨g.fourth.a, g.third.b, g.second.c, g.first.d⟩

/-- One round: columns, then diagonals, on the words of the block taken in the order `o`. -/
def round (m : Array UInt64) (g : Grid) (o : Array Nat) : Grid :=
  let x (i : Nat) : UInt64 := m.getD (o.getD i 0) 0
  let g : Grid := shear ⟨g.first.mix (x 0) (x 1), g.second.mix (x 2) (x 3),
    g.third.mix (x 4) (x 5), g.fourth.mix (x 6) (x 7)⟩
  unshear ⟨g.first.mix (x 8) (x 9), g.second.mix (x 10) (x 11),
    g.third.mix (x 12) (x 13), g.fourth.mix (x 14) (x 15)⟩

end Grid

/-- The orders in which the twelve rounds take the words of a block. -/
def schedule : List (Array Nat) := [
  #[0, 1, 2, 3, 4, 5, 6, 7, 8, 9, 10, 11, 12, 13, 14, 15],
  #[14, 10, 4, 8, 9, 15, 13, 6, 1, 12, 0, 2, 11, 7, 5, 3],
  #[11, 8, 12, 0, 5, 2, 15, 13, 10, 14, 3, 6, 7, 1, 9, 4],
  #[7, 9, 3, 1, 13, 12, 11, 14, 2, 6, 5, 10, 4, 0, 15, 8],
  #[9, 0, 5, 7, 2, 4, 10, 15, 14, 1, 11, 12, 6, 8, 3, 13],
  #[2, 12, 6, 10, 0, 11, 8, 3, 4, 13, 7, 5, 15, 14, 1, 9],
  #[12, 5, 1, 15, 14, 13, 4, 10, 0, 7, 6, 3, 9, 2, 8, 11],
  #[13, 11, 7, 14, 12, 1, 3, 9, 5, 0, 15, 4, 8, 6, 2, 10],
  #[6, 15, 14, 9, 11, 3, 0, 8, 12, 2, 13, 7, 1, 4, 10, 5],
  #[10, 2, 8, 4, 7, 6, 1, 5, 15, 11, 9, 14, 3, 12, 13, 0],
  #[0, 1, 2, 3, 4, 5, 6, 7, 8, 9, 10, 11, 12, 13, 14, 15],
  #[14, 10, 4, 8, 9, 15, 13, 6, 1, 12, 0, 2, 11, 7, 5, 3]]

structure Carry where
  low : Quad
  high : Quad
deriving DecidableEq

def initial : Carry where
  low := ⟨0x6a09e667f3bcc908, 0xbb67ae8584caa73b, 0x3c6ef372fe94f82b, 0xa54ff53a5f1d36f1⟩
  high := ⟨0x510e527fade682d1, 0x9b05688c2b3e6c1f, 0x1f83d9abfb41bd6b, 0x5be0cd19137e2179⟩

/-- The first `n` words of a byte string, each eight octets with the least significant first. -/
def words : Nat → Bytes → List UInt64
  | 0, _ => []
  | n + 1, b => (Bytes.value (b.take 8)).toUInt64 :: words n (b.drop 8)

/-- The grid in which a block is compressed, `size` octets into the message. -/
def start (h : Carry) (size : Nat) (last : Bool) : Grid where
  first := ⟨h.low.a, h.high.a, initial.low.a, initial.high.a ^^^ size.toUInt64⟩
  second := ⟨h.low.b, h.high.b, initial.low.b, initial.high.b ^^^ (size >>> 64).toUInt64⟩
  third := ⟨h.low.c, h.high.c, initial.low.c,
    if last then initial.high.c ^^^ 0xffffffffffffffff else initial.high.c⟩
  fourth := ⟨h.low.d, h.high.d, initial.low.d, initial.high.d⟩

def compress (h : Carry) (block : Bytes) (size : Nat) (last : Bool) : Carry :=
  let m := (words 16 block).toArray
  let g := schedule.foldl (Grid.round m) (start h size last)
  { low := h.low.xor ⟨g.first.a ^^^ g.first.c, g.second.a ^^^ g.second.c,
      g.third.a ^^^ g.third.c, g.fourth.a ^^^ g.fourth.c⟩
    high := h.high.xor ⟨g.first.b ^^^ g.first.d, g.second.b ^^^ g.second.d,
      g.third.b ^^^ g.third.d, g.fourth.b ^^^ g.fourth.d⟩ }

structure Input where
  /-- The parameter block, 64 octets. -/
  parameters : Bytes
  /-- The message blocks, the last one padded with zero octets. -/
  blocks : List Bytes
  /-- Octets in the blocks before padding. -/
  size : Nat
deriving DecidableEq

def parameterBlock (digestSize keySize : Nat) (salt person : Bytes) : Bytes :=
  [digestSize.toUInt8, keySize.toUInt8, 1, 1] ++ List.replicate 28 0 ++ Bytes.padTo 16 salt
    ++ Bytes.padTo 16 person

namespace Input

/-- A key fills a block of its own before the message; there is always at least one block. -/
def ofMessage (digestSize : Nat) (key salt person message : Bytes) : Input :=
  let text := (if key = [] then [] else Bytes.padTo blockSize key) ++ message
  { parameters := parameterBlock digestSize key.length salt person
    blocks := Bytes.chunks blockSize (max 1 ((text.length + 127) / blockSize)) text
    size := text.length }

/-- The blocks are compressed in order, the first of them `offset` octets into the message. -/
def absorb (size : Nat) : Nat → List Bytes → Carry → Carry
  | _, [], h => h
  | _, [b], h => compress h b size true
  | offset, b :: c :: rest, h =>
    absorb size (offset + blockSize) (c :: rest) (compress h b (offset + blockSize) false)

/-- The words carried into the first block: the fixed words, altered by the parameter block. -/
def opening (i : Input) : Carry :=
  match words 8 i.parameters with
  | [p₀, p₁, p₂, p₃, p₄, p₅, p₆, p₇] =>
    { low := initial.low.xor ⟨p₀, p₁, p₂, p₃⟩, high := initial.high.xor ⟨p₄, p₅, p₆, p₇⟩ }
  | _ => initial

def digest (i : Input) : Bytes :=
  let h := absorb i.size 0 i.blocks i.opening
  (h.low.words ++ h.high.words).flatMap fun w => Bytes.leastFirst 8 w.toNat

theorem length_digest (i : Input) : i.digest.length = 64 := by
  simp [digest, Quad.words]

end Input

def hash (digestSize : Nat) (message : Bytes) : Bytes :=
  (Input.ofMessage digestSize [] [] [] message).digest.take digestSize

theorem length_hash {n : Nat} (h : n ≤ 64) (message : Bytes) : (hash n message).length = n := by
  simp [hash, Input.length_digest, h]

inductive Limit
  /-- The size of the digest is no signed integer of 32 bits. -/
  | digestSizeWord
  | digestSize
  | saltSize
  | personSize
  | keySize
deriving DecidableEq

/-- A size can be passed on as a signed integer of 32 bits. -/
def IsWord (n : Int) : Prop := -0x80000000 ≤ n ∧ n < 0x80000000

instance (n : Int) : Decidable (IsWord n) :=
  inferInstanceAs (Decidable (-0x80000000 ≤ n ∧ n < 0x80000000))

/-- A run of the hash, which looks at every parameter first. -/
def run (digestSize : Int) (key salt person message : Bytes) : Except Limit Bytes :=
  if ¬ IsWord digestSize then .error .digestSizeWord
  else if digestSize < 1 ∨ 64 < digestSize then .error .digestSize
  else if 16 < salt.length then .error .saltSize
  else if 16 < person.length then .error .personSize
  else if 64 < key.length then .error .keySize
  else .ok ((Input.ofMessage digestSize.toNat key salt person message).digest.take digestSize.toNat)

end RatchetSession.Blake2b
