/-!
# Byte strings

A byte string is a list of octets. Numbers are written in a given count of octets, least or most
significant first; `value_leastFirst` says that reading inverts writing on numbers that fit.
-/

set_option autoImplicit false
set_option relaxedAutoImplicit false

namespace RatchetSession

abbrev Bytes := List UInt8

abbrev Sized (n : Nat) := { b : Bytes // b.length = n }

def Sized.ofBytes? (n : Nat) (b : Bytes) : Option (Sized n) :=
  if h : b.length = n then some ⟨b, h⟩ else none

theorem Sized.ofBytes?_val {n : Nat} (s : Sized n) : Sized.ofBytes? n s.val = some s := by
  simp [Sized.ofBytes?, s.property]

theorem Sized.ofBytes?_eq_some_iff {n : Nat} {b : Bytes} {s : Sized n} :
    Sized.ofBytes? n b = some s ↔ b = s.val := by
  constructor
  · intro h
    unfold Sized.ofBytes? at h
    split at h
    · rw [← Option.some.inj h]
    · cases h
  · rintro rfl
    exact Sized.ofBytes?_val s

theorem Sized.ofBytes?_eq_none_iff {n : Nat} {b : Bytes} :
    Sized.ofBytes? n b = none ↔ b.length ≠ n := by
  simp [Sized.ofBytes?]

namespace Bytes

def ascii (s : String) : Bytes := s.toList.map fun c => c.toNat.toUInt8

theorem ascii_ne_nil {s : String} (h : s.toList ≠ []) : ascii s ≠ [] := by
  simpa [ascii] using h

theorem lt_of_mem_ascii {s : String} (h : s.toList.all (fun c => c.toNat < 128) = true) :
    ∀ o ∈ ascii s, o < 128 := by
  intro o ho
  obtain ⟨c, hc, rfl⟩ := List.mem_map.1 ho
  have hc' : c.toNat < 128 := of_decide_eq_true (List.all_eq_true.1 h c hc)
  rw [UInt8.lt_iff_toNat_lt, Nat.toUInt8_eq, UInt8.toNat_ofNat']
  exact Nat.lt_of_le_of_lt (Nat.mod_le _ _) hc'

/-- The `n` least significant octets of a number, the least significant first. -/
def leastFirst : Nat → Nat → Bytes
  | 0, _ => []
  | n + 1, v => v.toUInt8 :: leastFirst n (v / 256)

@[simp] theorem length_leastFirst (n v : Nat) : (leastFirst n v).length = n := by
  induction n generalizing v with
  | zero => rfl
  | succ n ih => simp [leastFirst, ih]

/-- The `n` least significant octets of a number, the most significant first. -/
def mostFirst (n v : Nat) : Bytes := (leastFirst n v).reverse

@[simp] theorem length_mostFirst (n v : Nat) : (mostFirst n v).length = n := by
  simp [mostFirst]

/-- The number whose least significant octet stands first. -/
def value : Bytes → Nat
  | [] => 0
  | b :: r => b.toNat + 256 * value r

theorem value_leastFirst (n v : Nat) (h : v < 1 <<< (8 * n)) : value (leastFirst n v) = v := by
  induction n generalizing v with
  | zero =>
    have hv : v = 0 := by simpa using h
    rw [hv, leastFirst, value]
  | succ n ih =>
    have hs : 1 <<< (8 * (n + 1)) = (1 <<< (8 * n)) * 256 := by
      rw [Nat.mul_succ, Nat.shiftLeft_add, Nat.shiftLeft_eq _ 8]
    have hv : v / 256 < 1 <<< (8 * n) := by
      rw [hs] at h
      omega
    simp only [leastFirst, value, ih _ hv, Nat.toUInt8_eq, UInt8.toNat_ofNat']
    omega

def padTo (n : Nat) (b : Bytes) : Bytes := b ++ List.replicate (n - b.length) 0

theorem length_padTo {n : Nat} {b : Bytes} (h : b.length ≤ n) : (padTo n b).length = n := by
  simp only [padTo, List.length_append, List.length_replicate]
  omega

/-- The byte string cut or padded to `n` octets. -/
def fit (n : Nat) (b : Bytes) : Sized n :=
  ⟨padTo n (b.take n), length_padTo (by simp only [List.length_take]; omega)⟩

theorem fit_val {n : Nat} (b : Sized n) : fit n b.val = b := by
  apply Subtype.ext
  show padTo n (b.val.take n) = b.val
  have htake : b.val.take n = b.val := List.take_of_length_le (Nat.le_of_eq b.property)
  rw [htake, padTo, b.property, Nat.sub_self, List.replicate_zero, List.append_nil]

def xor (a b : Bytes) : Bytes := List.zipWith (· ^^^ ·) a b

@[simp] theorem length_xor (a b : Bytes) : (xor a b).length = min a.length b.length := by
  simp [xor]

theorem xor_xor_cancel_right {a b : Bytes} (h : a.length ≤ b.length) : xor (xor a b) b = a := by
  induction a generalizing b with
  | nil => simp [xor]
  | cons x a ih =>
    match b with
    | [] => simp at h
    | y :: b =>
      have hab : a.length ≤ b.length := by simpa using h
      have hxy : x ^^^ y ^^^ y = x := by
        rw [UInt8.xor_assoc, UInt8.xor_self, UInt8.xor_zero]
      simpa [xor, hxy] using ih hab

/-- The first `k` pieces of `size` octets, the last ones padded. -/
def chunks (size : Nat) : Nat → Bytes → List Bytes
  | 0, _ => []
  | k + 1, b => padTo size (b.take size) :: chunks size k (b.drop size)

@[simp] theorem length_chunks (size k : Nat) (b : Bytes) : (chunks size k b).length = k := by
  induction k generalizing b with
  | zero => rfl
  | succ k ih => simp [chunks, ih]

def erased (b : Bytes) : Bytes := List.replicate b.length 0

end Bytes

end RatchetSession
