import RatchetSession.Aes

/-!
# Galois counter mode

Authenticated encryption with a 12-octet nonce and a 16-octet tag. `decrypt?_encrypt` and
`eq_encrypt_of_decrypt?` say that encryption and decryption are inverse in both directions.
-/

set_option autoImplicit false
set_option relaxedAutoImplicit false

namespace RatchetSession.Gcm

/-- A number of 128 binary digits halved in the field whose first digit is the highest. -/
def halve (v : Nat) : Nat := (v / 2) ^^^ (if v % 2 = 0 then 0 else 0xe1 <<< 120)

/-- The product in the field of `2 ^ 128` elements, by the lowest `n` digits of the first factor. -/
def productLow (x : Nat) : Nat → Nat → Nat → Nat
  | 0, _, acc => acc
  | n + 1, v, acc => productLow x n (halve v) (if x.testBit n then acc ^^^ v else acc)

def product (x y : Nat) : Nat := productLow x 128 y 0

/-- A block as a number, the first octet most significant. -/
def number (b : Bytes) : Nat := Bytes.value b.reverse

def blocks (b : Bytes) : List Bytes := Bytes.chunks 16 ((b.length + 15) / 16) b

/-- The authenticating polynomial of associated data and enciphered text, at the point `h`. -/
def authenticator (h : Nat) (ad body : Bytes) : Nat :=
  let sizes := Bytes.mostFirst 8 (8 * ad.length) ++ Bytes.mostFirst 8 (8 * body.length)
  (blocks ad ++ blocks body ++ [sizes]).foldl (fun acc b => product (acc ^^^ number b) h) 0

def pad (keys : List Aes.Block) (nonce : Sized 12) (counter : Nat) : Bytes :=
  (Aes.encipher keys (Aes.Block.ofBytes (nonce.val ++ Bytes.mostFirst 4 counter))).toBytes

@[simp] theorem length_pad (keys : List Aes.Block) (nonce : Sized 12) (counter : Nat) :
    (pad keys nonce counter).length = 16 := by
  simp [pad]

def keystream (keys : List Aes.Block) (nonce : Sized 12) : Nat → Nat → Bytes
  | 0, _ => []
  | n + 1, counter => pad keys nonce counter ++ keystream keys nonce n (counter + 1)

@[simp] theorem length_keystream (keys : List Aes.Block) (nonce : Sized 12) (n counter : Nat) :
    (keystream keys nonce n counter).length = 16 * n := by
  induction n generalizing counter with
  | zero => rfl
  | succ n ih =>
    simp only [keystream, List.length_append, length_pad, ih]
    omega

/-- A text added to the keystream, which starts at counter two. -/
def masked (keys : List Aes.Block) (nonce : Sized 12) (text : Bytes) : Bytes :=
  Bytes.xor text (keystream keys nonce ((text.length + 15) / 16) 2)

@[simp] theorem length_masked (keys : List Aes.Block) (nonce : Sized 12) (text : Bytes) :
    (masked keys nonce text).length = text.length := by
  simp only [masked, Bytes.length_xor, length_keystream]
  omega

def tag (keys : List Aes.Block) (nonce : Sized 12) (ad body : Bytes) : Bytes :=
  let h := number (Aes.encipher keys (Aes.Block.ofBytes (List.replicate 16 0))).toBytes
  Bytes.xor (Bytes.mostFirst 16 (authenticator h ad body)) (pad keys nonce 1)

@[simp] theorem length_tag (keys : List Aes.Block) (nonce : Sized 12) (ad body : Bytes) :
    (tag keys nonce ad body).length = 16 := by
  simp [tag]

theorem masked_masked (keys : List Aes.Block) (nonce : Sized 12) (text : Bytes) :
    masked keys nonce (masked keys nonce text) = text := by
  have h := length_masked keys nonce text
  unfold masked at h ⊢
  rw [h]
  exact Bytes.xor_xor_cancel_right (by rw [length_keystream]; omega)

/-- The enciphered text followed by its tag. -/
def encrypt (key : Bytes) (nonce : Sized 12) (text ad : Bytes) : Bytes :=
  let keys := Aes.schedule key
  let body := masked keys nonce text
  body ++ tag keys nonce ad body

def decrypt? (key : Bytes) (nonce : Sized 12) (closed ad : Bytes) : Option Bytes :=
  let keys := Aes.schedule key
  let body := closed.take (closed.length - 16)
  if closed.drop (closed.length - 16) = tag keys nonce ad body then some (masked keys nonce body)
  else none

@[simp] theorem length_encrypt (key : Bytes) (nonce : Sized 12) (text ad : Bytes) :
    (encrypt key nonce text ad).length = text.length + 16 := by
  simp [encrypt]

theorem decrypt?_encrypt (key : Bytes) (nonce : Sized 12) (text ad : Bytes) :
    decrypt? key nonce (encrypt key nonce text ad) ad = some text := by
  simp [decrypt?, encrypt, masked_masked]

theorem eq_encrypt_of_decrypt? {key : Bytes} {nonce : Sized 12} {closed text ad : Bytes}
    (h : decrypt? key nonce closed ad = some text) : closed = encrypt key nonce text ad := by
  simp only [decrypt?] at h
  split at h
  · rename_i ht
    obtain rfl := Option.some.inj h
    simp only [encrypt, masked_masked]
    rw [← ht, List.take_append_drop]
  · simp at h

end RatchetSession.Gcm
