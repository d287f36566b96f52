import RatchetSession.Fault

/-!
# What opens a sealed message

Under a key of a proper size a message opens if it was sealed under that key with the same
authenticated data, and every other byte string is refused: `sealing_exact`.
-/

set_option autoImplicit false
set_option relaxedAutoImplicit false

namespace RatchetSession.SealedMessage

/-- The message is refused, and the key is not to blame. -/
def Refused (x : Except Refusal Bytes) : Prop :=
  ∃ r, x = .error r ∧ (Fault.sealing r).kind = .messageRefused

def Sealed (key ad message : Bytes) : Prop :=
  ∃ nonce text, encrypt key nonce text ad = .ok message

/-- What there is to say of sealing and opening under a key with some authenticated data. -/
structure Exact (key ad : Bytes) : Prop where
  seals : ∀ (nonce : Nonce) (text : Bytes), ∃ body,
    encrypt key nonce text ad = .ok (nonce.val ++ body) ∧
      (nonce.val ++ body).length = 28 + text.length ∧
      decrypt key (nonce.val ++ body) ad = .ok text
  opens : ∀ message text, decrypt key message ad = .ok text ↔
    ∃ nonce : Nonce, nonce.val = message.take 12 ∧ encrypt key nonce text ad = .ok message
  refuses : ∀ message, ¬ Sealed key ad message → Refused (decrypt key message ad)

variable {key ad message text : Bytes} {nonce : Nonce}

private theorem encrypt_of_isKeySize (h : Aes.IsKeySize key.length) (nonce : Nonce)
    (text ad : Bytes) :
    encrypt key nonce text ad = .ok (nonce.val ++ Gcm.encrypt key nonce text ad) :=
  if_pos h

private theorem decrypt_of_encrypt (h : encrypt key nonce text ad = .ok message) :
    decrypt key message ad = .ok text := by
  unfold encrypt at h
  split at h
  · rename_i hsize
    obtain rfl := Except.ok.inj h
    exact decrypt_encrypt hsize nonce text ad
  · cases h

/-- What opens was sealed, and the nonce is read off its front. -/
private theorem decrypt_eq_ok_iff : decrypt key message ad = .ok text ↔
    ∃ nonce : Nonce, nonce.val = message.take 12 ∧ encrypt key nonce text ad = .ok message := by
  constructor
  · exact eq_encrypt_of_decrypt
  · rintro ⟨nonce, -, hsealed⟩
    exact decrypt_of_encrypt hsealed

private theorem eq_of_encrypt_eq_ok (h : encrypt key nonce text ad = .ok message) :
    message = nonce.val ++ Gcm.encrypt key nonce text ad := by
  unfold encrypt at h
  split at h
  · exact (Except.ok.inj h).symm
  · cases h

private theorem eq_of_take {message' : Bytes} (h : Sealed key ad message)
    (h' : Sealed key ad message') (hlength : message.length = message'.length)
    (hfront : message.take (message.length - 16) = message'.take (message'.length - 16)) :
    message = message' := by
  obtain ⟨nonce, text, h⟩ := h
  obtain ⟨nonce', text', h'⟩ := h'
  obtain rfl := eq_of_encrypt_eq_ok h
  obtain rfl := eq_of_encrypt_eq_ok h'
  let keys := Aes.schedule key
  have htake (n : Nonce) (t : Bytes) : (n.val ++ Gcm.encrypt key n t ad).take
      ((n.val ++ Gcm.encrypt key n t ad).length - 16) = n.val ++ Gcm.masked keys n t := by
    have hsplit : n.val ++ Gcm.encrypt key n t ad =
        (n.val ++ Gcm.masked keys n t) ++ Gcm.tag keys n ad (Gcm.masked keys n t) :=
      (List.append_assoc ..).symm
    rw [hsplit, List.length_append, Gcm.length_tag, Nat.add_sub_cancel, List.take_left]
  rw [htake, htake] at hfront
  obtain ⟨hnonce, hmasked⟩ :=
    List.append_inj hfront (nonce.property.trans nonce'.property.symm)
  obtain rfl : nonce = nonce' := Subtype.ext hnonce
  simp only [Gcm.encrypt]
  rw [show Gcm.masked (Aes.schedule key) nonce text = _ from hmasked]

private theorem decrypt_of_short (h : message.length < 28) :
    decrypt key message ad = .error .tooShort :=
  if_pos h

private theorem decrypt_of_not_isKeySize (hsize : ¬ Aes.IsKeySize key.length)
    (h : 28 ≤ message.length) : decrypt key message ad = .error .keySize := by
  rw [decrypt, if_neg (Nat.not_lt.mpr h), if_pos hsize]

private theorem refused_of_error (hsize : Aes.IsKeySize key.length) {r : Refusal}
    (h : decrypt key message ad = .error r) : (Fault.sealing r).kind = .messageRefused := by
  cases r with
  | tooShort => rfl
  | rejected => rfl
  | keySize =>
    exfalso
    unfold decrypt at h
    split at h
    · cases h
    · split at h
      · cases h
      · split at h
        · cases h
        · cases h

private theorem exact_of_isKeySize (h : Aes.IsKeySize key.length) (ad : Bytes) : Exact key ad := by
  refine ⟨?_, fun message text => decrypt_eq_ok_iff, ?_⟩
  · intro nonce text
    refine ⟨Gcm.encrypt key nonce text ad, encrypt_of_isKeySize h nonce text ad, ?_,
      decrypt_encrypt h nonce text ad⟩
    rw [List.length_append, Gcm.length_encrypt, nonce.property]
    omega
  · intro message hunsealed
    cases hopened : decrypt key message ad with
    | ok text =>
      obtain ⟨nonce, -, hsealed⟩ := eq_encrypt_of_decrypt hopened
      exact absurd ⟨nonce, text, hsealed⟩ hunsealed
    | error r => exact ⟨r, rfl, refused_of_error h hopened⟩

/-- Sealing and opening are inverse in both directions under every key of a proper size. Short byte
strings are refused under all keys, and of longer ones it is a key of another size that is
complained of. -/
theorem sealing_exact (key ad : Bytes) :
    (Aes.IsKeySize key.length → Exact key ad) ∧
      (∀ message : Bytes, message.length < 28 → Refused (decrypt key message ad)) ∧
      (¬ Aes.IsKeySize key.length → ∀ message : Bytes, 28 ≤ message.length →
        ∃ r, decrypt key message ad = .error r ∧ (Fault.sealing r).kind = .invalidArgument) := by
  refine ⟨fun hsize => exact_of_isKeySize hsize ad, ?_, ?_⟩
  · intro message hshort
    exact ⟨.tooShort, decrypt_of_short hshort, rfl⟩
  · intro hsize message hlong
    exact ⟨.keySize, decrypt_of_not_isKeySize hsize hlong, rfl⟩

/-- A text of more than a block under a key of sixteen octets. Its message is not opened when it is
cut or when its last octet is another one, and not under a key of seventeen octets. -/
theorem sealing_exact_sample :
    let key : Bytes := List.replicate 16 7
    let nonce : Nonce := ⟨List.replicate 12 1, List.length_replicate⟩
    let text : Bytes := List.replicate 20 3
    ∃ front last, encrypt key nonce text [5] = .ok (front ++ [last]) ∧ front.length = 47 ∧
      decrypt key (front ++ [last]) [5] = .ok text ∧
      Refused (decrypt key ((front ++ [last]).take 27) [5]) ∧
      Refused (decrypt key (front ++ [last + 1]) [5]) ∧
      ∃ r, decrypt (7 :: key) (front ++ [last]) [5] = .error r ∧
        (Fault.sealing r).kind = .invalidArgument := by
  intro key nonce text
  obtain ⟨hexact, hshort, -⟩ := sealing_exact key [5]
  obtain ⟨-, -, hother⟩ := sealing_exact (7 :: key) [5]
  have hkey := hexact (by decide)
  obtain ⟨body, hsealed, hlength, hopened⟩ := hkey.seals nonce text
  have hne : nonce.val ++ body ≠ [] := List.ne_nil_of_length_pos (by rw [hlength]; decide)
  obtain ⟨front, last, hmessage⟩ : ∃ front last, nonce.val ++ body = front ++ [last] :=
    ⟨_, _, (List.dropLast_concat_getLast hne).symm⟩
  rw [hmessage] at hsealed hlength hopened
  have hfront : front.length = 47 := by
    rw [List.length_append] at hlength
    exact Nat.succ.inj hlength
  have hcut : ((front ++ [last]).take 27).length < 28 := by
    rw [List.length_take]
    omega
  have hunsealed : ¬ Sealed key [5] (front ++ [last + 1]) := by
    intro h
    have hsame : front ++ [last] = front ++ [last + 1] :=
      eq_of_take ⟨nonce, text, hsealed⟩ h (by simp) (by simp [hfront, List.take_append])
    have hlast : last = last + 1 := List.head_eq_of_cons_eq (List.append_cancel_left hsame)
    simp at hlast
  refine ⟨front, last, hsealed, hfront, hopened, hshort _ hcut, hkey.refuses _ hunsealed, ?_⟩
  exact hother (by decide) _ (by rw [hlength]; decide)

end RatchetSession.SealedMessage
