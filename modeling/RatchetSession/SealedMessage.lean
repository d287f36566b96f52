import RatchetSession.Gcm

/-!
# Sealed messages

A sealed message is the nonce, the encrypted text and the tag. `decrypt_encrypt` and
`eq_encrypt_of_decrypt` say that only what `encrypt` produces is opened.
-/

set_option autoImplicit false
set_option relaxedAutoImplicit false

namespace RatchetSession

abbrev Nonce := Sized 12

namespace SealedMessage

inductive Refusal
  | tooShort
  | rejected
  | keySize
deriving DecidableEq

def encrypt (key : Bytes) (nonce : Nonce) (text ad : Bytes) : Except Refusal Bytes :=
  if Aes.IsKeySize key.length then .ok (nonce.val ++ Gcm.encrypt key nonce text ad)
  else .error .keySize

def decrypt (key message ad : Bytes) : Except Refusal Bytes :=
  if message.length < 28 then .error .tooShort
  else if ¬ Aes.IsKeySize key.length then .error .keySize
  else
    match Sized.ofBytes? 12 (message.take 12) with
    | none => .error .tooShort
    | some nonce =>
      match Gcm.decrypt? key nonce (message.drop 12) ad with
      | some text => .ok text
      | none => .error .rejected

theorem decrypt_encrypt {key : Bytes} (hk : Aes.IsKeySize key.length) (nonce : Nonce)
    (text ad : Bytes) :
    decrypt key (nonce.val ++ Gcm.encrypt key nonce text ad) ad = .ok text := by
  have hn := nonce.property
  have ht : (nonce.val ++ Gcm.encrypt key nonce text ad).take 12 = nonce.val :=
    List.take_left' hn
  have hd : (nonce.val ++ Gcm.encrypt key nonce text ad).drop 12
      = Gcm.encrypt key nonce text ad :=
    List.drop_left' hn
  have hl : ¬ (nonce.val ++ Gcm.encrypt key nonce text ad).length < 28 := by
    simp only [List.length_append, Gcm.length_encrypt, hn]
    omega
  simp only [decrypt, hl, hk, not_true_eq_false, ↓reduceIte, ht, hd, Sized.ofBytes?_val,
    Gcm.decrypt?_encrypt]

theorem eq_encrypt_of_decrypt {key message text ad : Bytes}
    (h : decrypt key message ad = .ok text) :
    ∃ nonce : Nonce, nonce.val = message.take 12 ∧ encrypt key nonce text ad = .ok message := by
  unfold decrypt at h
  split at h
  · simp at h
  split at h
  · simp at h
  rename_i hk
  split at h
  · simp at h
  rename_i nonce hn
  split at h
  · rename_i t ht
    obtain rfl := Except.ok.inj h
    have hv : nonce.val = message.take 12 := by
      unfold Sized.ofBytes? at hn
      split at hn
      · simp only [Option.some.injEq] at hn
        rw [← hn]
      · simp at hn
    refine ⟨nonce, hv, ?_⟩
    rw [encrypt, if_pos (Decidable.not_not.1 hk), ← Gcm.eq_encrypt_of_decrypt? ht, hv,
      List.take_append_drop]
  · simp at h

end SealedMessage

end RatchetSession
