import RatchetSession.Proofs.FaultKinds

/-!
# Keys of the other party

A public key is refused if it does not have 32 octets or if its product with the secret is zero, and
for nothing else: `exists_agreeEphemeral_iff`. What is answered, drawn and logged then is put into
the words of `Outcome.Raises` and `warnings`.
-/

set_option autoImplicit false
set_option relaxedAutoImplicit false

namespace RatchetSession

private theorem Bytes.value_replicate_zero (n : Nat) : Bytes.value (List.replicate n 0) = 0 := by
  induction n with
  | zero => rfl
  | succ n ih =>
    rw [List.replicate_succ, Bytes.value, ih]
    rfl

namespace Curve25519

def product (secret key : Key) : Key := encode (multiple (clamp secret) (coordinate key))

def ProductZero (secret key : Key) : Prop := (product secret key).val = List.replicate 32 0

instance (secret key : Key) : Decidable (ProductZero secret key) :=
  inferInstanceAs (Decidable (_ = _))

private theorem multiple_lt (k u : Nat) : multiple k u < 1 <<< (8 * 32) := by
  have hfield : multiple k u < fieldPrime := Nat.mod_lt _ (by decide)
  have hroom : fieldPrime < 1 <<< (8 * 32) := by decide
  omega

private theorem productZero_iff {secret key : Key} :
    ProductZero secret key ↔ multiple (clamp secret) (coordinate key) = 0 := by
  constructor
  · intro h
    have hvalue := Bytes.value_leastFirst 32 _ (multiple_lt (clamp secret) (coordinate key))
    have hzero : Bytes.leastFirst 32 (multiple (clamp secret) (coordinate key)) =
        List.replicate 32 0 := h
    rw [hzero, Bytes.value_replicate_zero] at hvalue
    exact hvalue.symm
  · intro h
    show Bytes.leastFirst 32 (multiple (clamp secret) (coordinate key)) = _
    rw [h]
    decide

private theorem agree?_eq_none_iff {secret key : Key} :
    agree? secret key = none ↔ ProductZero secret key := by
  rw [productZero_iff]
  unfold agree?
  simp

end Curve25519

/-- Octets that are no public key to the holder of a secret: there are not 32 of them, or the
product is zero. -/
def Unusable (secret : Key) (e : Bytes) : Prop :=
  e.length ≠ 32 ∨ ∃ key : Key, key.val = e ∧ Curve25519.ProductZero secret key

variable {secret : Key} {key : Offered} {e : Bytes}

private theorem agreeEphemeral_eq_agree? (h : key.octets? = some e) (k : Key) (hk : k.val = e) :
    agreeEphemeral secret.val key =
      match Curve25519.agree? secret k with
      | some z => .ok z
      | none => .error (.agreement .lowOrder) := by
  have hkey : KeyAgreement.publicKey key = .ok k := by
    simp only [KeyAgreement.publicKey, h, Option.bind_some, ← hk, Sized.ofBytes?_val]
  simp only [agreeEphemeral, KeyAgreement.exchange, hkey, Sized.ofBytes?_val]
  cases Curve25519.agree? secret k <;> rfl

/-- A shared secret comes of octets that are usable, and of no others. -/
theorem exists_agreeEphemeral_iff (h : key.octets? = some e) :
    (∃ z, agreeEphemeral secret.val key = .ok z) ↔ ¬ Unusable secret e := by
  by_cases hsize : e.length = 32
  · obtain ⟨k, rfl⟩ : ∃ k : Key, k.val = e := ⟨⟨e, hsize⟩, rfl⟩
    rw [agreeEphemeral_eq_agree? h k rfl]
    have hunusable : Unusable secret k.val ↔ Curve25519.agree? secret k = none := by
      rw [Curve25519.agree?_eq_none_iff]
      constructor
      · rintro (hlength | ⟨k', hk', hzero⟩)
        · exact absurd k.property hlength
        · obtain rfl : k' = k := Subtype.ext hk'
          exact hzero
      · intro hzero
        exact .inr ⟨k, rfl, hzero⟩
    rw [hunusable]
    cases Curve25519.agree? secret k with
    | none => exact iff_of_false (by rintro ⟨z, hz⟩; cases hz) (fun hn => hn rfl)
    | some z => exact iff_of_true ⟨z, rfl⟩ nofun
  · refine iff_of_false ?_ (fun hn => hn (.inl hsize))
    rintro ⟨z, hz⟩
    have hnone : Sized.ofBytes? 32 e = none := Sized.ofBytes?_eq_none_iff.mpr hsize
    have hkey : KeyAgreement.publicKey key = .error .publicKeySize := by
      simp only [KeyAgreement.publicKey, h, Option.bind_some, hnone]
    simp only [agreeEphemeral, KeyAgreement.exchange, hkey] at hz
    cases hz

theorem agreeEphemeral_of_unusable (h : key.octets? = some e) (hbad : Unusable secret e) :
    ∃ f, agreeEphemeral secret.val key = .error f ∧ f.IsPeerKey := by
  cases hagree : agreeEphemeral secret.val key with
  | ok z => exact absurd hbad ((exists_agreeEphemeral_iff h).mp ⟨z, hagree⟩)
  | error f => exact ⟨f, rfl, agreeEphemeral_failsOnly secret key f hagree⟩

def warnings (log : List LogRecord) : List LogRecord := log.filter fun x => x.level = .warning

theorem warnings_tell (l : Listener) (e : Event) : warnings (l.tell e).log = [] := by
  cases l with
  | silent => rfl
  | recorder refused => rfl
  | logging => cases e <;> rfl

namespace Outcome

variable {σ α : Type} {o : Outcome σ α} {k : FaultKind}

def Raises (o : Outcome σ α) (k : FaultKind) : Prop := ∃ f, o.answer = .error f ∧ f.kind = k

theorem raises_of_error {f : Fault} (h : o.answer = .error f) : o.Raises k ↔ f.kind = k := by
  constructor
  · rintro ⟨g, hg, hk⟩
    obtain rfl : f = g := Except.error.inj (h.symm.trans hg)
    exact hk
  · intro hk
    exact ⟨f, h, hk⟩

theorem not_raises_of_ok {a : α} (h : o.answer = .ok a) : ¬ o.Raises k := by
  rintro ⟨f, hf, -⟩
  rw [h] at hf
  cases hf

end Outcome

end RatchetSession
