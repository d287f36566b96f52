import RatchetSession.Proofs.Directions

/-!
# What the hash is run on to derive a key

The parameter block holds the length of the key beside the salt, so the zero octets that fill up the
key's block are told from octets of the key, while those that fill up the salt are not. Beyond the
two compressions, that is all that two derivations can have in common: `derivation_unambiguous`.
-/

set_option autoImplicit false
set_option relaxedAutoImplicit false

namespace RatchetSession

namespace Blake2b

/-- Two runs start from one parameter block and take the same message blocks. -/
def Input.SameRun (i j : Input) : Prop := i.parameters = j.parameters ∧ i.blocks = j.blocks

variable {digestSize digestSize' : Nat} {key key' salt salt' person : Bytes}

private theorem run_eq_ok (hpos : 1 ≤ digestSize) (hle : digestSize ≤ 64) (hsalt : salt.length ≤ 16)
    (hperson : person.length ≤ 16) (hkey : key.length ≤ 64) (message : Bytes) :
    run digestSize key salt person message =
      .ok ((Input.ofMessage digestSize key salt person message).digest.take digestSize) := by
  have hword : IsWord digestSize := ⟨by omega, by omega⟩
  rw [run, if_neg (not_not_intro hword), if_neg (by omega), if_neg (by omega), if_neg (by omega),
    if_neg (by omega), Int.toNat_natCast]

private theorem toUInt8_inj {m n : Nat} (hm : m < 256) (hn : n < 256)
    (h : m.toUInt8 = n.toUInt8) : m = n := by
  have hvalue := congrArg UInt8.toNat h
  rwa [Nat.toUInt8_eq, Nat.toUInt8_eq, UInt8.toNat_ofNat', UInt8.toNat_ofNat',
    Nat.mod_eq_of_lt hm, Nat.mod_eq_of_lt hn] at hvalue

private theorem parameterBlock_inj {keySize keySize' : Nat} (hdigest : digestSize < 256)
    (hdigest' : digestSize' < 256) (hkey : keySize < 256) (hkey' : keySize' < 256)
    (h : parameterBlock digestSize keySize salt person =
      parameterBlock digestSize' keySize' salt' person) :
    digestSize = digestSize' ∧ keySize = keySize' ∧
      Bytes.padTo 16 salt = Bytes.padTo 16 salt' := by
  unfold parameterBlock at h
  have hfront := List.append_cancel_right h
  obtain ⟨hsizes, hsalt⟩ := List.append_inj hfront rfl
  have hheads := (List.append_inj hsizes rfl).1
  injection hheads with hdigests hrest
  injection hrest with hkeys
  exact ⟨toUInt8_inj hdigest hdigest' hdigests, toUInt8_inj hkey hkey' hkeys, hsalt⟩

private theorem blocks_ofMessage_nil (h : key.length ≤ 64) :
    (Input.ofMessage digestSize key salt person []).blocks = [Bytes.padTo blockSize key] := by
  by_cases hkey : key = []
  · subst hkey
    rfl
  · have hlength : (Bytes.padTo blockSize key).length = blockSize :=
      Bytes.length_padTo (Nat.le_trans h (by decide))
    have htake : (Bytes.padTo blockSize key).take blockSize = Bytes.padTo blockSize key :=
      List.take_of_length_le (Nat.le_of_eq hlength)
    simp only [Input.ofMessage, if_neg hkey, List.append_nil, hlength]
    show [Bytes.padTo blockSize ((Bytes.padTo blockSize key).take blockSize)] = _
    rw [htake, Bytes.padTo_of_length_eq hlength]

end Blake2b

namespace KeyDerivation

variable {key key' salt salt' : Bytes} {n n' : Nat}

private theorem shortened_eq_ok {limit : Nat} (hpos : 1 ≤ limit) (hle : limit ≤ 64) (b : Bytes) :
    shortened limit b = .ok (if limit < b.length then Blake2b.hash limit b else b) := by
  unfold shortened
  split
  · exact Blake2b.run_eq_ok hpos hle (by decide) (by decide) (by decide) b
  · rfl

private theorem run_eq (key salt : Bytes) (n : Int) :
    run key salt n = Blake2b.run n (compressedKey key) (compressedSalt salt) personal [] := by
  rw [run, shortened_eq_ok (by decide) (by decide), shortened_eq_ok (by decide) (by decide)]
  rfl

theorem run_of_length (hpos : 1 ≤ n) (hle : n ≤ 64) (key salt : Bytes) :
    run key salt n = .ok (derive key salt n) := by
  rw [run_eq]
  exact Blake2b.run_eq_ok hpos hle (length_compressedSalt_le salt) (by decide)
    (length_compressedKey_le key) []

private theorem run_of_word {n : Int} (hword : Blake2b.IsWord n) (h : n < 1 ∨ 64 < n)
    (key salt : Bytes) : run key salt n = .error .digestSize := by
  rw [run_eq, Blake2b.run, if_neg (not_not_intro hword), if_pos h]

private theorem run_of_not_word {n : Int} (h : ¬ Blake2b.IsWord n) (key salt : Bytes) :
    run key salt n = .error .digestSizeWord := by
  rw [run_eq, Blake2b.run, if_pos h]

/-- The key's length is a parameter, so filling up its block hides nothing of it. -/
private theorem sameRun_iff (hle : n ≤ 64) (hle' : n' ≤ 64) :
    (input key salt n).SameRun (input key' salt' n') ↔
      n = n' ∧ compressedKey key = compressedKey key' ∧
        Bytes.padTo 16 (compressedSalt salt) = Bytes.padTo 16 (compressedSalt salt') := by
  have hkey := length_compressedKey_le key
  have hkey' := length_compressedKey_le key'
  constructor
  · rintro ⟨hparameters, hblocks⟩
    obtain ⟨hn, hlength, hsalt⟩ := Blake2b.parameterBlock_inj (by omega) (by omega) (by omega)
      (by omega) hparameters
    rw [input, input, Blake2b.blocks_ofMessage_nil hkey, Blake2b.blocks_ofMessage_nil hkey']
      at hblocks
    have hpadded := List.head_eq_of_cons_eq hblocks
    exact ⟨hn, (List.append_inj hpadded hlength).1, hsalt⟩
  · rintro ⟨rfl, hsame, hsalt⟩
    have hinput : input key salt n = input key' salt' n := by
      simp only [input, Blake2b.Input.ofMessage, Blake2b.parameterBlock, hsame, hsalt]
    rw [hinput]
    exact ⟨rfl, rfl⟩

private theorem not_sameRun_append_zeros (hle : n ≤ 64) {m : Nat} (hm : 0 < m)
    (h : key.length + m ≤ 64) :
    ¬ (input (key ++ List.replicate m 0) salt n).SameRun (input key salt n) := by
  intro hsame
  obtain ⟨-, hkey, -⟩ := (sameRun_iff hle hle).mp hsame
  have hlong : ¬ 64 < (key ++ List.replicate m 0).length := by
    rw [List.length_append, List.length_replicate]
    omega
  rw [compressedKey, compressedKey, if_neg hlong, if_neg (by omega)] at hkey
  have hlength := congrArg List.length hkey
  rw [List.length_append, List.length_replicate] at hlength
  omega

/-- A length beyond a machine word is not refused as an argument. -/
theorem overlong_length_overflows :
    ¬ ∀ (key salt : Bytes) (n : Int), n < 1 ∨ 64 < n →
      ∃ f, run key salt n = .error f ∧ (Fault.derivation f).kind = .invalidArgument := by
  intro h
  obtain ⟨f, hf, hkind⟩ := h [] [] 0x80000000 (.inr (by decide))
  rw [run_of_not_word (by decide)] at hf
  obtain rfl := Except.error.inj hf
  cases hkind

/-- No run of a derivation meets a limit of the hash unless the length asked for is not between 1
and 64; then the derivation is refused as an argument, or for overflow if the length is no machine
word. Otherwise it gives that many octets of a run that the length, the compressed key and the
filled-up compressed salt determine, and that determines them. -/
theorem derivation_unambiguous (key key' salt salt' : Bytes) :
    (∀ n : Nat, 1 ≤ n → n ≤ 64 → ∃ d, run key salt n = .ok d ∧
      d.length = n ∧ d = (input key salt n).digest.take n) ∧
      (∀ n : Int, n < 1 ∨ 64 < n → ∃ f, run key salt n = .error f ∧
        (Fault.derivation f).kind =
          if Blake2b.IsWord n then .invalidArgument else .overflow) ∧
      (∀ n n' : Nat, 1 ≤ n → n ≤ 64 → 1 ≤ n' → n' ≤ 64 →
        ((input key salt n).SameRun (input key' salt' n') ↔
          n = n' ∧ compressedKey key = compressedKey key' ∧
            Bytes.padTo 16 (compressedSalt salt) = Bytes.padTo 16 (compressedSalt salt'))) ∧
      ∀ n m : Nat, 1 ≤ n → n ≤ 64 → 0 < m → key.length + m ≤ 64 →
        ¬ (input (key ++ List.replicate m 0) salt n).SameRun (input key salt n) := by
  refine ⟨fun n hpos hle => ?_, fun n hn => ?_, fun n n' _ hle _ hle' => sameRun_iff hle hle',
    fun n m _ hle hm hroom => not_sameRun_append_zeros hle hm hroom⟩
  · exact ⟨derive key salt n, run_of_length hpos hle key salt, length_derive hle key salt, rfl⟩
  · by_cases hword : Blake2b.IsWord n
    · rw [if_pos hword]
      exact ⟨_, run_of_word hword hn key salt, rfl⟩
    · rw [if_neg hword]
      exact ⟨_, run_of_not_word hword key salt, rfl⟩

/-- The empty key and a key of one zero octet, whose blocks are the same, an overlong salt, and
lengths on both sides of the largest machine word. -/
theorem derivation_unambiguous_empty :
    (∃ d, run [] (List.replicate 17 5) 32 = .ok d ∧ d.length = 32) ∧
      (∃ f, run [] [5] 0x7fffffff = .error f ∧ (Fault.derivation f).kind = .invalidArgument) ∧
      (∃ f, run [] [5] 0x80000000 = .error f ∧ (Fault.derivation f).kind = .overflow) ∧
      (input [] [5] 32).SameRun (input [] [5, 0] 32) ∧
      (input [0] [5] 32).blocks = (input [] [5] 32).blocks ∧
      ¬ (input [0] [5] 32).SameRun (input [] [5] 32) := by
  obtain ⟨hgives, -⟩ := derivation_unambiguous [] [] (List.replicate 17 5) []
  obtain ⟨-, hrefused, hsame, hzeros⟩ := derivation_unambiguous [] [] [5] [5, 0]
  obtain ⟨d, hd, hlength, -⟩ := hgives 32 (by decide) (by decide)
  refine ⟨⟨d, hd, hlength⟩, hrefused 0x7fffffff (by decide), hrefused 0x80000000 (by decide), ?_,
    by decide +kernel, ?_⟩
  · exact (hsame 32 32 (by decide) (by decide) (by decide) (by decide)).mpr ⟨rfl, rfl, rfl⟩
  · exact hzeros 32 1 (by decide) (by decide) (by decide) (by decide)

end KeyDerivation

end RatchetSession
