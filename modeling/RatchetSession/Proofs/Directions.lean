import RatchetSession.Proofs.KeySchedule

/-!
# The two directions of a generation

Both chains of a generation rest on the same shared secrets. Only the name of the sender, which is
part of the salt, tells them apart, and the hash fills a short salt up with zero octets. So two
short names that differ by zero octets at their end give one chain: `directions_eq_iff`.
-/

set_option autoImplicit false
set_option relaxedAutoImplicit false

namespace RatchetSession

namespace Bytes

private theorem padTo_append_zeros {n k : Nat} {x : Bytes} (h : x.length + k ≤ n) :
    padTo n (x ++ List.replicate k 0) = padTo n x := by
  have hzeros : k + (n - (x.length + k)) = n - x.length := by omega
  rw [padTo, List.length_append, List.length_replicate, List.append_assoc,
    List.replicate_append_replicate, hzeros, padTo]

private theorem eq_append_zeros_of_padTo_eq {n : Nat} {x y : Bytes} (hle : x.length ≤ y.length)
    (hy : y.length ≤ n) (h : padTo n x = padTo n y) :
    y = x ++ List.replicate (y.length - x.length) 0 := by
  have hlength : x.length + (y.length - x.length) = y.length := by omega
  have hpadded : padTo n (x ++ List.replicate (y.length - x.length) 0) = padTo n y := by
    rw [padTo_append_zeros (by omega), h]
  have hsame : (x ++ List.replicate (y.length - x.length) 0).length = y.length := by
    rw [List.length_append, List.length_replicate, hlength]
  exact (List.append_inj hpadded hsame).1.symm

/-- Filling up hides zero octets at the end, and nothing else. -/
private theorem padTo_eq_padTo_iff {n : Nat} {x y : Bytes} (hx : x.length ≤ n) (hy : y.length ≤ n) :
    padTo n x = padTo n y ↔
      ∃ k, x = y ++ List.replicate k 0 ∨ y = x ++ List.replicate k 0 := by
  constructor
  · intro h
    rcases Nat.le_total x.length y.length with hle | hle
    · exact ⟨_, .inr (eq_append_zeros_of_padTo_eq hle hy h)⟩
    · exact ⟨_, .inl (eq_append_zeros_of_padTo_eq hle hx h.symm)⟩
  · rintro ⟨k, rfl | rfl⟩
    · rw [List.length_append, List.length_replicate] at hx
      exact padTo_append_zeros hx
    · rw [List.length_append, List.length_replicate] at hy
      exact (padTo_append_zeros hy).symm

private theorem padTo_append {n m : Nat} {x : Bytes} (y : Bytes) (hx : x.length = m) :
    padTo (m + n) (x ++ y) = x ++ padTo n y := by
  have hzeros : m + n - (x ++ y).length = n - y.length := by
    rw [List.length_append, hx]
    omega
  rw [padTo, hzeros, List.append_assoc, padTo]

theorem padTo_of_length_eq {n : Nat} {x : Bytes} (h : x.length = n) : padTo n x = x := by
  rw [padTo, h, Nat.sub_self, List.replicate_zero, List.append_nil]

end Bytes

private theorem KeyDerivation.input_eq_iff {key s t : Bytes} {n : Nat} :
    input key s n = input key t n ↔
      Bytes.padTo 16 (compressedSalt s) = Bytes.padTo 16 (compressedSalt t) := by
  constructor
  · intro h
    have hparameters := congrArg Blake2b.Input.parameters h
    exact List.append_cancel_left (List.append_cancel_right hparameters)
  · intro h
    simp only [input, Blake2b.Input.ofMessage, Blake2b.parameterBlock, h]

theorem Generation.length_label (g : Generation) : g.label.length = 7 := by
  cases g <;> decide

/-- What the hash is run on for the first chain key on which a party sends. -/
def chainInput (g : Generation) (sender : Identity) (material : Bytes) : Blake2b.Input :=
  KeyDerivation.input material (g.label ++ sender.octets) 32

private theorem firstChainKey_val (g : Generation) (sender : Identity) (material : Bytes) :
    (firstChainKey g sender material).val = (chainInput g sender material).digest.take 32 := rfl

/-- Both names fit into a salt, and they differ by zero octets at the end at most. -/
def Identity.Confusable (i j : Identity) : Prop :=
  i.octets.length ≤ 9 ∧ j.octets.length ≤ 9 ∧
    ∃ k, i.octets = j.octets ++ List.replicate k 0 ∨ j.octets = i.octets ++ List.replicate k 0

/-- The salt of the first name is too long, and its hash is the salt of the other one. -/
def SaltHit (g : Generation) (long other : Identity) : Prop :=
  9 < long.octets.length ∧
    Blake2b.hash 16 (g.label ++ long.octets) =
      Bytes.padTo 16 (KeyDerivation.compressedSalt (g.label ++ other.octets))

variable {g : Generation} {i j : Identity}

private theorem padTo_compressedSalt_of_short (h : i.octets.length ≤ 9) :
    Bytes.padTo 16 (KeyDerivation.compressedSalt (g.label ++ i.octets)) =
      g.label ++ Bytes.padTo 9 i.octets := by
  have hshort : ¬ 16 < (g.label ++ i.octets).length := by
    rw [List.length_append, g.length_label]
    omega
  rw [KeyDerivation.compressedSalt, if_neg hshort]
  exact Bytes.padTo_append (m := 7) (n := 9) i.octets g.length_label

private theorem padTo_compressedSalt_of_long (h : 9 < i.octets.length) :
    Bytes.padTo 16 (KeyDerivation.compressedSalt (g.label ++ i.octets)) =
      Blake2b.hash 16 (g.label ++ i.octets) := by
  have hlong : 16 < (g.label ++ i.octets).length := by
    rw [List.length_append, g.length_label]
    omega
  rw [KeyDerivation.compressedSalt, if_pos hlong]
  exact Bytes.padTo_of_length_eq (Blake2b.length_hash (by decide) _)

/-- When the hash is run on the same for two senders. -/
private theorem chainInput_eq_iff (g : Generation) (i j : Identity) (material : Bytes) :
    chainInput g i material = chainInput g j material ↔
      i.Confusable j ∨ SaltHit g i j ∨ SaltHit g j i := by
  rw [chainInput, chainInput, KeyDerivation.input_eq_iff]
  constructor
  · intro h
    by_cases hi : i.octets.length ≤ 9
    · by_cases hj : j.octets.length ≤ 9
      · rw [padTo_compressedSalt_of_short hi, padTo_compressedSalt_of_short hj] at h
        exact .inl ⟨hi, hj, (Bytes.padTo_eq_padTo_iff hi hj).mp (List.append_cancel_left h)⟩
      · have hlong : 9 < j.octets.length := by omega
        rw [padTo_compressedSalt_of_long hlong] at h
        exact .inr (.inr ⟨hlong, h.symm⟩)
    · have hlong : 9 < i.octets.length := by omega
      rw [padTo_compressedSalt_of_long hlong] at h
      exact .inr (.inl ⟨hlong, h⟩)
  · rintro (⟨hi, hj, hzeros⟩ | ⟨hlong, h⟩ | ⟨hlong, h⟩)
    · rw [padTo_compressedSalt_of_short hi, padTo_compressedSalt_of_short hj,
        (Bytes.padTo_eq_padTo_iff hi hj).mpr hzeros]
    · rw [padTo_compressedSalt_of_long hlong, h]
    · rw [padTo_compressedSalt_of_long hlong, h]

namespace Session

variable {s : Session}

private theorem Founded.scheduled {role : Role} (h : Founded role s) :
    ∃ secret, s.Scheduled secret := by
  cases h with
  | initiated given => exact ⟨_, scheduled_of_initiate given⟩
  | responded given => exact ⟨_, scheduled_of_respond given⟩

private theorem Scheduled.exists_material {secret : Key} (h : s.Scheduled secret) (g : Generation) :
    ∃ m, ∀ d r, s.ratchet ⟨d, g⟩ = .ok r → ∃ n, r = (s.firstRatchet ⟨d, g⟩ m).advance n := by
  cases hm : s.material secret g with
  | ok m =>
    refine ⟨m, fun d r hr => ?_⟩
    obtain ⟨m', n, hm', rfl⟩ := h.ratchets _ r (ratchet_eq_ok.mp hr)
    obtain rfl : m = m' := Except.ok.inj (hm.symm.trans hm')
    exact ⟨n, rfl⟩
  | error f =>
    refine ⟨[], fun d r hr => ?_⟩
    obtain ⟨_, _, hm', -⟩ := h.ratchets _ r (ratchet_eq_ok.mp hr)
    rw [hm] at hm'
    cases hm'

private theorem Scheduled.ratchet_eq_of_confusable {secret : Key} (h : s.Scheduled secret)
    (hnames : s.me.identity.Confusable s.peer.identity) {g : Generation} {mine theirs : Ratchet}
    (hmine : s.ratchet ⟨.outgoing, g⟩ = .ok mine) (htheirs : s.ratchet ⟨.incoming, g⟩ = .ok theirs)
    (hfar : mine.counter = theirs.counter) : mine = theirs := by
  obtain ⟨m, hm⟩ := h.exists_material g
  obtain ⟨i, rfl⟩ := hm _ _ hmine
  obtain ⟨j, rfl⟩ := hm _ _ htheirs
  have hinput : chainInput g s.me.identity m = chainInput g s.peer.identity m :=
    (chainInput_eq_iff g _ _ m).mpr (.inl hnames)
  have hkey : firstChainKey g s.me.identity m = firstChainKey g s.peer.identity m := by
    apply Subtype.ext
    rw [firstChainKey_val, firstChainKey_val, hinput]
  have hturns : i = j := by
    rw [firstRatchet, firstRatchet, Ratchet.counter_advance_fresh,
      Ratchet.counter_advance_fresh] at hfar
    exact Nat.add_left_cancel hfar
  show (Ratchet.fresh (firstChainKey g s.me.identity m) s.config).advance i =
    (Ratchet.fresh (firstChainKey g s.peer.identity m) s.config).advance j
  rw [hkey, hturns]

/-- The ratchets of a generation are turns of chains that begin with the two directions' first chain
keys. The hash is run on the same for both exactly if the names of the parties are confusable or an
overlong salt is compressed to the other one. -/
theorem directions_eq_iff {role : Role} (h : Founded role s) (ops : List Operation)
    (g : Generation) :
    ∃ m, (∀ d r, (s.run ops).ratchet ⟨d, g⟩ = .ok r →
        ∃ n, r = ((s.run ops).firstRatchet ⟨d, g⟩ m).advance n) ∧
      (chainInput g (s.run ops).me.identity m = chainInput g (s.run ops).peer.identity m ↔
        (s.run ops).me.identity.Confusable (s.run ops).peer.identity ∨
          SaltHit g (s.run ops).me.identity (s.run ops).peer.identity ∨
          SaltHit g (s.run ops).peer.identity (s.run ops).me.identity) := by
  obtain ⟨secret, hs⟩ := h.scheduled
  obtain ⟨m, hm⟩ := (hs.run ops).exists_material g
  exact ⟨m, hm, chainInput_eq_iff g _ _ m⟩

theorem directions_eq_iff_sample :
    ∃ s m, (initiate sampleInitiator sampleResponder.contact {} .silent sampleEphemeral
        sampleId).answer = .ok s ∧
      (∀ d r, (s.run []).ratchet ⟨d, .twoDh⟩ = .ok r →
        ∃ n, r = ((s.run []).firstRatchet ⟨d, .twoDh⟩ m).advance n) ∧
      (chainInput .twoDh (s.run []).me.identity m = chainInput .twoDh (s.run []).peer.identity m ↔
        (s.run []).me.identity.Confusable (s.run []).peer.identity ∨
          SaltHit .twoDh (s.run []).me.identity (s.run []).peer.identity ∨
          SaltHit .twoDh (s.run []).peer.identity (s.run []).me.identity) := by
  have hok : (initiate sampleInitiator sampleResponder.contact {} .silent sampleEphemeral
      sampleId).answer.isOk = true := by decide +kernel
  obtain ⟨s, hs⟩ := exists_eq_ok hok
  obtain ⟨m, hratchets, hinput⟩ := directions_eq_iff (.initiated hs) [] .twoDh
  exact ⟨s, m, hs, hratchets, hinput⟩

private theorem ratchet_initiatorStart (me : LocalIdentity) (peer : Contact) (config : Config)
    (listener : Listener) (secret : Key) (id : SessionId) (two : Bytes) (d : Direction) :
    ∃ r, (initiatorStart me peer config listener secret id two).ratchet ⟨d, .twoDh⟩ = .ok r ∧
      r.counter = config.initialCounter.toNat := by
  cases d with
  | outgoing => exact ⟨_, rfl, rfl⟩
  | incoming => exact ⟨_, rfl, rfl⟩

def sampleTwin : LocalIdentity :=
  sampleParty ⟨Bytes.ascii "AAAAAAAA" ++ [0], by decide, by decide +kernel⟩ 2

/-- Parties of different names, no salt too long, and one ratchet for both directions. -/
theorem directions_collide :
    ∃ s r, (initiate sampleInitiator sampleTwin.contact {} .silent sampleEphemeral
        sampleId).answer = .ok s ∧
      s.me.identity ≠ s.peer.identity ∧
      (∀ g, ¬ SaltHit g s.me.identity s.peer.identity ∧
        ¬ SaltHit g s.peer.identity s.me.identity) ∧
      (∀ g m, chainInput g s.me.identity m = chainInput g s.peer.identity m) ∧
      s.ratchet ⟨.outgoing, .twoDh⟩ = .ok r ∧ s.ratchet ⟨.incoming, .twoDh⟩ = .ok r := by
  have hok : (initiate sampleInitiator sampleTwin.contact {} .silent sampleEphemeral
      sampleId).answer.isOk = true := by decide +kernel
  obtain ⟨s, hs⟩ := exists_eq_ok hok
  have hscheduled := scheduled_of_initiate hs
  obtain ⟨hdistinct, -, _, _, -, -, rfl⟩ := initiate_eq_ok hs
  have hnames : sampleInitiator.identity.Confusable sampleTwin.identity :=
    ⟨by decide, by decide, 1, .inr rfl⟩
  have hlive := ratchet_initiatorStart sampleInitiator sampleTwin.contact {} .silent
    sampleEphemeral sampleId
  obtain ⟨mine, hmine, hcounter⟩ := hlive _ .outgoing
  obtain ⟨theirs, htheirs, hcounter'⟩ := hlive _ .incoming
  obtain rfl : mine = theirs := hscheduled.ratchet_eq_of_confusable hnames hmine htheirs
    (hcounter.trans hcounter'.symm)
  refine ⟨_, mine, hs, hdistinct, fun g => ⟨?_, ?_⟩, fun g m => ?_, hmine, htheirs⟩
  · exact fun hhit => Nat.not_lt.mpr hnames.1 hhit.1
  · exact fun hhit => Nat.not_lt.mpr hnames.2.1 hhit.1
  · exact (chainInput_eq_iff g _ _ m).mpr (.inl hnames)

end Session

end RatchetSession
