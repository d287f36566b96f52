import RatchetSession.Session.Identifier

/-!
# Which texts are identifiers

A hexadecimal text denotes octets by a grammar: one pair of digits for each, with blanks around the
pairs. The reader takes the texts of the grammar and no others (`decode_eq_ok_iff`), and the text of
an identifier is the normal form of all texts that denote it: `hexText_exact`.
-/

set_option autoImplicit false
set_option relaxedAutoImplicit false

namespace RatchetSession

namespace Hex

def lowerDigits : List Char := "0123456789abcdef".toList

def upperDigits : List Char := "0123456789ABCDEF".toList

/-- The character is the digit of a value, in either case. -/
def IsDigit (c : Char) (v : Nat) : Prop :=
  lowerDigits[v]? = some c ∨ upperDigits[v]? = some c

/-- The text consists of a pair of digits for each octet, and of blanks outside the pairs. -/
inductive Denotes : List Char → Bytes → Prop
  | nil : Denotes [] []
  | blank {c : Char} {cs : List Char} {b : Bytes} :
      isBlank c → Denotes cs b → Denotes (c :: cs) b
  | pair {c d : Char} {high low : Nat} {o : UInt8} {cs : List Char} {b : Bytes} :
      IsDigit c high → IsDigit d low → o.toNat = 16 * high + low → Denotes cs b →
      Denotes (c :: d :: cs) (o :: b)

/-- The text without blanks, in lower case. -/
def normal (s : String) : String :=
  String.ofList ((s.toList.filter fun c => !isBlank c).map Char.toLower)

variable {c d : Char} {v : Nat} {cs : List Char} {b : Bytes} {p : Nat}

private theorem isDigit_digit (h : v < 16) : IsDigit (digit v) v := by
  have hlower : ∀ v < 16, lowerDigits[v]? = some (digit v) := by decide
  exact .inl (hlower v h)

private theorem IsDigit.lt (h : IsDigit c v) : v < 16 := by
  rcases h with h | h
  · exact (List.getElem?_eq_some_iff.mp h).1
  · exact (List.getElem?_eq_some_iff.mp h).1

private theorem IsDigit.read (h : IsDigit c v) :
    digitValue? c = some v ∧ isBlank c = false ∧ c.toNat < 128 ∧ c.toLower = digit v := by
  have hall : ∀ digits ∈ [lowerDigits, upperDigits], ∀ (v : Nat) (hv : v < digits.length),
      digitValue? digits[v] = some v ∧ isBlank digits[v] = false ∧ digits[v].toNat < 128 ∧
        digits[v].toLower = digit v := by
    decide
  rcases h with hc | hc
  · obtain ⟨hv, rfl⟩ := List.getElem?_eq_some_iff.mp hc
    exact hall lowerDigits (by simp) v hv
  · obtain ⟨hv, rfl⟩ := List.getElem?_eq_some_iff.mp hc
    exact hall upperDigits (by simp) v hv

private theorem ofNat_sub_add {k : Nat} (h : k ≤ c.toNat) : Char.ofNat (c.toNat - k + k) = c := by
  rw [Nat.sub_add_cancel h, Char.ofNat_toNat]

private theorem isDigit_of_digitValue? (h : digitValue? c = some v) : IsDigit c v := by
  have hle {x y : Char} (hxy : x ≤ y) : x.toNat ≤ y.toNat :=
    UInt32.le_iff_toNat_le.mp (Char.le_def.mp hxy)
  have hupper : ∀ k < 6, upperDigits[k + 10]? = some (Char.ofNat (k + 65)) := by decide
  unfold digitValue? at h
  split at h
  · rename_i hc
    have hlow : 48 ≤ c.toNat := hle hc.1
    have hhigh : c.toNat ≤ 57 := hle hc.2
    obtain rfl : c.toNat - 48 = v := Option.some.inj h
    have hdigit : digit (c.toNat - 48) = c := (if_pos (by omega)).trans (ofNat_sub_add hlow)
    have hvalue := isDigit_digit (v := c.toNat - 48) (by omega)
    rwa [hdigit] at hvalue
  · split at h
    · rename_i hc
      have hlow : 97 ≤ c.toNat := hle hc.1
      have hhigh : c.toNat ≤ 102 := hle hc.2
      obtain rfl : c.toNat - 97 + 10 = v := Option.some.inj h
      have hdigit : digit (c.toNat - 97 + 10) = c :=
        (if_neg (by omega)).trans (ofNat_sub_add hlow)
      have hvalue := isDigit_digit (v := c.toNat - 97 + 10) (by omega)
      rwa [hdigit] at hvalue
    · split at h
      · rename_i hc
        have hlow : 65 ≤ c.toNat := hle hc.1
        have hhigh : c.toNat ≤ 70 := hle hc.2
        obtain rfl : c.toNat - 65 + 10 = v := Option.some.inj h
        have hdigit := hupper (c.toNat - 65) (by omega)
        rw [ofNat_sub_add hlow] at hdigit
        exact .inr hdigit
      · cases h

private theorem lt_of_isBlank (h : isBlank c) : c.toNat < 128 := by
  simp only [isBlank, Bool.or_eq_true, decide_eq_true_eq] at h
  rcases h with ((((rfl | rfl) | rfl) | rfl) | rfl) | rfl <;> decide

namespace Denotes

private theorem cons_iff_of_isBlank (h : isBlank c) : Denotes (c :: cs) b ↔ Denotes cs b := by
  constructor
  · intro hd
    cases hd with
    | blank _ hcs => exact hcs
    | pair hc =>
      rw [hc.read.2.1] at h
      cases h
  · exact .blank h

private theorem nil_iff : Denotes [] b ↔ b = [] := by
  constructor
  · intro h
    cases h
    rfl
  · rintro rfl
    exact .nil

private theorem exists_pair (hblank : ¬ isBlank c) (h : Denotes (c :: cs) b) :
    ∃ d rest high low r, cs = d :: rest ∧ digitValue? c = some high ∧ digitValue? d = some low ∧
      b = (16 * high + low).toUInt8 :: r ∧ Denotes rest r := by
  cases h with
  | blank hc => exact absurd hc hblank
  | @pair _ d high low o rest r hc hd ho hrest =>
    have hoctet : o = (16 * high + low).toUInt8 := by
      rw [← ho, Nat.toUInt8_eq, UInt8.ofNat_toNat]
    exact ⟨d, rest, high, low, r, rfl, hc.read.1, hd.read.1, by rw [hoctet], hrest⟩

private theorem ascii (h : Denotes cs b) : ∀ c ∈ cs, c.toNat < 128 := by
  induction h with
  | nil => simp
  | blank hc _ ih => exact List.forall_mem_cons.mpr ⟨lt_of_isBlank hc, ih⟩
  | pair hc hd _ _ ih =>
    exact List.forall_mem_cons.mpr ⟨hc.read.2.2.1, List.forall_mem_cons.mpr ⟨hd.read.2.2.1, ih⟩⟩

private theorem normal_eq (h : Denotes cs b) :
    (cs.filter fun c => !isBlank c).map Char.toLower = digits b := by
  induction h with
  | nil => rfl
  | blank hc _ ih => rw [List.filter_cons_of_neg (by simp [hc]), ih]
  | @pair c d high low o cs b hc hd ho _ ih =>
    obtain ⟨-, hcblank, -, hclower⟩ := hc.read
    obtain ⟨-, hdblank, -, hdlower⟩ := hd.read
    have hlow := hd.lt
    have hhigh : o.toNat / 16 = high := by omega
    have hrest : o.toNat % 16 = low := by omega
    rw [List.filter_cons_of_pos (by simp [hcblank]), List.filter_cons_of_pos (by simp [hdblank]),
      List.map_cons, List.map_cons, ih, hclower, hdlower, ← hhigh, ← hrest]
    rfl

end Denotes

private theorem denotes_digits (b : Bytes) : Denotes (digits b) b := by
  induction b with
  | nil => exact .nil
  | cons o b ih =>
    have ho : o.toNat < 256 := o.toNat_lt
    exact .pair (isDigit_digit (by omega)) (isDigit_digit (by omega)) (by omega) ih

private theorem denotes_pair {high low : Nat} (hc : digitValue? c = some high)
    (hd : digitValue? d = some low) (h : Denotes cs b) :
    Denotes (c :: d :: cs) ((16 * high + low).toUInt8 :: b) := by
  have hhigh := isDigit_of_digitValue? hc
  have hlow := isDigit_of_digitValue? hd
  have hroom : 16 * high + low < 256 := by
    have := hhigh.lt
    have := hlow.lt
    omega
  refine .pair hhigh hlow ?_ h
  rw [Nat.toUInt8_eq, UInt8.toNat_ofNat', Nat.mod_eq_of_lt hroom]

private theorem length_digits (b : Bytes) : (digits b).length = 2 * b.length := by
  induction b with
  | nil => rfl
  | cons o b ih =>
    rw [digits, List.flatMap_cons, List.length_append, ← digits, ih, List.length_cons]
    show 2 + 2 * b.length = _
    omega

private theorem mem_digits (h : c ∈ digits b) : c ∈ lowerDigits := by
  have hdigit : ∀ v < 16, digit v ∈ lowerDigits := by decide
  obtain ⟨o, -, hc⟩ := List.mem_flatMap.mp h
  have ho : o.toNat < 256 := o.toNat_lt
  rcases List.mem_cons.mp hc with rfl | hc
  · exact hdigit _ (by omega)
  · rw [List.mem_singleton.mp hc]
    exact hdigit _ (by omega)

/-- The reader takes the texts of the grammar, from any place on, and no others. -/
private theorem scan_eq_ok_iff : scan p cs = .ok b ↔ Denotes cs b := by
  fun_induction scan p cs generalizing b with
  | case1 => rw [Denotes.nil_iff, Except.ok.injEq, eq_comm]
  | case2 p c hblank =>
    rw [Denotes.cons_iff_of_isBlank hblank, Denotes.nil_iff, Except.ok.injEq, eq_comm]
  | case3 p c hblank =>
    refine ⟨fun h => (by cases h), fun h => ?_⟩
    obtain ⟨d, rest, -, -, -, hcs, -⟩ := h.exists_pair hblank
    cases hcs
  | case4 p c d rest hblank ih => rw [Denotes.cons_iff_of_isBlank hblank, ih]
  | case5 p c d rest hblank high low hd hc ih =>
    constructor
    · intro h
      cases hr : scan (p + 2) rest with
      | error place =>
        rw [hr] at h
        cases h
      | ok r =>
        rw [hr] at h
        rw [← Except.ok.inj h]
        exact denotes_pair hc hd (ih.mp hr)
    · intro h
      obtain ⟨d', rest', high', low', r, hcs, hc', hd', rfl, hr⟩ := h.exists_pair hblank
      cases hcs
      cases hc.symm.trans hc'
      cases hd.symm.trans hd'
      rw [ih.mpr hr]
      rfl
  | case6 p c d rest hblank high hd hc =>
    refine ⟨fun h => (by cases h), fun h => ?_⟩
    obtain ⟨d', rest', -, low', -, hcs, -, hd', -⟩ := h.exists_pair hblank
    cases hcs
    cases hd.symm.trans hd'
  | case7 p c d rest hblank hc =>
    refine ⟨fun h => (by cases h), fun h => ?_⟩
    obtain ⟨-, -, high', -, -, -, hc', -⟩ := h.exists_pair hblank
    cases hc.symm.trans hc'

theorem decode_eq_ok_iff {s : String} : decode s = .ok b ↔ Denotes s.toList b := by
  unfold decode
  split
  · rename_i place hplace
    refine ⟨fun h => (by cases h), fun h => ?_⟩
    obtain ⟨hlt, hwide, -⟩ := List.findIdx?_eq_some_iff_getElem.mp hplace
    have hascii := h.ascii _ (List.getElem_mem hlt)
    exact absurd hascii (Nat.not_lt.mpr (of_decide_eq_true hwide))
  · exact scan_eq_ok_iff

end Hex

namespace SessionId

variable {s s' : String} {id id' : SessionId}

private theorem ofOctets_eq_ok_iff {b : Bytes} : ofOctets (some b) = .ok id ↔ b = id.bytes.val := by
  have hid : ofBytes? b = some id ↔ b = id.bytes.val := by
    rw [← Sized.ofBytes?_eq_some_iff, ofBytes?, Option.map_eq_some_iff]
    constructor
    · rintro ⟨i, hi, rfl⟩
      exact hi
    · exact fun hi => ⟨id.bytes, hi, rfl⟩
  rw [← hid, ofOctets, Option.bind_some]
  cases ofBytes? b <;> simp

private theorem ofHex_eq_ok_iff : ofHex s = .ok id ↔ Hex.Denotes s.toList id.bytes.val := by
  unfold ofHex
  rw [← Hex.decode_eq_ok_iff]
  cases Hex.decode s with
  | error place => simp
  | ok b => simp [ofOctets_eq_ok_iff]

private theorem ofHex_error {f : Fault} (h : ofHex s = .error f) : f.kind = .invalidArgument := by
  unfold ofHex at h
  split at h
  · obtain rfl := Except.error.inj h
    rfl
  · unfold ofOctets at h
    split at h
    · cases h
    · obtain rfl := Except.error.inj h
      rfl

private theorem ofHex_text (id : SessionId) : ofHex id.text = .ok id := by
  rw [ofHex_eq_ok_iff, text, Hex.encode, String.toList_ofList]
  exact Hex.denotes_digits id.bytes.val

private theorem text_inj : id.text = id'.text ↔ id = id' := by
  constructor
  · intro h
    exact Except.ok.inj ((ofHex_text id).symm.trans ((congrArg ofHex h).trans (ofHex_text id')))
  · rintro rfl
    rfl

private theorem text_of_ofHex (h : ofHex s = .ok id) : id.text = Hex.normal s := by
  rw [text, Hex.encode, Hex.normal, (ofHex_eq_ok_iff.mp h).normal_eq]

private theorem length_text (id : SessionId) : id.text.length = 32 := by
  rw [text, Hex.encode, String.length_ofList, Hex.length_digits, id.bytes.property]

private theorem mem_text {c : Char} (h : c ∈ id.text.toList) : c ∈ Hex.lowerDigits := by
  rw [text, Hex.encode, String.toList_ofList] at h
  exact Hex.mem_digits h

/-- A text denotes an identifier exactly if it consists of sixteen pairs of digits with blanks
around them, and is refused as an argument otherwise. An identifier is written in 32 lower-case
digits, which denote it and are the normal form of all other texts that do. -/
theorem hexText_exact (s s' : String) (id : SessionId) :
    (ofHex s = .ok id ↔ Hex.Denotes s.toList id.bytes.val) ∧
      ((∀ i : SessionId, ¬ Hex.Denotes s.toList i.bytes.val) →
        ∃ f, ofHex s = .error f ∧ f.kind = .invalidArgument) ∧
      (id.text.length = 32 ∧ (∀ c ∈ id.text.toList, c ∈ Hex.lowerDigits) ∧
        ofHex id.text = .ok id) ∧
      (ofHex s = .ok id → id.text = Hex.normal s) ∧
      ∀ i i', ofHex s = .ok i → ofHex s' = .ok i' → (i = i' ↔ Hex.normal s = Hex.normal s') := by
  refine ⟨ofHex_eq_ok_iff, fun h => ?_, ⟨length_text id, fun c hc => mem_text hc, ofHex_text id⟩,
    text_of_ofHex, fun i i' hi hi' => ?_⟩
  · cases hs : ofHex s with
    | error f => exact ⟨f, rfl, ofHex_error hs⟩
    | ok i => exact absurd (ofHex_eq_ok_iff.mp hs) (h i)
  · rw [← text_of_ofHex hi, ← text_of_ofHex hi', text_inj]

def sampleDoubled : SessionId :=
  ⟨⟨[0x00, 0x11, 0x22, 0x33, 0x44, 0x55, 0x66, 0x77, 0x88, 0x99, 0xaa, 0xbb, 0xcc, 0xdd, 0xee,
    0xff], rfl⟩⟩

/-- Two texts of one identifier, in mixed case and with blanks, and a text with a blank inside a
pair. -/
theorem hexText_exact_mixed :
    let spaced := "00 11\t22 33 44 55 66 77 88 99 aA Bb cc dd ee FF\n"
    let plain := "00112233445566778899AABBCCDDEEFF"
    (ofHex spaced = .ok sampleDoubled ∧ ofHex plain = .ok sampleDoubled ∧
      sampleDoubled.text = Hex.normal spaced ∧ Hex.normal spaced = Hex.normal plain) ∧
      ∃ f, ofHex ("0 " ++ plain) = .error f ∧ f.kind = .invalidArgument := by
  intro spaced plain
  have hspaced : ofHex spaced = .ok sampleDoubled := by unfold spaced; rfl
  have hplain : ofHex plain = .ok sampleDoubled := by unfold plain; rfl
  have hsplit : ofHex ("0 " ++ plain) = .error (.hexDigit 1) := by unfold plain; rfl
  obtain ⟨-, -, -, hnormal, hsame⟩ := hexText_exact spaced plain sampleDoubled
  refine ⟨⟨hspaced, hplain, hnormal hspaced, (hsame _ _ hspaced hplain).mp rfl⟩, ?_⟩
  refine (hexText_exact ("0 " ++ plain) plain sampleDoubled).2.1 fun i hi => ?_
  have hok := (hexText_exact ("0 " ++ plain) plain i).1.mpr hi
  cases hsplit.symm.trans hok

end SessionId

end RatchetSession
