import RatchetSession.Proofs.Task

/-!
# Secrets in base64 text

The standard text of a byte string is four characters for every three octets, the last group padded.
Characters that mean nothing may stand anywhere in it, and anything may follow the padding:
`decode_encode_append`. A local identity is loaded from such a text as from the octets themselves,
and from no text of another length: `secretText_exact`.
-/

set_option autoImplicit false
set_option relaxedAutoImplicit false

namespace RatchetSession

namespace Base64

/-- The sextets of a byte string, the last one filled up with zero digits. -/
def sextets : Bytes → List Nat
  | x :: y :: z :: rest =>
    x.toNat / 4 :: (16 * (x.toNat % 4) + y.toNat / 16) :: (4 * (y.toNat % 16) + z.toNat / 64)
      :: z.toNat % 64 :: sextets rest
  | [x, y] => [x.toNat / 4, 16 * (x.toNat % 4) + y.toNat / 16, 4 * (y.toNat % 16)]
  | [x] => [x.toNat / 4, 16 * (x.toNat % 4)]
  | [] => []

def character (v : Nat) : Char := alphabet.getD v '='

/-- How many characters the last group lacks. -/
def missing (length : Nat) : Nat := (3 - length % 3) % 3

def encode (b : Bytes) : List Char :=
  (sextets b).map character ++ List.replicate (missing b.length) '='

example : encode (Bytes.ascii "Many") = "TWFueQ==".toList := by decide +kernel

/-- A character of ASCII that stands for nothing. -/
def Idle (c : Char) : Prop := c.toNat < 128 ∧ c ∉ alphabet ∧ c ≠ '='

/-- The second text is the first one with idle characters inserted. -/
inductive Interspersed : List Char → List Char → Prop
  | nil : Interspersed [] []
  | keep {cs t : List Char} (c : Char) : Interspersed cs t → Interspersed (c :: cs) (c :: t)
  | insert {c : Char} {cs t : List Char} :
      Idle c → Interspersed cs t → Interspersed cs (c :: t)

variable {b : Bytes} {c : Char} {v : Nat} {vs : List Nat} {cs xs ys t rest : List Char}
  {count pads k : Nat}

private theorem character_read (h : v < 64) :
    sextet? (character v) = some v ∧ character v ≠ '=' ∧ (character v).toNat < 128 := by
  have hall : ∀ v < 64,
      sextet? (character v) = some v ∧ character v ≠ '=' ∧ (character v).toNat < 128 := by
    decide +kernel
  exact hall v h

private theorem sextet?_of_idle (h : Idle c) : sextet? c = none := by
  refine List.findIdx?_eq_none_iff.mpr fun d hd => ?_
  rw [decide_eq_false_iff_not]
  rintro rfl
  exact h.2.1 hd

private theorem lt_of_mem_sextets (h : v ∈ sextets b) : v < 64 := by
  fun_induction sextets b with
  | case1 x y z rest ih =>
    have hx := x.toNat_lt
    have hy := y.toNat_lt
    have hz := z.toNat_lt
    simp only [List.mem_cons] at h
    rcases h with rfl | rfl | rfl | rfl | h
    · omega
    · omega
    · omega
    · omega
    · exact ih h
  | case2 x y =>
    have hx := x.toNat_lt
    have hy := y.toNat_lt
    simp only [List.mem_cons, List.not_mem_nil, or_false] at h
    omega
  | case3 x =>
    have hx := x.toNat_lt
    simp only [List.mem_cons, List.not_mem_nil, or_false] at h
    omega
  | case4 => cases h

private theorem octets_sextets (b : Bytes) : octets (sextets b) = b := by
  fun_induction sextets b with
  | case1 x y z rest ih =>
    have hx : 4 * (x.toNat / 4) + (16 * (x.toNat % 4) + y.toNat / 16) / 16 = x.toNat := by
      have := y.toNat_lt
      omega
    have hy : 16 * ((16 * (x.toNat % 4) + y.toNat / 16) % 16) +
        (4 * (y.toNat % 16) + z.toNat / 64) / 4 = y.toNat := by
      have := y.toNat_lt
      have := z.toNat_lt
      omega
    have hz : 64 * ((4 * (y.toNat % 16) + z.toNat / 64) % 4) + z.toNat % 64 = z.toNat := by
      have := z.toNat_lt
      omega
    simp only [octets, hx, hy, hz, ih, Nat.toUInt8_eq, UInt8.ofNat_toNat]
  | case2 x y =>
    have hx : 4 * (x.toNat / 4) + (16 * (x.toNat % 4) + y.toNat / 16) / 16 = x.toNat := by
      have := y.toNat_lt
      omega
    have hy : 16 * ((16 * (x.toNat % 4) + y.toNat / 16) % 16) + 4 * (y.toNat % 16) / 4 =
        y.toNat := by
      have := y.toNat_lt
      omega
    simp only [octets, hx, hy, Nat.toUInt8_eq, UInt8.ofNat_toNat]
  | case3 x =>
    have hx : 4 * (x.toNat / 4) + 16 * (x.toNat % 4) / 16 = x.toNat := by omega
    simp only [octets, hx, Nat.toUInt8_eq, UInt8.ofNat_toNat]
  | case4 => rfl

private theorem length_sextets (b : Bytes) :
    (sextets b).length = 4 * (b.length / 3) + (4 * (b.length % 3) + 2) / 3 := by
  fun_induction sextets b with
  | case1 x y z rest ih =>
    have hdiv : (rest.length + 1 + 1 + 1) / 3 = rest.length / 3 + 1 := by omega
    have hmod : (rest.length + 1 + 1 + 1) % 3 = rest.length % 3 := by omega
    simp only [List.length_cons, ih, hdiv, hmod]
    omega
  | case2 x y => simp
  | case3 x => simp
  | case4 => rfl

private theorem full_group (h : b.length % 3 = 0) :
    (sextets b).length % 4 = 0 ∧ missing b.length = 0 := by
  have hlength := length_sextets b
  rw [h] at hlength
  exact ⟨by omega, by rw [missing, h]⟩

private theorem padded_group (h : b.length % 3 ≠ 0) :
    2 ≤ (sextets b).length % 4 ∧ 0 < missing b.length ∧
      (sextets b).length % 4 + missing b.length = 4 := by
  have hlength := length_sextets b
  have hcases : b.length % 3 = 1 ∨ b.length % 3 = 2 := by omega
  rcases hcases with h | h
  · simp only [h] at hlength
    simp only [missing, h]
    omega
  · simp only [h] at hlength
    simp only [missing, h]
    omega

namespace Interspersed

private theorem refl (cs : List Char) : Interspersed cs cs := by
  induction cs with
  | nil => exact .nil
  | cons c cs ih => exact .keep c ih

private theorem of_append (h : Interspersed (xs ++ ys) t) :
    ∃ front back, t = front ++ back ∧ Interspersed xs front ∧ Interspersed ys back := by
  generalize hcs : xs ++ ys = cs at h
  induction h generalizing xs with
  | nil =>
    obtain ⟨rfl, rfl⟩ := List.append_eq_nil_iff.mp hcs
    exact ⟨[], [], rfl, .nil, .nil⟩
  | @keep cs t c h ih =>
    cases xs with
    | nil =>
      rw [List.nil_append] at hcs
      subst hcs
      exact ⟨[], c :: t, rfl, .nil, .keep c h⟩
    | cons x xs =>
      obtain ⟨rfl, htail⟩ := List.cons.inj hcs
      obtain ⟨front, back, rfl, hfront, hback⟩ := ih htail
      exact ⟨x :: front, back, rfl, .keep x hfront, hback⟩
  | @insert c cs t hc h ih =>
    obtain ⟨front, back, rfl, hfront, hback⟩ := ih hcs
    exact ⟨c :: front, back, rfl, .insert hc hfront, hback⟩

private theorem ascii (h : Interspersed cs t) (hcs : ∀ c ∈ cs, c.toNat < 128) :
    ∀ c ∈ t, c.toNat < 128 := by
  induction h with
  | nil => exact hcs
  | keep c _ ih =>
    rw [List.forall_mem_cons] at hcs ⊢
    exact ⟨hcs.1, ih hcs.2⟩
  | insert hc _ ih => exact List.forall_mem_cons.mpr ⟨hc.1, ih hcs⟩

end Interspersed

private theorem read_idle (h : Idle c) : read count pads (c :: cs) = read count pads cs := by
  rw [read, if_neg h.2.2, sextet?_of_idle h]

private theorem read_characters (hvs : ∀ v ∈ vs, v < 64) (h : Interspersed (vs.map character) t)
    (rest : List Char) :
    read count 0 (t ++ rest) =
      ⟨vs ++ (read (count + vs.length) 0 rest).sextets,
        (read (count + vs.length) 0 rest).padded⟩ := by
  generalize hcs : vs.map character = cs at h
  induction h generalizing vs count with
  | nil =>
    obtain rfl := List.map_eq_nil_iff.mp hcs
    rfl
  | @keep cs t c h ih =>
    obtain ⟨v, vs, rfl, rfl, htail⟩ := List.map_eq_cons_iff.mp hcs
    obtain ⟨hv, hrest⟩ := List.forall_mem_cons.mp hvs
    obtain ⟨hsextet, hpad, -⟩ := character_read hv
    have hcount : count + (vs.length + 1) = count + 1 + vs.length := by omega
    rw [List.cons_append, read, if_neg hpad, hsextet, List.length_cons, hcount]
    simp only [ih hrest htail, List.cons_append]
  | insert hc _ ih => rw [List.cons_append, read_idle hc, ih hvs hcs]

private theorem read_padding (h : Interspersed (List.replicate k '=') t) (hk : 0 < k)
    (hgroup : 2 ≤ count % 4) (hfull : count % 4 + pads + k = 4) (rest : List Char) :
    read count pads (t ++ rest) = ⟨[], true⟩ := by
  generalize hcs : List.replicate k '=' = cs at h
  induction h generalizing k pads with
  | nil =>
    have hnone := congrArg List.length hcs
    rw [List.length_replicate, List.length_nil] at hnone
    omega
  | @keep cs t c h ih =>
    cases k with
    | zero => omega
    | succ k =>
      obtain ⟨rfl, htail⟩ := List.cons.inj hcs
      rw [List.cons_append, read, if_pos rfl, if_pos hgroup]
      by_cases hlast : 4 ≤ count % 4 + (pads + 1)
      · rw [if_pos hlast]
      · rw [if_neg hlast]
        exact ih (by omega) (by omega) htail
  | insert hc _ ih => rw [List.cons_append, read_idle hc, ih hk hfull hcs]

private theorem read_short_padding (h : Interspersed (List.replicate k '=') t)
    (hshort : count % 4 + pads + k < 4) : read count pads t = ⟨[], false⟩ := by
  generalize hcs : List.replicate k '=' = cs at h
  induction h generalizing k pads with
  | nil => rfl
  | @keep cs t c h ih =>
    cases k with
    | zero => cases hcs
    | succ k =>
      obtain ⟨rfl, htail⟩ := List.cons.inj hcs
      rw [read, if_pos rfl]
      split
      · rw [if_neg (by omega)]
        exact ih (k := k) (by omega) htail
      · exact ih (k := k) (by omega) htail
  | insert hc _ ih => rw [read_idle hc, ih hshort hcs]

private theorem decode_ofList (h : ∀ c ∈ cs, c.toNat < 128) :
    decode (String.ofList cs) =
      if (read 0 0 cs).padded ∨ (read 0 0 cs).sextets.length % 4 = 0 then
        .ok (octets (read 0 0 cs).sextets)
      else if (read 0 0 cs).sextets.length % 4 = 1 then
        .error (.loneCharacter (read 0 0 cs).sextets.length)
      else .error .padding := by
  have hascii : ¬ (cs.any fun c => 128 ≤ c.toNat) = true := by
    intro hany
    obtain ⟨c, hc, hwide⟩ := List.any_eq_true.mp hany
    exact absurd (h c hc) (Nat.not_lt.mpr (of_decide_eq_true hwide))
  rw [decode, String.toList_ofList, if_neg hascii]

private theorem ascii_map_character (b : Bytes) :
    ∀ c ∈ (sextets b).map character, c.toNat < 128 := by
  intro c hc
  obtain ⟨v, hv, rfl⟩ := List.mem_map.mp hc
  exact (character_read (lt_of_mem_sextets hv)).2.2

private theorem read_from_start (h : Interspersed ((sextets b).map character) t)
    (rest : List Char) :
    read 0 0 (t ++ rest) =
      ⟨sextets b ++ (read (sextets b).length 0 rest).sextets,
        (read (sextets b).length 0 rest).padded⟩ := by
  rw [read_characters (fun v hv => lt_of_mem_sextets hv) h rest, Nat.zero_add]

private theorem ascii_padding (k : Nat) : ∀ c ∈ List.replicate k '=', c.toNat < 128 := by
  intro c hc
  rw [List.eq_of_mem_replicate hc]
  decide

/-- The standard text of a byte string denotes it, with idle characters anywhere in it and with any
text after its padding, if there is any. -/
theorem decode_encode_append (h : Interspersed (encode b) t)
    (hend : b.length % 3 = 0 → rest = []) (hrest : ∀ c ∈ rest, c.toNat < 128) :
    decode (String.ofList (t ++ rest)) = .ok b := by
  obtain ⟨front, back, rfl, hfront, hback⟩ := h.of_append
  have hascii : ∀ c ∈ front ++ back ++ rest, c.toNat < 128 := by
    rw [List.forall_mem_append, List.forall_mem_append]
    exact ⟨⟨hfront.ascii (ascii_map_character b), hback.ascii (ascii_padding _)⟩, hrest⟩
  have hread := read_from_start hfront (back ++ rest)
  rw [decode_ofList hascii, List.append_assoc, hread]
  by_cases hfull : b.length % 3 = 0
  · obtain ⟨hlength, hmissing⟩ := full_group hfull
    rw [hend hfull, List.append_nil, read_short_padding hback (by omega), List.append_nil,
      if_pos (.inr hlength), octets_sextets]
  · obtain ⟨hgroup, hpos, hlength⟩ := padded_group hfull
    rw [read_padding hback hpos hgroup (by omega), List.append_nil, if_pos (.inl rfl),
      octets_sextets]

private theorem decode_dropLast (hb : b.length % 3 ≠ 0) (h : Interspersed (encode b).dropLast t) :
    decode (String.ofList t) = .error .padding := by
  obtain ⟨hgroup, hpos, hlength⟩ := padded_group hb
  have hdrop : (encode b).dropLast =
      (sextets b).map character ++ List.replicate (missing b.length - 1) '=' := by
    rw [encode, List.dropLast_append_of_ne_nil, List.dropLast_replicate]
    exact List.ne_nil_of_length_pos (by rwa [List.length_replicate])
  rw [hdrop] at h
  have hascii : ∀ c ∈ t, c.toNat < 128 := by
    refine h.ascii (List.forall_mem_append.mpr ⟨ascii_map_character b, ascii_padding _⟩)
  obtain ⟨front, back, rfl, hfront, hback⟩ := h.of_append
  have hread := read_from_start hfront back
  rw [read_short_padding hback (by omega), List.append_nil] at hread
  rw [decode_ofList hascii, hread, if_neg, if_neg (by show ¬ (sextets b).length % 4 = 1; omega)]
  rintro (hpadded | hfull)
  · cases hpadded
  · change (sextets b).length % 4 = 0 at hfull
    omega

end Base64

namespace Identity

/-- A text that names a party. -/
def IsName (s : String) : Prop := s.toList ≠ [] ∧ ∀ c ∈ s.toList, c.toNat < 128

private theorem text_of_ascii {s : String} (h : ∀ c ∈ s.toList, c.toNat < 128) {i : Identity}
    (hi : i.octets = Bytes.ascii s) : i.text = s := by
  have hback : ∀ c ∈ s.toList, Char.ofNat c.toNat.toUInt8.toNat = c := by
    intro c hc
    have hlt : c.toNat < 256 := Nat.lt_trans (h c hc) (by decide)
    rw [Nat.toUInt8_eq, UInt8.toNat_ofNat', Nat.mod_eq_of_lt hlt, Char.ofNat_toNat]
  have hmap : s.toList.map ((fun o : UInt8 => Char.ofNat o.toNat) ∘ fun c => c.toNat.toUInt8) =
      s.toList :=
    (List.map_congr_left hback).trans (List.map_id' _)
  rw [text, hi, Bytes.ascii, List.map_map, hmap, String.ofList_toList]

private theorem exists_make {s : String} (h : IsName s) :
    ∃ i, make (some s) = .ok i ∧ i.text = s := by
  have hascii : s.toList.all (fun c => c.toNat < 128) = true :=
    List.all_eq_true.mpr fun c hc => decide_eq_true (h.2 c hc)
  refine ⟨⟨Bytes.ascii s, Bytes.ascii_ne_nil h.1, Bytes.lt_of_mem_ascii hascii⟩, ?_,
    text_of_ascii h.2 rfl⟩
  rw [make, ofText, dif_neg h.1, dif_pos hascii]
  rfl

end Identity

namespace LocalIdentity

variable {name : Option String} {text : String} {b : Bytes} {i : Identity} {l : LocalIdentity}

private theorem ofBase64_of_decode (h : Base64.decode text = .ok b) :
    ofBase64 name text = make name (.fixed b) := by
  rw [ofBase64, h]
  rfl

private theorem make_eq_ok (h : make name (.fixed b) = .ok l) :
    Identity.make name = .ok l.identity ∧ b = l.secret.val := by
  obtain ⟨i, hi, h⟩ := bind_eq_ok h
  obtain ⟨k, hk, h⟩ := bind_eq_ok h
  obtain rfl := Except.ok.inj h
  refine ⟨hi, ?_⟩
  unfold secretKey at hk
  split at hk
  · rename_i k' hsized
    obtain rfl := Except.ok.inj hk
    exact Sized.ofBytes?_eq_some_iff.mp hsized
  · cases hk

private theorem make_fixed (h : Identity.make name = .ok i) (secret : Key) :
    make name (.fixed secret.val) = .ok ⟨i, secret⟩ := by
  have hsecret : secretKey (.fixed secret.val) = .ok secret := by
    have hsized : (Offered.fixed secret.val).octets?.bind (Sized.ofBytes? 32) = some secret :=
      Sized.ofBytes?_val secret
    rw [secretKey, hsized]
  rw [make, h, hsecret]
  rfl

private theorem make_of_length_ne (h : b.length ≠ 32) :
    make name (.fixed b) =
      match Identity.make name with
      | .ok _ => .error (.secretKeySize b.length)
      | .error f => .error f := by
  have hsecret : secretKey (.fixed b) = .error (.secretKeySize b.length) := by
    have hsized : (Offered.fixed b).octets?.bind (Sized.ofBytes? 32) = none :=
      Sized.ofBytes?_eq_none_iff.mpr h
    rw [secretKey, hsized]
    rfl
  rw [make]
  cases Identity.make name with
  | error f => rfl
  | ok i =>
    rw [hsecret]
    rfl

private theorem kind_of_identity_error {f : Fault} (h : Identity.make name = .error f) :
    f.kind = .invalidArgument := by
  unfold Identity.make at h
  cases hname : Identity.ofText name with
  | ok i =>
    rw [hname] at h
    cases h
  | error r =>
    rw [hname] at h
    obtain rfl := Except.error.inj h
    rfl

/-- From the standard text of a secret, with idle characters anywhere in it and any text after its
padding, a party is loaded as from the secret itself; without its padding the text is refused.
Whatever a party is loaded from denotes 32 octets, and a text of any other length is refused as an
argument once the name is found to be one. -/
theorem secretText_exact (secret : Key) :
    (∀ s t rest, Identity.IsName s → Base64.Interspersed (Base64.encode secret.val) t →
      (∀ c ∈ rest, c.toNat < 128) →
      ∃ l, ofBase64 (some s) (String.ofList (t ++ rest)) = .ok l ∧
        make (some s) (.fixed secret.val) = .ok l ∧ l.identity.text = s ∧ l.secret = secret) ∧
      (∀ name t, Base64.Interspersed (Base64.encode secret.val).dropLast t →
        ofBase64 name (String.ofList t) = .error (.base64 .padding)) ∧
      (∀ name text l, ofBase64 name text = .ok l → Base64.decode text = .ok l.secret.val) ∧
      ∀ name text b, Base64.decode text = .ok b → b.length ≠ 32 →
        ∃ f, ofBase64 name text = .error f ∧ f.kind = .invalidArgument ∧
          (Identity.make name = .error f ∨
            (∃ i, Identity.make name = .ok i) ∧ f = .secretKeySize b.length) := by
  have hpadded : secret.val.length % 3 ≠ 0 := by rw [secret.property]; decide
  refine ⟨fun s t rest hname ht hrest => ?_, fun name t ht => ?_, fun name text l hl => ?_,
    fun name text b hb hlength => ?_⟩
  · obtain ⟨i, hi, htext⟩ := Identity.exists_make hname
    have hdecode := Base64.decode_encode_append ht (fun h => absurd h hpadded) hrest
    have hmake := make_fixed hi secret
    exact ⟨⟨i, secret⟩, (ofBase64_of_decode hdecode).trans hmake, hmake, htext, rfl⟩
  · rw [ofBase64, Base64.decode_dropLast hpadded ht]
    rfl
  · obtain ⟨b, hb, hmake⟩ := bind_eq_ok hl
    rw [← (make_eq_ok hmake).2]
    exact mapError_eq_ok hb
  · rw [ofBase64_of_decode hb, make_of_length_ne hlength]
    cases hname : Identity.make name with
    | error f => exact ⟨f, rfl, kind_of_identity_error hname, .inl rfl⟩
    | ok i => exact ⟨_, rfl, rfl, .inr ⟨⟨i, rfl⟩, rfl⟩⟩

/-- A text with a mark before it and more text after it, the same without its padding, and a text of
three octets. -/
theorem secretText_exact_sample :
    let secret : Key := ⟨List.replicate 32 7, rfl⟩
    let written := Base64.encode secret.val
    (∃ l, ofBase64 (some "ECHOECHO") (String.ofList ('-' :: written ++ ['=', 'A'])) = .ok l ∧
      make (some "ECHOECHO") (.fixed secret.val) = .ok l ∧ l.secret = secret ∧
      Base64.decode (String.ofList ('-' :: written ++ ['=', 'A'])) = .ok l.secret.val) ∧
      ofBase64 none (String.ofList written.dropLast) = .error (.base64 .padding) ∧
      ∃ f, ofBase64 (some "ECHOECHO") "AAAA" = .error f ∧ f.kind = .invalidArgument := by
  intro secret written
  obtain ⟨hloads, hunpadded, hdenotes, hsize⟩ := secretText_exact secret
  have hmark : Base64.Idle '-' := ⟨by decide, by decide +kernel, by decide⟩
  have hascii : ("ECHOECHO".toList.all fun c => c.toNat < 128) = true := by decide +kernel
  have hname : Identity.IsName "ECHOECHO" :=
    ⟨by decide +kernel, fun c hc => of_decide_eq_true (List.all_eq_true.mp hascii c hc)⟩
  have hshort : Base64.decode "AAAA" = .ok [0, 0, 0] := rfl
  obtain ⟨l, hl, hmake, -, hsecret⟩ := hloads "ECHOECHO" ('-' :: written) ['=', 'A'] hname
    (.insert hmark (.refl written))
    (List.forall_mem_cons.mpr ⟨by decide, List.forall_mem_singleton.mpr (by decide)⟩)
  obtain ⟨f, hf, hkind, -⟩ := hsize (some "ECHOECHO") "AAAA" [0, 0, 0] hshort (by decide)
  exact ⟨⟨l, hl, hmake, hsecret, hdenotes _ _ l hl⟩, hunpadded none _ (.refl _), f, hf, hkind⟩

end LocalIdentity

end RatchetSession
