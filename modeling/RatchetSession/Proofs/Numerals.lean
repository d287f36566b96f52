import Mathlib.Data.List.DropRight
import Mathlib.Data.Nat.Digits.Lemmas
import RatchetSession.Text.IntegerText

/-!
# Which texts denote an integer

White space, a sign, a numeral, zeros after a point, white space again: that is the grammar of
`Written`. The reader takes the texts of the grammar whose number has no more than 4300 digits, and
gives that number: `parse_eq_ok_iff`. The decimal text of a number is one of them, with any leading
zeros, a plus sign and any white space around it: `denotes_decimal`.
-/

set_option autoImplicit false
set_option relaxedAutoImplicit false

namespace RatchetSession

namespace Blank

variable {cs before body after : List Char}

private theorem trim_eq (cs : List Char) :
    trim cs = (cs.dropWhile isBlank).rdropWhile isBlank := rfl

private theorem exists_trim (cs : List Char) :
    ∃ before after, cs = before ++ (trim cs ++ after) ∧ (∀ c ∈ before, isBlank c) ∧
      ∀ c ∈ after, isBlank c := by
  refine ⟨cs.takeWhile isBlank, (cs.dropWhile isBlank).rtakeWhile isBlank, ?_,
    fun c hc => List.mem_takeWhile_imp hc, fun c hc => List.mem_rtakeWhile_imp hc⟩
  rw [trim_eq, List.rdropWhile_append_rtakeWhile, List.takeWhile_append_dropWhile]

private theorem trim_of_forall (h : ∀ c ∈ cs, isBlank c) : trim cs = [] := by
  rw [trim_eq, List.dropWhile_eq_nil_iff.mpr h, List.rdropWhile_nil]

private theorem trim_append (hbefore : ∀ c ∈ before, isBlank c)
    (hbody : ∀ c ∈ body, isBlank c = false)
    (hafter : ∀ c ∈ after, isBlank c) : trim (before ++ (body ++ after)) = body := by
  have hdrop : (before ++ (body ++ after)).dropWhile isBlank = (body ++ after).dropWhile isBlank :=
    List.dropWhile_append_of_pos hbefore
  cases body with
  | nil =>
    refine trim_of_forall fun c hc => ?_
    rcases List.mem_append.mp hc with hc | hc
    · exact hbefore c hc
    · exact hafter c hc
  | cons c body =>
    have hfirst : isBlank c = false := hbody c List.mem_cons_self
    have hself : (c :: body ++ after).dropWhile isBlank = c :: body ++ after := by
      rw [List.cons_append, List.dropWhile_cons_of_neg (by simp [hfirst])]
    have hlast : (c :: body).rdropWhile isBlank = c :: body := by
      refine List.rdropWhile_eq_self_iff.mpr fun hl => ?_
      rw [hbody _ (List.getLast_mem hl)]
      decide
    have hback : (c :: body ++ after).rdropWhile isBlank = (c :: body).rdropWhile isBlank := by
      rw [List.rdropWhile, List.reverse_append, List.dropWhile_append_of_pos, List.rdropWhile]
      exact fun c hc => hafter c (List.mem_reverse.mp hc)
    rw [trim_eq, hdrop, hself, hback, hlast]

end Blank

namespace IntegerText

def decimalDigits : List Char := "0123456789".toList

def IsDigit (c : Char) (v : Nat) : Prop := decimalDigits[v]? = some c

/-- A run of digits, the most significant first, with at most one underscore between two of them. -/
inductive Numeral : List Char → List Nat → Prop
  | single {c : Char} {v : Nat} : IsDigit c v → Numeral [c] [v]
  | next {c : Char} {v : Nat} {cs : List Char} {ds : List Nat} :
      IsDigit c v → Numeral cs ds → Numeral (c :: cs) (v :: ds)
  | underscore {c : Char} {v : Nat} {cs : List Char} {ds : List Nat} :
      IsDigit c v → Numeral cs ds → Numeral (c :: '_' :: cs) (v :: ds)

inductive Sign : List Char → Bool → Prop
  | none : Sign [] false
  | plus : Sign ['+'] false
  | minus : Sign ['-'] true

inductive Fraction : List Char → Prop
  | none : Fraction []
  | zeros (k : Nat) : Fraction ('.' :: List.replicate (k + 1) '0')

/-- The text is a number with the given sign and digits, and white space around it. -/
inductive Written : List Char → Bool → List Nat → Prop
  | intro {before sign numeral fraction after : List Char} {negative : Bool} {ds : List Nat} :
      (∀ c ∈ before, Blank.isBlank c) → Sign sign negative → Numeral numeral ds →
      Fraction fraction → (∀ c ∈ after, Blank.isBlank c) →
      Written (before ++ (sign ++ (numeral ++ fraction) ++ after)) negative ds

def number (ds : List Nat) : Nat := Nat.ofDigits 10 ds.reverse

/-- The text denotes an integer of no more than 4300 digits. -/
def Denotes (cs : List Char) (n : Int) : Prop :=
  ∃ negative ds, Written cs negative ds ∧ number ds < 10 ^ maxDigits ∧
    n = if negative then -(number ds : Int) else number ds

variable {c : Char} {v k : Nat} {cs sign fraction rest : List Char} {ds : List Nat}
  {negative : Bool} {n : Int}

private theorem IsDigit.lt (h : IsDigit c v) : v < 10 := (List.getElem?_eq_some_iff.mp h).1

private theorem IsDigit.read (h : IsDigit c v) :
    digit? c = some v ∧ Blank.isBlank c = false ∧ c ≠ '_' ∧ c ≠ '.' ∧ c ≠ '+' ∧ c ≠ '-' := by
  have hall : ∀ (v : Nat) (hv : v < decimalDigits.length),
      digit? decimalDigits[v] = some v ∧ Blank.isBlank decimalDigits[v] = false ∧
        decimalDigits[v] ≠ '_' ∧ decimalDigits[v] ≠ '.' ∧ decimalDigits[v] ≠ '+' ∧
        decimalDigits[v] ≠ '-' := by
    decide
  obtain ⟨hv, rfl⟩ := List.getElem?_eq_some_iff.mp h
  exact hall v hv

private theorem isDigit_digitChar (h : v < 10) : IsDigit (Nat.digitChar v) v := by
  have hall : ∀ v < 10, decimalDigits[v]? = some (Nat.digitChar v) := by decide
  exact hall v h

private theorem digit?_eq_some_iff : digit? c = some v ↔ IsDigit c v := by
  refine ⟨fun h => ?_, fun h => h.read.1⟩
  have hall : ∀ v < 10, decimalDigits[v]? = some (Char.ofNat (v + 48)) := by decide
  unfold digit? at h
  split at h
  · rename_i hc
    have hlow : 48 ≤ c.toNat := UInt32.le_iff_toNat_le.mp (Char.le_def.mp hc.1)
    have hhigh : c.toNat ≤ 57 := UInt32.le_iff_toNat_le.mp (Char.le_def.mp hc.2)
    obtain rfl : c.toNat - 48 = v := Option.some.inj h
    have hdigit := hall (c.toNat - 48) (by omega)
    rwa [Nat.sub_add_cancel hlow, Char.ofNat_toNat] at hdigit
  · cases h

namespace Numeral

private theorem exists_cons (h : Numeral cs ds) : ∃ c v rest, IsDigit c v ∧ cs = c :: rest := by
  cases h with
  | single hc => exact ⟨_, _, _, hc, rfl⟩
  | next hc => exact ⟨_, _, _, hc, rfl⟩
  | underscore hc => exact ⟨_, _, _, hc, rfl⟩

private theorem lt_of_mem (h : Numeral cs ds) : ∀ d ∈ ds, d < 10 := by
  induction h with
  | single hc => exact List.forall_mem_singleton.mpr hc.lt
  | next hc _ ih => exact List.forall_mem_cons.mpr ⟨hc.lt, ih⟩
  | underscore hc _ ih => exact List.forall_mem_cons.mpr ⟨hc.lt, ih⟩

private theorem plain (h : Numeral cs ds) : ∀ c ∈ cs, Blank.isBlank c = false ∧ c ≠ '.' := by
  have hdigit {c : Char} {v : Nat} (hc : IsDigit c v) : Blank.isBlank c = false ∧ c ≠ '.' :=
    ⟨hc.read.2.1, hc.read.2.2.2.1⟩
  induction h with
  | single hc => exact List.forall_mem_singleton.mpr (hdigit hc)
  | next hc _ ih => exact List.forall_mem_cons.mpr ⟨hdigit hc, ih⟩
  | underscore hc _ ih =>
    exact List.forall_mem_cons.mpr ⟨hdigit hc, List.forall_mem_cons.mpr ⟨by decide, ih⟩⟩

private theorem append_digit (h : Numeral cs ds) (hc : IsDigit c v) :
    Numeral (cs ++ [c]) (ds ++ [v]) := by
  induction h with
  | single hd => exact .next hd (.single hc)
  | next hd _ ih => exact .next hd ih
  | underscore hd _ ih => exact .underscore hd ih

private theorem zeros_append (h : Numeral cs ds) (k : Nat) :
    Numeral (List.replicate k '0' ++ cs) (List.replicate k 0 ++ ds) := by
  induction k with
  | zero => exact h
  | succ k ih => exact .next (c := '0') (v := 0) rfl ih

end Numeral

private theorem digits?_eq_some_iff : digits? cs = some ds ↔ Numeral cs ds := by
  fun_induction digits? cs generalizing ds with
  | case1 =>
    refine ⟨fun h => (by cases h), fun h => ?_⟩
    obtain ⟨_, _, _, -, hcs⟩ := h.exists_cons
    cases hcs
  | case2 c =>
    constructor
    · intro h
      obtain ⟨v, hv, rfl⟩ := Option.map_eq_some_iff.mp h
      exact .single (digit?_eq_some_iff.mp hv)
    · intro h
      cases h with
      | single hc =>
        rw [hc.read.1]
        rfl
      | next _ hcs =>
        obtain ⟨_, _, _, -, hcs⟩ := hcs.exists_cons
        cases hcs
  | case3 c d rest hc =>
    refine ⟨fun h => (by cases h), fun h => ?_⟩
    obtain ⟨_, _, _, hdigit, hcs⟩ := h.exists_cons
    obtain ⟨rfl, -⟩ := List.cons.inj hcs
    cases hc.symm.trans hdigit.read.1
  | case4 c d rest v hc ihrest ih =>
    have hdigit := digit?_eq_some_iff.mp hc
    by_cases hd : d = '_'
    · subst hd
      rw [if_pos rfl]
      constructor
      · intro h
        obtain ⟨es, hes, rfl⟩ := Option.map_eq_some_iff.mp h
        exact .underscore hdigit (ihrest.mp hes)
      · intro h
        cases h with
        | next _ hcs =>
          -- An underscore is no digit.
          obtain ⟨_, _, _, hunder, hcs⟩ := hcs.exists_cons
          obtain ⟨rfl, -⟩ := List.cons.inj hcs
          exact absurd rfl hunder.read.2.2.1
        | underscore hc' hcs =>
          cases hc.symm.trans hc'.read.1
          rw [ihrest.mpr hcs]
          rfl
    · rw [if_neg hd]
      constructor
      · intro h
        obtain ⟨es, hes, rfl⟩ := Option.map_eq_some_iff.mp h
        exact .next hdigit (ih.mp hes)
      · intro h
        cases h with
        | next hc' hcs =>
          cases hc.symm.trans hc'.read.1
          rw [ih.mpr hcs]
          rfl
        | underscore => exact absurd rfl hd

private theorem exists_sign (cs : List Char) :
    ∃ sign, cs = sign ++ (splitSign cs).2 ∧ Sign sign (splitSign cs).1 := by
  unfold splitSign
  split
  · exact ⟨['-'], rfl, .minus⟩
  · exact ⟨['+'], rfl, .plus⟩
  · exact ⟨[], rfl, .none⟩

private theorem splitSign_append (hs : Sign sign negative) (h : Numeral cs ds) (rest : List Char) :
    splitSign (sign ++ (cs ++ rest)) = (negative, cs ++ rest) := by
  cases hs with
  | plus => rfl
  | minus => rfl
  | none =>
    obtain ⟨c, v, cs, hc, rfl⟩ := h.exists_cons
    obtain ⟨-, -, -, -, hplus, hminus⟩ := hc.read
    unfold splitSign
    split
    · rename_i heq
      exact absurd (List.cons.inj heq).1 hminus
    · rename_i heq
      exact absurd (List.cons.inj heq).1 hplus
    · rfl

private theorem isFraction_iff : isFraction cs = true ↔ Fraction cs := by
  constructor
  · intro h
    unfold isFraction at h
    split at h
    · exact .none
    · rename_i zeros
      simp only [Bool.and_eq_true, Bool.not_eq_true', List.isEmpty_eq_false_iff, List.all_eq_true,
        decide_eq_true_eq] at h
      have hzeros : zeros = List.replicate (zeros.length - 1 + 1) '0' := by
        have hpos := List.length_pos_iff.mpr h.1
        rw [Nat.sub_add_cancel hpos]
        exact List.eq_replicate_iff.mpr ⟨rfl, h.2⟩
      rw [hzeros]
      exact .zeros _
    · cases h
  · intro h
    cases h with
    | none => rfl
    | zeros k => simp [isFraction]

private theorem Fraction.plain (h : Fraction cs) : ∀ c ∈ cs, Blank.isBlank c = false := by
  cases h with
  | none => simp
  | zeros k =>
    refine List.forall_mem_cons.mpr ⟨by decide, fun c hc => ?_⟩
    rw [List.eq_of_mem_replicate hc]
    decide

private theorem Sign.plain (h : Sign cs negative) : ∀ c ∈ cs, Blank.isBlank c = false := by
  cases h with
  | none => simp
  | plus => simpa using (by decide : Blank.isBlank '+' = false)
  | minus => simpa using (by decide : Blank.isBlank '-' = false)

private theorem span_append (h : Numeral cs ds) (hf : Fraction fraction) :
    (cs ++ fraction).takeWhile (· ≠ '.') = cs ∧
      (cs ++ fraction).dropWhile (· ≠ '.') = fraction := by
  have hcs : ∀ c ∈ cs, decide (c ≠ '.') = true := fun c hc => decide_eq_true (h.plain c hc).2
  rw [List.takeWhile_append_of_pos hcs, List.dropWhile_append_of_pos hcs]
  cases hf with
  | none => simp
  | zeros k => simp

private theorem cleared?_eq_some_iff {es : List Nat} :
    cleared? cs = some (negative, es) ↔
      ∃ ds, Written cs negative ds ∧ es = ds.dropWhile (· = 0) := by
  constructor
  · intro h
    obtain ⟨before, after, hcs, hbefore, hafter⟩ := Blank.exists_trim cs
    obtain ⟨sign, hbody, hsign⟩ := exists_sign (Blank.trim cs)
    unfold cleared? at h
    cases hsplit : splitSign (Blank.trim cs) with
    | mk neg body =>
      simp only [hsplit] at h hbody hsign
      split at h
      · rename_i hfraction
        obtain ⟨ds, hds, heq⟩ := Option.map_eq_some_iff.mp h
        cases heq
        refine ⟨ds, ?_, rfl⟩
        have hw := Written.intro hbefore hsign (digits?_eq_some_iff.mp hds)
          (isFraction_iff.mp hfraction) hafter
        rwa [List.takeWhile_append_dropWhile, ← hbody, ← hcs] at hw
      · cases h
  · rintro ⟨ds, hw, rfl⟩
    cases hw with
    | intro hbefore hsign hnumeral hfraction hafter =>
      obtain ⟨htake, hdrop⟩ := span_append hnumeral hfraction
      have hplain := List.forall_mem_append.mpr ⟨hsign.plain, List.forall_mem_append.mpr
        ⟨fun c hc => (hnumeral.plain c hc).1, hfraction.plain⟩⟩
      simp only [cleared?, Blank.trim_append hbefore hplain hafter,
        splitSign_append hsign hnumeral, htake, hdrop, isFraction_iff.mpr hfraction, if_true,
        digits?_eq_some_iff.mpr hnumeral, Option.map_some]

private theorem number_cons (d : Nat) (ds : List Nat) :
    number (d :: ds) = 10 ^ ds.length * d + number ds := by
  rw [number, List.reverse_cons, Nat.ofDigits_append, Nat.ofDigits_singleton, List.length_reverse,
    Nat.add_comm, number]

private theorem value_eq_number (ds : List Nat) : value ds = number ds := by
  -- Reading from the left has the digits so far as a starting value.
  have hfold : ∀ n, ds.foldl (fun n d => 10 * n + d) n = 10 ^ ds.length * n + number ds := by
    induction ds with
    | nil => simp [number]
    | cons d ds ih =>
      intro n
      rw [List.foldl_cons, ih, number_cons, List.length_cons, pow_succ]
      ring
  have h := hfold 0
  rwa [Nat.mul_zero, Nat.zero_add] at h

private theorem number_dropWhile (ds : List Nat) : number (ds.dropWhile (· = 0)) = number ds := by
  induction ds with
  | nil => rfl
  | cons d ds ih =>
    rw [List.dropWhile_cons]
    split
    · rename_i hd
      rw [ih, number_cons, of_decide_eq_true hd, Nat.mul_zero, Nat.zero_add]
    · rfl

private theorem number_replicate_append (k : Nat) (ds : List Nat) :
    number (List.replicate k 0 ++ ds) = number ds := by
  rw [number, List.reverse_append, List.reverse_replicate, Nat.ofDigits_append_replicate_zero,
    number]

private theorem length_dropWhile_le_iff (h : ∀ d ∈ ds, d < 10) :
    (ds.dropWhile (· = 0)).length ≤ k ↔ number ds < 10 ^ k := by
  have hsmall : ∀ d ∈ (ds.dropWhile (· = 0)).reverse, d < 10 := fun d hd =>
    h d ((List.dropWhile_suffix _).subset (List.mem_reverse.mp hd))
  have hhead := List.head?_dropWhile_not (· = 0) ds
  rw [← number_dropWhile ds, number]
  constructor
  · intro hle
    have hlt := Nat.ofDigits_lt_base_pow_length (by decide) hsmall
    rw [List.length_reverse] at hlt
    exact Nat.lt_of_lt_of_le hlt (Nat.pow_le_pow_right (by decide) hle)
  · intro hroom
    cases hes : ds.dropWhile (· = 0) with
    | nil => exact Nat.zero_le k
    | cons d es =>
      rw [hes] at hroom hhead
      have hd : d ≠ 0 := of_decide_eq_false hhead
      have hlower : 10 ^ (d :: es).reverse.length ≤ 10 * Nat.ofDigits 10 (d :: es).reverse :=
        Nat.pow_length_le_mul_ofDigits (b := 8) (by simp) (by simpa using hd)
      rw [List.length_reverse] at hlower
      have hupper : 10 ^ (d :: es).length < 10 ^ (k + 1) := by
        rw [pow_succ]
        omega
      exact Nat.le_of_lt_succ ((Nat.pow_lt_pow_iff_right (by decide)).mp hupper)

private theorem digit?_of_isBlank (h : Blank.isBlank c) : digit? c = none := by
  cases hc : digit? c with
  | none => rfl
  | some v =>
    rw [(digit?_eq_some_iff.mp hc).read.2.1] at h
    cases h

private theorem Numeral.leading_prefix (h : Numeral cs ds)
    (hrest : ∀ c ∈ rest.head?, digit? c = none) :
    ((cs ++ rest).takeWhile fun c => (digit? c).isSome).filterMap digit? <+: ds := by
  induction h with
  | @single c v hc =>
    have hstop : (rest.takeWhile fun c => (digit? c).isSome) = [] := by
      cases rest with
      | nil => rfl
      | cons d rest => simp [hrest d rfl]
    simp [hc.read.1, hstop]
  | @next c v cs ds hc _ ih =>
    simp only [List.cons_append, List.takeWhile_cons, hc.read.1, Option.isSome_some, if_true,
      List.filterMap_cons]
    exact (List.prefix_cons_inj v).mpr ih
  | @underscore c v cs ds hc _ _ =>
    have hunder : digit? '_' = none := by decide
    simp [hc.read.1, hunder]

private theorem leadingDigits_of_head (h : ∀ c ∈ cs.head?, c ≠ '-') :
    leadingDigits cs = (cs.takeWhile fun c => (digit? c).isSome).filterMap digit? := by
  rw [leadingDigits, if_neg]
  intro hminus
  exact h '-' hminus rfl

private theorem Written.leadingDigits_prefix (h : Written cs negative ds) :
    leadingDigits cs <+: ds := by
  cases h with
  | @intro before sign numeral fraction after _ _ hbefore hsign hnumeral hfraction hafter =>
    have hrest : ∀ c ∈ (fraction ++ after).head?, digit? c = none := by
      intro c hc
      cases hfraction with
      | none => exact digit?_of_isBlank (hafter c (List.mem_of_mem_head? hc))
      | zeros k =>
        obtain rfl := Option.some.inj hc
        decide
    have hprefix := hnumeral.leading_prefix hrest
    rw [← List.append_assoc] at hprefix
    cases before with
    | cons b before =>
      -- White space is no digit, and no minus sign.
      have hblank := hbefore b List.mem_cons_self
      have hminus : b ≠ '-' := by
        rintro rfl
        revert hblank
        decide
      rw [List.cons_append, leadingDigits_of_head]
      · simp [digit?_of_isBlank hblank]
      · intro c hc
        obtain rfl := Option.some.inj hc
        exact hminus
    | nil =>
      rw [List.nil_append]
      cases hsign with
      | plus =>
        rw [leadingDigits_of_head]
        · simp [(by decide : digit? '+' = none)]
        · intro c hc
          obtain rfl := Option.some.inj hc
          decide
      | minus => exact hprefix
      | none =>
        obtain ⟨c, v, tail, hc, rfl⟩ := hnumeral.exists_cons
        rw [List.nil_append, leadingDigits_of_head]
        · exact hprefix
        · intro d hd
          obtain rfl := Option.some.inj hd
          exact hc.read.2.2.2.2.2

private theorem Written.lt_of_mem (h : Written cs negative ds) : ∀ d ∈ ds, d < 10 := by
  cases h with
  | intro _ _ hnumeral _ _ => exact hnumeral.lt_of_mem

/-- A text that denotes a number of no more than 4300 digits does not start with more of them. -/
private theorem Written.not_startsTooLong (h : Written cs negative ds)
    (hroom : number ds < 10 ^ maxDigits) : startsTooLong cs = false := by
  have hlength := (length_dropWhile_le_iff h.lt_of_mem).mpr hroom
  obtain ⟨more, hmore⟩ := h.leadingDigits_prefix
  cases hlead : leadingDigits cs with
  | nil => simp [startsTooLong, hlead]
  | cons d lead =>
    by_cases hd : d = 0
    · simp [startsTooLong, hlead, hd]
    · rw [hlead] at hmore
      have hdrop : ds.dropWhile (· = 0) = ds := by
        rw [← hmore, List.cons_append, List.dropWhile_cons, if_neg (by simpa using hd)]
      have hlong : ¬ maxDigits < (d :: lead).length := by
        rw [hdrop, ← hmore, List.length_append] at hlength
        omega
      simp only [startsTooLong, hlead, hlong, decide_false, Bool.and_false]

/-- The reader takes the texts that denote an integer, and gives the integer. -/
theorem parse_eq_ok_iff {s : String} : parse s = .ok n ↔ Denotes s.toList n := by
  constructor
  · intro h
    unfold parse at h
    split at h
    · cases h
    · split at h
      · cases h
      · rename_i negative es hclear
        split at h
        · cases h
        · rename_i hlength
          obtain ⟨ds, hw, rfl⟩ := cleared?_eq_some_iff.mp hclear
          have hroom := (length_dropWhile_le_iff hw.lt_of_mem).mp (Nat.not_lt.mp hlength)
          rw [value_eq_number, number_dropWhile] at h
          exact ⟨negative, ds, hw, hroom, (Except.ok.inj h).symm⟩
  · rintro ⟨negative, ds, hw, hroom, rfl⟩
    have hclear := cleared?_eq_some_iff.mpr ⟨ds, hw, rfl⟩
    have hlength := (length_dropWhile_le_iff hw.lt_of_mem).mpr hroom
    simp only [parse, hw.not_startsTooLong hroom, hclear, Nat.not_lt.mpr hlength,
      value_eq_number, number_dropWhile, if_false]
    rfl

private theorem number_append_digit (ds : List Nat) (v : Nat) :
    number (ds ++ [v]) = 10 * number ds + v := by
  rw [number, List.reverse_append, List.reverse_singleton, List.singleton_append,
    Nat.ofDigits_cons, Nat.add_comm, number]

private theorem exists_numeral (n : Nat) :
    ∃ ds, Numeral (Nat.toDigits 10 n) ds ∧ number ds = n := by
  induction n using Nat.strongRecOn with
  | ind n ih =>
    by_cases hn : n < 10
    · rw [Nat.toDigits_of_lt_base hn]
      exact ⟨[n], .single (isDigit_digitChar hn), by simp [number]⟩
    · have hlast : n % 10 < 10 := Nat.mod_lt n (by decide)
      obtain ⟨ds, hds, hnumber⟩ := ih (n / 10) (by omega)
      rw [Nat.toDigits_of_base_le (by decide) (Nat.le_of_not_lt hn)]
      refine ⟨ds ++ [n % 10], hds.append_digit (isDigit_digitChar hlast), ?_⟩
      rw [number_append_digit, hnumber]
      omega

theorem denotes_decimal {before after : List Char} {n : Nat} (hroom : n < 10 ^ maxDigits)
    (hbefore : ∀ c ∈ before, Blank.isBlank c) (hsign : sign = [] ∨ sign = ['+'])
    (hafter : ∀ c ∈ after, Blank.isBlank c) (k : Nat) :
    Denotes (before ++ (sign ++ (List.replicate k '0' ++ (toString n).toList) ++ after)) n := by
  obtain ⟨ds, hds, hnumber⟩ := exists_numeral n
  have hpositive : Sign sign false := by
    rcases hsign with rfl | rfl
    · exact .none
    · exact .plus
  have htext : (toString n).toList = Nat.toDigits 10 n := by simp
  have hw := Written.intro hbefore hpositive (hds.zeros_append k) .none hafter
  have hsame : number (List.replicate k 0 ++ ds) = n := by
    rw [number_replicate_append, hnumber]
  rw [List.append_nil, ← htext] at hw
  exact ⟨false, _, hw, by rw [hsame]; exact hroom, by rw [hsame]; rfl⟩

end IntegerText

end RatchetSession
