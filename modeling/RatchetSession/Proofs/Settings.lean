import RatchetSession.Config
import RatchetSession.Proofs.Numerals

/-!
# Settings from the environment

Each setting is given by its own variable: the default if it is unset or empty, else the integer
that its text denotes, if that is in range. A configuration is built exactly if all settings are
given, and otherwise those that are not are complained of, in order: `environment_exact`.
-/

set_option autoImplicit false
set_option relaxedAutoImplicit false

namespace RatchetSession.Config

def get (c : Config) : Field → Int
  | .maxSkip => c.maxSkip
  | .initialCounter => c.initialCounter

namespace Field

def all : List Field := [.maxSkip, .initialCounter]

def standard (f : Field) : Int := get {} f

/-- The number is in the range of the setting. -/
def Admits (f : Field) (n : Int) : Prop := 0 ≤ n ∧ ∀ limit, f.upper? = some limit → n ≤ limit

/-- What a variable holds gives the setting a value. -/
def Gives (f : Field) (held : Option String) (n : Int) : Prop :=
  (held = none ∨ held = some "") ∧ n = f.standard ∨
    ∃ s, held = some s ∧ IntegerText.Denotes s.toList n ∧ f.Admits n

variable {f : Field} {held : Option String} {n m : Int}

private theorem integerOfText_eq_ok_iff {s : String} :
    integerOfText s = .ok n ↔ IntegerText.Denotes s.toList n := by
  rw [← IntegerText.parse_eq_ok_iff]
  unfold integerOfText
  cases IntegerText.parse s with
  | ok m => simp
  | error r => cases r <;> simp

private theorem read_eq_ok_iff {v : Value} :
    f.read v = .ok n ↔ v.toInteger = .ok n ∧ f.Admits n := by
  unfold Field.read Admits
  cases v.toInteger with
  | error p => simp
  | ok m =>
    by_cases hneg : m < 0
    · simp only [hneg, if_true]
      constructor
      · intro h
        cases h
      · rintro ⟨h, hnonneg, -⟩
        obtain rfl := Except.ok.inj h
        omega
    · simp only [hneg, if_false]
      cases f.upper? with
      | none =>
        simp only [Except.ok.injEq, reduceCtorEq, false_implies, implies_true, and_true]
        omega
      | some limit =>
        simp only [Option.some.injEq, forall_eq']
        split
        · simp only [reduceCtorEq, Except.ok.injEq, false_iff]
          omega
        · simp only [Except.ok.injEq]
          omega

/-- What the environment offers for a setting: a variable that is empty counts as unset. -/
def offered (held : Option String) : Option Value := (held.filter (· ≠ "")).map .text

private theorem offered_of_blank (h : held = none ∨ held = some "") : offered held = none := by
  rcases h with rfl | rfl
  · rfl
  · rfl

private theorem offered_text {s : String} (h : s ≠ "") : offered (some s) = some (.text s) := by
  simp [offered, h]

private theorem not_denotes_nil : ¬ IntegerText.Denotes "".toList n := by
  rw [← IntegerText.parse_eq_ok_iff]
  have hparse : IntegerText.parse "" = .error .malformed := rfl
  rw [hparse]
  intro h
  cases h

private theorem settle_some {standard : Int} {v : Value} :
    f.settle standard (some v) = .ok n ↔ f.read v = .ok n := by
  simp only [Field.settle]
  cases f.read v <;> simp

private theorem settle_eq_ok_iff : f.settle f.standard (offered held) = .ok n ↔ f.Gives held n := by
  by_cases hblank : held = none ∨ held = some ""
  · rw [offered_of_blank hblank]
    constructor
    · intro h
      exact .inl ⟨hblank, (Except.ok.inj h).symm⟩
    · rintro (⟨-, rfl⟩ | ⟨s, rfl, hs, -⟩)
      · rfl
      · simp only [reduceCtorEq, Option.some.injEq, false_or] at hblank
        subst hblank
        exact absurd hs not_denotes_nil
  · cases held with
    | none => exact absurd (.inl rfl) hblank
    | some s =>
      have hs : s ≠ "" := fun h => hblank (.inr (congrArg some h))
      have hread : f.settle f.standard (offered (some s)) = .ok n ↔ f.read (.text s) = .ok n := by
        rw [offered_text hs, settle_some]
      rw [hread, read_eq_ok_iff]
      constructor
      · rintro ⟨htext, hadmits⟩
        exact .inr ⟨s, rfl, integerOfText_eq_ok_iff.mp htext, hadmits⟩
      · rintro (⟨h, -⟩ | ⟨s', hs', hdenotes, hadmits⟩)
        · exact absurd h hblank
        · cases hs'
          exact ⟨integerOfText_eq_ok_iff.mpr hdenotes, hadmits⟩

private theorem Gives.unique (h : f.Gives held n) (h' : f.Gives held m) : n = m :=
  Except.ok.inj ((settle_eq_ok_iff.mpr h).symm.trans (settle_eq_ok_iff.mpr h'))

private theorem settle_cases (f : Field) (standard : Int) (offer : Option Value) :
    (∃ n, f.settle standard offer = .ok n) ∨
      ∃ p, f.settle standard offer = .error [⟨f.name, p⟩] := by
  unfold Field.settle
  split
  · exact .inl ⟨_, rfl⟩
  · split
    · exact .inl ⟨_, rfl⟩
    · exact .inr ⟨_, rfl⟩

private theorem forall_iff {P : Field → Prop} : (∀ f, P f) ↔ P .maxSkip ∧ P .initialCounter := by
  constructor
  · intro h
    exact ⟨h _, h _⟩
  · rintro ⟨hskip, hcounter⟩ (_ | _)
    · exact hskip
    · exact hcounter

end Field

variable {env env' : String → Option String} {c c' : Config} {d : Draft}
  {complaints : List Complaint}

private theorem build_eq_ok_iff :
    build d = .ok c ↔ Field.settle .maxSkip 10000 d.maxSkip = .ok (c.get .maxSkip) ∧
      Field.settle .initialCounter 1 d.initialCounter = .ok (c.get .initialCounter) := by
  cases c
  unfold build
  cases Field.settle .maxSkip 10000 d.maxSkip <;>
    cases Field.settle .initialCounter 1 d.initialCounter <;> simp [get]

private theorem ofEnvironment_eq_ok_iff :
    ofEnvironment env = .ok c ↔ ∀ f : Field, f.Gives (env f.variableName) (c.get f) := by
  rw [Field.forall_iff, ← Field.settle_eq_ok_iff, ← Field.settle_eq_ok_iff]
  exact build_eq_ok_iff

private theorem exists_ofEnvironment (h : ∀ f : Field, ∃ n, f.Gives (env f.variableName) n) :
    ∃ c, ofEnvironment env = .ok c := by
  obtain ⟨m, hm⟩ := h .maxSkip
  obtain ⟨k, hk⟩ := h .initialCounter
  exact ⟨⟨m, k⟩, ofEnvironment_eq_ok_iff.mpr (Field.forall_iff.mpr ⟨hm, hk⟩)⟩

private theorem ofEnvironment_congr (h : ∀ f : Field, env' f.variableName = env f.variableName) :
    ofEnvironment env' = ofEnvironment env := by
  simp only [ofEnvironment, h]

private theorem settings_of_build_error (h : build d = .error complaints) :
    (complaints.map (·.setting)).Sublist (Field.all.map Field.name) ∧
      (Field.maxSkip.name ∈ complaints.map (·.setting) ↔
        ¬ ∃ n, Field.settle .maxSkip 10000 d.maxSkip = .ok n) ∧
      (Field.initialCounter.name ∈ complaints.map (·.setting) ↔
        ¬ ∃ n, Field.settle .initialCounter 1 d.initialCounter = .ok n) := by
  unfold build at h
  rcases Field.settle_cases .maxSkip 10000 d.maxSkip with ⟨m, hskip⟩ | ⟨p, hskip⟩
  all_goals
    rcases Field.settle_cases .initialCounter 1 d.initialCounter with ⟨n, hcounter⟩ | ⟨q, hcounter⟩
  -- Nothing is complained of where both are settled.
  all_goals
    rw [hskip, hcounter] at h ⊢
    cases h
  all_goals simp [Field.all, Field.name]

private theorem settings_of_error (h : ofEnvironment env = .error complaints) :
    (complaints.map (·.setting)).Sublist (Field.all.map Field.name) ∧
      ∀ f : Field, f.name ∈ complaints.map (·.setting) ↔
        ¬ ∃ n, f.Gives (env f.variableName) n := by
  simp only [← Field.settle_eq_ok_iff, Field.forall_iff]
  exact settings_of_build_error h

private theorem Field.gives_decimal {f : Field} {n k : Nat} {before sign after : List Char}
    (hroom : n < 10 ^ IntegerText.maxDigits) (hadmits : f.Admits n)
    (hbefore : ∀ c ∈ before, Blank.isBlank c) (hsign : sign = [] ∨ sign = ['+'])
    (hafter : ∀ c ∈ after, Blank.isBlank c) :
    f.Gives (some (String.ofList
      (before ++ (sign ++ (List.replicate k '0' ++ (toString n).toList) ++ after)))) n := by
  refine .inr ⟨_, rfl, ?_, hadmits⟩
  rw [String.toList_ofList]
  exact IntegerText.denotes_decimal hroom hbefore hsign hafter k

private theorem set_eq_ok {name : String} {v : Value} (h : c.set name v = .ok c') : c' = c := by
  unfold set at h
  split at h
  · exact (Except.ok.inj h).symm
  · cases h

/-- How a configuration comes about. -/
inductive Obtained : Config → Prop
  | built {d : Draft} {c : Config} : build d = .ok c → Obtained c
  | read {env : String → Option String} {c : Config} : ofEnvironment env = .ok c → Obtained c
  | assigned {c c' : Config} {name : String} {v : Value} :
      Obtained c → c.set name v = .ok c' → Obtained c'

private theorem Obtained.valid (h : Obtained c) : c.Valid := by
  induction h with
  | built h => exact valid_of_build h
  | read h => exact valid_ofEnvironment h
  | assigned _ h ih =>
    rw [set_eq_ok h]
    exact ih

/-- What an environment makes of the settings. -/
structure Exact (env : String → Option String) : Prop where
  /-- There is a configuration exactly if each setting is given by its own variable. -/
  succeeds : (∃ c, ofEnvironment env = .ok c) ↔
    ∀ f : Field, ∃ n, f.Gives (env f.variableName) n
  /-- Each setting is what its own variable gives. -/
  reads : ∀ c, ofEnvironment env = .ok c ↔ ∀ f : Field, f.Gives (env f.variableName) (c.get f)
  /-- No other variables matter. -/
  ignores : ∀ env', (∀ f : Field, env' f.variableName = env f.variableName) →
    ofEnvironment env' = ofEnvironment env
  /-- Another variable does not matter to a setting. -/
  separates : ∀ env' c c', ofEnvironment env = .ok c → ofEnvironment env' = .ok c' →
    ∀ f : Field, env' f.variableName = env f.variableName → c'.get f = c.get f
  /-- A number that is written out is read back. -/
  recovers : ∀ (f : Field) (n k : Nat) (before sign after : List Char),
    n < 10 ^ IntegerText.maxDigits → f.Admits n → (∀ c ∈ before, Blank.isBlank c) →
    (sign = [] ∨ sign = ['+']) → (∀ c ∈ after, Blank.isBlank c) →
    env f.variableName = some (String.ofList
      (before ++ (sign ++ (List.replicate k '0' ++ (toString n).toList) ++ after))) →
    (∀ g : Field, g ≠ f → ∃ m, g.Gives (env g.variableName) m) →
    ∃ c, ofEnvironment env = .ok c ∧ c.get f = n
  /-- Otherwise the settings that are not given are complained of, once each and in order. -/
  complains : ∀ complaints, ofEnvironment env = .error complaints →
    (complaints.map (·.setting)).Sublist (Field.all.map Field.name) ∧
      ∀ f : Field, f.name ∈ complaints.map (·.setting) ↔
        ¬ ∃ n, f.Gives (env f.variableName) n

/-- The settings are read from their variables and from nothing else, numbers that are written out
are read back, and whatever configuration is obtained is within its bounds. -/
theorem environment_exact (env : String → Option String) :
    Exact env ∧ ∀ c, Obtained c → c.Valid := by
  have hsucceeds : (∃ c, ofEnvironment env = .ok c) ↔
      ∀ f : Field, ∃ n, f.Gives (env f.variableName) n := by
    constructor
    · rintro ⟨c, hc⟩ f
      exact ⟨c.get f, ofEnvironment_eq_ok_iff.mp hc f⟩
    · exact exists_ofEnvironment
  refine ⟨⟨hsucceeds, fun c => ofEnvironment_eq_ok_iff, fun env' h => ofEnvironment_congr h,
    fun env' c c' hc hc' f h => ?_, ?_, fun complaints h => settings_of_error h⟩,
    fun c h => h.valid⟩
  · have hf := ofEnvironment_eq_ok_iff.mp hc f
    have hf' := ofEnvironment_eq_ok_iff.mp hc' f
    rw [h] at hf'
    exact hf'.unique hf
  · intro f n k before sign after hroom hadmits hbefore hsign hafter henv hothers
    have hf : f.Gives (env f.variableName) n := by
      rw [henv]
      exact Field.gives_decimal hroom hadmits hbefore hsign hafter
    obtain ⟨c, hc⟩ := hsucceeds.mpr fun g => by
      by_cases hg : g = f
      · subst hg
        exact ⟨n, hf⟩
      · exact hothers g hg
    exact ⟨c, hc, (ofEnvironment_eq_ok_iff.mp hc f).unique hf⟩

def sampleGiven : String → Option String
  | "FS_MAX_SKIP" => some " +00250\n"
  | "FS_INITIAL_COUNTER" => some ""
  | _ => none

def sampleRefused : String → Option String
  | "FS_MAX_SKIP" => some "-1"
  | "FS_INITIAL_COUNTER" => some "18446744073709551616"
  | _ => none

theorem environment_exact_sample :
    (ofEnvironment sampleGiven = .ok ⟨250, 1⟩ ∧ Valid ⟨250, 1⟩) ∧
      ∀ f : Field, ¬ ∃ n, f.Gives (sampleRefused f.variableName) n := by
  obtain ⟨hexact, hvalid⟩ := environment_exact sampleGiven
  have hroom : 250 < 10 ^ IntegerText.maxDigits :=
    Nat.lt_of_lt_of_le (by decide : 250 < 10 ^ 3) (Nat.pow_le_pow_right (by decide) (by decide))
  have hadmits : Field.maxSkip.Admits (250 : Nat) := ⟨by decide, by simp [Field.upper?]⟩
  have htext : sampleGiven Field.maxSkip.variableName = some (String.ofList
      ([' '] ++ (['+'] ++ (List.replicate 2 '0' ++ (toString 250).toList) ++ ['\n']))) := rfl
  obtain ⟨c, hc, hskip⟩ := hexact.recovers .maxSkip 250 2 [' '] ['+'] ['\n'] hroom hadmits
    (List.forall_mem_singleton.mpr (by decide)) (.inr rfl)
    (List.forall_mem_singleton.mpr (by decide)) htext fun g hg => by
      cases g with
      | maxSkip => exact absurd rfl hg
      | initialCounter => exact ⟨1, .inl ⟨.inr rfl, rfl⟩⟩
  have hcounter : c.get .initialCounter = 1 :=
    ((hexact.reads c).mp hc .initialCounter).unique (.inl ⟨.inr rfl, rfl⟩)
  obtain rfl : c = ⟨250, 1⟩ := by
    cases c
    cases hskip
    cases hcounter
    rfl
  refine ⟨⟨hc, hvalid _ (.read hc)⟩, ?_⟩
  have hrefused : ofEnvironment sampleRefused = .error
      [⟨"max_skip", .tooSmall⟩, ⟨"initial_counter", .tooLarge maxCounter⟩] := rfl
  obtain ⟨-, hnames⟩ := (environment_exact sampleRefused).1.complains _ hrefused
  intro f
  refine (hnames f).mp ?_
  cases f with
  | maxSkip => decide
  | initialCounter => decide

end RatchetSession.Config
