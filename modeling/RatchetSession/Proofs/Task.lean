import RatchetSession.Session.Operation

/-!
# Computations that fail without a trace

A task is carried out if nothing but its listener stops it. It is atomic where it is carried out or
else leaves no trace: reads may fail, and what comes after the first write may not.
`Task.Reads.bind_atomic` and `Task.Sure.bind` put such tasks together.
-/

set_option autoImplicit false
set_option relaxedAutoImplicit false

namespace RatchetSession

theorem bind_eq_ok {ε α β : Type} {x : Except ε α} {next : α → Except ε β} {b : β}
    (h : x >>= next = .ok b) : ∃ a, x = .ok a ∧ next a = .ok b := by
  cases x with
  | error e => cases h
  | ok a => exact ⟨a, rfl, h⟩

theorem mapError_eq_ok {ε ε' α : Type} {f : ε → ε'} {x : Except ε α} {a : α}
    (h : x.mapError f = .ok a) : x = .ok a := by
  cases x with
  | error e => cases h
  | ok b => exact congrArg _ (Except.ok.inj h)

theorem exists_eq_ok {ε α : Type} {x : Except ε α} (h : x.isOk = true) : ∃ a, x = .ok a := by
  cases x with
  | error e => cases h
  | ok a => exact ⟨a, rfl⟩

/-- All that this can fail for is of one sort. -/
def FailsOnly {α : Type} (P : Fault → Prop) (x : Except Fault α) : Prop := ∀ f, x = .error f → P f

namespace FailsOnly

variable {α β : Type} {P Q : Fault → Prop} {x : Except Fault α}

theorem ok (a : α) : FailsOnly P (.ok a : Except Fault α) := nofun

theorem error {f : Fault} (h : P f) : FailsOnly P (.error f : Except Fault α) := by
  intro g hg
  obtain rfl := Except.error.inj hg
  exact h

theorem bind {next : α → Except Fault β} (hx : FailsOnly P x)
    (hn : ∀ a, x = .ok a → FailsOnly P (next a)) : FailsOnly P (x >>= next) := by
  intro f hf
  cases x with
  | error g =>
    obtain rfl : g = f := Except.error.inj hf
    exact hx g rfl
  | ok a => exact hn a rfl f hf

theorem map (hx : FailsOnly P x) (g : α → β) : FailsOnly P (x.map g) := by
  intro f hf
  cases x with
  | error h =>
    obtain rfl : h = f := Except.error.inj hf
    exact hx h rfl
  | ok a => cases hf

theorem mapError {ε : Type} {g : ε → Fault} {y : Except ε α}
    (h : ∀ e, y = .error e → P (g e)) : FailsOnly P (y.mapError g) := by
  intro f hf
  cases y with
  | error e =>
    obtain rfl := Except.error.inj hf
    exact h e rfl
  | ok a => cases hf

theorem mono (hx : FailsOnly P x) (h : ∀ f, P f → Q f) : FailsOnly Q x :=
  fun f hf => h f (hx f hf)

end FailsOnly

def Fault.IsRefusal (f : Fault) : Prop := ∃ hook, f = .listener hook

namespace Outcome

variable {σ α : Type}

/-- The operation did its work; all that may have failed is the listener. -/
def CarriedOut (o : Outcome σ α) : Prop := ∀ f, o.answer = .error f → f.IsRefusal

/-- The listener was told nothing. -/
def Unheard (o : Outcome σ α) : Prop := o.events = [] ∧ ∀ e, .noted e ∉ o.log

end Outcome

namespace Task

variable {σ α β : Type}

/-- The task writes nothing and tells the listener nothing. -/
def Reads (x : Task σ α) : Prop := ∀ s, (x s).after = s ∧ (x s).Unheard

/-- The task is always carried out. -/
def Sure (x : Task σ α) : Prop := ∀ s, (x s).CarriedOut

/-- The task is carried out or leaves no trace. -/
def AtomicAt (x : Task σ α) (s : σ) : Prop :=
  (x s).CarriedOut ∨ ((x s).after = s ∧ (x s).Unheard)

theorem bind_of_ok {x : Task σ α} {next : α → Task σ β} {s : σ} {a : α}
    (h : (x s).answer = .ok a) :
    (x >>= next) s =
      { after := (next a (x s).after).after
        answer := (next a (x s).after).answer
        draws := (x s).draws + (next a (x s).after).draws
        calls := (x s).calls ++ (next a (x s).after).calls
        events := (x s).events ++ (next a (x s).after).events
        log := (x s).log ++ (next a (x s).after).log } := by
  show Task.bind x next s = _
  simp only [Task.bind, h]

theorem bind_of_error {x : Task σ α} {next : α → Task σ β} {s : σ} {f : Fault}
    (h : (x s).answer = .error f) :
    (x >>= next) s =
      { after := (x s).after
        answer := .error f
        draws := (x s).draws
        calls := (x s).calls
        events := (x s).events
        log := (x s).log } := by
  show Task.bind x next s = _
  simp only [Task.bind, h]

theorem ask_bind_of_ok {f : σ → Except Fault α} {next : α → Task σ β} {s : σ} {a : α}
    (h : f s = .ok a) : (ask f >>= next) s = next a s := by
  rw [bind_of_ok (x := ask f) h]
  simp only [ask, Nat.zero_add, List.nil_append]

theorem ask_bind_of_error {f : σ → Except Fault α} {next : α → Task σ β} {s : σ} {e : Fault}
    (h : f s = .error e) : (ask f >>= next) s = .failed s e :=
  bind_of_error (x := ask f) h

theorem noting_bind_of_ok {f : σ → Except Fault α} {next : α → Task σ β} {s : σ} {a : α}
    {log : σ → Fault → List LogRecord} (h : f s = .ok a) :
    (noting log (ask f) >>= next) s = next a s := by
  have ha : noting log (ask f) s = ask f s := by simp only [noting, ask, h]
  rw [bind_of_ok (x := noting log (ask f)) (a := a) (by rw [ha]; exact h), ha]
  simp only [ask, Nat.zero_add, List.nil_append]

theorem noting_bind_of_error {f : σ → Except Fault α} {next : α → Task σ β} {s : σ} {e : Fault}
    {log : σ → Fault → List LogRecord} (h : f s = .error e) :
    (noting log (ask f) >>= next) s = { after := s, answer := .error e, log := log s e } := by
  have ha : noting log (ask f) s = { after := s, answer := .error e, log := log s e } := by
    simp only [noting, ask, h, List.nil_append]
  rw [bind_of_error (x := noting log (ask f)) (f := e) (by rw [ha]), ha]

theorem write_bind {f : σ → σ} {next : Unit → Task σ β} {s : σ} :
    (write f >>= next) s = next () (f s) := by
  rw [bind_of_ok (x := write f) rfl]
  simp only [write, Nat.zero_add, List.nil_append]

theorem bind_pure_eq_map (x : Task σ α) (g : α → β) (s : σ) :
    (do return g (← x) : Task σ β) s = (x s).map g := by
  cases ha : (x s).answer with
  | ok a =>
    rw [bind_of_ok ha]
    simp only [Pure.pure, ask, Outcome.map, ha, Except.map, Nat.add_zero, List.append_nil]
  | error e =>
    rw [bind_of_error ha]
    simp only [Outcome.map, ha, Except.map]

theorem Reads.ask (f : σ → Except Fault α) : Reads (.ask f) :=
  fun _ => ⟨rfl, rfl, by simp [Task.ask]⟩

theorem Reads.noting {x : Task σ α} {log : σ → Fault → List LogRecord} (hx : Reads x)
    (hl : ∀ s f e, .noted e ∉ log s f) : Reads (.noting log x) := by
  intro s
  obtain ⟨hs, he, hn⟩ := hx s
  cases ha : (x s).answer with
  | ok a =>
    have h : Task.noting log x s = x s := by simp only [Task.noting, ha]
    rw [h]
    exact ⟨hs, he, hn⟩
  | error f =>
    refine ⟨?_, ?_, ?_⟩
    · simp only [Task.noting, ha, hs]
    · simp only [Task.noting, ha, he]
    · intro e hm
      simp only [Task.noting, ha] at hm
      rcases List.mem_append.mp hm with hm | hm
      · exact hn e hm
      · exact hl s f e hm

theorem Sure.ask {f : σ → Except Fault α} (h : ∀ s, ∃ a, f s = .ok a) : Sure (.ask f) := by
  intro s g hg
  obtain ⟨a, ha⟩ := h s
  have hg : f s = .error g := hg
  rw [ha] at hg
  cases hg

theorem Sure.pure (a : α) : Sure (Pure.pure a : Task σ α) := Sure.ask fun _ => ⟨a, rfl⟩

theorem Sure.write (f : σ → σ) : Sure (.write f) := fun _ _ h => nomatch h

theorem Sure.note (log : List LogRecord) : Sure (.note log : Task σ Unit) := fun _ _ h => nomatch h

theorem Sure.tell (call : Session → HookCall) : Sure (Session.tell call) := by
  intro s f hf
  have hf : (if (s.listener.tell (call s).event).refused then
      (.error (.listener (call s).event.hook) : Except Fault Unit) else .ok ()) = .error f := hf
  split at hf
  · exact ⟨_, (Except.error.inj hf).symm⟩
  · cases hf

theorem Sure.bind {x : Task σ α} {next : α → Task σ β} (hx : Sure x) (hn : ∀ a, Sure (next a)) :
    Sure (x >>= next) := by
  intro s f hf
  cases ha : (x s).answer with
  | ok a =>
    rw [bind_of_ok ha] at hf
    exact hn a _ f hf
  | error g =>
    rw [bind_of_error ha] at hf
    obtain rfl := Except.error.inj hf
    exact hx s g ha

theorem Sure.atomic {x : Task σ α} (hx : Sure x) (s : σ) : AtomicAt x s := .inl (hx s)

theorem Reads.bind_atomic {x : Task σ α} {next : α → Task σ β} {s : σ} (hx : Reads x)
    (hn : ∀ a, (x s).answer = .ok a → AtomicAt (next a) s) : AtomicAt (x >>= next) s := by
  obtain ⟨hs, he, hl⟩ := hx s
  cases ha : (x s).answer with
  | error f =>
    right
    rw [bind_of_error ha]
    exact ⟨hs, he, hl⟩
  | ok a =>
    unfold AtomicAt
    rw [bind_of_ok ha, hs]
    rcases hn a ha with hc | ⟨hs', he', hl'⟩
    · exact .inl hc
    · refine .inr ⟨hs', ?_, ?_⟩
      · show (x s).events ++ (next a s).events = []
        rw [he, he', List.append_nil]
      · intro e hm
        rcases List.mem_append.mp hm with hm | hm
        · exact hl e hm
        · exact hl' e hm

theorem AtomicAt.map {x : Task σ α} {s : σ} (hx : AtomicAt x s) (g : α → β) :
    AtomicAt (do return g (← x)) s := by
  unfold AtomicAt
  rw [bind_pure_eq_map]
  rcases hx with hc | hread
  · left
    intro f hf
    cases ha : (x s).answer with
    | ok a =>
      simp only [Outcome.map, ha] at hf
      cases hf
    | error e =>
      simp only [Outcome.map, ha] at hf
      obtain rfl := Except.error.inj hf
      exact hc _ ha
  · exact .inr hread

end Task

end RatchetSession
