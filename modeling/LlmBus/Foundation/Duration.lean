import Mathlib.Algebra.Order.Group.Defs
import Mathlib.Algebra.Order.Group.Unbundled.Basic
import LlmBus.Foundation.Interaction

/-! # How long a run takes

Each request of a program lasts for some time. A bound on the requests of a program gives a
bound on every run of it.
-/

namespace Foundation.Interaction

universe u

variable {I : Interface} {ε α β : Type} {𝕜 : Type u} [AddCommGroup 𝕜]

/-- The events of a trace, where `lasts` says how long each can last, take so long in all. -/
inductive Takes (lasts : Event I → 𝕜 → Prop) : List (Event I) → 𝕜 → Prop where
  | nil : Takes lasts [] 0
  | cons {event : Event I} {trace : List (Event I)} {time total : 𝕜} (hEvent : lasts event time)
      (hTrace : Takes lasts trace total) : Takes lasts (event :: trace) (time + total)

theorem Takes.append {lasts : Event I → 𝕜 → Prop} {trace rest : List (Event I)} {total more : 𝕜}
    (h : Takes lasts trace total) (hRest : Takes lasts rest more) :
    Takes lasts (trace ++ rest) (total + more) := by
  induction h with
  | nil =>
    rw [List.nil_append, zero_add]
    exact hRest
  | cons hEvent _ ih =>
    rw [List.cons_append, add_assoc]
    exact .cons hEvent ih

/-- A machine lives through a trace: each event takes some time and leaves the next state. -/
inductive Passes {σ : Type} (step : σ → Event I → 𝕜 → σ → Prop) : σ → List (Event I) → 𝕜 → σ → Prop where
  | nil (s : σ) : Passes step s [] 0 s
  | cons {s next last : σ} {event : Event I} {trace : List (Event I)} {time total : 𝕜}
      (hStep : step s event time next) (hTrace : Passes step next trace total last) :
      Passes step s (event :: trace) (time + total) last

section Passes

variable {σ : Type} {step : σ → Event I → 𝕜 → σ → Prop} {J : σ → Prop} {A : Event I → Prop}
  {s last : σ} {trace : List (Event I)} {total : 𝕜}

theorem Passes.preserves
    (hStep : ∀ {s event time next}, step s event time next → A event → J s → J next)
    (h : Passes step s trace total last) (hEvents : ∀ event ∈ trace, A event) (hStart : J s) :
    J last := by
  induction h with
  | nil s => exact hStart
  | @cons s next last event trace time total hFirst _ ih =>
    obtain ⟨hEvent, hRest⟩ := List.forall_mem_cons.mp hEvents
    exact ih hRest (hStep hFirst hEvent hStart)

/-- A reading that each event moves by its time is moved by the run's time in all. -/
theorem Passes.reading_eq {reading : σ → 𝕜}
    (hStep : ∀ {s event time next}, step s event time next → reading next = reading s + time)
    (h : Passes step s trace total last) : reading last = reading s + total := by
  induction h with
  | nil s => exact (add_zero _).symm
  | cons hFirst _ ih => rw [ih, hStep hFirst, add_assoc]

/-- What an invariant says of each event holds of the run. -/
theorem Passes.takes {lasts : Event I → 𝕜 → Prop}
    (hStep : ∀ {s event time next}, step s event time next → A event → J s →
      lasts event time ∧ J next)
    (h : Passes step s trace total last) (hEvents : ∀ event ∈ trace, A event) (hStart : J s) :
    Takes lasts trace total := by
  induction h with
  | nil s => exact .nil
  | @cons s next last event trace time total hFirst _ ih =>
    obtain ⟨hEvent, hRest⟩ := List.forall_mem_cons.mp hEvents
    obtain ⟨hLasts, hNext⟩ := hStep hFirst hEvent hStart
    exact .cons hLasts (ih hRest hNext)

end Passes

variable [LinearOrder 𝕜]

/-- The program ends within `t`, however it is answered, where no request lasts longer than its
limit. -/
def Within (limit : I.Op → 𝕜) : 𝕜 → Program I ε α → Prop
  | t, .ret _ => 0 ≤ t
  | t, .fail _ => 0 ≤ t
  | t, .ask op k => ∀ r, Within limit (t - limit op) (k r)

variable {limit : I.Op → 𝕜} {t t' : 𝕜}

theorem within_ofExcept_bind {x : Except ε β} {f : β → Program I ε α} (ht : 0 ≤ t)
    (h : ∀ b, x = .ok b → Within limit t (f b)) :
    Within limit t ((Program.ofExcept x).bind f) := by
  cases x with
  | ok b => exact h b rfl
  | error e => exact ht

variable [IsOrderedAddMonoid 𝕜]

theorem Within.mono {p : Program I ε α} (h : Within limit t p) (hLe : t ≤ t') :
    Within limit t' p := by
  induction p generalizing t t' with
  | ret a => exact le_trans h hLe
  | fail e => exact le_trans h hLe
  | ask op k ih => exact fun r => ih r (h r) (sub_le_sub_right hLe _)

theorem Within.bind {p : Program I ε α} {f : α → Program I ε β} (h : Within limit t p)
    (ht' : 0 ≤ t') (hNext : ∀ a, Within limit t' (f a)) : Within limit (t + t') (p.bind f) := by
  induction p generalizing t with
  | ret a => exact (hNext a).mono (le_add_of_nonneg_left h)
  | fail e => exact add_nonneg h ht'
  | ask op k ih =>
    intro r
    have hRest := ih r (h r)
    rwa [sub_add_eq_add_sub] at hRest

/-- Two limits that are kept apart add up. -/
theorem Within.add {p : Program I ε α} {other : I.Op → 𝕜} (h : Within limit t p)
    (hOther : Within other t' p) : Within (fun op => limit op + other op) (t + t') p := by
  induction p generalizing t t' with
  | ret a => exact add_nonneg h hOther
  | fail e => exact add_nonneg h hOther
  | ask op k ih =>
    intro r
    have hRest := ih r (h r) (hOther r)
    rwa [sub_add_sub_comm] at hRest

theorem Within.total_le {p : Program I ε α} (h : Within limit t p) {lasts : Event I → 𝕜 → Prop}
    (hLimit : ∀ event time, lasts event time → time ≤ limit event.op) {trace : List (Event I)}
    {outcome : Except ε α} (hYields : Yields p trace outcome) {total : 𝕜}
    (hTakes : Takes lasts trace total) : total ≤ t := by
  induction hYields generalizing t total with
  | ret a =>
    cases hTakes
    exact h
  | fail e =>
    cases hTakes
    exact h
  | ask op k r _ ih =>
    cases hTakes with
    | @cons _ _ time rest hEvent hRest =>
      have hTail := ih (h r) hRest
      calc
        time + rest ≤ limit op + (t - limit op) := add_le_add (hLimit _ _ hEvent) hTail
        _ = t := add_sub_cancel _ _

end Foundation.Interaction
