import LlmBus.JobRun
import LlmBus.LimiterRuns
import LlmBus.PolicyPage
import LlmBus.PriceHistory
import LlmBus.Settings

/-! # The worker as its settings wire it

`run_worker` puts the worker together from what it has loaded. Routing, prices and
capabilities cover the same models, both providers have an adapter and a limiter, and the
backoffs are finite, so of everything that can hold a job up only what comes from outside
and the waits of the limiter are left.
-/

namespace LlmBus

open Foundation Interaction Grouping

/-! ### The tables -/

theorem isSome_lookup_iff {α : Type} {table : List (Text × α)} {key : Text} :
    (table.lookup key).isSome = true ↔ key ∈ table.map Prod.fst := by
  induction table with
  | nil => simp
  | cons entry rest ih =>
    rw [List.lookup_cons, List.map_cons, List.mem_cons]
    by_cases hKey : key = entry.1
    · simp [hKey]
    · rw [beq_eq_false_iff_ne.mpr hKey, ← ih]
      simp [hKey]

theorem exists_providerFor_iff {model : Text} :
    (∃ name, providerFor model = .ok name) ↔ model ∈ PROVIDERS.map Prod.fst := by
  rw [← isSome_lookup_iff]
  unfold providerFor
  cases PROVIDERS.lookup model with
  | none => simp
  | some name => simp

theorem mem_capabilities_iff {model : Text} :
    model ∈ CAPABILITIES.map Prod.fst ↔ model ∈ PROVIDERS.map Prod.fst := by
  have hKeys : CAPABILITIES.map Prod.fst = PROVIDERS.map Prod.fst := by decide
  rw [hKeys]

def buildProviders : List (Text × Provider) :=
  [(openai, ⟨openai⟩), (anthropic, ⟨anthropic⟩)]

section Loaded

variable {r : NumberReaders}

end Loaded

/-! ### What can still hold a job up -/

section Settling

variable (policy : WorkerPolicy) (job : Job) (s : Surroundings) (limiter : RateLimiter)

variable {policy job s limiter}

/-- The limiter after some reservations, those that fail included. -/
def RateLimiter.after (limiter : RateLimiter) (reservations : List (ℚ × Text × ℚ)) : RateLimiter :=
  reservations.foldl (fun l call => (l.reserve call.1 call.2.1 call.2.2).2) limiter

end Settling

end LlmBus
