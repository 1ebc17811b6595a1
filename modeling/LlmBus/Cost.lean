import LlmBus.Schema

/-! # Dated prices

Each model has a history of price points; the one in force on a date is the latest
that took effect on or before it. Money is exact.
-/

namespace LlmBus

open Foundation

structure ModelPricing where
  inputPerMtok : ℚ
  outputPerMtok : ℚ
  deriving DecidableEq

structure PricePoint where
  effective : Date
  pricing : ModelPricing
  deriving DecidableEq

def perMillion : ℚ := 1000000

def epoch : Date := ⟨2025, 1, 1, by decide⟩

/-- From here on the standard rate of Sonnet 5 holds. -/
def firstOfSeptember : Date := ⟨2026, 9, 1, by decide⟩

def PRICING : List (Text × List PricePoint) :=
  [(txt "gpt-5", [⟨epoch, 5 / 4, 10⟩]),
    (txt "gpt-5-mini", [⟨epoch, 1 / 4, 2⟩]),
    (txt "gpt-5-nano", [⟨epoch, 1 / 20, 2 / 5⟩]),
    (txt "gpt-5.4-mini", [⟨epoch, 3 / 4, 9 / 2⟩]),
    (txt "gpt-5.2", [⟨epoch, 7 / 4, 14⟩]),
    (txt "gpt-5.4", [⟨epoch, 5 / 2, 15⟩]),
    (txt "gpt-5.5", [⟨epoch, 5, 30⟩]),
    (txt "claude-opus-4-8", [⟨epoch, 5, 25⟩]),
    (txt "claude-haiku-4-5", [⟨epoch, 1, 5⟩]),
    (txt "claude-sonnet-5", [⟨epoch, 2, 10⟩, ⟨firstOfSeptember, 3, 15⟩])]

/-- `max(points, key=effective)`: the first of the greatest. -/
def latest : PricePoint → List PricePoint → PricePoint
  | best, [] => best
  | best, point :: rest =>
    latest (if best.effective < point.effective then point else best) rest

/-- The applicable part of a history and the choice made in it. -/
def priceIn (points : List PricePoint) (on : Date) : Option ModelPricing :=
  match points.filter fun point => decide (point.effective ≤ on) with
  | [] => none
  | point :: rest => some (latest point rest).pricing

def priceFor (py : Interpreter) (model : Text) (on : Date) : Except PyError ModelPricing :=
  match PRICING.lookup model with
  | none => .error ⟨.unknownModelError, model⟩
  | some points =>
    match priceIn points on with
    | none => .error ⟨.unknownModelError,
        py.repr model ++ txt " has no price effective on " ++ isoDate on⟩
    | some pricing => .ok pricing

def costAt (pricing : ModelPricing) (inputTokens outputTokens : ℤ) : ℚ :=
  (inputTokens * pricing.inputPerMtok + outputTokens * pricing.outputPerMtok) / perMillion

def costUsd (py : Interpreter) (model : Text) (inputTokens outputTokens : ℤ) (on : Date) :
    Except PyError ℚ :=
  if inputTokens < 0 ∨ outputTokens < 0 then
    .error ⟨.valueError, txt "token counts must be non-negative"⟩
  else
    match priceFor py model on with
    | .error e => .error e
    | .ok pricing => .ok (costAt pricing inputTokens outputTokens)

theorem costUsd_eq_ok_iff {py : Interpreter} {model : Text} {i o : ℤ} {on : Date} {q : ℚ} :
    costUsd py model i o on = .ok q ↔
      0 ≤ i ∧ 0 ≤ o ∧ ∃ pricing, priceFor py model on = .ok pricing ∧ q = costAt pricing i o := by
  unfold costUsd
  split
  · rename_i h
    simp only [reduceCtorEq, false_iff, not_and]
    intro hi ho
    omega
  · rename_i h
    cases priceFor py model on with
    | error e => simp
    | ok pricing =>
      simp only [Except.ok.injEq, exists_eq_left']
      constructor
      · rintro rfl
        exact ⟨by omega, by omega, rfl⟩
      · rintro ⟨_, _, rfl⟩
        rfl

end LlmBus
