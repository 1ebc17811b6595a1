import Mathlib.Algebra.Order.Field.Basic
import Mathlib.Algebra.Order.Group.MinMax
import Mathlib.Tactic.FieldSimp
import Mathlib.Tactic.Ring

/-! # Virtual scheduling

A rate limit kept as two times instead of a balance: the latest time seen, and the time at
which everything promised so far has been earned. The second is never further back than a
full capacity takes to earn. What a bucket of tokens would hold is read off the two.
-/

namespace Foundation.VirtualSchedule

variable {𝕜 : Type*} [Field 𝕜] [LinearOrder 𝕜]

structure Clock (𝕜 : Type*) where
  time : 𝕜
  due : 𝕜

namespace Clock

def start (rate capacity now : 𝕜) : Clock 𝕜 where
  time := now
  due := now - capacity / rate

def next (rate capacity : 𝕜) (c : Clock 𝕜) (now amount : 𝕜) : Clock 𝕜 where
  time := max c.time now
  due := max c.due (max c.time now - capacity / rate) + amount / rate

/-- How long after the latest time the promises are kept. -/
def wait (c : Clock 𝕜) : 𝕜 :=
  max 0 (c.due - c.time)

def balance (rate : 𝕜) (c : Clock 𝕜) : 𝕜 :=
  rate * (c.time - c.due)

variable {rate capacity : 𝕜}

theorem balance_start (hRate : 0 < rate) (now : 𝕜) :
    (start rate capacity now).balance rate = capacity := by
  rw [balance, start, sub_sub_cancel, mul_div_cancel₀ capacity hRate.ne']

variable [IsStrictOrderedRing 𝕜]

/-- The balance is refilled for the time gained, up to the capacity, and then charged. -/
theorem balance_next (hRate : 0 < rate) (c : Clock 𝕜) (now amount : 𝕜) :
    (c.next rate capacity now amount).balance rate =
      min capacity (c.balance rate + max 0 (now - c.time) * rate) - amount := by
  have hGained : max 0 (now - c.time) = max c.time now - c.time := by
    rw [← max_sub_sub_right, sub_self]
  have hRefill : c.balance rate + max 0 (now - c.time) * rate = rate * (max c.time now - c.due) := by
    rw [hGained, balance]
    ring
  have hFull : rate * (max c.time now - (max c.time now - capacity / rate)) = capacity := by
    rw [sub_sub_cancel, mul_div_cancel₀ capacity hRate.ne']
  have hClamped : min capacity (rate * (max c.time now - c.due)) =
      rate * (max c.time now - max c.due (max c.time now - capacity / rate)) := by
    rw [← min_sub_sub_left, mul_min_of_nonneg _ _ hRate.le, hFull, min_comm]
  rw [hRefill, hClamped, balance, next]
  field_simp
  ring

theorem wait_eq (hRate : 0 < rate) (c : Clock 𝕜) : c.wait = max 0 (-c.balance rate) / rate := by
  have hDeficit : -c.balance rate = rate * (c.due - c.time) := by
    rw [balance]
    ring
  rw [hDeficit, wait, ← mul_zero rate, ← mul_max_of_nonneg _ _ hRate.le,
    mul_div_cancel_left₀ _ hRate.ne', mul_zero]

end Clock

end Foundation.VirtualSchedule
