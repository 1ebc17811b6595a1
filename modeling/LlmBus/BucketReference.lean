import LlmBus.BucketSchedule
import LlmBus.Foundation.Replay
import LlmBus.Foundation.VirtualSchedule

/-! # A bucket against its virtual schedule

The balance, the refill and the two clamps of a bucket say no more than two times: the latest
`now` it was called with, and the moment at which everything promised has been earned. No
order of the calls in time is assumed.
-/

namespace LlmBus

open Foundation Foundation.Replay Foundation.VirtualSchedule

namespace TokenBucket

theorem nonneg_of_not_neg {amount : ℚ} (h : ¬ amount < 0) : 0 ≤ amount :=
  not_lt.mp h

/-- `reserve` over the rationals, where every amount can be subtracted. -/
def reserveExact (b : TokenBucket) (now amount : ℚ) : Except PyError ℚ × TokenBucket :=
  if h : amount < 0 then (.error negativeAmount, b)
  else
    let spent := (b.refill now).spend amount (nonneg_of_not_neg h)
    (.ok spent.wait, spent)

end TokenBucket

/-- What a reservation returns, and the two attributes it writes. -/
structure Tally where
  result : Except PyError ℚ
  tokens : ℚ
  updated : ℚ

/-- One call of `reserve`, as the code has it or over the rationals. -/
def tallied (reserve : TokenBucket → ℚ → ℚ → Except PyError ℚ × TokenBucket) (c : Reservation)
    (b : TokenBucket) : Tally × TokenBucket :=
  let out := reserve b c.time c.amount
  (⟨out.1, out.2.tokens, out.2.updated⟩, out.2)

/-- The same call on the virtual schedule, which knows no balance. -/
def scheduled (rate capacity : ℚ) (c : Reservation) (v : Clock ℚ) : Tally × Clock ℚ :=
  let next := v.next rate capacity c.time c.amount
  (⟨.ok (max 0 (next.due - next.time)), rate * (next.time - next.due), next.time⟩, next)

namespace TokenBucket

variable {b : TokenBucket} {v : Clock ℚ} {rate capacity amount : ℚ}

theorem reserve_eq_reserveExact (b : TokenBucket) (now : ℚ) (hLt : amount < doubleOverflow) :
    b.reserve now amount = b.reserveExact now amount := by
  by_cases hNegative : amount < 0
  · rw [reserve, reserveExact, dif_pos hNegative, dif_pos hNegative]
  · rw [reserve, reserveExact, dif_neg hNegative, dif_neg hNegative, if_neg (not_le.mpr hLt)]

theorem reserveExact_eq_ok (b : TokenBucket) (now : ℚ) (hNonneg : 0 ≤ amount) :
    b.reserveExact now amount = (.ok (b.charged now amount hNonneg).wait, b.charged now amount hNonneg) := by
  rw [reserveExact, dif_neg (not_lt.mpr hNonneg)]
  rfl

/-- The bucket holds what the schedule says it holds. -/
structure OnSchedule (rate capacity : ℚ) (b : TokenBucket) (v : Clock ℚ) : Prop where
  rate_eq : b.rate = rate
  capacity_eq : b.capacity = capacity
  tokens_eq : b.tokens = v.balance rate
  updated_eq : b.updated = v.time

theorem OnSchedule.charged (h : OnSchedule rate capacity b v) (now : ℚ) (hAmount : 0 ≤ amount) :
    OnSchedule rate capacity (b.charged now amount hAmount) (v.next rate capacity now amount) where
  rate_eq := h.rate_eq
  capacity_eq := h.capacity_eq
  tokens_eq := by
    have hRate : 0 < rate := h.rate_eq ▸ b.rate_pos
    rw [charged_tokens, v.balance_next hRate, h.capacity_eq, h.tokens_eq, h.updated_eq, h.rate_eq]
  updated_eq := by rw [charged_updated, h.updated_eq, Clock.next]

theorem OnSchedule.wait_eq (h : OnSchedule rate capacity b v) : b.wait = max 0 (v.due - v.time) := by
  have hRate : 0 < rate := h.rate_eq ▸ b.rate_pos
  rw [wait, h.tokens_eq, h.rate_eq, ← v.wait_eq hRate, Clock.wait]

theorem simulation (rate capacity : ℚ) :
    Simulation (tallied reserveExact) (scheduled rate capacity) (OnSchedule rate capacity)
      fun c => 0 ≤ c.amount where
  answer c b v hAmount h := by
    have hNext := h.charged c.time hAmount
    rw [tallied, reserveExact_eq_ok b c.time hAmount, scheduled, hNext.wait_eq, hNext.tokens_eq,
      hNext.updated_eq, Clock.balance]
  next c b v hAmount h := by
    rw [tallied, reserveExact_eq_ok b c.time hAmount]
    exact h.charged c.time hAmount

theorem exact_simulation :
    Simulation (tallied reserve) (tallied reserveExact) Eq fun c => c.amount < doubleOverflow where
  answer c b b' hLt h := by
    rw [tallied, tallied, h, reserve_eq_reserveExact b' c.time hLt]
  next c b b' hLt h := by
    rw [tallied, tallied, h, reserve_eq_reserveExact b' c.time hLt]

theorem time_after (v : Clock ℚ) (calls : List Reservation) :
    (after (scheduled rate capacity) v calls).time = (calls.map (·.time)).foldl max v.time := by
  induction calls generalizing v with
  | nil => rfl
  | cons c rest ih => exact ih _

/-- A bucket answers every sequence of reservations, whatever its clock does, as the virtual
schedule of its rate and capacity does; a clock that does not advance neither refills nor drains. -/
theorem bucket_eq_virtualSchedule (hRate : 0 < rate) (hCapacity : 0 < capacity) (start : ℚ) :
    ∃ b, init rate capacity start = .ok b ∧
      ∀ calls : List Reservation, (∀ c ∈ calls, 0 ≤ c.amount) →
        outcomes (tallied reserveExact) b calls =
          outcomes (scheduled rate capacity) (Clock.start rate capacity start) calls ∧
        (after (tallied reserveExact) b calls).updated = (calls.map (·.time)).foldl max start ∧
        (after (tallied reserveExact) b calls).tokens ≤ capacity ∧
        (∀ now amount, 0 ≤ amount → now ≤ (calls.map (·.time)).foldl max start →
          ((after (tallied reserveExact) b calls).reserveExact now amount).2.tokens =
              (after (tallied reserveExact) b calls).tokens - amount ∧
            ((after (tallied reserveExact) b calls).reserveExact now amount).2.updated =
              (after (tallied reserveExact) b calls).updated) ∧
        ((∀ c ∈ calls, c.amount < doubleOverflow) →
          outcomes (tallied reserve) b calls = outcomes (tallied reserveExact) b calls) := by
  refine ⟨_, init_of_pos hRate hCapacity, ?_⟩
  intro calls hAmounts
  have hStart : OnSchedule rate capacity ⟨rate, capacity, capacity, start, hRate, le_rfl⟩
      (Clock.start rate capacity start) :=
    ⟨rfl, rfl, (Clock.balance_start hRate start).symm, rfl⟩
  have hAfter := (simulation rate capacity).after hAmounts hStart
  have hUpdated := hAfter.updated_eq.trans (time_after _ calls)
  refine ⟨(simulation rate capacity).outcomes_eq hAmounts hStart, hUpdated, ?_, ?_, ?_⟩
  · exact (TokenBucket.tokens_le _).trans_eq hAfter.capacity_eq
  · intro now amount hAmount hNow
    rw [reserveExact_eq_ok _ now hAmount, charged_tokens, charged_updated]
    have hBehind : now ≤ (after (tallied reserveExact)
        ⟨rate, capacity, capacity, start, hRate, le_rfl⟩ calls).updated := hNow.trans_eq hUpdated.symm
    constructor
    · rw [max_eq_left (sub_nonpos.mpr hBehind), zero_mul, add_zero,
        min_eq_right (TokenBucket.tokens_le _)]
    · exact max_eq_left hBehind
  · exact fun hDoubles => exact_simulation.outcomes_eq hDoubles rfl

theorem bucket_eq_virtualSchedule_backward :
    ∃ b, init 1 10 0 = .ok b ∧
      (outcomes (tallied reserveExact) b [⟨0, 10⟩, ⟨-3, 7⟩, ⟨3, 5⟩]).map Prod.snd =
        [⟨.ok 0, 0, 0⟩, ⟨.ok 7, -7, 0⟩, ⟨.ok 9, -9, 3⟩] := by
  obtain ⟨b, hInit, hRun⟩ := bucket_eq_virtualSchedule one_pos (by norm_num : (0 : ℚ) < 10) 0
  refine ⟨b, hInit, ?_⟩
  rw [(hRun [⟨0, 10⟩, ⟨-3, 7⟩, ⟨3, 5⟩] (by simp)).1]
  norm_num [outcomes, scheduled, Clock.start, Clock.next]

end TokenBucket

end LlmBus
