import Mathlib.Algebra.BigOperators.Intervals
import Mathlib.Algebra.BigOperators.Ring.Finset
import Mathlib.Algebra.Order.BigOperators.Group.Finset
import LlmBus.Foundation.Duration
import LlmBus.BackoffLimits
import LlmBus.RetryTrace

/-! # The published budget

`retry_budget_seconds` is a closed sum, the loop draws its backoffs one by one. In exact
arithmetic the sum bounds the attempts and backoffs of every run, and no smaller number does.
-/

namespace LlmBus

open Foundation Interaction

/-- The limits of a policy as exact numbers. -/
structure WorkerPolicy.Exact (policy : WorkerPolicy) (timeout base cap : ℚ) : Prop where
  timeout : policy.jobTimeoutS = .finite timeout
  base : policy.retry.baseDelayS = .finite base
  cap : policy.retry.maxDelayS = .finite cap

/-- What an event can take of the time that attempts and backoffs take: an attempt up to its
timeout, a pause as long as was asked for, and anything else none of it. -/
def Lasts {pyd : Pydantic} (timeout : ℚ) : BusEvent pyd → ℚ → Prop
  | ⟨.call .., _⟩, time => 0 ≤ time ∧ time ≤ timeout
  | ⟨.sleep delay, _⟩, time => delay = .finite time
  | _, time => time = 0

/-- The most that a request can take of it. -/
def longest {pyd : Pydantic} (timeout : ℚ) : BusOp pyd → ℚ
  | .call .. => timeout
  | .sleep (.finite delay) => delay
  | _ => 0

theorem Lasts.le_longest {pyd : Pydantic} {timeout time : ℚ} {event : BusEvent pyd}
    (h : Lasts timeout event time) : time ≤ longest timeout event.op := by
  obtain ⟨op, reply⟩ := event
  cases op with
  | call provider model messages params timeoutS => exact h.2
  | sleep delay =>
    have hDelay : delay = .finite time := h
    rw [hDelay]
    rfl
  | _ => exact le_of_eq h

/-- The backoff before retry `i`, not scaled by a draw. -/
def ceiling (base cap : ℚ) (i : ℕ) : ℚ :=
  min cap (base * 2 ^ i)

/-- An attempt that runs into its timeout, and `retries` more of them with the pauses between. -/
def loopTime (timeout : ℚ) (pause : ℕ → ℚ) : (retries attempt : ℕ) → ℚ
  | 0, _ => timeout
  | retries + 1, attempt => timeout + pause attempt + loopTime timeout pause retries (attempt + 1)

section Bounds

variable {timeout base cap : ℚ}

theorem loopTime_eq (pause : ℕ → ℚ) (retries attempt : ℕ) :
    loopTime timeout pause retries attempt =
      (retries + 1) * timeout + ∑ i ∈ Finset.range retries, pause (attempt + i) := by
  induction retries generalizing attempt with
  | zero => simp [loopTime]
  | succ retries ih =>
    rw [loopTime, ih, Finset.sum_range_succ', Nat.cast_succ]
    have hShift : ∀ i, pause (attempt + 1 + i) = pause (attempt + (i + 1)) :=
      fun i => by rw [Nat.add_right_comm, Nat.add_assoc]
    simp only [hShift, Nat.add_zero]
    ring

theorem backoffTotal_exactPower {policy : RetryPolicy} (hBase : policy.baseDelayS = .finite base)
    (hMax : policy.maxDelayS = .finite cap) (n : ℕ) :
    backoffTotal exactPower policy n = some (.finite (∑ i ∈ Finset.range n, ceiling base cap i)) := by
  induction n with
  | zero => rfl
  | succ n ih =>
    simp only [backoffTotal, ih, backoffCeiling, exactPower_pow, exactPower_round, Option.map_some,
      hBase, hMax, Double.mul_finite, Double.min_finite, Double.add_finite, Finset.sum_range_succ]
    rw [min_comm, ceiling]

theorem retryBudgetSeconds_exact {policy : WorkerPolicy} (h : policy.Exact timeout base cap) :
    retryBudgetSeconds exactPower policy =
      .ok (.finite (loopTime timeout (ceiling base cap) (policy.retry.maxAttempts - 1) 0)) := by
  have hPositive := policy.retry.maxAttempts_pos
  have hCount : ((policy.retry.maxAttempts - 1 : ℕ) : ℚ) + 1 = policy.retry.maxAttempts := by
    rw [← Nat.cast_succ]
    congr 1
    omega
  simp only [retryBudgetSeconds, backoffTotal_exactPower h.base h.cap, h.timeout, exactPower_round,
    Double.mul_finite, Double.add_finite, loopTime_eq, hCount, Nat.zero_add]

theorem WorkerPolicy.Exact.pos {policy : WorkerPolicy} (h : policy.Exact timeout base cap) :
    0 < timeout ∧ 0 < base ∧ base ≤ cap := by
  have hTimeout := policy.timeout_pos
  have hBase := policy.retry.base_pos
  have hLe := policy.retry.base_le_max
  rw [h.timeout] at hTimeout
  rw [h.base] at hBase hLe
  rw [h.cap] at hLe
  exact ⟨by simpa using hTimeout, by simpa using hBase, by simpa using hLe⟩

theorem ceiling_nonneg (hBase : 0 < base) (hLe : base ≤ cap) (i : ℕ) : 0 ≤ ceiling base cap i :=
  le_min (hBase.le.trans hLe) (by positivity)

theorem loopTime_nonneg (hTimeout : 0 < timeout) (hBase : 0 < base) (hLe : base ≤ cap)
    (retries attempt : ℕ) : 0 ≤ loopTime timeout (ceiling base cap) retries attempt := by
  rw [loopTime_eq]
  have hSum : 0 ≤ ∑ i ∈ Finset.range retries, ceiling base cap (attempt + i) :=
    Finset.sum_nonneg fun i _ => ceiling_nonneg hBase hLe (attempt + i)
  positivity

end Bounds

/-! ### Every run -/

section Loop

variable {pyd : Pydantic} (py : Interpreter) {deps : WorkerDeps} (job : Job) {timeout base cap : ℚ}

theorem backoffDelay_le_ceiling {policy : RetryPolicy} (hB : policy.baseDelayS = .finite base)
    (hM : policy.maxDelayS = .finite cap) (hBase : 0 < base) (hLe : base ≤ cap) (i : ℕ) (draw : Draw) :
    ∃ delay, backoffDelay exactPower i policy draw.value = .ok (.finite delay) ∧
      delay = ceiling base cap i * draw.value ∧ delay ≤ ceiling base cap i :=
  ⟨_, backoffDelay_exact hB hM i draw.value, rfl,
    mul_le_of_le_one_right (ceiling_nonneg hBase hLe i) draw.lt_one.le⟩

/-- A last attempt takes its timeout, another one the backoff and the rest as well. -/
theorem within_runAttempt (h : deps.policy.Exact timeout base cap) (provider : Provider)
    (estimate attempt : ℕ) {again : Option (Bus pyd Result)} {rest : ℚ}
    (hRest : 0 ≤ rest)
    (hAgain : ∀ next, again = some next →
      ceiling base cap attempt ≤ rest ∧
        Within (longest timeout) (rest - ceiling base cap attempt) next) :
    Within (longest timeout) (timeout + rest)
      (runAttempt py exactPower deps job provider estimate attempt again) := by
  obtain ⟨hTimeout, hBase, hLe⟩ := h.pos
  have hAll : 0 ≤ timeout + rest := add_nonneg hTimeout.le hRest
  have hFree : ∀ (op : BusOp pyd) t, longest timeout op = 0 → t - longest timeout op = t := by
    intro op t hZero
    rw [hZero, sub_zero]
  have hAfter : ∀ outcome, Within (longest timeout) rest
      (afterCall py exactPower deps job provider attempt again outcome) := by
    intro outcome
    cases outcome with
    | ok call =>
      rw [afterCall_ok]
      exact within_ofExcept_bind hRest fun _ _ => hRest
    | error exc =>
      by_cases hRetry : isRetryable exc = true ∧ again.isSome = true
      · obtain ⟨hRetryable, hSome⟩ := hRetry
        obtain ⟨next, rfl⟩ := Option.isSome_iff_exists.mp hSome
        obtain ⟨hCeiling, hNext⟩ := hAgain next rfl
        rw [afterCall_retry _ _ _ _ _ _ _ hRetryable]
        intro draw
        obtain ⟨delay, hDelay, _, hCapped⟩ :=
          backoffDelay_le_ceiling h.base h.cap hBase hLe attempt draw
        simp only [hDelay, Program.ofExcept_ok, Program.ret_bind, hFree .rand rest rfl]
        intro slept
        have hLeft : rest - ceiling base cap attempt ≤ rest - delay := sub_le_sub_left hCapped rest
        exact within_ofExcept_bind ((sub_nonneg.mpr hCeiling).trans hLeft) fun _ _ => hNext.mono hLeft
      · rw [afterCall_final _ _ _ _ _ _ hRetry]
        exact hRest
  rw [runAttempt_eq]
  intro before
  rw [hFree .now _ rfl]
  apply within_ofExcept_bind hAll
  intro expired _
  split
  · exact hAll
  intro reserved
  rw [hFree (.acquire _ _) _ rfl]
  apply within_ofExcept_bind hAll
  intro _ _ after
  rw [hFree .now _ rfl]
  apply within_ofExcept_bind hAll
  intro expired _
  split
  · exact hAll
  unfold callProvider
  split
  · exact (hAfter _).mono (le_add_of_nonneg_left hTimeout.le)
  · intro outcome
    change Within (longest timeout) (timeout + rest - timeout)
      (afterCall py exactPower deps job provider attempt again outcome)
    rw [add_sub_cancel_left]
    exact hAfter outcome

theorem within_callLoop (h : deps.policy.Exact timeout base cap) (provider : Provider)
    (estimate retries attempt : ℕ) :
    Within (longest timeout) (loopTime timeout (ceiling base cap) retries attempt)
      (callLoop py exactPower deps job provider estimate retries attempt : Bus pyd Result) := by
  obtain ⟨hTimeout, hBase, hLe⟩ := h.pos
  induction retries generalizing attempt with
  | zero =>
    have hLast : Within (longest timeout) (timeout + 0)
        (runAttempt py exactPower deps job provider estimate attempt none : Bus pyd Result) :=
      within_runAttempt py job h provider estimate attempt le_rfl fun next hNone => by cases hNone
    rwa [add_zero] at hLast
  | succ retries ih =>
    have hTail := loopTime_nonneg hTimeout hBase hLe retries (attempt + 1)
    have hCeiling := ceiling_nonneg hBase hLe attempt
    rw [loopTime, add_assoc]
    apply within_runAttempt py job h provider estimate attempt (add_nonneg hCeiling hTail)
    rintro next hNext
    cases hNext
    exact ⟨le_add_of_nonneg_right hTail, by rw [add_sub_cancel_left]; exact ih (attempt + 1)⟩

end Loop

/-! ### The slowest runs -/

def timeoutFailure : ProviderError := ⟨txt "TimeoutError", true, none, []⟩

section Slowest

variable {pyd : Pydantic} (py : Interpreter) {deps : WorkerDeps} {job : Job} {model : Text}
  {provider : Provider} {estimate : ℕ} {timeout base cap : ℚ}

/-- Every attempt times out, and every draw is `draw`. -/
def timedOut (deps : WorkerDeps) (job : Job) (model : Text) (provider : Provider) (estimate : ℕ)
    (base cap : ℚ) (draw : Draw) (reading : DateTime) : (retries attempt : ℕ) → List (BusEvent pyd)
  | 0, _ =>
    LastAttempt.events deps job model provider estimate (.failed reading reading timeoutFailure)
  | retries + 1, attempt =>
    RetriedAttempt.events deps job model provider estimate
        ⟨reading, reading, timeoutFailure, draw, .finite (ceiling base cap attempt * draw.value)⟩ ++
      timedOut deps job model provider estimate base cap draw reading retries (attempt + 1)

/-- An attempt of a job without a deadline comes to its call and goes on from the answer. -/
theorem yields_runAttempt (hModel : job.model = some model) (hTtl : job.ttlS = none)
    {attempt : ℕ} {again : Option (Bus pyd Result)} (reading : DateTime)
    {called : Except ProviderError ProviderResult} {trace : List (BusEvent pyd)}
    {outcome : Except PyError Result}
    (h : Yields (afterCall py exactPower deps job provider attempt again called) trace outcome) :
    Yields (runAttempt py exactPower deps job provider estimate attempt again)
      (callEvents deps job model provider estimate reading reading called ++ trace) outcome := by
  have hLive : isExpired job reading = .ok false := by rw [isExpired, hTtl]
  rw [runAttempt_eq]
  refine .ask _ _ _ ?_
  rw [hLive, Program.ofExcept_ok, Program.ret_bind, if_neg Bool.false_ne_true]
  refine .ask _ _ _ (.ask _ _ _ ?_)
  rw [hLive, Program.ofExcept_ok, Program.ret_bind, if_neg Bool.false_ne_true,
    callProvider_eq deps job hModel]
  exact .ask _ _ _ h

theorem yields_timedOut (h : deps.policy.Exact timeout base cap) (hModel : job.model = some model)
    (hTtl : job.ttlS = none) (draw : Draw) (reading : DateTime) (retries attempt : ℕ) :
    Yields (callLoop py exactPower deps job provider estimate retries attempt : Bus pyd Result)
      (timedOut deps job model provider estimate base cap draw reading retries attempt)
      (.ok (resultError job (some provider.name) (describe timeoutFailure))) := by
  induction retries generalizing attempt with
  | zero =>
    have hFinal : Yields (afterCall py exactPower deps job provider attempt none
        (.error timeoutFailure) : Bus pyd Result) []
        (.ok (resultError job (some provider.name) (describe timeoutFailure))) := .ret _
    exact yields_runAttempt py hModel hTtl reading hFinal
  | succ retries ih =>
    rw [timedOut, RetriedAttempt.events, List.append_assoc]
    apply yields_runAttempt py hModel hTtl reading
    rw [afterCall_retry _ _ _ _ _ _ _ rfl]
    refine .ask _ _ _ ?_
    rw [backoffDelay_exact h.base h.cap, Program.ofExcept_ok, Program.ret_bind]
    refine .ask _ _ _ ?_
    exact ih (attempt + 1)

theorem takes_callEvents (hTimeout : 0 < timeout) (before after : DateTime)
    (called : Except ProviderError ProviderResult) :
    Takes (Lasts timeout)
      (callEvents deps job model provider estimate before after called : List (BusEvent pyd))
      timeout := by
  have hCall : Takes (Lasts timeout)
      (callEvents deps job model provider estimate before after called : List (BusEvent pyd))
      (0 + (0 + (0 + (timeout + 0)))) :=
    .cons rfl (.cons rfl (.cons rfl (.cons ⟨hTimeout.le, le_rfl⟩ .nil)))
  simpa using hCall

theorem takes_timedOut (hTimeout : 0 < timeout) (draw : Draw) (reading : DateTime)
    (retries attempt : ℕ) :
    Takes (Lasts timeout)
      (timedOut deps job model provider estimate base cap draw reading retries attempt :
        List (BusEvent pyd))
      (loopTime timeout (fun i => ceiling base cap i * draw.value) retries attempt) := by
  induction retries generalizing attempt with
  | zero => exact takes_callEvents hTimeout _ _ _
  | succ retries ih =>
    have hPause : Takes (Lasts timeout)
        ([⟨.rand, draw⟩, ⟨.sleep (.finite (ceiling base cap attempt * draw.value)), .ok ()⟩] :
          List (BusEvent pyd))
        (0 + (ceiling base cap attempt * draw.value + 0)) := .cons rfl (.cons rfl .nil)
    rw [zero_add, add_zero] at hPause
    exact ((takes_callEvents hTimeout _ _ _).append hPause).append (ih (attempt + 1))

end Slowest

/-- A draw so close to one that what it takes off the pauses is less than `gap`. -/
theorem exists_draw {pauses gap : ℚ} (hPauses : 0 ≤ pauses) (hGap : 0 < gap) :
    ∃ draw : Draw, pauses - gap < pauses * draw.value := by
  have hPositive : 0 < pauses + gap := add_pos_of_nonneg_of_pos hPauses hGap
  refine ⟨⟨pauses / (pauses + gap), div_nonneg hPauses hPositive.le, ?_⟩, ?_⟩
  · rw [div_lt_one hPositive]
    exact lt_add_of_pos_right pauses hGap
  · rw [← sub_pos]
    have hGain : pauses * (pauses / (pauses + gap)) - (pauses - gap) = gap * gap / (pauses + gap) := by
      field_simp
      ring
    rw [hGain]
    positivity

/-- In exact arithmetic no run spends more on attempts and backoffs than the published budget, and
every smaller bound is exceeded by one whose attempts all time out. -/
theorem retryBudget_tight (policy : WorkerPolicy) (timeout base cap : ℚ)
    (hExact : policy.Exact timeout base cap) :
    ∃ budget, retryBudgetSeconds exactPower policy = .ok (.finite budget) ∧
      ∀ (pyd : Pydantic) (py : Interpreter) (deps : WorkerDeps) (job : Job) (provider : Provider)
        (estimate : ℕ), deps.policy = policy →
        (∀ (trace : List (BusEvent pyd)) (outcome : Except PyError Result) (total : ℚ),
          Yields (callWithRetry py exactPower deps job provider estimate) trace outcome →
          Takes (Lasts timeout) trace total → total ≤ budget) ∧
        (job.model.isSome = true → job.ttlS = none → ∀ bound < budget,
          ∃ (trace : List (BusEvent pyd)) (outcome : Except PyError Result) (total : ℚ),
            Yields (callWithRetry py exactPower deps job provider estimate) trace outcome ∧
            Takes (Lasts timeout) trace total ∧ bound < total) := by
  obtain ⟨hTimeout, hBase, hLe⟩ := hExact.pos
  refine ⟨_, retryBudgetSeconds_exact hExact, ?_⟩
  rintro pyd py deps job provider estimate rfl
  refine ⟨fun trace outcome total hYields hTakes => ?_, fun hModel hTtl bound hBound => ?_⟩
  · have hWithin : Within (longest timeout) _
        (callWithRetry py exactPower deps job provider estimate : Bus pyd Result) :=
      within_callLoop py job hExact provider estimate (deps.policy.retry.maxAttempts - 1) 0
    exact hWithin.total_le (fun _ _ => Lasts.le_longest) hYields hTakes
  · obtain ⟨model, hModel⟩ := Option.isSome_iff_exists.mp hModel
    rw [loopTime_eq] at hBound
    obtain ⟨draw, hDraw⟩ := exists_draw
      (Finset.sum_nonneg fun i (_ : i ∈ Finset.range (deps.policy.retry.maxAttempts - 1)) =>
        ceiling_nonneg hBase hLe (0 + i)) (sub_pos.mpr hBound)
    refine ⟨_, _, _, yields_timedOut py hExact hModel hTtl draw (.startOf newYear2026) _ 0,
      takes_timedOut hTimeout draw _ _ 0, ?_⟩
    rw [loopTime_eq, ← Finset.sum_mul]
    linarith

theorem retryBudget_tight_plainPolicy :
    ∃ budget, retryBudgetSeconds exactPower plainPolicy = .ok (.finite budget) ∧
      ∀ bound < budget, ∃ (trace : List (BusEvent .tree)) (outcome : Except PyError Result) (total : ℚ),
        Yields (callWithRetry .ascii exactPower plainDeps plainJob ⟨openai⟩ 10) trace outcome ∧
        Takes (Lasts 30) trace total ∧ bound < total := by
  obtain ⟨budget, hBudget, hRuns⟩ := retryBudget_tight plainPolicy 30 1 8 ⟨rfl, rfl, rfl⟩
  exact ⟨budget, hBudget, (hRuns .tree .ascii plainDeps plainJob ⟨openai⟩ 10 rfl).2 rfl rfl⟩

end LlmBus
