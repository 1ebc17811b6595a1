import LlmBus.Foundation.Handlers
import LlmBus.LimiterRuns
import LlmBus.RetryBudget

/-! # One worker that takes its jobs one after the other

The wait for the limiter depends on everything that was reserved before. But a worker that
waits out each reservation before it goes on comes to the next with nothing owed, so
whatever it has done, one job waits no longer for an attempt than its own demand takes to be
earned.
-/

namespace LlmBus

open Foundation Interaction

/-! ### Nothing owed -/

namespace TokenBucket

/-- What was promised up to `now` has been earned. -/
structure Settled (b : TokenBucket) (now : ℚ) : Prop where
  updated_le : b.updated ≤ now
  capacity_nonneg : 0 ≤ b.capacity
  level_nonneg : 0 ≤ b.tokens + (now - b.updated) * b.rate

variable {b : TokenBucket} {now amount : ℚ}

theorem Settled.later {later : ℚ} (h : b.Settled now) (hLater : now ≤ later) : b.Settled later where
  updated_le := h.updated_le.trans hLater
  capacity_nonneg := h.capacity_nonneg
  level_nonneg := by
    have hEarned : (now - b.updated) * b.rate ≤ (later - b.updated) * b.rate :=
      mul_le_mul_of_nonneg_right (sub_le_sub_right hLater _) b.rate_pos.le
    linarith [h.level_nonneg]

theorem Settled.perMinute {limit : ℚ} (hLimit : 0 < limit) (now : ℚ) :
    (perMinute limit hLimit now).Settled now where
  updated_le := le_rfl
  capacity_nonneg := hLimit.le
  level_nonneg := by
    simp only [TokenBucket.perMinute, sub_self, zero_mul, add_zero]
    exact hLimit.le

theorem wait_nonneg (b : TokenBucket) : 0 ≤ b.wait :=
  div_nonneg (le_max_left _ _) b.rate_pos.le

theorem Settled.neg_le_charged (h : b.Settled now) (hAmount : 0 ≤ amount) :
    -amount ≤ (b.charged now amount hAmount).tokens := by
  rw [charged_tokens, max_eq_right (sub_nonneg.mpr h.updated_le)]
  linarith [le_min h.capacity_nonneg h.level_nonneg]

/-- The wait is for the own demand alone. -/
theorem Settled.wait_le (h : b.Settled now) (hAmount : 0 ≤ amount) :
    (b.charged now amount hAmount).wait ≤ amount / b.rate := by
  have hDeficit : max 0 (-(b.charged now amount hAmount).tokens) ≤ amount :=
    max_le hAmount (by linarith [h.neg_le_charged hAmount])
  exact div_le_div_of_nonneg_right hDeficit b.rate_pos.le

/-- Whoever waits as long as it was told to leaves nothing owed. -/
theorem Settled.charged (h : b.Settled now) (hAmount : 0 ≤ amount) {spent : ℚ}
    (hSpent : (b.charged now amount hAmount).wait ≤ spent) :
    (b.charged now amount hAmount).Settled (now + spent) where
  updated_le := by
    rw [charged_updated, max_eq_right h.updated_le]
    exact le_add_of_nonneg_right ((wait_nonneg _).trans hSpent)
  capacity_nonneg := h.capacity_nonneg
  level_nonneg := by
    have hRate : 0 < b.rate := b.rate_pos
    have hEarned : max 0 (-(b.charged now amount hAmount).tokens) ≤ spent * b.rate :=
      (div_le_iff₀ hRate).mp hSpent
    have hUpdated : (b.charged now amount hAmount).updated = now := by
      rw [charged_updated, max_eq_right h.updated_le]
    rw [hUpdated, add_sub_cancel_left]
    change 0 ≤ (b.charged now amount hAmount).tokens + spent * b.rate
    linarith [le_max_right 0 (-(b.charged now amount hAmount).tokens)]

end TokenBucket

namespace ProviderLimiter

open TokenBucket

/-- How long a demand takes to be earned where nothing else is owed. -/
def earningTime (limits : ProviderLimits) (tokens : ℚ) : ℚ :=
  max (60 / limits.requestsPerMin) (60 * tokens / limits.tokensPerMin)

theorem earningTime_nonneg (limits : ProviderLimits) (tokens : ℚ) : 0 ≤ earningTime limits tokens :=
  (div_nonneg (by norm_num) limits.requests_pos.le).trans (le_max_left _ _)

structure Settled (limits : ProviderLimits) (l : ProviderLimiter) (now : ℚ) : Prop where
  requests_perMinute : PerMinute limits.requestsPerMin l.requests
  tokens_perMinute : PerMinute limits.tokensPerMin l.tokens
  requests : l.requests.Settled now
  tokens : l.tokens.Settled now

variable {limits : ProviderLimits} {l : ProviderLimiter} {now tokens : ℚ}

theorem Settled.new (limits : ProviderLimits) (now : ℚ) : Settled limits (new limits now) now where
  requests_perMinute := perMinute_perMinute limits.requests_pos now
  tokens_perMinute := perMinute_perMinute limits.tokens_pos now
  requests := .perMinute limits.requests_pos now
  tokens := .perMinute limits.tokens_pos now

theorem Settled.later {later : ℚ} (h : Settled limits l now) (hLater : now ≤ later) :
    Settled limits l later :=
  { h with requests := h.requests.later hLater, tokens := h.tokens.later hLater }

theorem reserve_eq_ok (l : ProviderLimiter) (now : ℚ) (hTokens : 0 ≤ tokens)
    (hFits : tokens < doubleOverflow) :
    l.reserve now tokens =
      (.ok (max (l.requests.charged now 1 zero_le_one).wait (l.tokens.charged now tokens hTokens).wait),
        ⟨l.requests.charged now 1 zero_le_one, l.tokens.charged now tokens hTokens⟩) := by
  rw [ProviderLimiter.reserve, if_neg (not_lt.mpr hTokens),
    TokenBucket.reserve_eq_ok l.requests now zero_le_one one_lt_doubleOverflow]
  simp only [TokenBucket.reserve_eq_ok l.tokens now hTokens hFits]
  rfl

/-- A reservation waits no longer than its demand takes to be earned, and leaves nothing owed at
the moment at which its wait is over. -/
theorem Settled.reserve (h : Settled limits l now) (hTokens : 0 ≤ tokens)
    (hFits : tokens < doubleOverflow) :
    ∃ wait, (l.reserve now tokens).1 = .ok wait ∧ 0 ≤ wait ∧ wait ≤ earningTime limits tokens ∧
      Settled limits (l.reserve now tokens).2 (now + wait) := by
  rw [reserve_eq_ok l now hTokens hFits]
  have hRequests := h.requests.wait_le (zero_le_one : (0 : ℚ) ≤ 1)
  have hTokensWait := h.tokens.wait_le hTokens
  rw [h.requests_perMinute.rate, one_div_div] at hRequests
  rw [h.tokens_perMinute.rate, div_div_eq_mul_div, mul_comm] at hTokensWait
  refine ⟨_, rfl, (wait_nonneg _).trans (le_max_left _ _), max_le_max hRequests hTokensWait, ?_⟩
  exact
    { requests_perMinute := h.requests_perMinute.charged zero_le_one
      tokens_perMinute := h.tokens_perMinute.charged hTokens
      requests := h.requests.charged zero_le_one (le_max_left _ _)
      tokens := h.tokens.charged hTokens (le_max_right _ _) }

end ProviderLimiter

namespace RateLimiter

variable {limits : List (Text × ProviderLimits)} {limiter : RateLimiter} {now : ℚ}

def Settled (limits : List (Text × ProviderLimits)) (limiter : RateLimiter) (now : ℚ) : Prop :=
  ∀ name l, limiter.lookup name = some l →
    ∃ bounds, limits.lookup name = some bounds ∧ ProviderLimiter.Settled bounds l now

theorem Settled.later {later : ℚ} (h : Settled limits limiter now) (hLater : now ≤ later) :
    Settled limits limiter later := by
  intro name l hLookup
  obtain ⟨bounds, hBounds, hSettled⟩ := h name l hLookup
  exact ⟨bounds, hBounds, hSettled.later hLater⟩

theorem lookup_new (limits : List (Text × ProviderLimits)) (start : ℚ) (name : Text) :
    (new limits start).lookup name =
      (limits.lookup name).map fun bounds => ProviderLimiter.new bounds start := by
  unfold new
  induction limits with
  | nil => rfl
  | cons entry rest ih =>
    rw [List.map_cons, List.lookup_cons, List.lookup_cons]
    split
    · rfl
    · exact ih

theorem Settled.new (limits : List (Text × ProviderLimits)) (start : ℚ) :
    Settled limits (new limits start) start := by
  intro name l hLookup
  rw [lookup_new] at hLookup
  obtain ⟨bounds, hBounds, rfl⟩ := Option.map_eq_some_iff.mp hLookup
  exact ⟨bounds, hBounds, .new bounds start⟩

/-- How long a demand on a provider takes to be earned; a provider that is not there is not
waited for. -/
def earningTime (limits : List (Text × ProviderLimits)) (provider : Text) (tokens : ℚ) : ℚ :=
  (limits.lookup provider).elim 0 fun bounds => ProviderLimiter.earningTime bounds tokens

theorem earningTime_nonneg (limits : List (Text × ProviderLimits)) (provider : Text) (tokens : ℚ) :
    0 ≤ earningTime limits provider tokens := by
  unfold earningTime
  cases limits.lookup provider with
  | none => exact le_rfl
  | some bounds => exact ProviderLimiter.earningTime_nonneg bounds tokens

/-- What a reservation that fits into a double does to a limiter that owes nothing. -/
theorem Settled.reserve (h : Settled limits limiter now) (provider : Text) {tokens : ℚ}
    (hTokens : 0 ≤ tokens) (hFits : tokens < doubleOverflow) :
    (∃ e, limiter.reserve now provider tokens = (.error e, limiter)) ∨
      ∃ wait, (limiter.reserve now provider tokens).1 = .ok wait ∧ 0 ≤ wait ∧
        wait ≤ earningTime limits provider tokens ∧
        Settled limits (limiter.reserve now provider tokens).2 (now + wait) := by
  unfold RateLimiter.reserve
  cases hLookup : limiter.lookup provider with
  | none => exact .inl ⟨_, rfl⟩
  | some l =>
    obtain ⟨bounds, hBounds, hSettled⟩ := h provider l hLookup
    obtain ⟨wait, hWait, hNonneg, hLe, hAfter⟩ := hSettled.reserve hTokens hFits
    refine .inr ⟨wait, hWait, hNonneg, ?_, fun name l' hName => ?_⟩
    · rw [earningTime, hBounds]
      exact hLe
    · rw [lookup_replace] at hName
      split at hName
      · rename_i hSame
        rw [hSame, hLookup] at hName
        cases hName
        exact ⟨bounds, by rw [hSame, hBounds], hAfter⟩
      · exact h.later (le_add_of_nonneg_right hNonneg) name l' hName

end RateLimiter

/-! ### The worker's time -/

/-- The worker's monotonic clock, its limiter, and how long it has been busy with anything but
attempts, backoffs and waits for the limiter. -/
structure Throttle where
  clock : ℚ
  limiter : RateLimiter
  elsewhere : ℚ

def Throttle.start (limits : List (Text × ProviderLimits)) (start : ℚ) : Throttle :=
  ⟨start, .new limits start, 0⟩

/-- One event of the worker. `acquire` reserves at the present reading and sleeps out its wait,
everything else leaves the limiter alone. Beside its share of the attempts, backoffs and waits an
event takes any `more` time: the store and the callback's post take nothing else. -/
inductive Throttle.Lives {pyd : Pydantic} (timeout : ℚ) :
    Throttle → BusEvent pyd → ℚ → Throttle → Prop where
  | acquired {t : Throttle} {provider : Text} {tokens : ℕ} {wait more : ℚ}
      (hWait : (t.limiter.reserve t.clock provider tokens).1 = .ok wait) (hMore : 0 ≤ more) :
      Lives timeout t ⟨.acquire provider tokens, .ok ()⟩ wait
        ⟨t.clock + wait + more, (t.limiter.reserve t.clock provider tokens).2, t.elsewhere + more⟩
  | refused {t : Throttle} {provider : Text} {tokens : ℕ} {e : PyError} {more : ℚ}
      (hError : (t.limiter.reserve t.clock provider tokens).1 = .error e) (hMore : 0 ≤ more) :
      Lives timeout t ⟨.acquire provider tokens, .error e⟩ 0
        ⟨t.clock + more, (t.limiter.reserve t.clock provider tokens).2, t.elsewhere + more⟩
  | other {t : Throttle} {event : BusEvent pyd} {time more : ℚ}
      (hOther : ∀ provider tokens, event.op ≠ .acquire provider tokens)
      (hLasts : Lasts timeout event time) (hTime : 0 ≤ time) (hMore : 0 ≤ more) :
      Lives timeout t event time ⟨t.clock + time + more, t.limiter, t.elsewhere + more⟩

/-- No reservation is so large that it has no double. -/
def Fits {pyd : Pydantic} (event : BusEvent pyd) : Prop :=
  ∀ provider tokens, event.op = .acquire provider tokens → (tokens : ℚ) < doubleOverflow

theorem fits_acquire {pyd : Pydantic} {provider : Text} {n : ℕ} {reply : Except PyError Unit}
    (h : (n : ℚ) < doubleOverflow) : Fits (⟨.acquire provider n, reply⟩ : BusEvent pyd) := by
  rintro _ _ hOp
  cases hOp
  exact h

theorem fits_of_not_acquire {pyd : Pydantic} {event : BusEvent pyd}
    (h : ∀ provider tokens, event.op ≠ .acquire provider tokens) : Fits event :=
  fun provider tokens hSame => absurd hSame (h provider tokens)

/-- What a job waits for the limiter, request by request. -/
def waitLimit {pyd : Pydantic} (limits : List (Text × ProviderLimits)) : BusOp pyd → ℚ
  | .acquire provider tokens => RateLimiter.earningTime limits provider tokens
  | _ => 0

theorem waitLimit_eq_zero {pyd : Pydantic} {limits : List (Text × ProviderLimits)} {op : BusOp pyd}
    (h : ∀ provider tokens, op ≠ .acquire provider tokens) : waitLimit limits op = 0 := by
  cases op with
  | acquire provider tokens => exact absurd rfl (h provider tokens)
  | _ => rfl

section Throttle

variable {pyd : Pydantic} {limits : List (Text × ProviderLimits)} {timeout : ℚ}

def Throttle.Settled (limits : List (Text × ProviderLimits)) (t : Throttle) : Prop :=
  RateLimiter.Settled limits t.limiter t.clock

/-- The step lemma: a settled worker is settled after every event, and no event takes longer than
its request can. -/
theorem Throttle.Lives.settled {t next : Throttle} {event : BusEvent pyd} {time : ℚ}
    (h : Throttle.Lives timeout t event time next) (hFits : Fits event)
    (hSettled : t.Settled limits) :
    time ≤ longest timeout event.op + waitLimit limits event.op ∧ next.Settled limits := by
  cases h with
  | @acquired provider tokens _ more hWait hMore =>
    cases hSettled.reserve provider (Nat.cast_nonneg tokens) (hFits provider tokens rfl) with
    | inl hRefused =>
      obtain ⟨e, hError⟩ := hRefused
      rw [hError] at hWait
      cases hWait
    | inr hReserved =>
      obtain ⟨wait, hWait', _, hLe, hAfter⟩ := hReserved
      obtain rfl : time = wait := Except.ok.inj (hWait.symm.trans hWait')
      refine ⟨?_, hAfter.later (le_add_of_nonneg_right hMore)⟩
      exact hLe.trans_eq (zero_add _).symm
  | @refused provider tokens e more hError hMore =>
    refine ⟨?_, ?_⟩
    · exact add_nonneg le_rfl (RateLimiter.earningTime_nonneg limits provider tokens)
    · cases hSettled.reserve provider (Nat.cast_nonneg tokens) (hFits provider tokens rfl) with
      | inl hRefused =>
        obtain ⟨e', hSame⟩ := hRefused
        rw [Throttle.Settled, hSame]
        exact hSettled.later (le_add_of_nonneg_right hMore)
      | inr hReserved =>
        obtain ⟨wait, hWait, _⟩ := hReserved
        rw [hError] at hWait
        cases hWait
  | @other _ _ more hOther hLasts hTime hMore =>
    refine ⟨?_, hSettled.later (by simp only; linarith)⟩
    rw [waitLimit_eq_zero hOther, add_zero]
    exact hLasts.le_longest

/-- The clock shows the attempts, backoffs and waits, and the rest. -/
theorem Throttle.Lives.clock_eq {t next : Throttle} {event : BusEvent pyd} {time : ℚ}
    (h : Throttle.Lives timeout t event time next) :
    next.clock - next.elsewhere = t.clock - t.elsewhere + time := by
  cases h with
  | acquired hWait hMore => ring
  | refused hError hMore => ring
  | other hOther hLasts hTime hMore => ring

end Throttle

/-! ### One job -/

section Job

variable {pyd : Pydantic} (py : Interpreter) {deps : WorkerDeps} (job : Job)
  (limits : List (Text × ProviderLimits)) {timeout base cap : ℚ}

theorem within_afterCall_waits (provider : Provider) (attempt : ℕ) {again : Option (Bus pyd Result)}
    {rest : ℚ} (hRest : 0 ≤ rest)
    (hAgain : ∀ next, again = some next → Within (waitLimit limits) rest next)
    (outcome : Except ProviderError ProviderResult) :
    Within (waitLimit limits) rest
      (afterCall py exactPower deps job provider attempt again outcome) := by
  cases outcome with
  | ok call =>
    rw [afterCall_ok]
    exact within_ofExcept_bind hRest fun _ _ => hRest
  | error exc =>
    by_cases hRetry : isRetryable exc = true ∧ again.isSome = true
    · obtain ⟨hRetryable, hSome⟩ := hRetry
      obtain ⟨next, rfl⟩ := Option.isSome_iff_exists.mp hSome
      have hFree : ∀ op : BusOp pyd, waitLimit limits op = 0 → rest - waitLimit limits op = rest :=
        fun op hZero => by rw [hZero, sub_zero]
      rw [afterCall_retry _ _ _ _ _ _ _ hRetryable]
      intro draw
      rw [hFree .rand rfl]
      refine within_ofExcept_bind hRest fun delay _ slept => ?_
      rw [hFree (.sleep delay) rfl]
      exact within_ofExcept_bind hRest fun _ _ => hAgain next rfl
    · rw [afterCall_final _ _ _ _ _ _ hRetry]
      exact hRest

theorem within_runAttempt_waits (provider : Provider) (estimate attempt : ℕ)
    {again : Option (Bus pyd Result)} {rest : ℚ} (hRest : 0 ≤ rest)
    (hAgain : ∀ next, again = some next → Within (waitLimit limits) rest next) :
    Within (waitLimit limits) (RateLimiter.earningTime limits provider.name estimate + rest)
      (runAttempt py exactPower deps job provider estimate attempt again) := by
  have hWait := RateLimiter.earningTime_nonneg limits provider.name estimate
  have hAll : 0 ≤ RateLimiter.earningTime limits provider.name estimate + rest :=
    add_nonneg hWait hRest
  have hNow : ∀ t, t - waitLimit limits (.now : BusOp pyd) = t := sub_zero
  have hTaken : RateLimiter.earningTime limits provider.name estimate + rest -
      waitLimit limits (.acquire provider.name estimate : BusOp pyd) = rest :=
    add_sub_cancel_left _ _
  rw [runAttempt_eq]
  intro before
  rw [hNow]
  refine within_ofExcept_bind hAll fun expired _ => ?_
  split
  · exact hAll
  intro reserved
  rw [hTaken]
  refine within_ofExcept_bind hRest fun _ _ after => ?_
  rw [hNow]
  refine within_ofExcept_bind hRest fun expired _ => ?_
  split
  · exact hRest
  have hAfter := @within_afterCall_waits _ py deps job limits provider attempt again _ hRest hAgain
  unfold callProvider
  split
  · exact hAfter _
  · intro outcome
    change Within (waitLimit limits) (rest - 0) (afterCall py exactPower deps job provider attempt again outcome)
    rw [sub_zero]
    exact hAfter outcome

theorem within_callLoop_waits (provider : Provider) (estimate retries attempt : ℕ) :
    Within (waitLimit limits) ((retries + 1) * RateLimiter.earningTime limits provider.name estimate)
      (callLoop py exactPower deps job provider estimate retries attempt : Bus pyd Result) := by
  have hWait := RateLimiter.earningTime_nonneg limits provider.name estimate
  induction retries generalizing attempt with
  | zero =>
    have hLast : Within (waitLimit limits) (RateLimiter.earningTime limits provider.name estimate + 0)
        (runAttempt py exactPower deps job provider estimate attempt none : Bus pyd Result) :=
      within_runAttempt_waits py job limits provider estimate attempt le_rfl fun next hNone => by
        cases hNone
    rwa [add_zero, ← one_mul (RateLimiter.earningTime _ _ _), ← zero_add (1 : ℚ), ← Nat.cast_zero]
      at hLast
  | succ retries ih =>
    have hTail : 0 ≤ ((retries : ℚ) + 1) * RateLimiter.earningTime limits provider.name estimate := by
      positivity
    have hMore : ((retries + 1 : ℕ) + 1 : ℚ) * RateLimiter.earningTime limits provider.name estimate =
        RateLimiter.earningTime limits provider.name estimate +
          (retries + 1) * RateLimiter.earningTime limits provider.name estimate := by
      push_cast
      ring
    rw [hMore]
    apply within_runAttempt_waits py job limits provider estimate attempt hTail
    rintro next hNext
    cases hNext
    exact ih (attempt + 1)

theorem within_finalizeAndNotify {limit : BusOp pyd → ℚ} (hFree : ∀ op, ¬ ProviderSide op → limit op = 0)
    (result : Result) : Within limit 0 (finalizeAndNotify job result : Bus pyd Result) := by
  have hStay : ∀ op : BusOp pyd, ¬ ProviderSide op → (0 : ℚ) - limit op = 0 :=
    fun op hOp => by rw [hFree op hOp, sub_zero]
  rw [finalizeAndNotify_eq]
  intro completedAt
  rw [hStay .storeClock id]
  intro reply
  rw [hStay (.finalize result completedAt) id]
  refine within_ofExcept_bind le_rfl fun finalized _ => ?_
  split
  · rename_i url _ _
    intro sent
    rw [hStay (.deliverCallback url result) id]
    exact le_rfl
  · exact le_rfl

variable {model name : Text}

theorem within_processJob (hExact : deps.policy.Exact timeout base cap)
    (hModel : job.model = some model) (hRoute : providerFor model = .ok name) :
    Within (fun op => longest timeout op + waitLimit limits op)
      (loopTime timeout (ceiling base cap) (deps.policy.retry.maxAttempts - 1) 0 +
        deps.policy.retry.maxAttempts *
          RateLimiter.earningTime limits name (estimateTokens job deps.policy.defaultOutputTokens))
      (processJob py exactPower deps job : Bus pyd Result) := by
  obtain ⟨hTimeout, hBase, hLe⟩ := hExact.pos
  have hLoop := loopTime_nonneg hTimeout hBase hLe (deps.policy.retry.maxAttempts - 1) 0
  have hWait := RateLimiter.earningTime_nonneg limits name
    (estimateTokens job deps.policy.defaultOutputTokens)
  have hNotify : ∀ result, Within (fun op => longest timeout op + waitLimit limits op) 0
      (finalizeAndNotify job result : Bus pyd Result) := by
    refine within_finalizeAndNotify job fun op hOp => ?_
    cases op with
    | acquire _ _ => exact absurd trivial hOp
    | call _ _ _ _ _ => exact absurd trivial hOp
    | sleep _ => exact absurd trivial hOp
    | _ => exact add_zero 0
  rw [processJob, Program.bind_eq, jobResult_eq_runRouted py exactPower deps job hModel hRoute, runRouted,
    ← add_zero (loopTime _ _ _ _ + _)]
  refine Within.bind ?_ le_rfl hNotify
  split
  · exact add_nonneg hLoop (mul_nonneg (Nat.cast_nonneg _) hWait)
  · rename_i provider hAdapter
    have hPositive := deps.policy.retry.maxAttempts_pos
    have hCount : ((deps.policy.retry.maxAttempts - 1 : ℕ) : ℚ) + 1 = deps.policy.retry.maxAttempts := by
      rw [← Nat.cast_succ]
      congr 1
      omega
    have hWaits := @within_callLoop_waits pyd py deps job limits provider
      (estimateTokens job deps.policy.defaultOutputTokens) (deps.policy.retry.maxAttempts - 1) 0
    rw [hCount, WorkerDeps.name_of_adapter hAdapter] at hWaits
    exact (within_callLoop py job hExact provider _ _ 0).add hWaits

end Job

/-- In exact arithmetic a worker that takes one job after the other is busy with each no longer than
the published budget, for each attempt what the job's own demand takes to be earned, and the time it
spends elsewhere: on the store, on the callback and on itself. Whatever it has done before, as long
as no reservation overflows. -/
theorem serial_delivery_bounded (pyd : Pydantic) (py : Interpreter) (deps : WorkerDeps)
    (limits : List (Text × ProviderLimits)) {timeout base cap : ℚ}
    (hExact : deps.policy.Exact timeout base cap) {start past spent : ℚ} {before after : Throttle}
    {history trace : List (BusEvent pyd)}
    (hHistory : Passes (Throttle.Lives timeout) (.start limits start) history past before)
    (hFits : ∀ event ∈ history ++ trace, Fits event) {job : Job} {model name : Text}
    (hModel : job.model = some model) (hRoute : providerFor model = .ok name)
    {outcome : Except PyError Result}
    (hYields : Yields (processJob py exactPower deps job) trace outcome)
    (hSpent : Passes (Throttle.Lives timeout) before trace spent after) :
    ∃ budget, retryBudgetSeconds exactPower deps.policy = .ok (.finite budget) ∧
      after.clock - before.clock ≤ budget + deps.policy.retry.maxAttempts *
        RateLimiter.earningTime limits name (estimateTokens job deps.policy.defaultOutputTokens) +
          (after.elsewhere - before.elsewhere) := by
  refine ⟨_, retryBudgetSeconds_exact hExact, ?_⟩
  have hStart : (Throttle.start limits start).Settled limits := RateLimiter.Settled.new limits start
  have hBefore : before.Settled limits :=
    hHistory.preserves (fun hStep hEvent hSettled => (hStep.settled hEvent hSettled).2)
      (fun event hMem => hFits event (List.mem_append_left _ hMem)) hStart
  have hTakes : Takes (fun event time => time ≤ longest timeout event.op + waitLimit limits event.op)
      trace spent :=
    hSpent.takes (fun hStep hEvent hSettled => hStep.settled hEvent hSettled)
      (fun event hMem => hFits event (List.mem_append_right _ hMem)) hBefore
  have hTotal := (within_processJob py job limits hExact hModel hRoute).total_le
    (fun _ _ hLasts => hLasts) hYields hTakes
  have hClock : after.clock - after.elsewhere = before.clock - before.elsewhere + spent :=
    @Passes.reading_eq _ _ _ _ _ _ _ _ _ (fun t : Throttle => t.clock - t.elsewhere)
      (fun hStep => hStep.clock_eq) hSpent
  linarith

/-! ### After a drained bucket -/

/-- Two minutes' worth of tokens are waited out for a minute. -/
def drained : Throttle :=
  ⟨0 + 60 + 0, ((RateLimiter.new openaiOnly 0).reserve 0 openai (120 : ℕ)).2, 0 + 0⟩

theorem passes_drained :
    Passes (Throttle.Lives 30) (.start openaiOnly 0)
      ([⟨.acquire openai 120, .ok ()⟩] : List (BusEvent .tree)) (60 + 0) drained :=
  .cons (.acquired (by decide +kernel) le_rfl) (.nil _)

def badRequest : ProviderError :=
  ⟨txt "BadRequestError", false, some 400, []⟩

/-- One call that fails for good at its timeout, and a store that gives up. -/
def failedTrace : List (BusEvent .tree) :=
  callEvents plainDeps plainJob (txt "gpt-5") ⟨openai⟩ 257 (.startOf newYear2026)
      (.startOf newYear2026) (.error badRequest) ++
    [⟨.storeClock, .startOf newYear2026⟩,
      ⟨.finalize (resultError plainJob (some openai) (describe badRequest)) (.startOf newYear2026),
        .error (overflow "")⟩]

theorem yields_failedTrace :
    Yields (processJob .ascii exactPower plainDeps plainJob) failedTrace (.error (overflow "")) := by
  have hJob : Yields (jobResult .ascii exactPower plainDeps plainJob : Bus .tree Result)
      (callEvents plainDeps plainJob (txt "gpt-5") ⟨openai⟩ 257 (.startOf newYear2026)
        (.startOf newYear2026) (.error badRequest))
      (.ok (resultError plainJob (some openai) (describe badRequest))) := by
    have hModel : plainJob.model = some (txt "gpt-5") := rfl
    have hRoute : providerFor (txt "gpt-5") = .ok openai := by decide
    rw [jobResult_eq_runRouted _ _ _ _ hModel hRoute]
    change Yields (runAttempt .ascii exactPower plainDeps plainJob ⟨openai⟩ 257 0 _) _ _
    have hFinal : ∀ again : Option (Bus .tree Result),
        Yields (afterCall .ascii exactPower plainDeps plainJob ⟨openai⟩ 0 again (.error badRequest)) []
          (.ok (resultError plainJob (some openai) (describe badRequest))) := by
      intro again
      rw [afterCall_final]
      · exact .ret _
      · rintro ⟨hRetryable, _⟩
        cases hRetryable
    exact yields_runAttempt .ascii rfl rfl _ (hFinal _)
  refine yields_bind_iff.mpr (.inr ⟨_, _, _, hJob, ?_, rfl⟩)
  rw [finalizeAndNotify_eq]
  exact .ask _ _ _ (.ask _ _ _ (.fail _))

theorem exists_passes_failedTrace :
    ∃ spent after, Passes (Throttle.Lives 30) drained failedTrace spent after ∧
      after.elsewhere = 5 := by
  have hFree : ∀ (event : BusEvent .tree) (t : Throttle) (more : ℚ), 0 ≤ more → Lasts 30 event 0 →
      (∀ provider tokens, event.op ≠ .acquire provider tokens) →
      Throttle.Lives 30 t event 0 ⟨t.clock + 0 + more, t.limiter, t.elsewhere + more⟩ :=
    fun event t more hMore hLasts hOther => .other hOther hLasts le_rfl hMore
  have hWait : (drained.limiter.reserve (drained.clock + 0 + 0) openai (257 : ℕ)).1 = .ok 257 := by
    decide +kernel
  refine ⟨_, _, .cons (hFree _ _ 0 le_rfl rfl fun _ _ h => ?_) <| .cons (.acquired hWait le_rfl) <|
    .cons (hFree _ _ 0 le_rfl rfl fun _ _ h => ?_) <|
    .cons (.other (fun _ _ h => ?_) ⟨?_, le_rfl⟩ ?_ le_rfl) <|
    .cons (hFree _ _ 0 le_rfl rfl fun _ _ h => ?_) <|
    .cons (hFree _ _ 5 (by norm_num) rfl fun _ _ h => ?_) <| .nil _, ?_⟩
  · cases h
  · cases h
  · cases h
  · norm_num
  · norm_num
  · cases h
  · cases h
  · simp only [drained]
    norm_num

theorem fits_failedTrace :
    ∀ event ∈ ([⟨.acquire openai 120, .ok ()⟩] ++ failedTrace : List (BusEvent .tree)), Fits event := by
  simp only [failedTrace, callEvents, List.cons_append, List.nil_append, List.forall_mem_cons]
  refine ⟨fits_acquire ?_, fits_of_not_acquire fun _ _ h => ?_, fits_acquire ?_,
    fits_of_not_acquire fun _ _ h => ?_, fits_of_not_acquire fun _ _ h => ?_,
    fits_of_not_acquire fun _ _ h => ?_, fits_of_not_acquire fun _ _ h => ?_, ?_⟩
  · decide +kernel
  · cases h
  · decide +kernel
  · cases h
  · cases h
  · cases h
  · cases h
  · exact fun _ h => absurd h List.not_mem_nil

theorem serial_delivery_bounded_drained :
    ∃ spent after budget, Passes (Throttle.Lives 30) drained failedTrace spent after ∧
      retryBudgetSeconds exactPower plainPolicy = .ok (.finite budget) ∧ after.elsewhere = 5 ∧
      after.clock - drained.clock ≤
        budget + (3 : ℕ) * RateLimiter.earningTime openaiOnly openai (257 : ℕ) +
          (after.elsewhere - drained.elsewhere) := by
  obtain ⟨spent, after, hSpent, hElsewhere⟩ := exists_passes_failedTrace
  have hRoute : providerFor (txt "gpt-5") = .ok openai := by decide
  obtain ⟨budget, hBudget, hBound⟩ := serial_delivery_bounded .tree .ascii plainDeps openaiOnly
    ⟨rfl, rfl, rfl⟩ passes_drained fits_failedTrace rfl hRoute yields_failedTrace hSpent
  exact ⟨spent, after, budget, hSpent, hBudget, hElsewhere, hBound⟩

end LlmBus
