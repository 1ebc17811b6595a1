import LlmBus.Processing
import LlmBus.RoundTrip

/-! # The trace of the retry loop

What the loop asks for, in order, whatever it is answered: attempts that read the clock,
reserve, read the clock again and call once, with one pause after each failed call but
the last, and nothing spent after a reading past the deadline.
-/

namespace LlmBus

open Foundation Interaction

abbrev BusEvent (pyd : Pydantic) := Event (busInterface pyd)

/-- A failed call and the pause that followed it. -/
structure RetriedAttempt where
  before : DateTime
  after : DateTime
  failure : ProviderError
  draw : Draw
  delay : Double

inductive LastAttempt where
  /-- Expired at the first reading. -/
  | refused (before : DateTime)
  /-- Expired at the reading after the reservation. -/
  | abandoned (before after : DateTime)
  | returned (before after : DateTime) (call : ProviderResult)
  | failed (before after : DateTime) (failure : ProviderError)

def readingOf {pyd : Pydantic} : BusEvent pyd → Option DateTime
  | ⟨.now, reading⟩ => some reading
  | _ => none

def spends {pyd : Pydantic} : BusEvent pyd → Bool
  | ⟨.acquire .., _⟩ => true
  | ⟨.call .., _⟩ => true
  | _ => false

/-- The reading comes before `submitted_at + ttl_s`, in exact terms. -/
def BeforeDeadline (job : Job) (reading : DateTime) : Prop :=
  ∀ ttl, job.ttlS = some ttl →
    (reading.instant : ℚ) < job.submittedAt.instant + ttl.seconds * 1000000

theorem beforeDeadline_of_isExpired {job : Job} {reading : DateTime}
    (h : isExpired job reading = .ok false) : BeforeDeadline job reading := by
  intro ttl hTtl
  rw [isExpired, hTtl] at h
  simp only [deadline, DateTime.plus] at h
  split at h
  · cases h
  · rename_i instant hInstant
    split at hInstant
    · cases hInstant
      have hAfter : ¬ job.submittedAt.instant + timedeltaSeconds ttl.seconds ≤ reading.instant := by
        simpa using h
      by_contra hReached
      have hExact : ttl.seconds * 1000000 ≤ (reading.instant - job.submittedAt.instant : ℤ) := by
        push_cast
        linarith
      have hRounded : timedeltaSeconds ttl.seconds ≤ reading.instant - job.submittedAt.instant :=
        roundHalfEven_le hExact
      omega
    · cases hInstant

section Shape

variable {pyd : Pydantic} (py : Interpreter) (deps : WorkerDeps) (job : Job) (model : Text)
  (provider : Provider) (estimate : Nat)

def callEvents (before after : DateTime) (outcome : Except ProviderError ProviderResult) :
    List (BusEvent pyd) :=
  [⟨.now, before⟩, ⟨.acquire provider.name estimate, .ok ()⟩, ⟨.now, after⟩,
    ⟨.call provider.name model job.messages job.params deps.policy.jobTimeoutS, outcome⟩]

def RetriedAttempt.events (a : RetriedAttempt) : List (BusEvent pyd) :=
  callEvents deps job model provider estimate a.before a.after (.error a.failure) ++
    [⟨.rand, a.draw⟩, ⟨.sleep a.delay, .ok ()⟩]

def LastAttempt.events : LastAttempt → List (BusEvent pyd)
  | .refused before => [⟨.now, before⟩]
  | .abandoned before after =>
    [⟨.now, before⟩, ⟨.acquire provider.name estimate, .ok ()⟩, ⟨.now, after⟩]
  | .returned before after call =>
    callEvents deps job model provider estimate before after (.ok call)
  | .failed before after failure =>
    callEvents deps job model provider estimate before after (.error failure)

structure Retried (i : Nat) (a : RetriedAttempt) : Prop where
  before : BeforeDeadline job a.before
  after : BeforeDeadline job a.after
  retryable : isRetryable a.failure = true
  left : i + 1 < deps.policy.retry.maxAttempts
  delay : backoffDelay exactPower i deps.policy.retry a.draw.value = .ok a.delay

def LastAttempt.Concludes (k : Nat) (result : Result) : LastAttempt → Prop
  | .refused before =>
    isExpired job before = .ok true ∧ result = expiredResult py job provider.name k
  | .abandoned before after =>
    BeforeDeadline job before ∧ isExpired job after = .ok true ∧
      result = expiredResult py job provider.name k
  | .returned before after call =>
    BeforeDeadline job before ∧ BeforeDeadline job after ∧
      ∃ cost, price py job call = .ok cost ∧ result = resultOk job provider.name call cost
  | .failed before after failure =>
    BeforeDeadline job before ∧ BeforeDeadline job after ∧
      ¬ (isRetryable failure = true ∧ k + 1 < deps.policy.retry.maxAttempts) ∧
      result = resultError job (some provider.name) (describe failure)

/-- The deadline sum, the limiter, the pricing and the sleep do not raise in this run. -/
structure NothingRaises (trace : List (BusEvent pyd)) : Prop where
  deadline : ∀ ttl, job.ttlS = some ttl → (deadline job ttl).isSome = true
  acquire : ∀ name tokens e, ⟨.acquire name tokens, (.error e : Except PyError Unit)⟩ ∉ trace
  pricing : ∀ name model messages params timeoutS call,
    ⟨.call name model messages params timeoutS, (.ok call : Except ProviderError ProviderResult)⟩ ∈
      trace → ∃ cost, price py job call = .ok cost
  sleep : ∀ delay e, ⟨.sleep delay, (.error e : Except PyError Unit)⟩ ∉ trace

end Shape

section Trace

variable {pyd : Pydantic} {py : Interpreter} {deps : WorkerDeps} {job : Job} {model : Text}
  {provider : Provider} {estimate attempt : Nat} {trace rest : List (BusEvent pyd)}

theorem NothingRaises.of_subset (h : NothingRaises py job trace) (hRest : rest ⊆ trace) :
    NothingRaises py job rest where
  deadline := h.deadline
  acquire name tokens e hMem := h.acquire name tokens e (hRest hMem)
  pricing name model messages params timeoutS call hMem :=
    h.pricing name model messages params timeoutS call (hRest hMem)
  sleep delay e hMem := h.sleep delay e (hRest hMem)

/-- What follows a call: its price, its failure as the answer, or one pause and the next
attempt. -/
theorem afterCall_trace {again : Option (Bus pyd Result)}
    (hAgain : again.isSome = true ↔ attempt + 1 < deps.policy.retry.maxAttempts)
    {called : Except ProviderError ProviderResult} {outcome : Except PyError Result}
    (hPricing : ∀ call, called = .ok call → ∃ cost, price py job call = .ok cost)
    (h : Yields (afterCall py exactPower deps job provider attempt again called) trace outcome)
    (hSleep : ∀ delay e, ⟨.sleep delay, (.error e : Except PyError Unit)⟩ ∉ trace) :
    (∃ call cost, called = .ok call ∧ price py job call = .ok cost ∧ trace = [] ∧
        outcome = .ok (resultOk job provider.name call cost)) ∨
      (∃ failure, called = .error failure ∧
        ¬ (isRetryable failure = true ∧ attempt + 1 < deps.policy.retry.maxAttempts) ∧
        trace = [] ∧ outcome = .ok (resultError job (some provider.name) (describe failure))) ∨
      (∃ failure draw delay next rest, called = .error failure ∧ again = some next ∧
        isRetryable failure = true ∧ attempt + 1 < deps.policy.retry.maxAttempts ∧
        backoffDelay exactPower attempt deps.policy.retry draw.value = .ok delay ∧
        trace = ⟨.rand, draw⟩ :: ⟨.sleep delay, .ok ()⟩ :: rest ∧ Yields next rest outcome) := by
  cases called with
  | ok call =>
    obtain ⟨cost, hCost⟩ := hPricing call rfl
    rw [afterCall_ok, hCost, Program.ofExcept_ok, Program.ret_bind] at h
    obtain ⟨rfl, rfl⟩ := yields_ret_iff.mp h
    exact .inl ⟨call, cost, rfl, hCost, rfl, rfl⟩
  | error failure =>
    by_cases hRetry : isRetryable failure = true ∧ again.isSome = true
    · obtain ⟨hRetryable, hSome⟩ := hRetry
      obtain ⟨next, rfl⟩ := Option.isSome_iff_exists.mp hSome
      rw [afterCall_retry _ _ _ _ _ _ _ hRetryable, yields_ask_iff] at h
      obtain ⟨draw, trace, rfl, h⟩ := h
      obtain ⟨delay, hDelay⟩ := exists_backoffDelay_exactPower attempt deps.policy.retry draw.value
      rw [hDelay, Program.ofExcept_ok, Program.ret_bind, yields_ask_iff] at h
      obtain ⟨slept, trace, rfl, h⟩ := h
      cases slept with
      | error e =>
        exact absurd (by simp) (hSleep delay e)
      | ok u =>
        exact .inr (.inr ⟨failure, draw, delay, next, trace, rfl, rfl, hRetryable,
          hAgain.mp hSome, hDelay, rfl, h⟩)
    · rw [afterCall_final _ _ _ _ _ _ hRetry] at h
      obtain ⟨rfl, rfl⟩ := yields_ret_iff.mp h
      rw [hAgain] at hRetry
      exact .inr (.inl ⟨failure, rfl, hRetry, rfl, rfl⟩)

/-- One turn of the loop either ends it or pauses and goes on. -/
theorem runAttempt_trace (hModel : job.model = some model) {again : Option (Bus pyd Result)}
    (hAgain : again.isSome = true ↔ attempt + 1 < deps.policy.retry.maxAttempts)
    {outcome : Except PyError Result}
    (h : Yields (runAttempt py exactPower deps job provider estimate attempt again) trace outcome)
    (hCalm : NothingRaises py job trace) :
    (∃ last result, outcome = .ok result ∧
        trace = LastAttempt.events deps job model provider estimate last ∧
        last.Concludes py deps job provider attempt result) ∨
      (∃ a next rest, again = some next ∧ Retried deps job attempt a ∧
        trace = a.events deps job model provider estimate ++ rest ∧ Yields next rest outcome) := by
  rw [runAttempt_eq, yields_ask_iff] at h
  obtain ⟨before, trace, rfl, h⟩ := h
  obtain ⟨expired, hBefore⟩ := exists_isExpired hCalm.deadline before
  rw [hBefore, Program.ofExcept_ok, Program.ret_bind] at h
  cases expired with
  | true =>
    obtain ⟨rfl, rfl⟩ := yields_ret_iff.mp h
    exact .inl ⟨.refused before, _, rfl, rfl, hBefore, rfl⟩
  | false =>
    rw [if_neg Bool.false_ne_true, yields_ask_iff] at h
    obtain ⟨reserved, trace, rfl, h⟩ := h
    have hLiveBefore := beforeDeadline_of_isExpired hBefore
    cases reserved with
    | error e =>
      exact absurd (List.mem_cons_of_mem _ List.mem_cons_self)
        (hCalm.acquire provider.name estimate e)
    | ok u =>
      rw [Program.ofExcept_ok, Program.ret_bind, yields_ask_iff] at h
      obtain ⟨after, trace, rfl, h⟩ := h
      obtain ⟨expired, hAfter⟩ := exists_isExpired hCalm.deadline after
      rw [hAfter, Program.ofExcept_ok, Program.ret_bind] at h
      cases expired with
      | true =>
        obtain ⟨rfl, rfl⟩ := yields_ret_iff.mp h
        exact .inl ⟨.abandoned before after, _, rfl, rfl, hLiveBefore, hAfter, rfl⟩
      | false =>
        have hLiveAfter := beforeDeadline_of_isExpired hAfter
        rw [if_neg Bool.false_ne_true, callProvider_eq deps job hModel, Program.ask_bind,
          yields_ask_iff] at h
        obtain ⟨called, trace, rfl, h⟩ := h
        rw [Program.ret_bind] at h
        rcases afterCall_trace hAgain (fun call hCall => hCalm.pricing provider.name model
            job.messages job.params deps.policy.jobTimeoutS call (by simp [hCall]))
            h (fun delay e hMem => hCalm.sleep delay e (by simp [hMem])) with
          ⟨call, cost, rfl, hCost, rfl, rfl⟩ | ⟨failure, rfl, hFinal, rfl, rfl⟩ |
          ⟨failure, draw, delay, next, rest, rfl, rfl, hRetryable, hLeft, hDelay, rfl, hRest⟩
        · exact .inl ⟨.returned before after call, _, rfl, rfl, hLiveBefore, hLiveAfter, cost,
            hCost, rfl⟩
        · exact .inl ⟨.failed before after failure, _, rfl, rfl, hLiveBefore, hLiveAfter, hFinal,
            rfl⟩
        · exact .inr ⟨⟨before, after, failure, draw, delay⟩, next, rest, rfl,
            ⟨hLiveBefore, hLiveAfter, hRetryable, hLeft, hDelay⟩, rfl, hRest⟩

theorem callLoop_trace (hModel : job.model = some model) {retries : Nat}
    (hRetries : attempt + retries + 1 = deps.policy.retry.maxAttempts)
    {outcome : Except PyError Result}
    (h : Yields (callLoop py exactPower deps job provider estimate retries attempt) trace outcome)
    (hCalm : NothingRaises py job trace) :
    ∃ (retried : List RetriedAttempt) (last : LastAttempt) (result : Result),
      outcome = .ok result ∧
      trace = retried.flatMap (RetriedAttempt.events deps job model provider estimate) ++
        last.events deps job model provider estimate ∧
      retried.length ≤ retries ∧
      (∀ i a, retried[i]? = some a → Retried deps job (attempt + i) a) ∧
      last.Concludes py deps job provider (attempt + retried.length) result := by
  induction retries generalizing attempt trace with
  | zero =>
    have hNoneLeft : ¬ attempt + 1 < deps.policy.retry.maxAttempts := by omega
    have hNone : ¬ (none : Option (Bus pyd Result)).isSome = true := Bool.false_ne_true
    rcases runAttempt_trace hModel (iff_of_false hNone hNoneLeft) h hCalm with
      ⟨last, result, hOutcome, hTrace, hLast⟩ | ⟨a, next, rest, hNext, _⟩
    · exact ⟨[], last, result, hOutcome, hTrace, Nat.le_refl _, fun i a hA => by simp at hA, hLast⟩
    · cases hNext
  | succ retries ih =>
    have hLeft : attempt + 1 < deps.policy.retry.maxAttempts := by omega
    rcases runAttempt_trace hModel (iff_of_true rfl hLeft) h hCalm with
      ⟨last, result, hOutcome, hTrace, hLast⟩ | ⟨a, next, rest, hNext, hRetried, rfl, hRest⟩
    · exact ⟨[], last, result, hOutcome, hTrace, Nat.zero_le _, fun i a hA => by simp at hA, hLast⟩
    · cases hNext
      obtain ⟨retried, last, result, hOutcome, rfl, hLength, hAll, hLast⟩ :=
        ih (by omega) hRest (hCalm.of_subset (List.subset_append_right _ _))
      refine ⟨a :: retried, last, result, hOutcome, ?_, ?_, ?_, ?_⟩
      · rw [List.flatMap_cons, List.append_assoc]
      · rw [List.length_cons]
        omega
      · intro i b hB
        cases i with
        | zero =>
          cases hB
          exact hRetried
        | succ i =>
          rw [List.getElem?_cons_succ] at hB
          rw [Nat.add_comm i 1, ← Nat.add_assoc]
          exact hAll i b hB
      · rw [List.length_cons, Nat.add_comm retried.length 1, ← Nat.add_assoc]
        exact hLast

theorem Retried.reading {i : Nat} {a : RetriedAttempt} (h : Retried deps job i a)
    {event : BusEvent pyd} (hEvent : event ∈ a.events deps job model provider estimate)
    {reading : DateTime} (hReading : readingOf event = some reading) : BeforeDeadline job reading := by
  simp only [RetriedAttempt.events, callEvents, List.cons_append, List.nil_append, List.mem_cons,
    List.not_mem_nil, or_false] at hEvent
  rcases hEvent with rfl | rfl | rfl | rfl | rfl | rfl
  · cases hReading
    exact h.before
  · cases hReading
  · cases hReading
    exact h.after
  · cases hReading
  · cases hReading
  · cases hReading

theorem LastAttempt.Concludes.reading {k : Nat} {result : Result} {last : LastAttempt}
    (h : last.Concludes py deps job provider k result) {pre post : List (BusEvent pyd)}
    {event spent : BusEvent pyd} (hSpent : spends spent = true)
    (hEvents : last.events deps job model provider estimate = pre ++ spent :: post)
    (hEvent : event ∈ pre) {reading : DateTime} (hReading : readingOf event = some reading) :
    BeforeDeadline job reading := by
  have hOf : ∀ before after outcome, BeforeDeadline job before → BeforeDeadline job after →
      callEvents deps job model provider estimate before after outcome = pre ++ spent :: post →
      BeforeDeadline job reading := by
    intro before after outcome hBefore hAfter hCall
    have hMem : event ∈ callEvents deps job model provider estimate before after outcome := by
      rw [hCall]
      exact List.mem_append_left _ hEvent
    simp only [callEvents, List.mem_cons, List.not_mem_nil, or_false] at hMem
    rcases hMem with rfl | rfl | rfl | rfl
    · cases hReading
      exact hBefore
    · cases hReading
    · cases hReading
      exact hAfter
    · cases hReading
  cases last with
  | refused before =>
    obtain ⟨rfl, _, _⟩ | ⟨rest, _, hRest⟩ := List.cons_eq_append_iff.mp hEvents
    · cases hEvent
    · simp at hRest
  | abandoned before after =>
    obtain ⟨rfl, _⟩ | ⟨first, rfl, hFirst⟩ := List.cons_eq_append_iff.mp hEvents
    · cases hEvent
    · obtain ⟨rfl, _⟩ | ⟨second, rfl, hSecond⟩ := List.cons_eq_append_iff.mp hFirst
      · obtain rfl := List.mem_singleton.mp hEvent
        cases hReading
        exact h.1
      · obtain ⟨rfl, hNow⟩ | ⟨third, _, hThird⟩ := List.cons_eq_append_iff.mp hSecond
        · cases hNow
          cases hSpent
        · simp at hThird
  | returned before after call => exact hOf _ _ _ h.1 h.2.1 hEvents
  | failed before after failure => exact hOf _ _ _ h.1 h.2.1 hEvents

/-- Where nothing raises, the loop is a series of numbered attempts: all but the last call
once, fail in a way worth a retry and pause once; the result is the last one's. Nothing is
spent after a reading at or past the deadline. -/
theorem callWithRetry_trace (hModel : job.model = some model) {outcome : Except PyError Result}
    (h : Yields (callWithRetry py exactPower deps job provider estimate) trace outcome)
    (hCalm : NothingRaises py job trace) :
    ∃ (retried : List RetriedAttempt) (last : LastAttempt) (result : Result),
      outcome = .ok result ∧
      trace = retried.flatMap (RetriedAttempt.events deps job model provider estimate) ++
        last.events deps job model provider estimate ∧
      retried.length < deps.policy.retry.maxAttempts ∧
      (∀ i a, retried[i]? = some a → Retried deps job i a) ∧
      last.Concludes py deps job provider retried.length result ∧
      (result.status = .ok ↔ ∃ before after call, last = .returned before after call) ∧
      ∀ pre spent post, trace = pre ++ spent :: post → spends spent = true →
        ∀ event ∈ pre, ∀ reading, readingOf event = some reading → BeforeDeadline job reading := by
  have hPositive := deps.policy.retry.maxAttempts_pos
  obtain ⟨retried, last, result, hOutcome, hTrace, hLength, hRetried, hLast⟩ :=
    callLoop_trace hModel (by omega) h hCalm
  simp only [Nat.zero_add] at hRetried hLast
  refine ⟨retried, last, result, hOutcome, hTrace, by omega, hRetried, hLast, ?_, ?_⟩
  · cases last with
    | refused before => simp [hLast.2, expiredResult, resultError]
    | abandoned before after => simp [hLast.2.2, expiredResult, resultError]
    | returned before after call =>
      obtain ⟨cost, _, rfl⟩ := hLast.2.2
      simp [resultOk]
    | failed before after failure => simp [hLast.2.2.2, resultError]
  · intro pre spent post hSplit hSpent event hEvent reading hReading
    have hBody : event ∈ retried.flatMap (RetriedAttempt.events deps job model provider estimate) →
        BeforeDeadline job reading := by
      intro hMem
      obtain ⟨a, hA, hMem⟩ := List.mem_flatMap.mp hMem
      obtain ⟨i, hI⟩ := List.mem_iff_getElem?.mp hA
      exact (hRetried i a hI).reading hMem hReading
    rw [hTrace] at hSplit
    rcases List.append_eq_append_iff.mp hSplit with ⟨tail, rfl, hTail⟩ | ⟨tail, hTail, _⟩
    · cases List.mem_append.mp hEvent with
      | inl hMem => exact hBody hMem
      | inr hMem => exact hLast.reading hSpent hTail hMem hReading
    · apply hBody
      rw [hTail]
      exact List.mem_append_left _ hEvent

end Trace

/-! ### A retry that comes too late -/

def timedJob : Job :=
  { plainJob with ttlS := some ⟨60, by norm_num, by norm_num [maxTtlS]⟩ }

def tooManyRequests : ProviderError :=
  ⟨txt "RateLimitError", false, some 429, txt "slow down"⟩

def halfDraw : Draw :=
  ⟨1 / 2, by norm_num, by norm_num⟩

theorem micros_lt_of_second (second : Nat) : second % 86400 * 1000000 < microsPerDay := by
  unfold microsPerDay
  omega

/-- A second of the first of January 2026. -/
def atSecond (second : Nat) : DateTime :=
  { DateTime.startOf newYear2026 with
    micros := second % 86400 * 1000000
    micros_lt := micros_lt_of_second second }

/-- The call that fails, and the half second it is waited for after it. -/
def refusedOnce : RetriedAttempt :=
  ⟨atSecond 1, atSecond 2, tooManyRequests, halfDraw, .finite (1 / 2)⟩

/-- The second attempt gets its reservation when the job's minute is over. -/
def expiringTrace : List (BusEvent .tree) :=
  refusedOnce.events plainDeps timedJob (txt "gpt-5") ⟨openai⟩ 10 ++
    LastAttempt.events plainDeps timedJob (txt "gpt-5") ⟨openai⟩ 10 (.abandoned (atSecond 3) (atSecond 60))

theorem yields_expiringTrace :
    Yields (callWithRetry .ascii exactPower plainDeps timedJob ⟨openai⟩ 10) expiringTrace
      (.ok (expiredResult .ascii timedJob openai 1)) := by
  have hBefore : isExpired timedJob refusedOnce.before = .ok false := by decide +kernel
  have hAfter : isExpired timedJob refusedOnce.after = .ok false := by decide +kernel
  have hAgain : isExpired timedJob (atSecond 3) = .ok false := by decide +kernel
  have hLate : isExpired timedJob (atSecond 60) = .ok true := by decide +kernel
  have hDelay : backoffDelay exactPower 0 plainDeps.policy.retry refusedOnce.draw.value =
      .ok refusedOnce.delay := by decide +kernel
  have hSecond : Yields (callLoop .ascii exactPower plainDeps timedJob ⟨openai⟩ 10 1 1)
      (LastAttempt.events plainDeps timedJob (txt "gpt-5") ⟨openai⟩ 10
        (.abandoned (atSecond 3) (atSecond 60)) : List (BusEvent .tree))
      (.ok (expiredResult .ascii timedJob openai 1)) := by
    rw [callLoop, runAttempt_eq]
    refine .ask _ _ _ ?_
    rw [hAgain, Program.ofExcept_ok, Program.ret_bind, if_neg Bool.false_ne_true]
    refine .ask _ _ _ (.ask _ _ _ ?_)
    rw [hLate, Program.ofExcept_ok, Program.ret_bind, if_pos rfl]
    exact .ret _
  change Yields (callLoop .ascii exactPower plainDeps timedJob ⟨openai⟩ 10 2 0) _ _
  rw [callLoop, runAttempt_eq]
  refine .ask _ _ _ ?_
  rw [hBefore, Program.ofExcept_ok, Program.ret_bind, if_neg Bool.false_ne_true]
  refine .ask _ _ _ (.ask _ _ _ ?_)
  rw [hAfter, Program.ofExcept_ok, Program.ret_bind, if_neg Bool.false_ne_true,
    callProvider_eq plainDeps timedJob rfl]
  refine .ask _ _ _ ?_
  rw [Program.ret_bind, afterCall_retry _ _ _ _ _ _ _ (by decide)]
  refine .ask _ _ _ ?_
  rw [hDelay, Program.ofExcept_ok, Program.ret_bind]
  exact .ask _ _ _ hSecond

theorem nothingRaises_expiringTrace : NothingRaises .ascii timedJob expiringTrace where
  deadline ttl hTtl := by
    cases hTtl
    decide +kernel
  acquire name tokens e := by
    simp [expiringTrace, RetriedAttempt.events, LastAttempt.events, callEvents]
  pricing name model messages params timeoutS call := by
    simp [expiringTrace, RetriedAttempt.events, LastAttempt.events, callEvents, refusedOnce]
  sleep delay e := by
    simp [expiringTrace, RetriedAttempt.events, LastAttempt.events, callEvents]

theorem callWithRetry_trace_expiring :
    ∃ (retried : List RetriedAttempt) (last : LastAttempt) (result : Result),
      expiringTrace =
        retried.flatMap (RetriedAttempt.events plainDeps timedJob (txt "gpt-5") ⟨openai⟩ 10) ++
          last.events plainDeps timedJob (txt "gpt-5") ⟨openai⟩ 10 ∧
      retried.length < 3 ∧ (∀ i a, retried[i]? = some a → Retried plainDeps timedJob i a) ∧
      last.Concludes .ascii plainDeps timedJob ⟨openai⟩ retried.length result ∧
      result = expiredResult .ascii timedJob openai 1 := by
  obtain ⟨retried, last, result, hOutcome, hTrace, hLength, hRetried, hLast, _⟩ :=
    callWithRetry_trace rfl yields_expiringTrace nothingRaises_expiringTrace
  exact ⟨retried, last, result, hTrace, hLength, hRetried, hLast, (Except.ok.inj hOutcome).symm⟩

end LlmBus
