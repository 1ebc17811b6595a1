import LlmBus.Processing
import LlmBus.RateLimit
import LlmBus.RoundTrip
import LlmBus.StoreSteps

/-! # One job, run alone

The worker's processing of one job against a store and a limiter, with everything else it
meets given in advance: the readings of the two clocks, what each call does, the draws and
the callback. Exactly which of these let it return a result and settle the row.
-/

namespace LlmBus

open Foundation Interaction

/-- What the job will meet, each stream in the order in which it is used. -/
structure Surroundings where
  clock : Nat → DateTime
  ticks : Nat → ℚ
  calls : Nat → Except ProviderError ProviderResult
  draws : Nat → Draw
  completedAt : DateTime
  callback : Except PyError Unit

structure World where
  db : Database
  limiter : RateLimiter
  readings : Nat
  reservations : Nat
  called : Nat
  drawn : Nat
  /-- A sleep of infinite length was begun: nothing after it ever happens. -/
  endless : Bool

def World.start (db : Database) (limiter : RateLimiter) : World :=
  ⟨db, limiter, 0, 0, 0, 0, false⟩

def invalidDelay : PyError :=
  ⟨.valueError, txt "Invalid delay: NaN (not a number)"⟩

/-- `asyncio.sleep`, which refuses NaN. -/
def World.sleep (w : World) : Double → Except PyError Unit × World
  | .nan => (.error invalidDelay, w)
  | .posInf => (.ok (), { w with endless := true })
  | _ => (.ok (), w)

variable {pyd : Pydantic}

def World.onStore {α : Type} (w : World) (session : Session α) : Except PyError α × World :=
  ((w.db.perform session).1, { w with db := (w.db.perform session).2 })

def Surroundings.answer (s : Surroundings) (w : World) :
    (op : BusOp pyd) → op.Reply × World
  | .modelPolicy project kind => (w.db.readModelPolicy project kind, w)
  | .insertPending job => w.onStore (LlmBus.insertPending job)
  | .get jobId => (.ok (w.db.get jobId.text), w)
  | .finalize result completedAt => w.onStore (LlmBus.finalize result completedAt)
  | .setModelPolicy project kind model updatedAt =>
    w.onStore (LlmBus.setModelPolicy project kind model updatedAt)
  | .publishWorkerPolicy policy updatedAt =>
    w.onStore (LlmBus.publishWorkerPolicy policy updatedAt)
  | .storeClock => (s.completedAt, w)
  | .sendMessages _ => (⟨true, .ok ()⟩, w)
  | .place _ => ((), w)
  | .storeOffset _ => (.ok (), w)
  | .now => (s.clock w.readings, { w with readings := w.readings + 1 })
  | .acquire provider tokens =>
    let out := w.limiter.reserve (s.ticks w.reservations) provider tokens
    let reserved := { w with limiter := out.2, reservations := w.reservations + 1 }
    match out.1 with
    | .error e => (.error e, reserved)
    -- the wait is slept out, which only an infinite one keeps from happening
    | .ok _ => (.ok (), { reserved with endless := w.endless || out.2.endless provider })
  | .call .. => (s.calls w.called, { w with called := w.called + 1 })
  | .rand => (s.draws w.drawn, { w with drawn := w.drawn + 1 })
  | .sleep delayS => w.sleep delayS
  | .deliverCallback .. => (s.callback, w)

/-! ### What the job may meet -/

section Harmless

variable (py : Interpreter) (deps : WorkerDeps) (job : Job) (s : Surroundings)
  (limiter : RateLimiter)

/-- The limiter once the job has made its first reservations. -/
def chargedLimiter (name : Text) (estimate : Nat) : (reservations : Nat) → RateLimiter
  | 0 => limiter
  | n + 1 => ((chargedLimiter name estimate n).reserve (s.ticks n) name estimate).2

/-- The loop goes on after call `k`: it failed in a way worth a retry, and one is left. -/
def GoesOn (k : Nat) : Prop :=
  ∃ e, s.calls k = .error e ∧ isRetryable e = true ∧ k + 1 < deps.policy.retry.maxAttempts

def Live (k : Nat) : Prop :=
  isExpired job (s.clock (2 * k)) = .ok false ∧ isExpired job (s.clock (2 * k + 1)) = .ok false

/-- A loop that stands before attempt `first` will make reservation number `i`. -/
structure Reserved (first i : Nat) : Prop where
  le : first ≤ i
  live : ∀ k, first ≤ k → k < i → Live job s k
  goesOn : ∀ k, first ≤ k → k < i → GoesOn deps s k
  reads : isExpired job (s.clock (2 * i)) = .ok false

/-- A loop that stands before attempt `first` will make call number `i`. -/
structure Called (first i : Nat) : Prop where
  le : first ≤ i
  live : ∀ k, first ≤ k → k ≤ i → Live job s k
  goesOn : ∀ k, first ≤ k → k < i → GoesOn deps s k

/-- The call can be priced, and what it returned can be stored. -/
structure Chargeable (model : Text) (call : ProviderResult) : Prop where
  input_nonneg : 0 ≤ call.inputTokens
  output_nonneg : 0 ≤ call.outputTokens
  priced : ∃ pricing, priceFor py model job.submittedAt.date = .ok pricing
  input_int64 : int64 call.inputTokens = true
  output_int64 : int64 call.outputTokens = true
  completion : surrogateFree call.completion = true

/-- What one call must not do: the retry of a failed one has a computable pause that ends,
and a failure that is kept has a text that can be stored. -/
def CallHarmless (model : Text) (i : Nat) : Prop :=
  match s.calls i with
  | .ok call => Chargeable py job model call
  | .error e =>
    if isRetryable e = true ∧ i + 1 < deps.policy.retry.maxAttempts then
      i < 1024 ∧ deps.policy.retry.Pauses i (s.draws i).value
    else surrogateFree e.typeName = true ∧ surrogateFree e.text = true

/-- What a loop must not meet that stands before attempt `first`: an estimate that has no double,
a reservation that waits for ever, a call that does harm. -/
structure LoopHarmless (model name : Text) (estimate first : Nat) : Prop where
  tokens : isExpired job (s.clock (2 * first)) = .ok false → (estimate : ℚ) < doubleOverflow
  waits : ∀ i, Reserved deps job s first i →
    (chargedLimiter s limiter name estimate (i + 1)).endless name = false
  calls : ∀ i, Called deps job s first i → CallHarmless py deps job s model i

structure CallsHarmless (model name : Text) : Prop where
  deadline : ∀ ttl, job.ttlS = some ttl → (deadline job ttl).isSome = true
  loop : LoopHarmless py deps job s limiter model name
    (estimateTokens job deps.policy.defaultOutputTokens) 0

/-- A job that no adapter serves meets nothing at all. -/
def Harmless : Prop :=
  ∀ model name provider, job.model = some model → providerFor model = .ok name →
    deps.adapter name = some provider → CallsHarmless py deps job s limiter model name

end Harmless

/-! ### The retry loop -/

section Loop

variable {py : Interpreter} {deps : WorkerDeps} {job : Job} {s : Surroundings} {model : Text}
  {limiter : RateLimiter} {provider : Provider} {estimate i : Nat} {w : World}

def Completes (out : Except PyError Result × World) : Prop :=
  ∃ result, out.1 = .ok result ∧ Bindable result ∧ out.2.endless = false

structure Before (s : Surroundings) (limiter : RateLimiter) (provider : Provider) (estimate i : Nat)
    (w : World) : Prop where
  readings : w.readings = 2 * i
  reservations : w.reservations = i
  called : w.called = i
  drawn : w.drawn = i
  limiter : w.limiter = chargedLimiter s limiter provider.name estimate i
  configured : w.limiter.configured provider.name = true
  endless : w.endless = false

def World.paused (s : Surroundings) (provider : Provider) (estimate : Nat) (w : World) : World :=
  { w with
    limiter := (w.limiter.reserve (s.ticks w.reservations) provider.name estimate).2
    readings := w.readings + 2
    reservations := w.reservations + 1
    called := w.called + 1
    drawn := w.drawn + 1 }

theorem Before.paused (h : Before s limiter provider estimate i w) :
    Before s limiter provider estimate (i + 1) (w.paused s provider estimate) where
  readings := by
    simp only [World.paused, h.readings]
    omega
  reservations := congrArg (· + 1) h.reservations
  called := congrArg (· + 1) h.called
  drawn := congrArg (· + 1) h.drawn
  limiter := by rw [World.paused, h.reservations, h.limiter, chargedLimiter]
  configured := (RateLimiter.configured_reserve ..).trans h.configured
  endless := h.endless

theorem bindable_resultError {name text : Text} (hName : surrogateFree name = true)
    (hText : surrogateFree text = true) : Bindable (resultError job (some name) text) where
  completion := rfl
  error := hText
  provider := hName
  inputTokens := int64_zero
  outputTokens := int64_zero

theorem surrogateFree_expired (py : Interpreter) (job : Job) (attempt : Nat) :
    surrogateFree (txt "expired before attempt " ++ decimalText (attempt + 1) ++
      txt ": the producer's " ++ ttlText py job ++
      txt "s deadline elapsed while this job was queued, so it was dropped unrun rather than billed") =
      true := by
  have hTtl : asciiText (ttlText py job) = true := by
    unfold ttlText
    cases job.ttlS with
    | none => exact (by decide : asciiText (txt "None") = true)
    | some ttl => exact py.floatText_ascii _
  apply surrogateFree_of_asciiText
  simp only [asciiText_append, asciiText_decimalText, hTtl, Bool.and_true]
  decide

theorem bindable_expiredResult (hName : surrogateFree provider.name = true) (attempt : Nat) :
    Bindable (expiredResult py job provider.name attempt) :=
  bindable_resultError hName (surrogateFree_expired py job attempt)

/-- Once an endless sleep has begun, the run stays in it. -/
theorem not_completes_of_endless {p : Bus pyd Result} {P : Result → Prop}
    (h : Every ProviderSide P p) (hEndless : w.endless = true) :
    ¬ Completes (run s.answer p w) := by
  rintro ⟨result, _, _, hEnds⟩
  have hAnswer : ∀ (op : BusOp pyd) (w : World), ProviderSide op → w.endless = true →
      (s.answer w op).2.endless = true := by
    intro op w hOp hEndless
    cases op with
    | sleep delayS =>
      cases delayS with
      | finite q => exact hEndless
      | posInf => rfl
      | negInf => exact hEndless
      | nan => exact hEndless
    | now => exact hEndless
    | acquire provider tokens =>
      simp only [Surroundings.answer]
      split
      · exact hEndless
      · simp [hEndless]
    | call provider model messages params timeoutS => exact hEndless
    | rand => exact hEndless
    | _ => exact absurd hOp id
  have hStill := (run_of_every (J := fun w : World => w.endless = true) h hAnswer hEndless).1
  rw [hEnds] at hStill
  cases hStill

theorem chargeable_iff (hModel : job.model = some model) (hName : surrogateFree provider.name = true)
    {call : ProviderResult} :
    Chargeable py job model call ↔
      ∃ cost, price py job call = .ok cost ∧ Bindable (resultOk job provider.name call cost) := by
  have hPrice : ∀ cost, price py job call = .ok cost ↔
      costUsd py model call.inputTokens call.outputTokens job.submittedAt.date = .ok cost := by
    intro cost
    rw [price, modelOf, hModel]
    rfl
  simp only [hPrice, costUsd_eq_ok_iff]
  constructor
  · rintro ⟨hInput, hOutput, ⟨pricing, hPricing⟩, hIn64, hOut64, hText⟩
    exact ⟨_, ⟨hInput, hOutput, pricing, hPricing, rfl⟩, hText, rfl, hName, hIn64, hOut64⟩
  · rintro ⟨cost, ⟨hInput, hOutput, pricing, hPricing, _⟩, hText, _, _, hIn64, hOut64⟩
    exact ⟨hInput, hOutput, ⟨pricing, hPricing⟩, hIn64, hOut64, hText⟩

theorem not_completes_error {e : PyError} : ¬ Completes (.error e, w) := by
  rintro ⟨result, hOk, _⟩
  cases hOk

theorem completes_ok_iff (hEndless : w.endless = false) {result : Result} :
    Completes (.ok result, w) ↔ Bindable result := by
  constructor
  · rintro ⟨result', hOk, hBindable, _⟩
    cases hOk
    exact hBindable
  · exact fun hBindable => ⟨result, rfl, hBindable, hEndless⟩

/-- The pause of a retry: it must be computable, and it must end. -/
theorem sleep_completes_iff {next : Bus pyd Result} {P : Result → Prop}
    (hNext : Every ProviderSide P next) {draw : Draw} :
    Completes (run s.answer
        ((Program.ofExcept (backoffDelay floatPower i deps.policy.retry draw.value)).bind fun delay =>
          .ask (.sleep delay) fun slept => (Program.ofExcept slept).bind fun _ => next : Bus pyd Result)
        w) ↔
      i < 1024 ∧ deps.policy.retry.Pauses i draw.value ∧ Completes (run s.answer next w) := by
  by_cases hIndex : i < 1024
  · obtain ⟨delay, hDelay, hPauses⟩ :=
      exists_backoffDelay_floatPower hIndex deps.policy.retry draw.nonneg
    rw [hDelay, Program.ofExcept_ok, Program.ret_bind, run_ask, hPauses]
    simp only [hIndex, true_and]
    cases delay with
    | finite q => simp [Surroundings.answer, World.sleep]
    | negInf => simp [Surroundings.answer, World.sleep]
    | nan => simp [Surroundings.answer, World.sleep, not_completes_error]
    | posInf =>
      have hStuck : ¬ Completes (run s.answer next { w with endless := true }) :=
        not_completes_of_endless hNext rfl
      simp [Surroundings.answer, World.sleep, hStuck]
  · have hFails : ∃ e, backoffDelay floatPower i deps.policy.retry draw.value = .error e := by
      rw [backoffDelay, floatPower_eq_none_iff.mpr (not_lt.mp hIndex)]
      exact ⟨_, rfl⟩
    obtain ⟨e, hFails⟩ := hFails
    rw [hFails]
    simp [hIndex, not_completes_error]

theorem afterCall_completes_iff (hModel : job.model = some model)
    (hName : surrogateFree provider.name = true) {again : Option (Bus pyd Result)}
    {P : Result → Prop} (hAgain : ∀ next, again = some next → Every ProviderSide P next)
    (hEndless : w.endless = false) (outcome : Except ProviderError ProviderResult) :
    Completes (run s.answer (afterCall py floatPower deps job provider i again outcome) w) ↔
      match outcome with
      | .ok call => Chargeable py job model call
      | .error e =>
        if isRetryable e = true ∧ again.isSome = true then
          i < 1024 ∧ deps.policy.retry.Pauses i (s.draws w.drawn).value ∧
            ∀ next, again = some next →
              Completes (run s.answer next { w with drawn := w.drawn + 1 })
        else surrogateFree e.typeName = true ∧ surrogateFree e.text = true := by
  cases outcome with
  | ok call =>
    rw [afterCall_ok]
    simp only [chargeable_iff hModel hName]
    cases hCost : price py job call with
    | error e => simp [not_completes_error]
    | ok cost => simp [completes_ok_iff hEndless]
  | error e =>
    simp only
    split
    · rename_i hRetry
      obtain ⟨next, rfl⟩ := Option.isSome_iff_exists.mp hRetry.2
      rw [afterCall_retry _ _ _ _ _ _ _ hRetry.1, run_ask]
      simp only [Surroundings.answer, sleep_completes_iff (hAgain next rfl), Option.some.injEq,
        forall_eq']
    · rename_i hFinal
      rw [afterCall_final _ _ _ _ _ _ hFinal, run_ret, completes_ok_iff hEndless]
      have hText : surrogateFree (describe e) = true ↔
          surrogateFree e.typeName = true ∧ surrogateFree e.text = true := by
        rw [describe, surrogateFree_append, surrogateFree_append, Bool.and_eq_true, Bool.and_eq_true]
        exact and_congr_left fun _ => ⟨fun h => h.1, fun h => ⟨h, by decide⟩⟩
      rw [← hText]
      exact ⟨fun h => h.error, fun h => bindable_resultError hName h⟩

/-- What follows the reservation: the second look at the deadline, then the call. -/
theorem afterReserve_completes_iff (hModel : job.model = some model)
    (hName : surrogateFree provider.name = true)
    (hDeadline : ∀ ttl, job.ttlS = some ttl → (deadline job ttl).isSome = true)
    {again : Option (Bus pyd Result)} {P : Result → Prop}
    (hAgain : ∀ next, again = some next → Every ProviderSide P next) (hEndless : w.endless = false) :
    Completes (run s.answer
        (.ask .now fun after => (Program.ofExcept (isExpired job after)).bind fun expired =>
          if expired then .ret (expiredResult py job provider.name i)
          else (callProvider deps job provider).bind
            (afterCall py floatPower deps job provider i again) : Bus pyd Result) w) ↔
      (isExpired job (s.clock w.readings) = .ok false →
        match s.calls w.called with
        | .ok call => Chargeable py job model call
        | .error e =>
          if isRetryable e = true ∧ again.isSome = true then
            i < 1024 ∧ deps.policy.retry.Pauses i (s.draws w.drawn).value ∧
              ∀ next, again = some next → Completes (run s.answer next
                { w with
                  readings := w.readings + 1
                  called := w.called + 1
                  drawn := w.drawn + 1 })
          else surrogateFree e.typeName = true ∧ surrogateFree e.text = true) := by
  rw [run_ask]
  simp only [Surroundings.answer]
  obtain ⟨expired, hReading⟩ := exists_isExpired hDeadline (s.clock w.readings)
  rw [hReading, Program.ofExcept_ok, Program.ret_bind]
  cases expired with
  | true =>
    rw [if_pos rfl, run_ret]
    exact iff_of_true ((completes_ok_iff hEndless).mpr (bindable_expiredResult hName _))
      fun hLive => by cases hLive
  | false =>
    rw [if_neg Bool.false_ne_true, callProvider_eq deps job hModel, Program.ask_bind, run_ask,
      Program.ret_bind]
    simp only [Surroundings.answer, forall_const]
    exact afterCall_completes_iff hModel hName hAgain (by exact hEndless) _

theorem runAttempt_completes_iff (hModel : job.model = some model)
    (hName : surrogateFree provider.name = true)
    (hDeadline : ∀ ttl, job.ttlS = some ttl → (deadline job ttl).isSome = true)
    (h : Before s limiter provider estimate i w) {again : Option (Bus pyd Result)}
    (hAgain : ∀ next, again = some next → Every ProviderSide (Made py job) next) :
    Completes (run s.answer (runAttempt py floatPower deps job provider estimate i again) w) ↔
      (isExpired job (s.clock (2 * i)) = .ok false → (estimate : ℚ) < doubleOverflow ∧
        (chargedLimiter s limiter provider.name estimate (i + 1)).endless provider.name = false ∧
        (isExpired job (s.clock (2 * i + 1)) = .ok false →
          match s.calls i with
          | .ok call => Chargeable py job model call
          | .error e =>
            if isRetryable e = true ∧ again.isSome = true then
              i < 1024 ∧ deps.policy.retry.Pauses i (s.draws i).value ∧
                ∀ next, again = some next →
                  Completes (run s.answer next (w.paused s provider estimate))
            else surrogateFree e.typeName = true ∧ surrogateFree e.text = true)) := by
  have hReserve := RateLimiter.exists_reserve_iff h.configured (s.ticks w.reservations)
    (Nat.cast_nonneg (α := ℚ) estimate)
  have hCharged : chargedLimiter s limiter provider.name estimate (i + 1) =
      (w.limiter.reserve (s.ticks w.reservations) provider.name estimate).2 := by
    rw [h.limiter, h.reservations, chargedLimiter]
  rw [← hReserve, hCharged]
  obtain rfl := h.called
  have hEvery := every_runAttempt py floatPower deps job provider estimate w.called hAgain
  rw [runAttempt_eq] at hEvery ⊢
  rw [run_ask, ← h.readings]
  simp only [Surroundings.answer]
  have hRest := hEvery.2 (s.clock w.readings)
  simp only at hRest
  obtain ⟨expired, hFirst⟩ := exists_isExpired hDeadline (s.clock w.readings)
  rw [hFirst, Program.ofExcept_ok, Program.ret_bind] at hRest ⊢
  cases expired with
  | true =>
    rw [if_pos rfl, run_ret]
    exact iff_of_true ((completes_ok_iff h.endless).mpr (bindable_expiredResult hName _))
      fun hLive => by cases hLive
  | false =>
    rw [if_neg Bool.false_ne_true] at hRest ⊢
    rw [run_ask]
    simp only [Surroundings.answer, forall_const]
    cases hWait : (w.limiter.reserve (s.ticks w.reservations) provider.name estimate).1 with
    | error e => simp [not_completes_error]
    | ok wait =>
      have hCalled := hRest.2 (.ok ())
      simp only [Program.ofExcept_ok, Program.ret_bind] at hCalled ⊢
      cases hEnds : (w.limiter.reserve (s.ticks w.reservations) provider.name estimate).2.endless
          provider.name with
      | true => exact iff_of_false (not_completes_of_endless hCalled (by simp)) (by simp)
      | false =>
        refine (afterReserve_completes_iff hModel hName hDeadline hAgain
          ((Bool.or_false _).trans h.endless)).trans ?_
        simp only [World.paused, h.drawn, h.endless, Bool.or_false, Except.ok.injEq,
          exists_eq', true_and]

theorem called_iff (hLive : Live job s i) {j : Nat} :
    Called deps job s i j ↔ j = i ∨ (GoesOn deps s i ∧ Called deps job s (i + 1) j) := by
  constructor
  · intro h
    rcases Nat.eq_or_lt_of_le h.le with rfl | hLt
    · exact .inl rfl
    · exact .inr ⟨h.goesOn i (Nat.le_refl i) hLt, hLt, fun k hk => h.live k (Nat.le_of_succ_le hk),
        fun k hk => h.goesOn k (Nat.le_of_succ_le hk)⟩
  · rintro (rfl | ⟨hGoesOn, h⟩)
    · refine ⟨Nat.le_refl j, fun k hFirst hLast => ?_, fun k hFirst hLast => by omega⟩
      obtain rfl := Nat.le_antisymm hFirst hLast
      exact hLive
    · refine ⟨Nat.le_of_succ_le h.le, fun k hFirst hLast => ?_, fun k hFirst hLast => ?_⟩
      · rcases Nat.eq_or_lt_of_le hFirst with rfl | hLt
        · exact hLive
        · exact h.live k hLt hLast
      · rcases Nat.eq_or_lt_of_le hFirst with rfl | hLt
        · exact hGoesOn
        · exact h.goesOn k hLt hLast

/-- What the calls from number `i` on must be, by what call `i` is. -/
theorem forall_called_iff (hLive : Live job s i) {C : Nat → Prop} :
    (∀ j, Called deps job s i j → C j) ↔
      C i ∧ (GoesOn deps s i → ∀ j, Called deps job s (i + 1) j → C j) := by
  simp only [called_iff hLive]
  constructor
  · exact fun h => ⟨h i (.inl rfl), fun hGoesOn j hJ => h j (.inr ⟨hGoesOn, hJ⟩)⟩
  · rintro ⟨hHere, hRest⟩ j (rfl | ⟨hGoesOn, hJ⟩)
    · exact hHere
    · exact hRest hGoesOn j hJ

theorem goesOn_iff {e : ProviderError} (hCall : s.calls i = .error e) :
    GoesOn deps s i ↔ isRetryable e = true ∧ i + 1 < deps.policy.retry.maxAttempts := by
  constructor
  · rintro ⟨e', hCall', hRetryable, hLeft⟩
    rw [hCall] at hCall'
    cases hCall'
    exact ⟨hRetryable, hLeft⟩
  · rintro ⟨hRetryable, hLeft⟩
    exact ⟨e, hCall, hRetryable, hLeft⟩

theorem reserved_iff (hReads : isExpired job (s.clock (2 * i)) = .ok false) {j : Nat} :
    Reserved deps job s i j ↔
      j = i ∨ (Live job s i ∧ GoesOn deps s i ∧ Reserved deps job s (i + 1) j) := by
  constructor
  · intro h
    rcases Nat.eq_or_lt_of_le h.le with rfl | hLt
    · exact .inl rfl
    · exact .inr ⟨h.live i (Nat.le_refl i) hLt, h.goesOn i (Nat.le_refl i) hLt, hLt,
        fun k hk => h.live k (Nat.le_of_succ_le hk), fun k hk => h.goesOn k (Nat.le_of_succ_le hk),
        h.reads⟩
  · rintro (rfl | ⟨hLive, hGoesOn, h⟩)
    · exact ⟨Nat.le_refl j, fun k hFirst hLast => by omega, fun k hFirst hLast => by omega, hReads⟩
    · refine ⟨Nat.le_of_succ_le h.le, fun k hFirst hLast => ?_, fun k hFirst hLast => ?_, h.reads⟩
      · rcases Nat.eq_or_lt_of_le hFirst with rfl | hLt
        · exact hLive
        · exact h.live k hLt hLast
      · rcases Nat.eq_or_lt_of_le hFirst with rfl | hLt
        · exact hGoesOn
        · exact h.goesOn k hLt hLast

/-- An expired job meets nothing more. -/
theorem loopHarmless_of_expired {name : Text}
    (hFirst : ¬ isExpired job (s.clock (2 * i)) = .ok false) :
    LoopHarmless py deps job s limiter model name estimate i where
  tokens hReads := absurd hReads hFirst
  waits j hJ := by
    rcases Nat.eq_or_lt_of_le hJ.le with rfl | hLt
    · exact absurd hJ.reads hFirst
    · exact absurd (hJ.live i (Nat.le_refl i) hLt).1 hFirst
  calls j hJ := absurd (hJ.live i (Nat.le_refl i) hJ.le).1 hFirst

/-- What the loop must not meet, one attempt at a time. -/
theorem loopHarmless_iff {name : Text} (hFirst : isExpired job (s.clock (2 * i)) = .ok false) :
    LoopHarmless py deps job s limiter model name estimate i ↔
      (estimate : ℚ) < doubleOverflow ∧
        (chargedLimiter s limiter name estimate (i + 1)).endless name = false ∧
        (isExpired job (s.clock (2 * i + 1)) = .ok false →
          CallHarmless py deps job s model i ∧
            (GoesOn deps s i →
              LoopHarmless py deps job s limiter model name estimate (i + 1))) := by
  constructor
  · rintro ⟨hEstimate, hWaits, hCalls⟩
    refine ⟨hEstimate hFirst, hWaits i ((reserved_iff hFirst).mpr (.inl rfl)), fun hSecond => ?_⟩
    obtain ⟨hHere, hRest⟩ := (forall_called_iff ⟨hFirst, hSecond⟩).mp hCalls
    refine ⟨hHere, fun hGoesOn => ⟨fun _ => hEstimate hFirst, fun j hJ => ?_, hRest hGoesOn⟩⟩
    exact hWaits j ((reserved_iff hFirst).mpr (.inr ⟨⟨hFirst, hSecond⟩, hGoesOn, hJ⟩))
  · rintro ⟨hEstimate, hWait, hNext⟩
    refine ⟨fun _ => hEstimate, fun j hJ => ?_, fun j hJ => ?_⟩
    · rcases (reserved_iff hFirst).mp hJ with rfl | ⟨hLive, hGoesOn, hLater⟩
      · exact hWait
      · exact ((hNext hLive.2).2 hGoesOn).waits j hLater
    · have hLive := hJ.live i (Nat.le_refl i) hJ.le
      obtain ⟨hHere, hRest⟩ := hNext hLive.2
      exact (forall_called_iff hLive).mpr ⟨hHere, fun hGoesOn => (hRest hGoesOn).calls⟩ j hJ

theorem turn_completes_iff (hModel : job.model = some model)
    (hName : surrogateFree provider.name = true)
    (hDeadline : ∀ ttl, job.ttlS = some ttl → (deadline job ttl).isSome = true)
    (h : Before s limiter provider estimate i w) {again : Option (Bus pyd Result)}
    (hAgain : ∀ next, again = some next → Every ProviderSide (Made py job) next)
    (hSome : again.isSome = true ↔ i + 1 < deps.policy.retry.maxAttempts)
    (hNext : ∀ next, again = some next →
      (Completes (run s.answer next (w.paused s provider estimate)) ↔
        LoopHarmless py deps job s limiter model provider.name estimate (i + 1))) :
    Completes (run s.answer (runAttempt py floatPower deps job provider estimate i again) w) ↔
      LoopHarmless py deps job s limiter model provider.name estimate i := by
  rw [runAttempt_completes_iff hModel hName hDeadline h hAgain]
  by_cases hFirst : isExpired job (s.clock (2 * i)) = .ok false
  · rw [loopHarmless_iff hFirst]
    simp only [hFirst, forall_const]
    refine and_congr_right fun _ => and_congr_right fun _ => imp_congr_right fun _ => ?_
    rw [CallHarmless]
    cases hCall : s.calls i with
    | ok call =>
      have hStops : ¬ GoesOn deps s i := by
        rintro ⟨e, hFailed, _⟩
        rw [hCall] at hFailed
        cases hFailed
      simp only [hStops, false_implies, and_true]
    | error e =>
      simp only [goesOn_iff hCall, hSome]
      by_cases hRetry : isRetryable e = true ∧ i + 1 < deps.policy.retry.maxAttempts
      · obtain ⟨next, hEq⟩ := Option.isSome_iff_exists.mp (hSome.mpr hRetry.2)
        have hRest := hNext next hEq
        simp only [hRetry, and_self, if_true, hEq, Option.some.injEq, forall_eq', hRest,
          forall_const, and_assoc]
      · simp only [hRetry, if_false, false_implies, and_true]
  · exact iff_of_true (fun hReads => absurd hReads hFirst) (loopHarmless_of_expired hFirst)

theorem callLoop_completes_iff (hModel : job.model = some model)
    (hName : surrogateFree provider.name = true)
    (hDeadline : ∀ ttl, job.ttlS = some ttl → (deadline job ttl).isSome = true) {retries : Nat}
    (hRetries : i + retries + 1 = deps.policy.retry.maxAttempts)
    (h : Before s limiter provider estimate i w) :
    Completes (run s.answer
        (callLoop py floatPower deps job provider estimate retries i : Bus pyd Result) w) ↔
      LoopHarmless py deps job s limiter model provider.name estimate i := by
  induction retries generalizing i w with
  | zero =>
    have hNone : ¬ (none : Option (Bus pyd Result)).isSome = true := Bool.false_ne_true
    have hNoneLeft : ¬ i + 1 < deps.policy.retry.maxAttempts := by omega
    exact turn_completes_iff hModel hName hDeadline h (fun _ hEq => by cases hEq)
      (iff_of_false hNone hNoneLeft) fun _ hEq => by cases hEq
  | succ retries ih =>
    have hLeft : i + 1 < deps.policy.retry.maxAttempts := by omega
    refine turn_completes_iff hModel hName hDeadline h (fun next hEq => ?_)
      (iff_of_true rfl hLeft) fun next hEq => ?_
    · cases hEq
      exact every_callLoop py floatPower deps job provider estimate retries (i + 1)
    · cases hEq
      exact ih (by omega) h.paused

end Loop

/-! ### The whole job -/

section Settling

variable (pyd) (py : Interpreter) (deps : WorkerDeps) (job : Job) (s : Surroundings) (w : World)

/-- The job is processed to its end: a result is returned, and a row that waited for it is
terminal. -/
def Settles : Prop :=
  let out := run s.answer (processJob py floatPower deps job : Bus pyd Result) w
  (∃ result, out.1 = .ok result) ∧ out.2.endless = false ∧
    ∀ row, w.db.jobs.find job.jobId.text = some row → row.status = .pending →
      ∃ row', out.2.db.jobs.find job.jobId.text = some row' ∧ row'.status ≠ .pending

variable {pyd py deps job s w}

/-- Finalizing fails on a result that cannot be stored, and otherwise settles the row, whatever
the callback does. -/
theorem run_finalizeAndNotify (pyd : Pydantic) {result : Result} (hBilled : Billed py job result) :
    (¬ Bindable result →
        ∃ e, (run s.answer (finalizeAndNotify job result : Bus pyd Result) w).1 = .error e) ∧
      (Bindable result →
        let out := run s.answer (finalizeAndNotify job result : Bus pyd Result) w
        out.1 = .ok result ∧ out.2.endless = w.endless ∧
          ∀ row, w.db.jobs.find job.jobId.text = some row → row.status = .pending →
            ∃ row', out.2.db.jobs.find job.jobId.text = some row' ∧ row'.status ≠ .pending) := by
  rw [finalizeAndNotify_eq]
  simp only [run_ask, Surroundings.answer, World.onStore]
  rcases perform_finalize_cases w.db result s.completedAt with
    ⟨hHeld, e, hStep⟩ | ⟨hBindable, hNone, hStep⟩ | ⟨hBindable, hAwaited, hStep⟩
  · rw [hStep]
    exact ⟨fun _ => ⟨e, rfl⟩, fun hBindable => absurd ⟨hBindable, fun _ => hBilled.isNan⟩ hHeld⟩
  · rw [hStep]
    refine ⟨fun hNot => absurd hBindable hNot, fun _ => ⟨rfl, rfl, fun row hRow hPending => ?_⟩⟩
    rw [← hBilled.jobId] at hRow
    exact absurd ⟨row, hRow, hPending⟩ hNone
  · rw [hStep]
    refine ⟨fun hNot => absurd hBindable hNot, fun _ => ?_⟩
    simp only [Program.ofExcept_ok, Program.ret_bind]
    have hSettled : ∀ row, w.db.jobs.find job.jobId.text = some row → row.status = .pending →
        ∃ row', (w.db.jobs.update result.jobId.text (JobRow.finalize result s.completedAt)
          (JobRow.jobId_finalize result s.completedAt)).find job.jobId.text = some row' ∧
            row'.status ≠ .pending := by
      intro row hRow _
      rw [hBilled.jobId, KeyedTable.find_update_self, hRow]
      exact ⟨_, rfl, Outcome.status_ne_pending _⟩
    cases job.callbackUrl with
    | none => exact ⟨rfl, rfl, hSettled⟩
    | some url => exact ⟨rfl, rfl, hSettled⟩

theorem settles_iff_completes :
    Settles pyd py deps job s w ↔
      Completes (run s.answer (jobResult py floatPower deps job : Bus pyd Result) w) := by
  have hEvery : Every ProviderSide (Billed py job) (jobResult py floatPower deps job : Bus pyd Result) :=
    every_jobResult py floatPower deps job
  have hAnswer : ∀ (op : BusOp pyd) (w' : World), ProviderSide op → w'.db = w.db →
      (s.answer w' op).2.db = w.db := by
    intro op w' hOp hSame
    cases op with
    | sleep delayS => cases delayS <;> exact hSame
    | now => exact hSame
    | acquire provider tokens =>
      simp only [Surroundings.answer]
      split
      · exact hSame
      · exact hSame
    | call provider model messages params timeoutS => exact hSame
    | rand => exact hSame
    | _ => exact absurd hOp id
  obtain ⟨hDb, hBilled⟩ := run_of_every (J := fun w' : World => w'.db = w.db) hEvery hAnswer (s := w) rfl
  simp only [Settles, processJob, Program.bind_eq, run_bind]
  generalize run s.answer (jobResult py floatPower deps job : Bus pyd Result) w = out at hDb hBilled ⊢
  obtain ⟨outcome, w'⟩ := out
  cases outcome with
  | error e =>
    refine iff_of_false ?_ not_completes_error
    rintro ⟨⟨result, hOk⟩, _⟩
    cases hOk
  | ok result =>
    simp only
    obtain ⟨hRefused, hStored⟩ := run_finalizeAndNotify pyd (s := s) (w := w') (hBilled result rfl)
    by_cases hBindable : Bindable result
    · obtain ⟨hOk, hEnds, hRow⟩ := hStored hBindable
      rw [hOk, hEnds]
      simp only at hDb
      rw [hDb] at hRow
      constructor
      · rintro ⟨_, hEndless, _⟩
        exact ⟨result, rfl, hBindable, hEndless⟩
      · rintro ⟨_, _, _, hEndless⟩
        exact ⟨⟨result, rfl⟩, hEndless, hRow⟩
    · obtain ⟨e, hError⟩ := hRefused hBindable
      rw [hError]
      constructor
      · rintro ⟨⟨_, hOk⟩, _⟩
        cases hOk
      · rintro ⟨result', hOk, hBindable', _⟩
        cases hOk
        exact absurd hBindable' hBindable

theorem not_completes_of_deadline {provider : Provider} {estimate retries attempt : Nat} {ttl : Ttl}
    (hTtl : job.ttlS = some ttl) (hNone : deadline job ttl = none) :
    ¬ Completes (run s.answer
      (callLoop py floatPower deps job provider estimate retries attempt : Bus pyd Result) w) := by
  have hExpired : ∀ reading, isExpired job reading = .error (overflow "date value out of range") := by
    intro reading
    simp only [isExpired, hTtl, hNone]
  have hTurn : ∀ again : Option (Bus pyd Result), ¬ Completes (run s.answer
      (runAttempt py floatPower deps job provider estimate attempt again) w) := by
    intro again
    rw [runAttempt_eq, run_ask, hExpired]
    exact not_completes_error
  cases retries with
  | zero => exact hTurn none
  | succ retries => exact hTurn (some _)

theorem callWithRetry_completes_iff {model : Text} {provider : Provider} {limiter : RateLimiter}
    (hModel : job.model = some model) (hName : surrogateFree provider.name = true)
    (h : Before s limiter provider (estimateTokens job deps.policy.defaultOutputTokens) 0 w) :
    Completes (run s.answer (callWithRetry py floatPower deps job provider
        (estimateTokens job deps.policy.defaultOutputTokens) : Bus pyd Result) w) ↔
      CallsHarmless py deps job s limiter model provider.name := by
  by_cases hDeadline : ∀ ttl, job.ttlS = some ttl → (deadline job ttl).isSome = true
  · have hPositive := deps.policy.retry.maxAttempts_pos
    rw [callWithRetry, callLoop_completes_iff hModel hName hDeadline (by omega) h]
    exact ⟨fun hLoop => ⟨hDeadline, hLoop⟩, fun hCalls => hCalls.loop⟩
  · refine iff_of_false ?_ fun hCalls => hDeadline hCalls.deadline
    push Not at hDeadline
    obtain ⟨ttl, hTtl, hNone⟩ := hDeadline
    exact not_completes_of_deadline hTtl (by simpa using hNone)

theorem bindable_withoutProvider {text : Text} (hText : surrogateFree text = true) :
    Bindable (resultError job none text) where
  completion := rfl
  error := hText
  provider := rfl
  inputTokens := int64_zero
  outputTokens := int64_zero

theorem jobResult_completes_iff {db : Database} {limiter : RateLimiter}
    (hConfigured : ∀ entry ∈ deps.providers, limiter.configured entry.2.name = true) :
    Completes (run s.answer (jobResult py floatPower deps job : Bus pyd Result)
        (World.start db limiter)) ↔
      Harmless py deps job s limiter := by
  unfold jobResult Harmless
  cases hModel : job.model with
  | none =>
    refine iff_of_true ((completes_ok_iff rfl).mpr (bindable_withoutProvider (by decide))) ?_
    rintro model name provider hSome
    cases hSome
  | some model =>
    simp only
    cases hRoute : providerFor model with
    | error e =>
      refine iff_of_true ((completes_ok_iff rfl).mpr (bindable_withoutProvider ?_)) ?_
      · rw [surrogateFree_append, py.surrogateFree_repr]
        decide
      · rintro model' name provider hSome hName
        cases hSome
        rw [hRoute] at hName
        cases hName
    | ok name =>
      have hAscii := surrogateFree_of_asciiText (asciiText_of_providerFor hRoute)
      simp only [runRouted]
      cases hAdapter : deps.adapter name with
      | none =>
        refine iff_of_true ((completes_ok_iff rfl).mpr (bindable_resultError hAscii ?_)) ?_
        · rw [surrogateFree_append, py.surrogateFree_repr]
          decide
        · rintro model' name' provider hSome hName hProvider
          cases hSome
          rw [hRoute] at hName
          cases hName
          rw [hAdapter] at hProvider
          cases hProvider
      | some provider =>
        have hProvider : surrogateFree provider.name = true := by
          rw [WorkerDeps.name_of_adapter hAdapter]
          exact hAscii
        have hBefore : Before s limiter provider
            (estimateTokens job deps.policy.defaultOutputTokens) 0 (World.start db limiter) :=
          ⟨rfl, rfl, rfl, rfl, rfl, hConfigured _ (mem_of_lookup hAdapter), rfl⟩
        rw [callWithRetry_completes_iff hModel hProvider hBefore]
        have hSameName := WorkerDeps.name_of_adapter hAdapter
        constructor
        · rintro hCalls model' name' provider' hSome hName hAdapter'
          cases hSome
          rw [hRoute] at hName
          cases hName
          rw [hAdapter] at hAdapter'
          cases hAdapter'
          exact hSameName ▸ hCalls
        · exact fun hHarmless => hSameName ▸ hHarmless model name provider rfl hRoute hAdapter

/-- The job settles exactly where what it meets is harmless. -/
theorem processJob_settles_iff (pyd : Pydantic) (py : Interpreter) (deps : WorkerDeps) (job : Job)
    (s : Surroundings) (db : Database) (limiter : RateLimiter)
    (hConfigured : ∀ entry ∈ deps.providers, limiter.configured entry.2.name = true) :
    Settles pyd py deps job s (World.start db limiter) ↔ Harmless py deps job s limiter :=
  settles_iff_completes.trans (jobResult_completes_iff hConfigured)

end Settling

/-! ### A call that cannot be priced -/

def plainLimits : ProviderLimits where
  requestsPerMin := 600
  tokensPerMin := 100000
  requests_pos := by norm_num
  tokens_pos := by norm_num
  requests_lt := by decide +kernel
  tokens_lt := by decide +kernel

def plainLimiter : RateLimiter :=
  [(openai, .new plainLimits 0)]

def calmSurroundings : Surroundings where
  clock _ := .startOf newYear2026
  ticks _ := 0
  calls _ := .ok ⟨txt "hi", 3, 4⟩
  draws _ := .zero
  completedAt := .startOf newYear2026
  callback := .ok ()

theorem plainLimiter_configured :
    ∀ entry ∈ plainDeps.providers, plainLimiter.configured entry.2.name = true := by
  decide +kernel

theorem processJob_settles_iff_plain :
    Settles .tree .ascii plainDeps plainJob calmSurroundings (World.start .empty plainLimiter) ↔
      Harmless .ascii plainDeps plainJob calmSurroundings plainLimiter :=
  processJob_settles_iff .tree .ascii plainDeps plainJob calmSurroundings .empty plainLimiter
    plainLimiter_configured

def oldJob : Job :=
  { plainJob with submittedAt := .startOf ⟨2024, 12, 31, by decide⟩ }

/-- The worker accepts it, and its good call raises once it has been paid for. -/
theorem oldJob_stalls :
    (∃ payload, decodeJob .ascii .tree anyFresh payload = .ok oldJob) ∧
      ¬ Settles .tree .ascii plainDeps oldJob calmSurroundings
        (World.start (Database.empty.perform (insertPending oldJob)).2 plainLimiter) := by
  constructor
  · have hReadable : oldJob.Readable .tree := by
      rintro _ ⟨⟩
      decide
    obtain ⟨payload, _, hDecode⟩ := decodeJob_encodeJob .ascii .tree anyFresh oldJob rfl
      (fun _ h => by cases h) (by decide) (by decide) (by decide) hReadable
    rw [(received_eq_iff oldJob).mpr fun _ h => by cases h] at hDecode
    exact ⟨payload, hDecode⟩
  · rintro ⟨⟨result, hOk⟩, _⟩
    have hRaises : (run calmSurroundings.answer
        (processJob .ascii floatPower plainDeps oldJob : Bus .tree Result)
        (World.start (Database.empty.perform (insertPending oldJob)).2 plainLimiter)).1.isOk = false := by
      decide +kernel
    rw [hOk] at hRaises
    cases hRaises

end LlmBus
