import LlmBus.Bus
import LlmBus.Cost

/-! # Processing one job

Everything the worker does with one job: reserve budget, call the provider with retries
and a deadline, price the usage, finalize the row, and send the callback where this
delivery won the row.
-/

namespace LlmBus

open Foundation Interaction

structure Provider where
  name : Text
  deriving DecidableEq

/-- What is injected into the worker and is not an effect. An adapter is registered under
the name it reports. -/
structure WorkerDeps where
  providers : List (Text × Provider)
  policy : WorkerPolicy
  names : ∀ entry ∈ providers, entry.2.name = entry.1

def WorkerDeps.adapter (deps : WorkerDeps) (name : Text) : Option Provider :=
  deps.providers.lookup name

theorem WorkerDeps.name_of_adapter {deps : WorkerDeps} {name : Text} {provider : Provider}
    (h : deps.adapter name = some provider) : provider.name = name :=
  deps.names _ (mem_of_lookup h)

def plainPolicy : WorkerPolicy where
  retry := ⟨3, .finite 1, .finite 8, by decide, rfl, rfl⟩
  jobTimeoutS := .finite 30
  defaultOutputTokens := 256
  timeout_pos := rfl

def plainDeps : WorkerDeps where
  providers := [(openai, ⟨openai⟩)]
  policy := plainPolicy
  names := by simp

/-! ### Deadlines -/

/-- `submitted_at + timedelta(seconds=ttl_s)`, where the job has a deadline. -/
def deadline (job : Job) (ttl : Ttl) : Option ℤ :=
  job.submittedAt.plus (timedeltaSeconds ttl.seconds)

def isExpired (job : Job) (now : DateTime) : Except PyError Bool :=
  match job.ttlS with
  | none => .ok false
  | some ttl =>
    match deadline job ttl with
    | none => .error (overflow "date value out of range")
    | some instant => .ok (decide (instant ≤ now.instant))

theorem exists_isExpired {job : Job}
    (h : ∀ ttl, job.ttlS = some ttl → (deadline job ttl).isSome = true) (reading : DateTime) :
    ∃ b, isExpired job reading = .ok b := by
  unfold isExpired
  cases hTtl : job.ttlS with
  | none => exact ⟨false, rfl⟩
  | some ttl =>
    obtain ⟨instant, hInstant⟩ := Option.isSome_iff_exists.mp (h ttl hTtl)
    simp only [hInstant]
    exact ⟨_, rfl⟩

/-! ### Pure parts -/

def estimateTokens (job : Job) (defaultOutputTokens : Nat) : Nat :=
  (job.messages.map fun message => message.content.length).sum / 4 +
    (job.params.maxTokens.elim defaultOutputTokens (·.val))

def describe (exc : ProviderError) : Text :=
  exc.typeName ++ txt ": " ++ exc.text

def resultOk (job : Job) (providerName : Text) (call : ProviderResult) (cost : ℚ) : Result where
  jobId := job.jobId
  status := .ok
  completion := some call.completion
  usage := ⟨call.inputTokens, call.outputTokens, .finite cost⟩
  provider := some providerName
  error := none
  metadata := job.metadata

def resultError (job : Job) (providerName : Option Text) (error : Text) : Result where
  jobId := job.jobId
  status := .error
  completion := none
  usage := .zero
  provider := providerName
  error := some error
  metadata := job.metadata

/-- `f"{job.ttl_s}"` -/
def ttlText (py : Interpreter) (job : Job) : Text :=
  job.ttlS.elim (txt "None") fun ttl => py.floatText (.finite ttl.seconds)

def expiredResult (py : Interpreter) (job : Job) (providerName : Text) (attempt : Nat) : Result :=
  resultError job (some providerName) (txt "expired before attempt " ++ decimalText (attempt + 1) ++
    txt ": the producer's " ++ ttlText py job ++
    txt "s deadline elapsed while this job was queued, so it was dropped unrun rather than billed")

/-- `ModelPolicyError`, as the retry loop catches it. -/
def noModelError (job : Job) : PyError :=
  ⟨.modelPolicyError, txt "job " ++ job.jobId.text ++ txt " reached the worker with no model"⟩

def modelOf (job : Job) : Except PyError Text :=
  match job.model with
  | none => .error (noModelError job)
  | some model => .ok model

def price (py : Interpreter) (job : Job) (call : ProviderResult) : Except PyError ℚ := do
  let model ← modelOf job
  costUsd py model call.inputTokens call.outputTokens job.submittedAt.date

/-! ### The retry loop -/

section Effects

variable {pyd : Pydantic} (py : Interpreter) (power : Power) (deps : WorkerDeps) (job : Job)

def expiredNow : Bus pyd Bool :=
  Bus.now.bind fun now => .ofExcept (isExpired job now)

/-- The call inside the `try`, which the missing model would fail as well. -/
def callProvider (provider : Provider) : Bus pyd (Except ProviderError ProviderResult) :=
  match modelOf job with
  | .error e => .ret (.error ⟨txt "ModelPolicyError", false, none, e.message⟩)
  | .ok model => Bus.call provider.name model job.messages job.params deps.policy.jobTimeoutS

/-- What follows a call: the price of a good one, or the way on from a failed one. `again` is
the next attempt, where `attempt + 1 < max_attempts`. -/
def afterCall (provider : Provider) (attempt : Nat) (again : Option (Bus pyd Result)) :
    Except ProviderError ProviderResult → Bus pyd Result
  | .ok call => do
    let cost ← Program.ofExcept (price py job call)
    pure (resultOk job provider.name call cost)
  | .error exc =>
    match isRetryable exc, again with
    | true, some next => do
      let draw ← Bus.rand
      let delay ← Program.ofExcept (backoffDelay power attempt deps.policy.retry draw.value)
      Bus.sleep delay
      next
    | _, _ => pure (resultError job (some provider.name) (describe exc))

def runAttempt (provider : Provider) (estimate attempt : Nat) (again : Option (Bus pyd Result)) :
    Bus pyd Result := do
  if ← expiredNow job then
    pure (expiredResult py job provider.name attempt)
  else
    Bus.acquire provider.name estimate
    if ← expiredNow job then
      pure (expiredResult py job provider.name attempt)
    else
      let outcome ← callProvider deps job provider
      afterCall py power deps job provider attempt again outcome

/-- The loop from attempt number `attempt` on, with that many retries left after it. -/
def callLoop (provider : Provider) (estimate : Nat) : (retries : Nat) → (attempt : Nat) → Bus pyd Result
  | 0, attempt => runAttempt py power deps job provider estimate attempt none
  | retries + 1, attempt =>
    runAttempt py power deps job provider estimate attempt
      (some (callLoop provider estimate retries (attempt + 1)))

def callWithRetry (provider : Provider) (estimate : Nat) : Bus pyd Result :=
  callLoop py power deps job provider estimate (deps.policy.retry.maxAttempts - 1) 0

/-! ### Finalizing -/

/-- The callback is best effort: whatever it raises is logged and dropped. -/
def deliver (url : Text) (result : Result) : Bus pyd Unit :=
  .ask (.deliverCallback url result) fun _ => .ret ()

def finalizeAndNotify (result : Result) : Bus pyd Result := do
  let finalized ← Bus.finalize result
  match finalized, job.callbackUrl with
  | true, some url => do
    deliver url result
    pure result
  | _, _ => pure result

def noModelResult : Result :=
  resultError job none (txt "job has no model and none was resolved at submit")

def unservedResult (model : Text) : Result :=
  resultError job none (txt "no provider serves model " ++ py.repr model)

def unwiredResult (providerName : Text) : Result :=
  resultError job (some providerName)
    (txt "no adapter configured for provider " ++ py.repr providerName)

def runRouted (providerName : Text) : Bus pyd Result :=
  match deps.adapter providerName with
  | none => pure (unwiredResult py job providerName)
  | some provider =>
    callWithRetry py power deps job provider
      (estimateTokens job deps.policy.defaultOutputTokens)

def jobResult : Bus pyd Result :=
  match job.model with
  | none => pure (noModelResult job)
  | some model =>
    match providerFor model with
    | .error _ => pure (unservedResult py job model)
    | .ok providerName => runRouted py power deps job providerName

def processJob : Bus pyd Result := do
  let result ← jobResult py power deps job
  finalizeAndNotify job result

/-! ### The effects of each part, in order -/

theorem callProvider_eq {model : Text} (hModel : job.model = some model) (provider : Provider) :
    (callProvider deps job provider : Bus pyd _) =
      .ask (.call provider.name model job.messages job.params deps.policy.jobTimeoutS) .ret := by
  rw [callProvider, modelOf, hModel]
  rfl

theorem afterCall_ok (provider : Provider) (attempt : Nat) (again : Option (Bus pyd Result))
    (call : ProviderResult) :
    afterCall py power deps job provider attempt again (.ok call) =
      (Program.ofExcept (price py job call)).bind fun cost =>
        .ret (resultOk job provider.name call cost) := rfl

theorem afterCall_retry (provider : Provider) (attempt : Nat) (next : Bus pyd Result)
    {exc : ProviderError} (hRetry : isRetryable exc = true) :
    afterCall py power deps job provider attempt (some next) (.error exc) =
      .ask .rand fun draw : Draw =>
        (Program.ofExcept (backoffDelay power attempt deps.policy.retry draw.value)).bind fun delay =>
          .ask (.sleep delay) fun slept => (Program.ofExcept slept).bind fun _ => next := by
  simp only [afterCall, hRetry]
  rfl

theorem afterCall_final (provider : Provider) (attempt : Nat) {again : Option (Bus pyd Result)}
    {exc : ProviderError} (hFinal : ¬ (isRetryable exc = true ∧ again.isSome = true)) :
    afterCall py power deps job provider attempt again (.error exc) =
      .ret (resultError job (some provider.name) (describe exc)) := by
  simp only [afterCall]
  cases hRetry : isRetryable exc with
  | false => rfl
  | true =>
    cases again with
    | none => rfl
    | some next => exact absurd ⟨hRetry, rfl⟩ hFinal

theorem runAttempt_eq (provider : Provider) (estimate attempt : Nat)
    (again : Option (Bus pyd Result)) :
    runAttempt py power deps job provider estimate attempt again =
      .ask .now fun before => (Program.ofExcept (isExpired job before)).bind fun expired =>
        if expired then .ret (expiredResult py job provider.name attempt)
        else .ask (.acquire provider.name estimate) fun reserved =>
          (Program.ofExcept reserved).bind fun _ =>
            .ask .now fun after => (Program.ofExcept (isExpired job after)).bind fun expired =>
              if expired then .ret (expiredResult py job provider.name attempt)
              else (callProvider deps job provider).bind
                (afterCall py power deps job provider attempt again) := rfl

theorem finalizeAndNotify_eq (result : Result) :
    (finalizeAndNotify job result : Bus pyd Result) =
      .ask .storeClock fun completedAt =>
        .ask (.finalize result completedAt) fun reply => (Program.ofExcept reply).bind fun finalized =>
          match finalized, job.callbackUrl with
          | true, some url => .ask (.deliverCallback url result) fun _ => .ret result
          | _, _ => .ret result := rfl

theorem jobResult_eq_runRouted {model name : Text} (hModel : job.model = some model)
    (hRoute : providerFor model = .ok name) :
    (jobResult py power deps job : Bus pyd Result) = runRouted py power deps job name := by
  rw [jobResult, hModel]
  simp only [hRoute]

/-! ### What every result of a job carries -/

/-- A request of the retry loop; none of them reaches the store or the topic. -/
def ProviderSide : BusOp pyd → Prop
  | .now => True
  | .acquire .. => True
  | .call .. => True
  | .rand => True
  | .sleep _ => True
  | _ => False

/-- The result is the job's own, and its cost the price of its tokens at the job's model and
date. -/
structure Billed (result : Result) : Prop where
  jobId : result.jobId = job.jobId
  ok : result.status = .ok → ∃ model cost, job.model = some model ∧
    costUsd py model result.usage.inputTokens result.usage.outputTokens job.submittedAt.date =
      .ok cost ∧ result.usage.costUsd = .finite cost
  error : result.status = .error → result.usage = .zero

/-- How a result of the job comes about. -/
inductive Made : Result → Prop where
  | ok {call : ProviderResult} {cost : ℚ} (hCost : price py job call = .ok cost)
      (providerName : Text) : Made (resultOk job providerName call cost)
  | error (providerName : Option Text) (error : Text) : Made (resultError job providerName error)

theorem Made.billed {result : Result} (h : Made py job result) : Billed py job result := by
  cases h with
  | error providerName error =>
    exact
      { jobId := rfl
        ok := fun h => by cases h
        error := fun _ => rfl }
  | @ok call cost hCost providerName =>
    obtain ⟨model, hModel, hPrice⟩ := bind_eq_ok_iff.mp hCost
    have hJob : job.model = some model := by
      unfold modelOf at hModel
      cases hJob : job.model with
      | none =>
        rw [hJob] at hModel
        cases hModel
      | some m =>
        rw [hJob] at hModel
        cases hModel
        rfl
    exact
      { jobId := rfl
        ok := fun _ => ⟨model, cost, hJob, hPrice, rfl⟩
        error := fun h => by cases h }

theorem Made.metadata {result : Result} (h : Made py job result) :
    result.metadata = job.metadata := by
  cases h with
  | ok hCost providerName => rfl
  | error providerName error => rfl

theorem Billed.isNan {result : Result} (h : Billed py job result) :
    result.usage.costUsd.isNan = false := by
  cases hStatus : result.status with
  | ok =>
    obtain ⟨_, cost, _, _, hCost⟩ := h.ok hStatus
    rw [hCost]
    rfl
  | error =>
    rw [h.error hStatus]
    rfl

theorem every_afterCall (provider : Provider) (attempt : Nat) {again : Option (Bus pyd Result)}
    (hAgain : ∀ next, again = some next → Every ProviderSide (Made py job) next)
    (outcome : Except ProviderError ProviderResult) :
    Every ProviderSide (Made py job)
      (afterCall py power deps job provider attempt again outcome) := by
  cases outcome with
  | ok call =>
    rw [afterCall_ok]
    exact (every_ofExcept fun _ h => h).bind fun cost hCost => .ok hCost _
  | error exc =>
    by_cases hRetry : isRetryable exc = true ∧ again.isSome = true
    · obtain ⟨hRetryable, hSome⟩ := hRetry
      obtain ⟨next, rfl⟩ := Option.isSome_iff_exists.mp hSome
      rw [afterCall_retry _ _ _ _ _ _ _ hRetryable]
      refine ⟨trivial, fun draw => ?_⟩
      refine Every.bind (P := fun _ => True) (every_ofExcept fun _ _ => trivial) fun delay _ => ?_
      refine ⟨trivial, fun slept => ?_⟩
      exact Every.bind (P := fun _ => True) (every_ofExcept fun _ _ => trivial) fun _ _ =>
        hAgain next rfl
    · rw [afterCall_final _ _ _ _ _ _ hRetry]
      exact .error _ _

theorem every_runAttempt (provider : Provider) (estimate attempt : Nat)
    {again : Option (Bus pyd Result)}
    (hAgain : ∀ next, again = some next → Every ProviderSide (Made py job) next) :
    Every ProviderSide (Made py job)
      (runAttempt py power deps job provider estimate attempt again) := by
  have hAny : ∀ {α : Type} (r : Except PyError α),
      Every ProviderSide (fun _ => True) (Program.ofExcept r : Bus pyd α) :=
    fun r => every_ofExcept fun _ _ => trivial
  rw [runAttempt_eq]
  refine ⟨trivial, fun before => (hAny _).bind fun expired _ => ?_⟩
  split
  · exact .error _ _
  · refine ⟨trivial, fun reserved => (hAny _).bind fun _ _ => ?_⟩
    refine ⟨trivial, fun after => (hAny _).bind fun expired _ => ?_⟩
    split
    · exact .error _ _
    · refine Every.bind (P := fun _ => True) ?_ fun outcome _ =>
        every_afterCall py power deps job provider attempt hAgain outcome
      unfold callProvider
      split
      · trivial
      · exact ⟨trivial, fun _ => trivial⟩

theorem every_callLoop (provider : Provider) (estimate retries attempt : Nat) :
    Every ProviderSide (Made py job)
      (callLoop py power deps job provider estimate retries attempt : Bus pyd Result) := by
  induction retries generalizing attempt with
  | zero => exact every_runAttempt py power deps job provider estimate attempt fun _ h => by cases h
  | succ retries ih =>
    apply every_runAttempt py power deps job provider estimate attempt
    intro next h
    cases h
    exact ih _

theorem every_jobResult_made :
    Every ProviderSide (Made py job) (jobResult py power deps job : Bus pyd Result) := by
  unfold jobResult
  split
  · exact .error _ _
  · split
    · exact .error _ _
    · unfold runRouted
      split
      · exact .error _ _
      · exact every_callLoop py power deps job _ _ _ _

theorem every_jobResult :
    Every ProviderSide (Billed py job) (jobResult py power deps job : Bus pyd Result) :=
  (every_jobResult_made py power deps job).mono fun _ hMade => hMade.billed

end Effects

end LlmBus
