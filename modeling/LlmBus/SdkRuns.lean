import LlmBus.AdapterContracts
import LlmBus.RetryTrace

/-! # What a delivery asks of the SDK

The calls of one delivery, read off its events, and through the adapters the requests
that reach an SDK client and what becomes of the responses.
-/

namespace LlmBus

open Foundation Interaction

abbrev CallReply := Except ProviderError ProviderResult

variable {pyd : Pydantic}

/-- The reply, where the event is a provider call. -/
def calledOf : BusEvent pyd → Option CallReply
  | ⟨.call .., reply⟩ => some reply
  | _ => none

def Retryable (called : CallReply) : Prop :=
  ∃ e, called = .error e ∧ isRetryable e = true

/-! ### The calls of the retry loop -/

section Calls

variable (py : Interpreter) (job : Job) (provider : Provider)

/-- How the calls of a loop that returns lead to its result. -/
inductive ClosedBy : List CallReply → Result → Prop where
  | expired {calls : List CallReply} (hAll : ∀ called ∈ calls, Retryable called) (attempt : Nat) :
      ClosedBy calls (expiredResult py job provider.name attempt)
  | returned (before : List CallReply) {call : ProviderResult} {cost : ℚ}
      (hCost : price py job call = .ok cost) :
      ClosedBy (before ++ [.ok call]) (resultOk job provider.name call cost)
  | failed (before : List CallReply) (e : ProviderError) :
      ClosedBy (before ++ [.error e]) (resultError job (some provider.name) (describe e))

/-- At most `limit` calls, all but the last failed in a way worth a retry. -/
structure CallsOf (limit : Nat) (calls : List CallReply) (outcome : Except PyError Result) : Prop where
  bounded : calls.length ≤ limit
  retried : ∀ called ∈ calls.dropLast, Retryable called
  closed : ∀ result, outcome = .ok result → ClosedBy py job provider calls result

variable {py job provider} {power : Power} {deps : WorkerDeps}

theorem CallsOf.one {calls : List CallReply} {outcome : Except PyError Result}
    (hOne : calls.length ≤ 1)
    (hClosed : ∀ result, outcome = .ok result → ClosedBy py job provider calls result) :
    CallsOf py job provider 1 calls outcome where
  bounded := hOne
  retried called hCalled := by
    have hLength := List.length_pos_of_mem hCalled
    rw [List.length_dropLast] at hLength
    omega
  closed := hClosed

theorem CallsOf.cons {called : CallReply} (hCalled : Retryable called) {limit : Nat}
    {calls : List CallReply} {outcome : Except PyError Result}
    (h : CallsOf py job provider limit calls outcome) :
    CallsOf py job provider (limit + 1) (called :: calls) outcome where
  bounded := Nat.succ_le_succ h.bounded
  retried other hOther := by
    cases calls with
    | nil => cases hOther
    | cons first rest =>
      rw [List.dropLast_cons_cons] at hOther
      cases List.mem_cons.mp hOther with
      | inl hSame =>
        rw [hSame]
        exact hCalled
      | inr hLater => exact h.retried other hLater
  closed result hResult := by
    cases h.closed result hResult with
    | expired hAll attempt =>
      refine .expired (fun other hOther => ?_) attempt
      cases List.mem_cons.mp hOther with
      | inl hSame =>
        rw [hSame]
        exact hCalled
      | inr hLater => exact hAll other hLater
    | returned before hCost => exact .returned (called :: before) hCost
    | failed before e => exact .failed (called :: before) e

/-- A computation that asks for nothing either ends the run or hands on its value. -/
theorem yields_ofExcept_bind {I : Interface} {ε α β : Type} {x : Except ε α}
    {f : α → Program I ε β} {trace : List (Event I)} {outcome : Except ε β}
    (h : Yields ((Program.ofExcept x).bind f) trace outcome) :
    (∃ e, x = .error e ∧ trace = [] ∧ outcome = .error e) ∨ ∃ a, x = .ok a ∧ Yields (f a) trace outcome := by
  cases x with
  | ok a => exact .inr ⟨a, rfl, h⟩
  | error e =>
    cases h
    exact .inl ⟨e, rfl, rfl, rfl⟩

theorem calledOf_nil {outcome : Except PyError Result} (events : List (BusEvent pyd))
    (hNone : events.filterMap calledOf = [])
    (hExpired : ∀ result, outcome = .ok result → ∃ k, result = expiredResult py job provider.name k) :
    CallsOf py job provider 1 (events.filterMap calledOf) outcome := by
  rw [hNone]
  refine .one (Nat.zero_le _) fun result hResult => ?_
  obtain ⟨k, rfl⟩ := hExpired result hResult
  exact .expired (fun _ hNil => (List.not_mem_nil hNil).elim) k

theorem afterCall_calls {attempt : Nat} {again : Option (Bus pyd Result)} {called : CallReply}
    {events : List (BusEvent pyd)} {outcome : Except PyError Result}
    (h : Yields (afterCall py power deps job provider attempt again called) events outcome) :
    (events.filterMap calledOf = [] ∧ ∀ result, outcome = .ok result →
        ClosedBy py job provider [called] result) ∨
      (∃ next rest, again = some next ∧ Retryable called ∧
        events.filterMap calledOf = rest.filterMap calledOf ∧ Yields next rest outcome) := by
  cases called with
  | ok call =>
    rw [afterCall_ok] at h
    obtain ⟨e, _, rfl, rfl⟩ | ⟨cost, hCost, hRet⟩ := yields_ofExcept_bind h
    · exact .inl ⟨rfl, fun result hResult => by cases hResult⟩
    · obtain ⟨rfl, rfl⟩ := yields_ret_iff.mp hRet
      refine .inl ⟨rfl, fun result hResult => ?_⟩
      cases hResult
      exact .returned [] hCost
  | error e =>
    by_cases hRetry : isRetryable e = true ∧ again.isSome = true
    · obtain ⟨hRetryable, hSome⟩ := hRetry
      obtain ⟨next, rfl⟩ := Option.isSome_iff_exists.mp hSome
      rw [afterCall_retry _ _ _ _ _ _ _ hRetryable, yields_ask_iff] at h
      obtain ⟨draw, rest, rfl, hPause⟩ := h
      obtain ⟨_, _, rfl, rfl⟩ | ⟨delay, _, hSleep⟩ := yields_ofExcept_bind hPause
      · exact .inl ⟨rfl, fun result hResult => by cases hResult⟩
      · obtain ⟨slept, rest, rfl, hSlept⟩ := yields_ask_iff.mp hSleep
        obtain ⟨_, _, rfl, rfl⟩ | ⟨_, _, hNext⟩ := yields_ofExcept_bind hSlept
        · exact .inl ⟨rfl, fun result hResult => by cases hResult⟩
        · exact .inr ⟨next, rest, rfl, ⟨e, rfl, hRetryable⟩, rfl, hNext⟩
    · rw [afterCall_final _ _ _ _ _ _ hRetry] at h
      obtain ⟨rfl, rfl⟩ := yields_ret_iff.mp h
      refine .inl ⟨rfl, fun result hResult => ?_⟩
      cases hResult
      exact .failed [] e

theorem runAttempt_calls {model : Text} (hModel : job.model = some model) {estimate attempt : Nat}
    {again : Option (Bus pyd Result)} {events : List (BusEvent pyd)}
    {outcome : Except PyError Result}
    (h : Yields (runAttempt py power deps job provider estimate attempt again) events outcome) :
    CallsOf py job provider 1 (events.filterMap calledOf) outcome ∨
      ∃ next called rest, again = some next ∧ Retryable called ∧
        events.filterMap calledOf = called :: rest.filterMap calledOf ∧ Yields next rest outcome := by
  rw [runAttempt_eq, yields_ask_iff] at h
  obtain ⟨before, rest, rfl, hBefore⟩ := h
  obtain ⟨_, _, rfl, rfl⟩ | ⟨expired, _, hAcquire⟩ := yields_ofExcept_bind hBefore
  · exact .inl (calledOf_nil _ rfl fun result hResult => by cases hResult)
  split at hAcquire
  · obtain ⟨rfl, rfl⟩ := yields_ret_iff.mp hAcquire
    refine .inl (calledOf_nil _ rfl fun result hResult => ?_)
    cases hResult
    exact ⟨attempt, rfl⟩
  obtain ⟨reserved, rest, rfl, hReserved⟩ := yields_ask_iff.mp hAcquire
  obtain ⟨_, _, rfl, rfl⟩ | ⟨_, _, hNow⟩ := yields_ofExcept_bind hReserved
  · exact .inl (calledOf_nil _ rfl fun result hResult => by cases hResult)
  obtain ⟨after, rest, rfl, hAfter⟩ := yields_ask_iff.mp hNow
  obtain ⟨_, _, rfl, rfl⟩ | ⟨expired, _, hCall⟩ := yields_ofExcept_bind hAfter
  · exact .inl (calledOf_nil _ rfl fun result hResult => by cases hResult)
  split at hCall
  · obtain ⟨rfl, rfl⟩ := yields_ret_iff.mp hCall
    refine .inl (calledOf_nil _ rfl fun result hResult => ?_)
    cases hResult
    exact ⟨attempt, rfl⟩
  rw [callProvider_eq deps job hModel, Program.ask_bind, yields_ask_iff] at hCall
  obtain ⟨called, rest, rfl, hCalled⟩ := hCall
  rw [Program.ret_bind] at hCalled
  obtain ⟨hNone, hClosed⟩ | ⟨next, rest', hAgain, hRetryable, hRest, hNext⟩ :=
    afterCall_calls hCalled
  · have hCalls : List.filterMap calledOf (⟨.now, before⟩ :: ⟨.acquire provider.name estimate, reserved⟩ ::
        ⟨.now, after⟩ :: ⟨.call provider.name model job.messages job.params deps.policy.jobTimeoutS,
          called⟩ :: rest) = [called] := by
      simp only [List.filterMap_cons, calledOf, hNone]
    rw [hCalls]
    exact .inl (.one (Nat.le_refl _) hClosed)
  · refine .inr ⟨next, called, rest', hAgain, hRetryable, ?_, hNext⟩
    rw [← hRest]
    rfl

theorem callLoop_calls {model : Text} (hModel : job.model = some model) {estimate retries attempt : Nat}
    {events : List (BusEvent pyd)} {outcome : Except PyError Result}
    (h : Yields (callLoop py power deps job provider estimate retries attempt) events outcome) :
    CallsOf py job provider (retries + 1) (events.filterMap calledOf) outcome := by
  induction retries generalizing attempt events with
  | zero =>
    obtain hLast | ⟨next, _, _, hNext, _⟩ := runAttempt_calls hModel h
    · exact hLast
    · cases hNext
  | succ retries ih =>
    obtain hLast | ⟨next, called, rest, hNext, hRetryable, hCalls, hRest⟩ := runAttempt_calls hModel h
    · exact ⟨hLast.bounded.trans (Nat.le_add_left 1 _), hLast.retried, hLast.closed⟩
    · cases hNext
      rw [hCalls]
      exact (ih hRest).cons hRetryable

def isCall : BusOp pyd → Bool
  | .call .. => true
  | _ => false

abbrev jobCall (deps : WorkerDeps) (job : Job) (model : Text) (provider : Provider) : BusOp pyd :=
  .call provider.name model job.messages job.params deps.policy.jobTimeoutS

/-- A call asks for what the job asks for. -/
def OwnCall (deps : WorkerDeps) (job : Job) (model : Text) (provider : Provider) (op : BusOp pyd) :
    Prop :=
  op = jobCall deps job model provider ∨ isCall op = false

theorem every_afterCall_own {model : Text} {attempt : Nat} {again : Option (Bus pyd Result)}
    (hAgain : ∀ next, again = some next →
      Every (OwnCall deps job model provider) (fun _ => True) next) (called : CallReply) :
    Every (OwnCall deps job model provider) (fun _ => True)
      (afterCall py power deps job provider attempt again called) := by
  have hAny : ∀ {α : Type} (x : Except PyError α),
      Every (OwnCall deps job model provider) (fun _ => True) (Program.ofExcept x : Bus pyd α) :=
    fun x => every_ofExcept fun _ _ => trivial
  cases called with
  | ok call =>
    rw [afterCall_ok]
    exact (hAny _).bind fun _ _ => trivial
  | error e =>
    by_cases hRetry : isRetryable e = true ∧ again.isSome = true
    · obtain ⟨next, rfl⟩ := Option.isSome_iff_exists.mp hRetry.2
      rw [afterCall_retry _ _ _ _ _ _ _ hRetry.1]
      refine ⟨.inr rfl, fun draw => (hAny _).bind fun delay _ => ?_⟩
      refine ⟨.inr rfl, fun slept => (hAny _).bind fun _ _ => ?_⟩
      exact hAgain next rfl
    · rw [afterCall_final _ _ _ _ _ _ hRetry]
      trivial

theorem every_runAttempt_own {model : Text} (hModel : job.model = some model)
    {estimate attempt : Nat} {again : Option (Bus pyd Result)}
    (hAgain : ∀ next, again = some next →
      Every (OwnCall deps job model provider) (fun _ => True) next) :
    Every (OwnCall deps job model provider) (fun _ => True)
      (runAttempt py power deps job provider estimate attempt again) := by
  have hAny : ∀ {α : Type} (x : Except PyError α),
      Every (OwnCall deps job model provider) (fun _ => True) (Program.ofExcept x : Bus pyd α) :=
    fun x => every_ofExcept fun _ _ => trivial
  rw [runAttempt_eq]
  refine ⟨.inr rfl, fun before => (hAny _).bind fun expired _ => ?_⟩
  split
  · trivial
  · refine ⟨.inr rfl, fun reserved => (hAny _).bind fun _ _ => ?_⟩
    refine ⟨.inr rfl, fun after => (hAny _).bind fun expired _ => ?_⟩
    split
    · trivial
    · rw [callProvider_eq deps job hModel]
      exact ⟨.inl rfl, fun called => every_afterCall_own hAgain called⟩

theorem every_callLoop_own {model : Text} (hModel : job.model = some model)
    {estimate retries attempt : Nat} :
    Every (OwnCall deps job model provider) (fun _ => True)
      (callLoop py power deps job provider estimate retries attempt : Bus pyd Result) := by
  induction retries generalizing attempt with
  | zero => exact every_runAttempt_own hModel fun _ h => by cases h
  | succ retries ih =>
    refine every_runAttempt_own hModel fun next h => ?_
    cases h
    exact ih

end Calls

/-! ### The whole delivery -/

section Delivery

variable {py : Interpreter} {power : Power} {deps : WorkerDeps} {job : Job} {model name : Text}
  {provider : Provider}

theorem jobResult_eq_callLoop (hModel : job.model = some model) (hRoute : providerFor model = .ok name)
    (hAdapter : deps.adapter name = some provider) :
    (jobResult py power deps job : Bus pyd Result) =
      callLoop py power deps job provider (estimateTokens job deps.policy.defaultOutputTokens)
        (deps.policy.retry.maxAttempts - 1) 0 := by
  rw [jobResult_eq_runRouted py power deps job hModel hRoute, runRouted, hAdapter]
  rfl

/-- A job that no adapter serves makes no request at all on its way to a result. -/
theorem jobResult_unserved (h : ¬ ∃ model name provider, job.model = some model ∧
      providerFor model = .ok name ∧ deps.adapter name = some provider) :
    ∃ result, (jobResult py power deps job : Bus pyd Result) = .ret result := by
  unfold jobResult
  split
  · exact ⟨_, rfl⟩
  · rename_i model hModel
    split
    · exact ⟨_, rfl⟩
    · rename_i name hRoute
      unfold runRouted
      split
      · exact ⟨_, rfl⟩
      · rename_i provider hAdapter
        exact absurd ⟨model, name, provider, hModel, hRoute, hAdapter⟩ h

/-- A request of `finalizeAndNotify`: no call, and no row but the result's own. -/
def Notifies (result : Result) (op : BusOp pyd) : Prop :=
  isCall op = false ∧ ∀ result' completedAt, op = .finalize result' completedAt → result' = result

theorem every_finalizeAndNotify (result : Result) :
    Every (Notifies result) (· = result) (finalizeAndNotify job result : Bus pyd Result) := by
  rw [finalizeAndNotify_eq]
  refine ⟨⟨rfl, fun _ _ h => by cases h⟩, fun completedAt => ⟨⟨rfl, fun _ _ h => ?_⟩, fun reply => ?_⟩⟩
  · cases h
    rfl
  · refine Every.bind (P := fun _ => True) (every_ofExcept fun _ _ => trivial) fun finalized _ => ?_
    split
    · exact ⟨⟨rfl, fun _ _ h => by cases h⟩, fun _ => rfl⟩
    · rfl

theorem filterMap_calledOf_eq_nil {events : List (BusEvent pyd)}
    (h : ∀ event ∈ events, isCall event.op = false) : events.filterMap calledOf = [] := by
  rw [List.filterMap_eq_nil_iff]
  intro event hEvent
  have hNone := h event hEvent
  obtain ⟨op, reply⟩ := event
  cases op with
  | call provider model messages params timeoutS => cases hNone
  | _ => rfl

/-- The events of a delivery: those of the job's result, then the row and the callback, whose
result is that one. -/
theorem processJob_events {events : List (BusEvent pyd)} {outcome : Except PyError Result}
    (h : Yields (processJob py power deps job) events outcome) :
    ∃ made first rest, Yields (jobResult py power deps job) first made ∧ events = first ++ rest ∧
      (∀ event ∈ rest, isCall event.op = false) ∧
      (∀ result completedAt reply, ⟨.finalize result completedAt, reply⟩ ∈ events →
        made = .ok result) ∧
      ∀ result, outcome = .ok result → made = .ok result := by
  have hSide : ∀ {first made}, Yields (jobResult py power deps job : Bus pyd Result) first made →
      ∀ result completedAt reply, ⟨.finalize result completedAt, reply⟩ ∉ first := by
    intro first made hFirst result completedAt reply hMem
    exact ((every_jobResult py power deps job).event hFirst).1 _ hMem
  obtain ⟨e, hFail, rfl⟩ | ⟨result, first, rest, hFirst, hRest, rfl⟩ := yields_bind_iff.mp h
  · refine ⟨.error e, events, [], hFail, (List.append_nil events).symm, ?_, ?_, ?_⟩
    · exact fun event hNil => (List.not_mem_nil hNil).elim
    · exact fun result completedAt reply hMem => absurd hMem (hSide hFail _ _ _)
    · exact fun result hResult => by cases hResult
  · obtain ⟨hOps, hResult⟩ := (every_finalizeAndNotify result).event hRest
    refine ⟨.ok result, first, rest, hFirst, rfl, fun event hEvent => (hOps event hEvent).1, ?_, ?_⟩
    · intro result' completedAt reply hMem
      cases List.mem_append.mp hMem with
      | inl hIn => exact absurd hIn (hSide hFirst _ _ _)
      | inr hIn => rw [(hOps _ hIn).2 result' completedAt rfl]
    · intro result' hOk
      rw [hResult result' hOk]

end Delivery

/-! ### Through the adapters -/

abbrev SdkEvent (pyd : Pydantic) := Event (sdkInterface pyd)

def isCreate : SdkEvent pyd → Bool
  | ⟨.create .., _⟩ => true
  | ⟨.bus _, _⟩ => false

/-- The requests that reach an SDK client, each with what came back. -/
def sdkEvents (trace : List (SdkEvent pyd)) : List (SdkEvent pyd) :=
  trace.filter isCreate

def created (client : SdkClient) (request : Entries) (timeoutS : Double)
    (reply : Except ProviderError client.Response) : SdkEvent pyd :=
  ⟨.create client request timeoutS, reply⟩

section Adapters

variable {py : Interpreter} {deps : WorkerDeps} {job : Job} {model : Text} {client : SdkClient}
  {provider : Provider} {events : List (BusEvent pyd)} {trace : List (SdkEvent pyd)}

@[simp] theorem clientOf_name (client : SdkClient) : clientOf client.name = some client := by
  cases client with
  | openai => rfl
  | anthropic => decide

theorem overSdk_of_not_call {op : BusOp pyd} (h : isCall op = false) :
    overSdk py op = .ask (.bus op) .ret := by
  cases op with
  | call provider model messages params timeoutS => cases h
  | _ => rfl

theorem overSdk_jobCall (hName : provider.name = client.name) :
    (overSdk py (jobCall deps job model provider) : Program (sdkInterface pyd) Empty CallReply) =
      adapterCall py client model job.messages job.params deps.policy.jobTimeoutS := by
  simp only [jobCall, overSdk, hName, clientOf_name]

theorem yields_bus_iff {op : BusOp pyd} {reply : op.Reply} {part : List (SdkEvent pyd)} :
    Yields (.ask (.bus op) .ret : Program (sdkInterface pyd) Empty op.Reply) part (.ok reply) ↔
      part = [⟨.bus op, reply⟩] := by
  rw [yields_ask_iff]
  constructor
  · rintro ⟨r, rest, rfl, h⟩
    cases h
    rfl
  · rintro rfl
    exact ⟨reply, [], rfl, .ret reply⟩

theorem calledOf_of_not_call {op : BusOp pyd} (h : isCall op = false) (reply : op.Reply) :
    calledOf ⟨op, reply⟩ = none := by
  cases op with
  | call provider model messages params timeoutS => cases h
  | _ => rfl

/-- Where the adapter can build the request, each call is one request, and what the call returns
is read from the response. -/
theorem sdkEvents_of_request {request : Entries} (hName : provider.name = client.name)
    (hRequest : client.request py model job.messages job.params = .ok request)
    (hOwn : ∀ event ∈ events, OwnCall deps job model provider event.op)
    (h : CarriedOut (overSdk py) events trace) :
    ∃ replies : List (Except ProviderError client.Response),
      sdkEvents trace = replies.map (created client request deps.policy.jobTimeoutS) ∧
        events.filterMap calledOf = replies.map fun reply => reply.bind (client.read py) := by
  induction h with
  | nil => exact ⟨[], rfl, rfl⟩
  | @cons op called part events trace hPart hRest ih =>
    obtain ⟨replies, hEvents, hCalls⟩ := ih fun event hEvent => hOwn event (List.mem_cons_of_mem _ hEvent)
    cases hOwn _ List.mem_cons_self with
    | inl hCall =>
      obtain rfl : op = _ := hCall
      rw [overSdk_jobCall hName, adapterCall, hRequest] at hPart
      obtain ⟨reply, rest, rfl, hRet⟩ := yields_ask_iff.mp hPart
      cases hRet
      refine ⟨reply :: replies, ?_, ?_⟩
      · rw [List.map_cons, ← hEvents]
        rfl
      · rw [List.map_cons, ← hCalls]
        rfl
    | inr hOther =>
      rw [overSdk_of_not_call hOther] at hPart
      rw [yields_bus_iff.mp hPart]
      refine ⟨replies, hEvents, ?_⟩
      rw [List.filterMap_cons, calledOf_of_not_call hOther, hCalls]

/-- Where it cannot, no request reaches the client and every call fails in the same way. -/
theorem sdkEvents_of_refused {e : ProviderError} (hName : provider.name = client.name)
    (hRequest : client.request py model job.messages job.params = .error e)
    (hOwn : ∀ event ∈ events, OwnCall deps job model provider event.op)
    (h : CarriedOut (overSdk py) events trace) :
    sdkEvents trace = [] ∧ ∀ called ∈ events.filterMap calledOf, called = .error e := by
  induction h with
  | nil => exact ⟨rfl, fun called hNil => (List.not_mem_nil hNil).elim⟩
  | @cons op called part events trace hPart hRest ih =>
    obtain ⟨hNone, hCalls⟩ := ih fun event hEvent => hOwn event (List.mem_cons_of_mem _ hEvent)
    cases hOwn _ List.mem_cons_self with
    | inl hCall =>
      obtain rfl : op = _ := hCall
      rw [overSdk_jobCall hName, adapterCall, hRequest] at hPart
      cases hPart
      refine ⟨hNone, fun called hCalled => ?_⟩
      cases List.mem_cons.mp hCalled with
      | inl hSame => exact hSame
      | inr hLater => exact hCalls called hLater
    | inr hOther =>
      rw [overSdk_of_not_call hOther] at hPart
      rw [yields_bus_iff.mp hPart]
      refine ⟨hNone, fun called hCalled => ?_⟩
      rw [List.filterMap_cons, calledOf_of_not_call hOther] at hCalled
      exact hCalls called hCalled

theorem mem_of_bus_mem (h : CarriedOut (overSdk py) events trace) {op : BusOp pyd} {reply : op.Reply}
    (hMem : (⟨.bus op, reply⟩ : SdkEvent pyd) ∈ trace) : ⟨op, reply⟩ ∈ events := by
  induction h with
  | nil => cases hMem
  | @cons op' called part events trace hPart hRest ih =>
    cases List.mem_append.mp hMem with
    | inr hLater => exact List.mem_cons_of_mem _ (ih hLater)
    | inl hHere =>
      have hBus : Yields (.ask (.bus op') .ret : Program (sdkInterface pyd) Empty op'.Reply) part
          (.ok called) → (⟨op, reply⟩ : BusEvent pyd) ∈ ⟨op', called⟩ :: events := by
        intro hAsk
        rw [yields_bus_iff.mp hAsk] at hHere
        cases List.mem_singleton.mp hHere
        exact List.mem_cons_self
      cases hOp : isCall op' with
      | false =>
        rw [overSdk_of_not_call hOp] at hPart
        exact hBus hPart
      | true =>
        cases op' with
        | call name model messages params timeoutS =>
          simp only [overSdk] at hPart
          split at hPart
          · unfold adapterCall at hPart
            split at hPart
            · cases hPart
              cases hHere
            · obtain ⟨reply', rest, rfl, hRet⟩ := yields_ask_iff.mp hPart
              cases hRet
              cases List.mem_singleton.mp hHere
          · exact hBus hPart
        | _ => cases hOp

end Adapters

/-! ### What a delivery asks of the clients, and what it makes of the answers -/

section Outcome

variable (py : Interpreter) (deps : WorkerDeps) (job : Job)

/-- The job goes to this provider of the worker. -/
structure Serves (model : Text) (client : SdkClient) (provider : Provider) : Prop where
  named : job.model = some model
  route : providerFor model = .ok client.name
  adapter : deps.adapter client.name = some provider

inductive SdkUse (trace : List (SdkEvent pyd)) (made : Except PyError Result) : Prop where
  | unserved (hNone : sdkEvents trace = [])
      (hError : ∀ result, made = .ok result → result.status = .error)
  | refused {model : Text} {client : SdkClient} {provider : Provider} {e : ProviderError}
      {calls : List CallReply} (hServes : Serves deps job model client provider)
      (hRequest : client.request py model job.messages job.params = .error e)
      (hNone : sdkEvents trace = [])
      (hCalls : CallsOf py job provider deps.policy.retry.maxAttempts calls made)
      (hAll : ∀ called ∈ calls, called = .error e)
  | used {model : Text} {client : SdkClient} {provider : Provider} {request : Entries}
      (hServes : Serves deps job model client provider)
      (hRequest : client.request py model job.messages job.params = .ok request)
      (replies : List (Except ProviderError client.Response))
      (hEvents : sdkEvents trace = replies.map (created client request deps.policy.jobTimeoutS))
      (hCalls : CallsOf py job provider deps.policy.retry.maxAttempts
        (replies.map fun reply => reply.bind (client.read py)) made)

variable {py deps job} {power : Power} {trace : List (SdkEvent pyd)} {outcome : Except PyError Result}

theorem exists_client_of_route {model name : Text} (h : providerFor model = .ok name) :
    ∃ client : SdkClient, name = client.name := by
  cases providerFor_eq_ok h with
  | inl hOpenai => exact ⟨.openai, hOpenai⟩
  | inr hAnthropic => exact ⟨.anthropic, hAnthropic⟩

theorem status_of_unserved {result : Result}
    (h : (jobResult py power deps job : Bus pyd Result) = .ret result)
    (hUnserved : ¬ ∃ model name provider, job.model = some model ∧ providerFor model = .ok name ∧
      deps.adapter name = some provider) : result.status = .error := by
  unfold jobResult at h
  split at h
  · cases h
    rfl
  · rename_i model hModel
    split at h
    · cases h
      rfl
    · rename_i name hRoute
      unfold runRouted at h
      split at h
      · cases h
        rfl
      · rename_i provider hAdapter
        exact absurd ⟨model, name, provider, hModel, hRoute, hAdapter⟩ hUnserved

theorem sdkEvents_eq_nil {events : List (BusEvent pyd)}
    (hNone : ∀ event ∈ events, isCall event.op = false) (h : CarriedOut (overSdk py) events trace) :
    sdkEvents trace = [] := by
  induction h with
  | nil => rfl
  | @cons op called part events trace hPart hRest ih =>
    rw [overSdk_of_not_call (hNone _ List.mem_cons_self)] at hPart
    rw [yields_bus_iff.mp hPart]
    exact ih fun event hEvent => hNone event (List.mem_cons_of_mem _ hEvent)

/-- A delivery over the SDK: how it uses the clients, and that the row it writes is the result it
made of them. -/
theorem delivery_sdkUse (h : Yields (handle (overSdk py) (processJob py power deps job)) trace outcome) :
    ∃ made, SdkUse py deps job trace made ∧
      (∀ result completedAt reply, ⟨.bus (.finalize result completedAt), reply⟩ ∈ trace →
        made = .ok result) ∧
      ∀ result, outcome = .ok result → made = .ok result := by
  obtain ⟨events, hEvents, hCarried⟩ := (yields_handle_iff _).mp h
  obtain ⟨made, first, rest, hFirst, rfl, hQuiet, hRow, hOutcome⟩ := processJob_events hEvents
  refine ⟨made, ?_, fun result completedAt reply hMem => ?_, hOutcome⟩
  · by_cases hServed : ∃ model name provider, job.model = some model ∧ providerFor model = .ok name ∧
        deps.adapter name = some provider
    · obtain ⟨model, name, provider, hModel, hRoute, hAdapter⟩ := hServed
      obtain ⟨client, rfl⟩ := exists_client_of_route hRoute
      have hName : provider.name = client.name := WorkerDeps.name_of_adapter hAdapter
      rw [jobResult_eq_callLoop hModel hRoute hAdapter] at hFirst
      have hCalls := callLoop_calls hModel hFirst
      have hOwnFirst := ((every_callLoop_own hModel).event hFirst).1
      have hOwn : ∀ event ∈ first ++ rest, OwnCall deps job model provider event.op := by
        intro event hEvent
        cases List.mem_append.mp hEvent with
        | inl hIn => exact hOwnFirst event hIn
        | inr hIn => exact .inr (hQuiet event hIn)
      have hAllCalls : (first ++ rest).filterMap calledOf = first.filterMap calledOf := by
        rw [List.filterMap_append, filterMap_calledOf_eq_nil hQuiet, List.append_nil]
      rw [Nat.sub_add_cancel deps.policy.retry.maxAttempts_pos, ← hAllCalls] at hCalls
      have hServes : Serves deps job model client provider := ⟨hModel, hRoute, hAdapter⟩
      cases hRequest : client.request py model job.messages job.params with
      | error e =>
        obtain ⟨hNone, hAll⟩ := sdkEvents_of_refused hName hRequest hOwn hCarried
        exact .refused hServes hRequest hNone hCalls hAll
      | ok request =>
        obtain ⟨replies, hSdk, hReplies⟩ := sdkEvents_of_request hName hRequest hOwn hCarried
        rw [hReplies] at hCalls
        exact .used hServes hRequest replies hSdk hCalls
    · obtain ⟨result, hResult⟩ := @jobResult_unserved pyd py power deps job hServed
      have hStatus := status_of_unserved hResult hServed
      rw [hResult] at hFirst
      cases hFirst
      refine .unserved (sdkEvents_eq_nil hQuiet hCarried) fun result' hResult' => ?_
      cases hResult'
      exact hStatus
  · exact hRow result completedAt reply (mem_of_bus_mem hCarried hMem)

theorem not_retryable_of_failsForGood {called : CallReply} (h : FailsForGood called) :
    ¬ Retryable called := by
  rintro ⟨e, rfl, hRetryable⟩
  rw [h e rfl] at hRetryable
  cases hRetryable

/-- A call worth a retry is a request that brought no response. -/
theorem reply_of_retryable {client : SdkClient} {reply : Except ProviderError client.Response}
    (h : Retryable (reply.bind (client.read py))) :
    ∃ e, reply = .error e ∧ isRetryable e = true := by
  cases reply with
  | ok response => exact absurd h (not_retryable_of_failsForGood (read_failsForGood py client response))
  | error e =>
    obtain ⟨e', hError, hRetryable⟩ := h
    cases hError
    exact ⟨e, rfl, hRetryable⟩

/-- The last request of the trace brought this response. -/
def LastResponse (trace : List (SdkEvent pyd)) (client : SdkClient) (response : client.Response) : Prop :=
  ∃ request timeoutS, (sdkEvents trace).getLast? = some (created client request timeoutS (.ok response))

theorem not_lastResponse_of_nil {client : SdkClient} {response : client.Response}
    (hNone : sdkEvents trace = []) : ¬ LastResponse trace client response := by
  rintro ⟨request, timeoutS, hLast⟩
  rw [hNone] at hLast
  cases hLast

/-- What a job makes of the response that its request brought. -/
inductive RowOf (py : Interpreter) (job : Job) (client : SdkClient) (response : client.Response) :
    Result → Prop where
  | ok {call : ProviderResult} {cost : ℚ} (hClean : CleanFinish client response call)
      (hCost : price py job call = .ok cost) :
      RowOf py job client response (resultOk job client.name call cost)
  | error {e : ProviderError} (hRead : client.read py response = .error e) :
      RowOf py job client response (resultError job (some client.name) (describe e))

theorem rowOf_lastCall {client : SdkClient} {provider : Provider} (hName : provider.name = client.name)
    {calls : List CallReply} {result : Result} (hClosed : ClosedBy py job provider calls result)
    {response : client.Response} (hLast : calls.getLast? = some (client.read py response)) :
    RowOf py job client response result := by
  cases hClosed with
  | expired hAll attempt =>
    have hRetryable := hAll _ (List.mem_of_getLast? hLast)
    exact absurd hRetryable (not_retryable_of_failsForGood (read_failsForGood py client response))
  | returned before hCost =>
    rw [List.getLast?_concat, Option.some.injEq] at hLast
    rw [hName]
    exact .ok (read_eq_ok_iff.mp hLast.symm) hCost
  | failed before e =>
    rw [List.getLast?_concat, Option.some.injEq] at hLast
    rw [hName]
    exact .error hLast.symm

/-- Only a response makes a result that is not an error. -/
theorem lastReply_of_ok {client : SdkClient} {provider : Provider}
    {replies : List (Except ProviderError client.Response)} {result : Result}
    {calls : List CallReply} (hReplies : calls = replies.map fun reply => reply.bind (client.read py))
    (hClosed : ClosedBy py job provider calls result) (hOk : result.status = .ok) :
    ∃ response, replies.getLast? = some (.ok response) := by
  cases hClosed with
  | expired hAll attempt => cases hOk
  | failed before e => cases hOk
  | @returned before call cost hCost =>
    have hLast : (replies.map fun reply => reply.bind (client.read py)).getLast? = some (.ok call) := by
      rw [← hReplies, List.getLast?_concat]
    rw [List.getLast?_map, Option.map_eq_some_iff] at hLast
    obtain ⟨reply, hReply, hRead⟩ := hLast
    cases reply with
    | error e => cases hRead
    | ok response => exact ⟨response, hReply⟩

end Outcome

/-! ### One delivery that is answered -/

theorem serves_plainDeps (params : JobParams) :
    Serves plainDeps { plainJob with params := params } (txt "gpt-5") .openai ⟨openai⟩ where
  named := rfl
  route := rfl
  adapter := rfl

def helloResponse : ChatCompletion :=
  ⟨[⟨some (txt "stop"), some (txt "hi")⟩], some ⟨3, 4⟩⟩

def helloRequest : Entries :=
  [(txt "model", .str (txt "gpt-5")), (txt "messages", openaiMessages plainJob.messages)]

def answeredTrace (result : Result) : List (SdkEvent .tree) :=
  [⟨.bus .now, .startOf newYear2026⟩, ⟨.bus (.acquire openai 257), .ok ()⟩,
    ⟨.bus .now, .startOf newYear2026⟩,
    created .openai helloRequest plainPolicy.jobTimeoutS (.ok helloResponse),
    ⟨.bus .storeClock, .startOf newYear2026⟩,
    ⟨.bus (.finalize result (.startOf newYear2026)), .ok true⟩]

theorem yields_answered {cost : ℚ}
    (hCost : price .ascii plainJob ⟨txt "hi", 3, 4⟩ = .ok cost) :
    Yields (handle (overSdk .ascii) (processJob .ascii exactPower plainDeps plainJob))
      (answeredTrace (resultOk plainJob openai ⟨txt "hi", 3, 4⟩ cost))
      (.ok (resultOk plainJob openai ⟨txt "hi", 3, 4⟩ cost)) := by
  have hJob : Yields (jobResult .ascii exactPower plainDeps plainJob : Bus .tree Result)
      (callEvents plainDeps plainJob (txt "gpt-5") ⟨openai⟩ 257 (.startOf newYear2026)
        (.startOf newYear2026) (.ok ⟨txt "hi", 3, 4⟩))
      (.ok (resultOk plainJob openai ⟨txt "hi", 3, 4⟩ cost)) := by
    have hServes := serves_plainDeps plainJob.params
    rw [jobResult_eq_callLoop hServes.named hServes.route hServes.adapter]
    change Yields (runAttempt _ _ _ _ _ _ _ _) _ _
    rw [runAttempt_eq]
    refine .ask _ _ _ (.ask _ _ _ (.ask _ _ _ ?_))
    change Yields ((callProvider plainDeps plainJob ⟨openai⟩).bind _) _ _
    rw [callProvider_eq plainDeps plainJob rfl]
    refine .ask _ _ _ ?_
    rw [Program.ret_bind, afterCall_ok, hCost]
    exact .ret _
  have hNotify : Yields (finalizeAndNotify plainJob (resultOk plainJob openai ⟨txt "hi", 3, 4⟩ cost))
      ([⟨.storeClock, .startOf newYear2026⟩,
        ⟨.finalize (resultOk plainJob openai ⟨txt "hi", 3, 4⟩ cost) (.startOf newYear2026), .ok true⟩] :
        List (BusEvent .tree))
      (.ok (resultOk plainJob openai ⟨txt "hi", 3, 4⟩ cost)) := by
    rw [finalizeAndNotify_eq]
    exact .ask _ _ _ (.ask _ _ _ (.ret _))
  have hBus : ∀ (op : BusOp .tree) (reply : op.Reply), isCall op = false →
      Yields (overSdk .ascii op) [⟨.bus op, reply⟩] (.ok reply) := by
    intro op reply hOp
    rw [overSdk_of_not_call hOp]
    exact yields_bus_iff.mpr rfl
  have hSdk : Yields (overSdk .ascii (jobCall plainDeps plainJob (txt "gpt-5") ⟨openai⟩) :
        Program (sdkInterface .tree) Empty CallReply)
      [created .openai helloRequest plainPolicy.jobTimeoutS (.ok helloResponse)]
      (.ok (.ok ⟨txt "hi", 3, 4⟩)) := by
    rw [@overSdk_jobCall .tree .ascii plainDeps plainJob (txt "gpt-5") .openai ⟨openai⟩ rfl]
    exact .ask _ _ _ (.ret _)
  refine (yields_handle_iff _).mpr ⟨_, yields_bind_iff.mpr (.inr ⟨_, _, _, hJob, hNotify, rfl⟩), ?_⟩
  refine CarriedOut.cons (h := overSdk .ascii) (hBus .now _ rfl) ?_
  refine CarriedOut.cons (h := overSdk .ascii) (hBus (.acquire openai 257) _ rfl) ?_
  refine CarriedOut.cons (h := overSdk .ascii) (hBus .now _ rfl) ?_
  refine CarriedOut.cons (h := overSdk .ascii) hSdk ?_
  refine CarriedOut.cons (h := overSdk .ascii) (hBus .storeClock _ rfl) ?_
  exact CarriedOut.cons (h := overSdk .ascii) (hBus (.finalize _ _) _ rfl) .nil

/-! ### What every delivery asks and writes -/

section Every

variable {py : Interpreter} {power : Power} {deps : WorkerDeps} {job : Job}
  {trace : List (SdkEvent pyd)} {outcome : Except PyError Result}

/-- Whatever the clients, the store, the limiter and the clock answer: the requests of one delivery
are all the one its adapter builds from the job, which keeps the rules of its API; there are at most
`max_attempts` of them, and only the last can have brought a response. -/
theorem sdk_requests_of_delivery
    (h : Yields (handle (overSdk py) (processJob py power deps job)) trace outcome) :
    sdkEvents trace = [] ∨
      ∃ (model : Text) (client : SdkClient) (request : Entries)
        (replies : List (Except ProviderError client.Response)),
        job.model = some model ∧ providerFor model = .ok client.name ∧
        client.request py model job.messages job.params = .ok request ∧ Accepts client request ∧
        sdkEvents trace = replies.map (created client request deps.policy.jobTimeoutS) ∧
        replies.length ≤ deps.policy.retry.maxAttempts ∧
        ∀ reply ∈ replies.dropLast, ∃ e, reply = .error e ∧ isRetryable e = true := by
  obtain ⟨made, hUse, _, _⟩ := delivery_sdkUse h
  cases hUse with
  | unserved hNone hError => exact .inl hNone
  | refused hServes hRequest hNone hCalls hAll => exact .inl hNone
  | @used model client provider request hServes hRequest replies hEvents hCalls =>
    refine .inr ⟨model, client, request, replies, hServes.named, hServes.route, hRequest,
      request_accepted hRequest, hEvents, ?_, fun reply hReply => ?_⟩
    · have hBounded := hCalls.bounded
      rwa [List.length_map] at hBounded
    · refine @reply_of_retryable py client reply (hCalls.retried _ ?_)
      rw [← List.map_dropLast]
      exact List.mem_map_of_mem hReply

theorem sdk_requests_of_delivery_answered :
    ∃ cost, sdkEvents (answeredTrace (resultOk plainJob openai ⟨txt "hi", 3, 4⟩ cost)) = [] ∨
      ∃ (model : Text) (client : SdkClient) (request : Entries)
        (replies : List (Except ProviderError client.Response)),
        plainJob.model = some model ∧ providerFor model = .ok client.name ∧
        client.request .ascii model plainJob.messages plainJob.params = .ok request ∧
        Accepts client request ∧
        sdkEvents (answeredTrace (resultOk plainJob openai ⟨txt "hi", 3, 4⟩ cost)) =
          replies.map (created client request plainDeps.policy.jobTimeoutS) ∧
        replies.length ≤ plainDeps.policy.retry.maxAttempts ∧
        ∀ reply ∈ replies.dropLast, ∃ e, reply = .error e ∧ isRetryable e = true :=
  ⟨7 / 160000, sdk_requests_of_delivery (yields_answered (by decide +kernel))⟩

/-- The row that a delivery writes is decided by its last response, where one came back: the clean
completion with its usage and its price, or an error that says why it is none. Without a response no
row is ok. -/
theorem row_of_delivery (h : Yields (handle (overSdk py) (processJob py power deps job)) trace outcome)
    {result : Result} {completedAt : DateTime} {reply : Except PyError Bool}
    (hRow : ⟨.bus (.finalize result completedAt), reply⟩ ∈ trace) :
    (∀ client response, LastResponse trace client response → RowOf py job client response result) ∧
      (result.status = .ok → ∃ client response, LastResponse trace client response) := by
  obtain ⟨made, hUse, hMade, _⟩ := delivery_sdkUse h
  obtain rfl := hMade _ _ _ hRow
  cases hUse with
  | unserved hNone hError =>
    refine ⟨fun client response hLast => absurd hLast (not_lastResponse_of_nil hNone), fun hOk => ?_⟩
    rw [hError result rfl] at hOk
    cases hOk
  | @refused model client provider e calls hServes hRequest hNone hCalls hAll =>
    refine ⟨fun client response hLast => absurd hLast (not_lastResponse_of_nil hNone), fun hOk => ?_⟩
    cases hCalls.closed result rfl with
    | expired hAll attempt => cases hOk
    | failed before e => cases hOk
    | @returned before call cost hCost =>
      have hError := hAll (.ok call) (List.mem_append_right _ List.mem_cons_self)
      cases hError
  | @used model client provider request hServes hRequest replies hEvents hCalls =>
    have hName : provider.name = client.name := WorkerDeps.name_of_adapter hServes.adapter
    refine ⟨?_, fun hOk => ?_⟩
    · rintro client' response ⟨request', timeoutS, hLast⟩
      rw [hEvents, List.getLast?_map, Option.map_eq_some_iff] at hLast
      obtain ⟨last, hLast, hCreated⟩ := hLast
      cases hCreated
      refine rowOf_lastCall hName (hCalls.closed result rfl) ?_
      rw [List.getLast?_map, hLast]
      rfl
    · obtain ⟨response, hLast⟩ := lastReply_of_ok rfl (hCalls.closed result rfl) hOk
      refine ⟨client, response, request, deps.policy.jobTimeoutS, ?_⟩
      rw [hEvents, List.getLast?_map, hLast]
      rfl

theorem row_of_delivery_answered :
    ∃ cost, (∀ client response,
        LastResponse (answeredTrace (resultOk plainJob openai ⟨txt "hi", 3, 4⟩ cost)) client response →
          RowOf .ascii plainJob client response (resultOk plainJob openai ⟨txt "hi", 3, 4⟩ cost)) ∧
      ((resultOk plainJob openai ⟨txt "hi", 3, 4⟩ cost).status = .ok → ∃ client response,
        LastResponse (answeredTrace (resultOk plainJob openai ⟨txt "hi", 3, 4⟩ cost)) client response) :=
  ⟨7 / 160000, row_of_delivery (yields_answered (by decide +kernel))
    (List.mem_of_getLast? (l := answeredTrace _) rfl)⟩

end Every

/-! ### Jobs that no request can be built for -/

section Refused

variable (py : Interpreter) (power : Power) (deps : WorkerDeps) (job : Job) {provider : Provider}

/-- One attempt that ends in this error instead of a request. -/
def refusedAttempt (provider : Provider) (estimate : Nat) (error : Text) : Bus pyd Result := do
  if ← expiredNow job then
    pure (expiredResult py job provider.name 0)
  else
    Bus.acquire provider.name estimate
    if ← expiredNow job then
      pure (expiredResult py job provider.name 0)
    else
      pure (resultError job (some provider.name) error)

theorem refusedAttempt_eq (estimate : Nat) (error : Text) :
    (refusedAttempt py job provider estimate error : Bus pyd Result) =
      .ask .now fun before => (Program.ofExcept (isExpired job before)).bind fun expired =>
        if expired then .ret (expiredResult py job provider.name 0)
        else .ask (.acquire provider.name estimate) fun reserved =>
          (Program.ofExcept reserved).bind fun _ =>
            .ask .now fun after => (Program.ofExcept (isExpired job after)).bind fun expired =>
              if expired then .ret (expiredResult py job provider.name 0)
              else .ret (resultError job (some provider.name) error) := rfl

variable {py power deps job} {model : Text} {client : SdkClient} {e : ProviderError}

theorem handle_runAttempt_refused (hServes : Serves deps job model client provider)
    (hRequest : client.request py model job.messages job.params = .error e) (estimate : Nat)
    (again : Option (Bus pyd Result)) :
    handle (overSdk py) (runAttempt py power deps job provider estimate 0 again) =
      handle (overSdk py) (refusedAttempt py job provider estimate (describe e)) := by
  have hName : provider.name = client.name := WorkerDeps.name_of_adapter hServes.adapter
  have hFinal : ¬ (isRetryable e = true ∧ again.isSome = true) := by
    rw [request_failsForGood py client model job.messages job.params e hRequest]
    exact fun hRetry => Bool.false_ne_true hRetry.1
  have hCalled : handle (overSdk py) (callProvider deps job provider : Bus pyd CallReply) =
      .ret (.error e) := by
    rw [callProvider_eq deps job hServes.named, handle_ask]
    change (overSdk py (jobCall deps job model provider)).widen.bind _ = _
    rw [overSdk_jobCall hName, adapterCall, hRequest]
    rfl
  have hCall : handle (overSdk py) ((callProvider deps job provider).bind
      (afterCall py power deps job provider 0 again) : Bus pyd Result) =
      .ret (resultError job (some provider.name) (describe e)) := by
    rw [handle_bind, hCalled, Program.ret_bind, afterCall_final _ _ _ _ _ _ hFinal, handle_ret]
  rw [runAttempt_eq, refusedAttempt_eq]
  simp only [handle_ask, handle_bind, handle_ofExcept, apply_ite (handle (overSdk py)), handle_ret,
    hCall]

/-- A job that breaks its provider's rules comes to exactly this, whatever is answered: one attempt
that reserves once, reaches no client and ends in the adapter's error. -/
theorem refused_delivery (hServes : Serves deps job model client provider)
    (hRefused : ¬ Serviceable client model job.params) :
    ∃ e, client.request py model job.messages job.params = .error e ∧
      handle (overSdk py) (processJob py power deps job : Bus pyd Result) =
        handle (overSdk py) ((refusedAttempt py job provider
            (estimateTokens job deps.policy.defaultOutputTokens) (describe e)).bind
          (finalizeAndNotify job)) := by
  cases hRequest : client.request py model job.messages job.params with
  | ok request =>
    exact absurd ((request_isOk_iff py client model job.messages job.params).mp ⟨request, hRequest⟩)
      hRefused
  | error e =>
    refine ⟨e, rfl, ?_⟩
    have hJob : (processJob py power deps job : Bus pyd Result) =
        (callLoop py power deps job provider (estimateTokens job deps.policy.defaultOutputTokens)
          (deps.policy.retry.maxAttempts - 1) 0).bind (finalizeAndNotify job) := by
      rw [← jobResult_eq_callLoop hServes.named hServes.route hServes.adapter]
      rfl
    rw [hJob, handle_bind, handle_bind]
    cases deps.policy.retry.maxAttempts - 1 with
    | zero => rw [callLoop, handle_runAttempt_refused hServes hRequest]
    | succ retries => rw [callLoop, handle_runAttempt_refused hServes hRequest]

end Refused

def warmJob : Job :=
  { plainJob with params := ⟨some (.finite 1), none, none⟩ }

theorem refused_delivery_warm :
    ∃ e, SdkClient.openai.request .ascii (txt "gpt-5") warmJob.messages warmJob.params = .error e ∧
      handle (overSdk .ascii) (processJob .ascii exactPower plainDeps warmJob : Bus .tree Result) =
        handle (overSdk .ascii) ((refusedAttempt .ascii warmJob ⟨openai⟩
            (estimateTokens warmJob plainDeps.policy.defaultOutputTokens) (describe e)).bind
          (finalizeAndNotify warmJob)) :=
  refused_delivery (serves_plainDeps _) (fun h => by cases h)

end LlmBus
