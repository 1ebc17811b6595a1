import LlmBus.BucketSchedule
import LlmBus.Foundation.Replay

/-! # Runs of the limiters

Two statements about whole runs. Whoever reserves later from one provider is not released
earlier, whichever bucket binds. And the answers of one provider depend only on the calls
that it answered, as long as no amount is too large for a double.
-/

namespace LlmBus

open Foundation Foundation.Replay

/-- One call of `ProviderLimiter.reserve`. -/
structure Demand where
  now : ℚ
  tokens : ℚ
  requests : ℚ
  deriving DecidableEq

namespace ProviderLimiter

open TokenBucket

def reserveFor (c : Demand) (l : ProviderLimiter) : Except PyError ℚ × ProviderLimiter :=
  l.reserve c.now c.tokens c.requests

/-- When the callers were told to proceed, in the order of their calls. -/
def releases (log : List (Demand × Except PyError ℚ)) : List ℚ :=
  log.filterMap fun entry => entry.2.toOption.map (entry.1.now + ·)

variable {l : ProviderLimiter} {c : Demand}

/-- What one call can do: nothing, a refill that is not followed by the charge, the request
charge alone, or both charges. -/
theorem reserveFor_cases (c : Demand) (l : ProviderLimiter) :
    ((c.tokens < 0 ∨ c.requests < 0) ∧ ∃ e, reserveFor c l = (.error e, l)) ∨
      (0 ≤ c.tokens ∧ (doubleOverflow : ℚ) ≤ c.requests ∧
        ∃ e, reserveFor c l = (.error e, ⟨l.requests.charged c.now 0 le_rfl, l.tokens⟩)) ∨
      ((doubleOverflow : ℚ) ≤ c.tokens ∧ ∃ e, ∃ h : 0 ≤ c.requests, reserveFor c l =
        (.error e, ⟨l.requests.charged c.now c.requests h, l.tokens.charged c.now 0 le_rfl⟩)) ∨
      ∃ (hRequests : 0 ≤ c.requests) (hTokens : 0 ≤ c.tokens),
        reserveFor c l =
          (.ok (max (l.requests.charged c.now c.requests hRequests).wait
              (l.tokens.charged c.now c.tokens hTokens).wait),
            ⟨l.requests.charged c.now c.requests hRequests,
              l.tokens.charged c.now c.tokens hTokens⟩) := by
  unfold reserveFor reserve
  rcases lt_or_ge c.tokens 0 with hNegative | hTokens
  · exact .inl ⟨.inl hNegative, negativeAmount, if_pos hNegative⟩
  rw [if_neg (not_lt.mpr hTokens)]
  rcases reserve_cases l.requests c.now c.requests with
    ⟨hNegative, hReserve⟩ | ⟨hLarge, e, hReserve⟩ | ⟨hRequests, hReserve⟩
  · exact .inl ⟨.inr hNegative, negativeAmount, by rw [hReserve]⟩
  · exact .inr (.inl ⟨hTokens, hLarge, e, by rw [hReserve]⟩)
  rw [hReserve]
  rcases reserve_cases l.tokens c.now c.tokens with
    ⟨hNegative, _⟩ | ⟨hLarge, e, hReserve⟩ | ⟨_, hReserve⟩
  · exact absurd hNegative (not_lt.mpr hTokens)
  · exact .inr (.inr (.inl ⟨hLarge, e, hRequests, by rw [hReserve]⟩))
  · exact .inr (.inr (.inr ⟨hRequests, hTokens, by rw [hReserve]⟩))

end ProviderLimiter

/-! ### First come, first served -/

namespace TokenBucket

/-- At some moment that lies behind, the bucket was due at `floor` or later. -/
def Owes (b : TokenBucket) (now floor : ℚ) : Prop :=
  ∃ before, before ≤ b.updated ∧ before ≤ now ∧ floor ≤ b.due before

theorem Owes.later {b : TokenBucket} {now later floor : ℚ} (h : b.Owes now floor)
    (hLater : now ≤ later) : b.Owes later floor := by
  obtain ⟨before, hUpdated, hNow, hFloor⟩ := h
  exact ⟨before, hUpdated, hNow.trans hLater, hFloor⟩

theorem Owes.le_due {b : TokenBucket} {now floor amount : ℚ} (h : b.Owes now floor)
    (hAmount : 0 ≤ amount) : floor ≤ (b.charged now amount hAmount).due now := by
  obtain ⟨before, hUpdated, hNow, hFloor⟩ := h
  have hCharge := hAmount.trans (charge_le_of_charged hAmount hUpdated hNow)
  have hGap : 0 ≤ (b.charged now amount hAmount).due now - b.due before :=
    nonneg_of_mul_nonneg_right hCharge b.rate_pos
  linarith

theorem Owes.charged {b : TokenBucket} {now floor amount : ℚ} (h : b.Owes now floor)
    (hAmount : 0 ≤ amount) : (b.charged now amount hAmount).Owes now floor :=
  ⟨now, le_max_right _ _, le_rfl, h.le_due hAmount⟩

end TokenBucket

namespace ProviderLimiter

open TokenBucket

variable {l : ProviderLimiter} {c : Demand} {now floor : ℚ}

/-- Nobody who calls from `now` on is released before `floor`: the time itself forbids it or one
of the buckets does. -/
def Holds (l : ProviderLimiter) (now floor : ℚ) : Prop :=
  floor ≤ now ∨ l.requests.Owes now floor ∨ l.tokens.Owes now floor

theorem Holds.later {later : ℚ} (h : Holds l now floor) (hLater : now ≤ later) :
    Holds l later floor := by
  rcases h with hTime | hRequests | hTokens
  · exact .inl (hTime.trans hLater)
  · exact .inr (.inl (hRequests.later hLater))
  · exact .inr (.inr (hTokens.later hLater))

theorem Holds.reserveFor (h : Holds l c.now floor) : Holds (reserveFor c l).2 c.now floor := by
  rcases h with hTime | hRequests | hTokens
  · exact .inl hTime
  · refine .inr (.inl ?_)
    rcases reserveFor_cases c l with ⟨_, e, hStep⟩ | ⟨_, _, e, hStep⟩ | ⟨_, e, hAmount, hStep⟩ |
      ⟨hAmount, _, hStep⟩
    · rw [hStep]
      exact hRequests
    · rw [hStep]
      exact hRequests.charged le_rfl
    · rw [hStep]
      exact hRequests.charged hAmount
    · rw [hStep]
      exact hRequests.charged hAmount
  · refine .inr (.inr ?_)
    rcases reserveFor_cases c l with ⟨_, e, hStep⟩ | ⟨_, _, e, hStep⟩ | ⟨_, e, _, hStep⟩ |
      ⟨_, hAmount, hStep⟩
    · rw [hStep]
      exact hTokens
    · rw [hStep]
      exact hTokens
    · rw [hStep]
      exact hTokens.charged le_rfl
    · rw [hStep]
      exact hTokens.charged hAmount

/-- The release of a call: its own time, or when the later of the two deficits is worked off. -/
theorem released_eq {wait : ℚ} (h : (ProviderLimiter.reserveFor c l).1 = .ok wait) :
    ∃ (hRequests : 0 ≤ c.requests) (hTokens : 0 ≤ c.tokens),
      (ProviderLimiter.reserveFor c l).2 = ⟨l.requests.charged c.now c.requests hRequests,
        l.tokens.charged c.now c.tokens hTokens⟩ ∧
      c.now + wait = max c.now (max ((l.requests.charged c.now c.requests hRequests).due c.now)
        ((l.tokens.charged c.now c.tokens hTokens).due c.now)) := by
  rcases reserveFor_cases c l with ⟨_, e, hStep⟩ | ⟨_, _, e, hStep⟩ | ⟨_, e, _, hStep⟩ |
    ⟨hRequests, hTokens, hStep⟩
  · rw [hStep] at h
    cases h
  · rw [hStep] at h
    cases h
  · rw [hStep] at h
    cases h
  · rw [hStep] at h ⊢
    cases h
    refine ⟨hRequests, hTokens, rfl, ?_⟩
    rw [← max_add_add_left, now_add_wait, now_add_wait, max_max_max_comm, max_self]

theorem Holds.le_released (h : Holds l c.now floor) {wait : ℚ}
    (hWait : (ProviderLimiter.reserveFor c l).1 = .ok wait) : floor ≤ c.now + wait := by
  obtain ⟨hRequests, hTokens, _, hReleased⟩ := released_eq hWait
  rw [hReleased]
  rcases h with hTime | hOwes | hOwes
  · exact hTime.trans (le_max_left _ _)
  · exact (hOwes.le_due hRequests).trans ((le_max_left _ _).trans (le_max_right _ _))
  · exact (hOwes.le_due hTokens).trans ((le_max_right _ _).trans (le_max_right _ _))

/-- A release holds back everybody who calls after it. -/
theorem holds_released {wait : ℚ} (h : (ProviderLimiter.reserveFor c l).1 = .ok wait) :
    Holds (ProviderLimiter.reserveFor c l).2 c.now (c.now + wait) := by
  obtain ⟨hRequests, hTokens, hAfter, hReleased⟩ := released_eq h
  rw [hAfter, hReleased]
  rcases max_choice c.now (max ((l.requests.charged c.now c.requests hRequests).due c.now)
    ((l.tokens.charged c.now c.tokens hTokens).due c.now)) with hTime | hDue
  · exact .inl hTime.le
  · rw [hDue]
    rcases max_choice ((l.requests.charged c.now c.requests hRequests).due c.now)
      ((l.tokens.charged c.now c.tokens hTokens).due c.now) with hBinds | hBinds
    · exact .inr (.inl ⟨c.now, le_max_right _ _, le_rfl, hBinds.le⟩)
    · exact .inr (.inr ⟨c.now, le_max_right _ _, le_rfl, hBinds.le⟩)

theorem Holds.le_releases (h : Holds l now floor) {calls : List Demand}
    (hTimes : (calls.map Demand.now).Pairwise (· ≤ ·)) (hNow : ∀ c ∈ calls, now ≤ c.now) :
    ∀ r ∈ releases (outcomes ProviderLimiter.reserveFor l calls), floor ≤ r := by
  induction calls generalizing l now with
  | nil => exact fun r hr => absurd hr List.not_mem_nil
  | cons c rest ih =>
    obtain ⟨hLater, hRest⟩ := List.pairwise_cons.mp hTimes
    have hHere := h.later (hNow c List.mem_cons_self)
    have hAll := ih hHere.reserveFor hRest fun d hd => hLater d.now (List.mem_map_of_mem hd)
    intro r hr
    rw [releases, outcomes, List.filterMap_cons] at hr
    cases hWait : (ProviderLimiter.reserveFor c l).1 with
    | error e =>
      rw [hWait] at hr
      exact hAll r hr
    | ok wait =>
      rw [hWait] at hr
      rcases List.mem_cons.mp hr with rfl | hMem
      · exact hHere.le_released hWait
      · exact hAll r hMem

theorem pairwise_releases (l : ProviderLimiter) {calls : List Demand}
    (hTimes : (calls.map Demand.now).Pairwise (· ≤ ·)) :
    (releases (outcomes ProviderLimiter.reserveFor l calls)).Pairwise (· ≤ ·) := by
  induction calls generalizing l with
  | nil => exact .nil
  | cons c rest ih =>
    obtain ⟨hLater, hRest⟩ := List.pairwise_cons.mp hTimes
    rw [releases, outcomes, List.filterMap_cons]
    cases hWait : (ProviderLimiter.reserveFor c l).1 with
    | error e => exact ih _ hRest
    | ok wait =>
      refine List.pairwise_cons.mpr ⟨?_, ih _ hRest⟩
      exact (holds_released hWait).le_releases hRest fun d hd => hLater d.now (List.mem_map_of_mem hd)

theorem length_releases (l : ProviderLimiter) {calls : List Demand}
    (h : ∀ c ∈ calls, (0 ≤ c.tokens ∧ c.tokens < doubleOverflow) ∧
      0 ≤ c.requests ∧ c.requests < doubleOverflow) :
    (releases (outcomes ProviderLimiter.reserveFor l calls)).length = calls.length := by
  induction calls generalizing l with
  | nil => rfl
  | cons c rest ih =>
    obtain ⟨⟨hTokens, hTokensLt⟩, hRequests, hRequestsLt⟩ := h c List.mem_cons_self
    have hRest := ih (ProviderLimiter.reserveFor c l).2 fun d hd => h d (List.mem_cons_of_mem c hd)
    rcases reserveFor_cases c l with ⟨hNegative, _⟩ | ⟨_, hLarge, _⟩ | ⟨hLarge, _⟩ | ⟨_, _, hStep⟩
    · cases hNegative with
      | inl hNegative => exact absurd hNegative (not_lt.mpr hTokens)
      | inr hNegative => exact absurd hNegative (not_lt.mpr hRequests)
    · exact absurd hRequestsLt (not_lt.mpr hLarge)
    · exact absurd hTokensLt (not_lt.mpr hLarge)
    · rw [releases, outcomes, List.filterMap_cons, List.length_cons, ← hRest, hStep]
      rfl

/-- The limiter of any provider releases its callers in the order in which they called, and it
releases all of them whose amounts it can take. -/
theorem releases_first_come_first_served (limits : ProviderLimits) (start : ℚ) (calls : List Demand)
    (hTimes : (calls.map Demand.now).Pairwise (· ≤ ·)) :
    let log := outcomes ProviderLimiter.reserveFor (ProviderLimiter.new limits start) calls
    (releases log).Pairwise (· ≤ ·) ∧
      ((∀ c ∈ calls, (0 ≤ c.tokens ∧ c.tokens < doubleOverflow) ∧
          0 ≤ c.requests ∧ c.requests < doubleOverflow) →
        (releases log).length = calls.length) :=
  ⟨pairwise_releases _ hTimes, length_releases _⟩

/-- First the tokens bind, then the requests. -/
theorem releases_first_come_first_served_switching :
    (releases (outcomes ProviderLimiter.reserveFor (ProviderLimiter.new twoRequestsSixtyTokens 0)
      [⟨0, 90, 1⟩, ⟨3, 0, 4⟩, ⟨10, 5, 1⟩])).Pairwise (· ≤ ·) :=
  (releases_first_come_first_served twoRequestsSixtyTokens 0 [⟨0, 90, 1⟩, ⟨3, 0, 4⟩, ⟨10, 5, 1⟩]
    (by norm_num)).1

end ProviderLimiter

/-! ### Failed and foreign calls -/

/-- A call of either class. The registry's reads the clock itself; the limiter's is made on the
limiter that the registry holds for the provider. -/
inductive LimiterCall where
  | registry (provider : Text) (now tokens : ℚ)
  | limiter (provider : Text) (demand : Demand)
  deriving DecidableEq

namespace LimiterCall

def provider : LimiterCall → Text
  | registry provider _ _ => provider
  | limiter provider _ => provider

/-- What it asks of the provider's limiter. -/
def demand : LimiterCall → Demand
  | registry _ now tokens => ⟨now, tokens, 1⟩
  | limiter _ demand => demand

/-- Both amounts pass the check for negative ones, and one of them has no double. -/
def Overflows (call : LimiterCall) : Prop :=
  (0 ≤ call.demand.tokens ∧ 0 ≤ call.demand.requests) ∧
    ((doubleOverflow : ℚ) ≤ call.demand.tokens ∨ (doubleOverflow : ℚ) ≤ call.demand.requests)

instance (call : LimiterCall) : Decidable call.Overflows :=
  inferInstanceAs (Decidable (_ ∧ _))

/-- One provider's limiter, where there is one, answers the call. -/
def on (call : LimiterCall) : Option ProviderLimiter → Except PyError ℚ × Option ProviderLimiter
  | none => (.error ⟨.unknownProviderError, call.provider⟩, none)
  | some l => ((ProviderLimiter.reserveFor call.demand l).1,
      some (ProviderLimiter.reserveFor call.demand l).2)

end LimiterCall

namespace RateLimiter

/-- `__init__`: a limiter for each provider, all of them started at one reading of the clock. -/
def new (limits : List (Text × ProviderLimits)) (start : ℚ) : RateLimiter :=
  limits.map fun entry => (entry.1, ProviderLimiter.new entry.2 start)

def perform : LimiterCall → RateLimiter → Except PyError ℚ × RateLimiter
  | .registry provider now tokens, limiter => limiter.reserve now provider tokens
  | .limiter provider demand, limiter =>
    match limiter.lookup provider with
    | none => (.error ⟨.unknownProviderError, provider⟩, limiter)
    | some l =>
      let out := l.reserve demand.now demand.tokens demand.requests
      (out.1, limiter.map fun entry => if entry.1 = provider then (entry.1, out.2) else entry)

theorem lookup_replace (limiter : RateLimiter) (provider name : Text) (l : ProviderLimiter) :
    (limiter.map fun entry => if entry.1 = provider then (entry.1, l) else entry).lookup name =
      if name = provider then (limiter.lookup name).map fun _ => l else limiter.lookup name := by
  induction limiter with
  | nil => simp
  | cons entry rest ih =>
    obtain ⟨key, value⟩ := entry
    rw [List.map_cons]
    rcases eq_or_ne key provider with rfl | hKey
    · simp only [if_true, List.lookup_cons]
      rcases eq_or_ne name key with rfl | hName
      · simp
      · rw [beq_eq_false_iff_ne.mpr hName]
        exact ih
    · simp only [hKey, if_false, List.lookup_cons]
      rcases eq_or_ne name key with rfl | hName
      · simp [hKey]
      · rw [beq_eq_false_iff_ne.mpr hName]
        exact ih

/-- What a call does to the registry is what it does to its provider's limiter. -/
theorem perform_eq (call : LimiterCall) (limiter : RateLimiter) :
    (perform call limiter).1 = (call.on (limiter.lookup call.provider)).1 ∧
      ∀ name, (perform call limiter).2.lookup name =
        if name = call.provider then (call.on (limiter.lookup call.provider)).2
        else limiter.lookup name := by
  have hUnknown : ∀ (provider : Text), limiter.lookup provider = none → ∀ name,
      limiter.lookup name = if name = provider then none else limiter.lookup name := by
    intro provider hLookup name
    rcases eq_or_ne name provider with rfl | hName
    · rw [if_pos rfl, hLookup]
    · rw [if_neg hName]
  have hKnown : ∀ (provider : Text) (l after : ProviderLimiter), limiter.lookup provider = some l →
      ∀ name, (limiter.map fun entry =>
          if entry.1 = provider then (entry.1, after) else entry).lookup name =
        if name = provider then some after else limiter.lookup name := by
    intro provider l after hLookup name
    rw [lookup_replace]
    rcases eq_or_ne name provider with rfl | hName
    · rw [if_pos rfl, if_pos rfl, hLookup]
      rfl
    · rw [if_neg hName, if_neg hName]
  cases call with
  | registry provider now tokens =>
    simp only [perform, reserve, LimiterCall.provider]
    cases hLookup : limiter.lookup provider with
    | none => exact ⟨rfl, hUnknown provider hLookup⟩
    | some l => exact ⟨rfl, hKnown provider l _ hLookup⟩
  | limiter provider demand =>
    simp only [perform, LimiterCall.provider]
    cases hLookup : limiter.lookup provider with
    | none => exact ⟨rfl, hUnknown provider hLookup⟩
    | some l => exact ⟨rfl, hKnown provider l _ hLookup⟩

/-- The limiter of `p` is a part of the registry, and the calls on `p` are its calls. -/
theorem part_lookup (p : Text) :
    Part perform LimiterCall.on (fun limiter : RateLimiter => limiter.lookup p)
      fun call => decide (call.provider = p) where
  answer call limiter hMine := by
    obtain rfl := of_decide_eq_true hMine
    exact (perform_eq call limiter).1
  own call limiter hMine := by
    obtain rfl := of_decide_eq_true hMine
    rw [(perform_eq call limiter).2, if_pos rfl]
  foreign call limiter hForeign := by
    rw [(perform_eq call limiter).2, if_neg (Ne.symm (of_decide_eq_false hForeign))]

end RateLimiter

/-- A call that raises leaves both buckets as they were, unless it overflows. -/
theorem LimiterCall.on_of_error {call : LimiterCall} (hFits : ¬ call.Overflows)
    (l : Option ProviderLimiter) (h : (call.on l).1.isOk = false) : (call.on l).2 = l := by
  cases l with
  | none => rfl
  | some l =>
    rcases ProviderLimiter.reserveFor_cases call.demand l with ⟨_, e, hStep⟩ |
      ⟨hTokens, hLarge, e, hStep⟩ | ⟨hLarge, e, hRequests, hStep⟩ | ⟨_, _, hStep⟩
    · rw [LimiterCall.on, hStep]
    · have hRequests : 0 ≤ call.demand.requests := doubleOverflow_pos.le.trans hLarge
      exact absurd ⟨⟨hTokens, hRequests⟩, .inr hLarge⟩ hFits
    · have hTokens : 0 ≤ call.demand.tokens := doubleOverflow_pos.le.trans hLarge
      exact absurd ⟨⟨hTokens, hRequests⟩, .inl hLarge⟩ hFits
    · rw [LimiterCall.on, hStep] at h
      cases h

/-- The entries of a log that tell of a call on `p` that was answered with a wait. -/
def answeredOn (p : Text) (log : List (LimiterCall × Except PyError ℚ)) :
    List (LimiterCall × Except PyError ℚ) :=
  log.filter fun entry => decide (entry.1.provider = p) && entry.2.isOk

/-- As long as no call on `p` overflows, what `p` answered is what it answers to these calls
alone, and a call that raises changes neither of its buckets. -/
theorem reserve_failures_invisible (limits : List (Text × ProviderLimits)) (start : ℚ)
    (calls : List LimiterCall) (p : Text)
    (hFits : ∀ call ∈ calls, call.provider = p → ¬ call.Overflows) :
    let log := outcomes RateLimiter.perform (RateLimiter.new limits start) calls
    outcomes RateLimiter.perform (RateLimiter.new limits start)
        ((answeredOn p log).map Prod.fst) = answeredOn p log ∧
      ∀ call ∈ calls, call.provider = p → ∀ (limiter : RateLimiter) (e : PyError),
        (RateLimiter.perform call limiter).1 = .error e →
          ∀ name, (RateLimiter.perform call limiter).2.lookup name = limiter.lookup name := by
  refine ⟨?_, ?_⟩
  · apply (RateLimiter.part_lookup p).outcomes_filter_good
    intro call hCall hMine l hError
    exact LimiterCall.on_of_error (hFits call hCall (of_decide_eq_true hMine)) l hError
  · rintro call hCall rfl limiter e hError name
    rw [(RateLimiter.perform_eq call limiter).1] at hError
    rw [(RateLimiter.perform_eq call limiter).2]
    split
    · rename_i hName
      rw [hName]
      apply LimiterCall.on_of_error (hFits call hCall rfl)
      rw [hError]
      rfl
    · rfl

def openaiOnly : List (Text × ProviderLimits) :=
  [(txt "openai", twoRequestsSixtyTokens)]

theorem reserve_failures_invisible_refused :
    let log := outcomes RateLimiter.perform (RateLimiter.new openaiOnly 0)
      [.registry (txt "anthropic") 0 5, .limiter (txt "openai") ⟨1, 3, -1⟩,
        .registry (txt "openai") 2 90]
    outcomes RateLimiter.perform (RateLimiter.new openaiOnly 0)
      ((answeredOn (txt "openai") log).map Prod.fst) = answeredOn (txt "openai") log :=
  (reserve_failures_invisible openaiOnly 0 _ (txt "openai") (by
    decide +kernel)).1

/-- An integer estimate without a double takes a request although it raises: the next caller
waits half a minute, and none where only the next caller asks. -/
theorem overflow_visible :
    let log := outcomes RateLimiter.perform (RateLimiter.new openaiOnly 0)
      [.registry (txt "openai") 0 doubleOverflow, .limiter (txt "openai") ⟨0, 0, 2⟩]
    outcomes RateLimiter.perform (RateLimiter.new openaiOnly 0)
      ((answeredOn (txt "openai") log).map Prod.fst) ≠ answeredOn (txt "openai") log := by
  decide +kernel

end LlmBus
