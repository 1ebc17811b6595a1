import LlmBus.Foundation.Double
import LlmBus.Schema

/-! # Rate limiting

Two token buckets for each provider, one for requests and one for tokens, refilled
continuously and charged at the moment of the reservation.
-/

namespace LlmBus

open Foundation

structure ProviderLimits where
  requestsPerMin : ℚ
  tokensPerMin : ℚ
  requests_pos : 0 < requestsPerMin
  tokens_pos : 0 < tokensPerMin
  requests_lt : requestsPerMin < doubleOverflow
  tokens_lt : tokensPerMin < doubleOverflow

structure TokenBucket where
  rate : ℚ
  capacity : ℚ
  tokens : ℚ
  updated : ℚ
  rate_pos : 0 < rate
  tokens_le : tokens ≤ capacity

theorem one_lt_doubleOverflow : (1 : ℚ) < doubleOverflow := by
  have h : (1 : ℤ) < doubleOverflow := by decide +kernel
  exact_mod_cast h

namespace TokenBucket

/-- A bucket that can hold one minute's worth, full at `now`. -/
def perMinute (limit : ℚ) (hLimit : 0 < limit) (now : ℚ) : TokenBucket where
  rate := limit / 60
  capacity := limit
  tokens := limit
  updated := now
  rate_pos := div_pos hLimit (by norm_num)
  tokens_le := le_rfl

/-- `__init__`: a bucket starts full. -/
def init (rate capacity now : ℚ) : Except PyError TokenBucket :=
  if h : rate ≤ 0 ∨ capacity ≤ 0 then
    .error ⟨.valueError, txt "rate and capacity must be positive"⟩
  else .ok ⟨rate, capacity, capacity, now, by linarith [not_or.mp h |>.1], le_rfl⟩

/-- `limit / 60`, which is zero where no double is left for it. -/
def perSecond (limit : ℚ) : ℚ :=
  if limit / 60 ≤ doubleUnderflow then 0 else limit / 60

def refill (b : TokenBucket) (now : ℚ) : TokenBucket :=
  { b with
    tokens := min b.capacity (b.tokens + max 0 (now - b.updated) * b.rate)
    updated := max b.updated now
    tokens_le := min_le_left _ _ }

def spend (b : TokenBucket) (amount : ℚ) (hAmount : 0 ≤ amount) : TokenBucket :=
  { b with
    tokens := b.tokens - amount
    tokens_le := (sub_le_self _ hAmount).trans b.tokens_le }

def wait (b : TokenBucket) : ℚ :=
  max 0 (-b.tokens) / b.rate

/-- The wait has no double: the deficit, or its quotient by the rate, overflows to infinity. -/
def endless (b : TokenBucket) : Bool :=
  (doubleOverflow : ℚ) ≤ max 0 (-b.tokens) || (doubleOverflow : ℚ) ≤ b.wait

def negativeAmount : PyError :=
  ⟨.valueError, txt "amount must be non-negative"⟩

/-- `reserve`. An amount that has no double fails at the subtraction, after the refill. -/
def reserve (b : TokenBucket) (now amount : ℚ) : Except PyError ℚ × TokenBucket :=
  if h : amount < 0 then (.error negativeAmount, b)
  else if (doubleOverflow : ℚ) ≤ amount then
    (.error ⟨.overflowError, txt "int too large to convert to float"⟩, b.refill now)
  else
    let spent := (b.refill now).spend amount (not_lt.mp h)
    (.ok spent.wait, spent)

theorem reserve_eq_ok (b : TokenBucket) (now : ℚ) {amount : ℚ} (hNonneg : 0 ≤ amount)
    (hLt : amount < doubleOverflow) :
    b.reserve now amount =
      (.ok ((b.refill now).spend amount hNonneg).wait, (b.refill now).spend amount hNonneg) := by
  rw [reserve, dif_neg (not_lt.mpr hNonneg), if_neg (not_le.mpr hLt)]

end TokenBucket

structure ProviderLimiter where
  requests : TokenBucket
  tokens : TokenBucket

namespace ProviderLimiter

def new (limits : ProviderLimits) (now : ℚ) : ProviderLimiter where
  requests := .perMinute limits.requestsPerMin limits.requests_pos now
  tokens := .perMinute limits.tokensPerMin limits.tokens_pos now

/-- `__init__`, which raises where a rate underflows. -/
def build (limits : ProviderLimits) (now : ℚ) : Except PyError ProviderLimiter := do
  let requests ← TokenBucket.init (TokenBucket.perSecond limits.requestsPerMin) limits.requestsPerMin now
  let tokens ← TokenBucket.init (TokenBucket.perSecond limits.tokensPerMin) limits.tokensPerMin now
  pure ⟨requests, tokens⟩

/-- `reserve`: both buckets are charged, and the longer wait is returned. -/
def reserve (l : ProviderLimiter) (now tokens : ℚ) (requests : ℚ := 1) :
    Except PyError ℚ × ProviderLimiter :=
  if tokens < 0 then (.error TokenBucket.negativeAmount, l)
  else
    match l.requests.reserve now requests with
    | (.error e, charged) => (.error e, { l with requests := charged })
    | (.ok waitRequests, charged) =>
      match l.tokens.reserve now tokens with
      | (.error e, tokenBucket) => (.error e, ⟨charged, tokenBucket⟩)
      | (.ok waitTokens, tokenBucket) => (.ok (max waitRequests waitTokens), ⟨charged, tokenBucket⟩)

/-- The longer of the two waits is infinite. -/
def endless (l : ProviderLimiter) : Bool :=
  l.requests.endless || l.tokens.endless

end ProviderLimiter

abbrev RateLimiter := List (Text × ProviderLimiter)

def RateLimiter.reserve (limiter : RateLimiter) (now : ℚ) (provider : Text) (tokens : ℚ) :
    Except PyError ℚ × RateLimiter :=
  match limiter.lookup provider with
  | none => (.error ⟨.unknownProviderError, provider⟩, limiter)
  | some l =>
    let out := l.reserve now tokens
    (out.1, limiter.map fun entry => if entry.1 = provider then (entry.1, out.2) else entry)

namespace RateLimiter

/-- `__init__`, with the bucket constructor's own check. -/
def build (limits : List (Text × ProviderLimits)) (start : ℚ) : Except PyError RateLimiter :=
  limits.mapM fun entry => do
    let l ← ProviderLimiter.build entry.2 start
    pure (entry.1, l)

/-- The wait that the provider's last reservation was given is infinite. -/
def endless (limiter : RateLimiter) (provider : Text) : Bool :=
  match limiter.lookup provider with
  | none => false
  | some l => l.endless

def configured (limiter : RateLimiter) (provider : Text) : Bool :=
  (limiter.lookup provider).isSome

theorem configured_map (limiter : RateLimiter) (provider name : Text) (l : ProviderLimiter) :
    configured (limiter.map fun entry => if entry.1 = provider then (entry.1, l) else entry) name =
      configured limiter name := by
  unfold configured
  induction limiter with
  | nil => rfl
  | cons entry rest ih =>
    obtain ⟨key, value⟩ := entry
    rw [List.map_cons]
    by_cases hKey : key = provider
    · simp only [hKey, if_true, List.lookup_cons]
      split
      · rfl
      · exact ih
    · simp only [hKey, if_false, List.lookup_cons]
      split
      · rfl
      · exact ih

theorem configured_reserve (limiter : RateLimiter) (now : ℚ) (provider name : Text) (tokens : ℚ) :
    configured (limiter.reserve now provider tokens).2 name = configured limiter name := by
  unfold reserve
  split
  · rfl
  · exact configured_map limiter provider name _

theorem exists_reserve_iff {limiter : RateLimiter} {provider : Text}
    (h : limiter.configured provider = true) (now : ℚ) {tokens : ℚ} (hTokens : 0 ≤ tokens) :
    (∃ wait, (limiter.reserve now provider tokens).1 = .ok wait) ↔ tokens < doubleOverflow := by
  obtain ⟨l, hLookup⟩ := Option.isSome_iff_exists.mp h
  simp only [reserve, hLookup, ProviderLimiter.reserve, if_neg (not_lt.mpr hTokens)]
  rw [TokenBucket.reserve_eq_ok l.requests now zero_le_one one_lt_doubleOverflow]
  simp only [TokenBucket.reserve, dif_neg (not_lt.mpr hTokens)]
  by_cases hLarge : (doubleOverflow : ℚ) ≤ tokens
  · rw [if_pos hLarge]
    simp [not_lt.mpr hLarge]
  · rw [if_neg hLarge]
    simp [not_le.mp hLarge]

end RateLimiter

end LlmBus
