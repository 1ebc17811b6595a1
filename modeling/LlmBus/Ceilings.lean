import Mathlib.Algebra.Order.Archimedean.Basic
import Mathlib.Algebra.Order.BigOperators.Group.List
import LlmBus.Foundation.Pacing
import LlmBus.RateLimit

/-! # The ceilings of one provider

Callers reserve one after the other and proceed when their wait is over. Each bucket
alone paces its own releases; the caller leaves at the later of the two, and what it
leaves behind in the other dimension is already refilled by then. Both ceilings hold
together only where one of the buckets is the stricter one for every caller.
-/

namespace LlmBus

open Foundation Foundation.Pacing

structure Caller where
  time : ℚ
  tokens : ℚ

structure Served where
  caller : Caller
  released : ℚ
  after : ProviderLimiter

/-- Callers in the order of their reservations; one whose reservation raises does not proceed. -/
def ProviderLimiter.serve (l : ProviderLimiter) : List Caller → List Served
  | [] => []
  | c :: rest =>
    match l.reserve c.time c.tokens with
    | (.ok wait, after) => ⟨c, c.time + wait, after⟩ :: after.serve rest
    | (.error _, after) => after.serve rest

def window (served : List Served) (x y : ℚ) : List Served :=
  served.filter fun s => decide (x ≤ s.released ∧ s.released ≤ y)

structure KeepsCeilings (limits : ProviderLimits) (served : List Served) : Prop where
  requests : 1 ≤ limits.requestsPerMin → ∀ x y, x ≤ y →
    ((window served x y).length : ℚ) ≤
      limits.requestsPerMin + limits.requestsPerMin / 60 * (y - x)
  tokens : ∀ x y, x ≤ y →
    ((window served x y).map fun s => s.caller.tokens).sum ≤
      limits.tokensPerMin + limits.tokensPerMin / 60 * (y - x)

/-! ### One bucket -/

namespace TokenBucket

/-- The bucket holds `limit` units and earns them in a minute. -/
structure PerMinute (limit : ℚ) (b : TokenBucket) : Prop where
  capacity : b.capacity = limit
  rate : b.rate = limit / 60

theorem perMinute_perMinute {limit : ℚ} (h : 0 < limit) (now : ℚ) :
    PerMinute limit (perMinute limit h now) :=
  ⟨rfl, rfl⟩

def charged (b : TokenBucket) (now amount : ℚ) (h : 0 ≤ amount) : TokenBucket :=
  (b.refill now).spend amount h

theorem PerMinute.charged {limit now amount : ℚ} {b : TokenBucket} (h : PerMinute limit b)
    (hAmount : 0 ≤ amount) : PerMinute limit (b.charged now amount hAmount) :=
  ⟨h.capacity, h.rate⟩

/-- When the deficit left at `now` is worked off. -/
def due (b : TokenBucket) (now : ℚ) : ℚ :=
  now - b.tokens / b.rate

theorem now_add_wait (b : TokenBucket) (now : ℚ) : now + b.wait = max now (b.due now) := by
  have hDiv : max 0 (-b.tokens) / b.rate = max 0 (-b.tokens / b.rate) := by
    rw [← max_div_div_right b.rate_pos.le, zero_div]
  rw [wait, hDiv, due, sub_eq_add_neg, ← neg_div]
  conv_rhs => rw [← add_zero now]
  rw [add_assoc, zero_add, max_add_add_left]

theorem rate_mul_due (b : TokenBucket) (now : ℚ) : b.rate * b.due now = b.rate * now - b.tokens := by
  have hRate := b.rate_pos.ne'
  rw [due]
  field_simp

theorem charged_tokens (b : TokenBucket) (now amount : ℚ) (h : 0 ≤ amount) :
    (b.charged now amount h).tokens =
      min b.capacity (b.tokens + max 0 (now - b.updated) * b.rate) - amount := rfl

theorem charged_updated (b : TokenBucket) (now amount : ℚ) (h : 0 ≤ amount) :
    (b.charged now amount h).updated = max b.updated now := rfl

theorem charge_le_of_charged {b : TokenBucket} {before now amount : ℚ} (hAmount : 0 ≤ amount)
    (hUpdated : before ≤ b.updated) (hNow : before ≤ now) :
    amount ≤ b.rate * ((b.charged now amount hAmount).due now - b.due before) := by
  have hElapsed : max 0 (now - b.updated) ≤ now - before :=
    max_le (sub_nonneg.mpr hNow) (by linarith)
  have hEarned : max 0 (now - b.updated) * b.rate ≤ (now - before) * b.rate :=
    mul_le_mul_of_nonneg_right hElapsed b.rate_pos.le
  have hTokens : (b.charged now amount hAmount).tokens ≤ b.tokens + (now - before) * b.rate - amount := by
    rw [charged_tokens]
    linarith [min_le_right b.capacity (b.tokens + max 0 (now - b.updated) * b.rate)]
  have hAfter := rate_mul_due (b.charged now amount hAmount) now
  have hBefore := rate_mul_due b before
  change b.rate * _ = b.rate * now - _ at hAfter
  rw [mul_sub, hAfter, hBefore]
  linarith

theorem charge_le_capacity_add (b : TokenBucket) (now : ℚ) {amount : ℚ} (hAmount : 0 ≤ amount) :
    amount ≤ b.capacity + b.rate * ((b.charged now amount hAmount).due now - now) := by
  have hAfter := rate_mul_due (b.charged now amount hAmount) now
  change b.rate * _ = b.rate * now - _ at hAfter
  rw [mul_sub, hAfter, charged_tokens]
  linarith [min_le_left b.capacity (b.tokens + max 0 (now - b.updated) * b.rate)]

/-! ### Two buckets side by side -/

def fill (limit : ℚ) (b : TokenBucket) : ℚ :=
  b.tokens / limit

theorem wait_eq {limit : ℚ} {b : TokenBucket} (h : PerMinute limit b) (hLimit : 0 < limit) :
    b.wait = 60 * max 0 (-fill limit b) := by
  have hDiv : max 0 (-b.tokens) / limit = max 0 (-b.tokens / limit) := by
    rw [← max_div_div_right hLimit.le, zero_div]
  rw [wait, h.rate, fill, ← neg_div, ← hDiv]
  field_simp

theorem fill_charged {limit : ℚ} {b : TokenBucket} (h : PerMinute limit b) (hLimit : 0 < limit)
    {now amount : ℚ} (hAmount : 0 ≤ amount) :
    fill limit (b.charged now amount hAmount) =
      min 1 (fill limit b + max 0 (now - b.updated) / 60) - amount / limit := by
  have hMin : min limit (b.tokens + max 0 (now - b.updated) * (limit / 60)) / limit =
      min 1 (b.tokens / limit + max 0 (now - b.updated) / 60) := by
    rw [← min_div_div_right hLimit.le, div_self hLimit.ne']
    congr 1
    field_simp
  rw [fill, charged_tokens, h.capacity, h.rate, sub_div, hMin, fill]

/-- The first bucket is no fuller than the second, and both were refilled together. -/
structure Stricter (limit limit' : ℚ) (b b' : TokenBucket) : Prop where
  updated : b.updated = b'.updated
  fill_le : fill limit b ≤ fill limit' b'

theorem Stricter.charged {limit limit' : ℚ} {b b' : TokenBucket} (h : Stricter limit limit' b b')
    (hb : PerMinute limit b) (hb' : PerMinute limit' b') (hLimit : 0 < limit) (hLimit' : 0 < limit')
    {now amount amount' : ℚ} (hAmount : 0 ≤ amount) (hAmount' : 0 ≤ amount')
    (hShare : amount' / limit' ≤ amount / limit) :
    Stricter limit limit' (b.charged now amount hAmount) (b'.charged now amount' hAmount') where
  updated := by rw [charged_updated, charged_updated, h.updated]
  fill_le := by
    rw [fill_charged hb hLimit, fill_charged hb' hLimit', h.updated]
    exact sub_le_sub (min_le_min_left _ (add_le_add_left h.fill_le _)) hShare

theorem Stricter.wait_le {limit limit' : ℚ} {b b' : TokenBucket} (h : Stricter limit limit' b b')
    (hb : PerMinute limit b) (hb' : PerMinute limit' b') (hLimit : 0 < limit)
    (hLimit' : 0 < limit') : b'.wait ≤ b.wait := by
  rw [wait_eq hb hLimit, wait_eq hb' hLimit']
  gcongr
  exact h.fill_le

end TokenBucket

/-! ### The schedule of one limiter -/

namespace ProviderLimiter

open TokenBucket

def charged (l : ProviderLimiter) (c : Caller) (h : 0 ≤ c.tokens) : ProviderLimiter :=
  ⟨l.requests.charged c.time 1 zero_le_one, l.tokens.charged c.time c.tokens h⟩

theorem reserve_of_neg {l : ProviderLimiter} {c : Caller} (h : c.tokens < 0) :
    l.reserve c.time c.tokens = (.error negativeAmount, l) := by
  rw [reserve, if_pos h]

theorem reserve_of_nonneg {l : ProviderLimiter} {c : Caller} (h : 0 ≤ c.tokens)
    (hLt : c.tokens < doubleOverflow) :
    l.reserve c.time c.tokens =
      (.ok (max (l.charged c h).requests.wait (l.charged c h).tokens.wait), l.charged c h) := by
  rw [reserve, if_neg (not_lt.mpr h), reserve_eq_ok _ _ zero_le_one one_lt_doubleOverflow]
  simp only [reserve_eq_ok _ _ h hLt]
  rfl

theorem serve_cons_of_neg {l : ProviderLimiter} {c : Caller} (h : c.tokens < 0)
    (rest : List Caller) : l.serve (c :: rest) = l.serve rest := by
  rw [serve, reserve_of_neg h]

theorem serve_cons_of_nonneg {l : ProviderLimiter} {c : Caller} (h : 0 ≤ c.tokens)
    (hLt : c.tokens < doubleOverflow) (rest : List Caller) :
    l.serve (c :: rest) =
      ⟨c, c.time + max (l.charged c h).requests.wait (l.charged c h).tokens.wait, l.charged c h⟩ ::
        (l.charged c h).serve rest := by
  rw [serve, reserve_of_nonneg h hLt]

theorem mem_serve {l : ProviderLimiter} {callers : List Caller}
    (hLt : ∀ c ∈ callers, c.tokens < doubleOverflow) {s : Served} (h : s ∈ l.serve callers) :
    s.caller ∈ callers ∧ 0 ≤ s.caller.tokens := by
  induction callers generalizing l with
  | nil => cases h
  | cons c rest ih =>
    have hRest : ∀ c ∈ rest, c.tokens < doubleOverflow := fun d hd =>
      hLt d (List.mem_cons_of_mem c hd)
    by_cases hTokens : 0 ≤ c.tokens
    · rw [serve_cons_of_nonneg hTokens (hLt c List.mem_cons_self)] at h
      rcases List.mem_cons.mp h with rfl | hMem
      · exact ⟨List.mem_cons_self, hTokens⟩
      · exact ⟨List.mem_cons_of_mem c (ih hRest hMem).1, (ih hRest hMem).2⟩
    · rw [serve_cons_of_neg (not_le.mp hTokens)] at h
      exact ⟨List.mem_cons_of_mem c (ih hRest h).1, (ih hRest h).2⟩

end ProviderLimiter

structure Dimension where
  bucket : ProviderLimiter → TokenBucket
  amount : Caller → ℚ
  bucket_charged : ∀ l c (h : 0 ≤ c.tokens), ∃ hAmount : 0 ≤ amount c,
    bucket (l.charged c h) = (bucket l).charged c.time (amount c) hAmount

def requestDimension : Dimension where
  bucket l := l.requests
  amount _ := 1
  bucket_charged _ _ _ := ⟨zero_le_one, rfl⟩

def tokenDimension : Dimension where
  bucket l := l.tokens
  amount c := c.tokens
  bucket_charged _ _ h := ⟨h, rfl⟩

def Served.grant (d : Dimension) (s : Served) : Grant ℚ :=
  ⟨s.caller.time, (d.bucket s.after).due s.caller.time, d.amount s.caller⟩

namespace Dimension

open TokenBucket ProviderLimiter

variable {d e : Dimension} {limit limit' : ℚ} {l : ProviderLimiter} {callers : List Caller}

theorem paced_serve_after (hLimit : PerMinute limit (d.bucket l)) {before : ℚ}
    (hUpdated : before ≤ (d.bucket l).updated) (hBefore : ∀ c ∈ callers, before ≤ c.time)
    (hTimes : callers.Pairwise fun a b => a.time ≤ b.time)
    (hLt : ∀ c ∈ callers, c.tokens < doubleOverflow) :
    Paced (limit / 60) limit (Served.grant d) (l.serve callers) ∧
      ∀ s ∈ l.serve callers, d.amount s.caller ≤
        limit / 60 * ((s.grant d).due - (d.bucket l).due before) := by
  induction callers generalizing l before with
  | nil => exact ⟨⟨.nil, fun _ h => absurd h List.not_mem_nil⟩, fun _ h => absurd h List.not_mem_nil⟩
  | cons c rest ih =>
    obtain ⟨hLater, hRestTimes⟩ := List.pairwise_cons.mp hTimes
    have hRestLt : ∀ c ∈ rest, c.tokens < doubleOverflow := fun e he =>
      hLt e (List.mem_cons_of_mem c he)
    by_cases hTokens : 0 ≤ c.tokens
    · rw [serve_cons_of_nonneg hTokens (hLt c List.mem_cons_self)]
      obtain ⟨hAmount, hBucket⟩ := d.bucket_charged l c hTokens
      have hAfter : PerMinute limit (d.bucket (l.charged c hTokens)) := by
        rw [hBucket]
        exact hLimit.charged hAmount
      have hNow : c.time ≤ (d.bucket (l.charged c hTokens)).updated := by
        rw [hBucket, charged_updated]
        exact le_max_right _ _
      obtain ⟨hPaced, hStep⟩ := ih hAfter hNow hLater hRestTimes hRestLt
      have hFirst : d.amount c ≤ limit / 60 *
          ((d.bucket (l.charged c hTokens)).due c.time - (d.bucket l).due before) := by
        rw [hBucket, ← hLimit.rate]
        exact charge_le_of_charged hAmount hUpdated (hBefore c List.mem_cons_self)
      refine ⟨⟨List.pairwise_cons.mpr ⟨hStep, hPaced.follows⟩, ?_⟩, ?_⟩
      · intro s hs
        rcases List.mem_cons.mp hs with rfl | hMem
        · have hFunded := charge_le_capacity_add (d.bucket l) c.time hAmount
          rw [hLimit.capacity, hLimit.rate, ← hBucket] at hFunded
          exact hFunded
        · exact hPaced.funded s hMem
      · intro s hs
        rcases List.mem_cons.mp hs with rfl | hMem
        · exact hFirst
        · have hLast := hStep s hMem
          have hGap : 0 ≤ limit / 60 *
              ((d.bucket (l.charged c hTokens)).due c.time - (d.bucket l).due before) :=
            hAmount.trans hFirst
          rw [mul_sub] at hLast hGap ⊢
          linarith
    · rw [serve_cons_of_neg (not_le.mp hTokens)]
      exact ih hLimit hUpdated (fun e he => hBefore e (List.mem_cons_of_mem c he)) hRestTimes hRestLt

theorem paced_serve (hLimit : PerMinute limit (d.bucket l))
    (hTimes : callers.Pairwise fun a b => a.time ≤ b.time)
    (hLt : ∀ c ∈ callers, c.tokens < doubleOverflow) :
    Paced (limit / 60) limit (Served.grant d) (l.serve callers) := by
  cases callers with
  | nil => exact ⟨.nil, fun _ h => absurd h List.not_mem_nil⟩
  | cons c rest =>
    have hBefore : ∀ e ∈ c :: rest, min (d.bucket l).updated c.time ≤ e.time := by
      intro e he
      rcases List.mem_cons.mp he with rfl | hMem
      · exact min_le_right _ _
      · exact (min_le_right _ _).trans ((List.pairwise_cons.mp hTimes).1 e hMem)
    exact (paced_serve_after hLimit (min_le_left _ _) hBefore hTimes hLt).1

/-- Where one bucket is the stricter one for every caller, it alone sets the releases. -/
theorem released_eq_release (hWait : ∀ l : ProviderLimiter,
      max l.requests.wait l.tokens.wait = max (d.bucket l).wait (e.bucket l).wait)
    (hd : PerMinute limit (d.bucket l)) (he : PerMinute limit' (e.bucket l))
    (hLimit : 0 < limit) (hLimit' : 0 < limit')
    (hStricter : Stricter limit limit' (d.bucket l) (e.bucket l))
    (hShare : ∀ c ∈ callers, 0 ≤ c.tokens → e.amount c / limit' ≤ d.amount c / limit)
    (hLt : ∀ c ∈ callers, c.tokens < doubleOverflow) :
    ∀ s ∈ l.serve callers, s.released = (s.grant d).release := by
  induction callers generalizing l with
  | nil => exact fun _ h => absurd h List.not_mem_nil
  | cons c rest ih =>
    have hRestLt : ∀ c ∈ rest, c.tokens < doubleOverflow := fun e he =>
      hLt e (List.mem_cons_of_mem c he)
    have hRestShare : ∀ c ∈ rest, 0 ≤ c.tokens → e.amount c / limit' ≤ d.amount c / limit :=
      fun e he => hShare e (List.mem_cons_of_mem c he)
    by_cases hTokens : 0 ≤ c.tokens
    · rw [serve_cons_of_nonneg hTokens (hLt c List.mem_cons_self)]
      obtain ⟨hAmount, hBucket⟩ := d.bucket_charged l c hTokens
      obtain ⟨hAmount', hBucket'⟩ := e.bucket_charged l c hTokens
      have hAfter : PerMinute limit (d.bucket (l.charged c hTokens)) := by
        rw [hBucket]
        exact hd.charged hAmount
      have hAfter' : PerMinute limit' (e.bucket (l.charged c hTokens)) := by
        rw [hBucket']
        exact he.charged hAmount'
      have hStill : Stricter limit limit' (d.bucket (l.charged c hTokens))
          (e.bucket (l.charged c hTokens)) := by
        rw [hBucket, hBucket']
        exact hStricter.charged hd he hLimit hLimit' hAmount hAmount'
          (hShare c List.mem_cons_self hTokens)
      intro s hs
      rcases List.mem_cons.mp hs with rfl | hMem
      · have hLe := hStill.wait_le hAfter hAfter' hLimit hLimit'
        change c.time + max _ _ = max c.time ((d.bucket (l.charged c hTokens)).due c.time)
        rw [hWait, max_eq_left hLe, now_add_wait]
      · exact ih hAfter hAfter' hStill hRestShare hRestLt s hMem
    · rw [serve_cons_of_neg (not_le.mp hTokens)]
      exact ih hd he hStricter hRestShare hRestLt

theorem window_sum_le (hReleased : ∀ s ∈ l.serve callers, s.released = (s.grant d).release)
    (hd : PerMinute limit (d.bucket l)) (hLimit : 0 < limit)
    (hTimes : callers.Pairwise fun a b => a.time ≤ b.time)
    (hLt : ∀ c ∈ callers, c.tokens < doubleOverflow) (scale : ℚ) (hScale : 0 ≤ scale)
    (weight : Caller → ℚ)
    (hWeight : ∀ c ∈ callers, 0 ≤ c.tokens →
      weight c ≤ scale * d.amount c ∧ weight c ≤ scale * limit) {x y : ℚ} (hxy : x ≤ y) :
    ((window (l.serve callers) x y).map fun s => weight s.caller).sum ≤
      scale * (limit + limit / 60 * (y - x)) := by
  have hWindow : window (l.serve callers) x y = (l.serve callers).filter fun s =>
      decide (x ≤ (s.grant d).release ∧ (s.grant d).release ≤ y) := by
    apply List.filter_congr
    intro s hs
    rw [hReleased s hs]
  rw [hWindow]
  refine (paced_serve hd hTimes hLt).window_sum_le hScale (by positivity) hLimit.le hxy ?_
  intro s hs
  obtain ⟨hMem, hTokens⟩ := mem_serve hLt hs
  obtain ⟨hCharge, hCapacity⟩ := hWeight s.caller hMem hTokens
  exact ⟨hCharge, hCapacity⟩

end Dimension

/-! ### A burst that drives the two dimensions apart -/

namespace ProviderLimiter

open TokenBucket

variable {limits : ProviderLimits} {l : ProviderLimiter} {r t a : ℚ}

def burst (n : Nat) (tokens : ℚ) : List Caller :=
  List.replicate n ⟨0, tokens⟩

structure Level (limits : ProviderLimits) (r t : ℚ) (l : ProviderLimiter) : Prop where
  requests : PerMinute limits.requestsPerMin l.requests
  tokens : PerMinute limits.tokensPerMin l.tokens
  requests_updated : l.requests.updated = 0
  tokens_updated : l.tokens.updated = 0
  requests_tokens : l.requests.tokens = r
  tokens_tokens : l.tokens.tokens = t

theorem level_new (limits : ProviderLimits) :
    Level limits limits.requestsPerMin limits.tokensPerMin (new limits 0) :=
  ⟨⟨rfl, rfl⟩, ⟨rfl, rfl⟩, rfl, rfl, rfl, rfl⟩

theorem charged_tokens_at_zero {b : TokenBucket} (h : b.updated = 0) (hAmount : 0 ≤ a) :
    (b.charged 0 a hAmount).tokens = b.tokens - a := by
  rw [charged_tokens, h, sub_zero, max_self, zero_mul, add_zero, min_eq_right b.tokens_le]

theorem charged_updated_at_zero {b : TokenBucket} (h : b.updated = 0) (hAmount : 0 ≤ a) :
    (b.charged 0 a hAmount).updated = 0 := by
  rw [charged_updated, h, max_self]

theorem Level.charged (h : Level limits r t l) (hA : 0 ≤ a) :
    Level limits (r - 1) (t - a) (l.charged ⟨0, a⟩ hA) where
  requests := h.requests.charged zero_le_one
  tokens := h.tokens.charged hA
  requests_updated := charged_updated_at_zero h.requests_updated zero_le_one
  tokens_updated := charged_updated_at_zero h.tokens_updated hA
  requests_tokens :=
    (charged_tokens_at_zero h.requests_updated zero_le_one).trans (by rw [h.requests_tokens])
  tokens_tokens := (charged_tokens_at_zero h.tokens_updated hA).trans (by rw [h.tokens_tokens])

theorem serve_burst_succ (hA : 0 ≤ a) (hLt : a < doubleOverflow) (n : Nat) (rest : List Caller) :
    l.serve (burst (n + 1) a ++ rest) =
      ⟨⟨0, a⟩, 0 + max (l.charged ⟨0, a⟩ hA).requests.wait (l.charged ⟨0, a⟩ hA).tokens.wait,
          l.charged ⟨0, a⟩ hA⟩ ::
        (l.charged ⟨0, a⟩ hA).serve (burst n a ++ rest) :=
  @serve_cons_of_nonneg l ⟨0, a⟩ hA hLt (burst n a ++ rest)

theorem serve_burst_alone (hA : 0 ≤ a) (hLt : a < doubleOverflow) (n : Nat) :
    l.serve (burst (n + 1) a) =
      ⟨⟨0, a⟩, 0 + max (l.charged ⟨0, a⟩ hA).requests.wait (l.charged ⟨0, a⟩ hA).tokens.wait,
          l.charged ⟨0, a⟩ hA⟩ ::
        (l.charged ⟨0, a⟩ hA).serve (burst n a) :=
  @serve_cons_of_nonneg l ⟨0, a⟩ hA hLt (burst n a)

theorem serve_burst_append (h : Level limits r t l) (hA : 0 ≤ a) (hLt : a < doubleOverflow) (n : Nat)
    (rest : List Caller) :
    ∃ l', Level limits (r - n) (t - n * a) l' ∧
      l.serve (burst n a ++ rest) = l.serve (burst n a) ++ l'.serve rest := by
  induction n generalizing l r t with
  | zero =>
    refine ⟨l, ?_, rfl⟩
    simpa using h
  | succ n ih =>
    obtain ⟨l', hLevel, hServe⟩ := ih (h.charged hA)
    refine ⟨l', ?_, ?_⟩
    · have hRequests : r - 1 - n = r - (n + 1 : Nat) := by
        push_cast
        ring
      have hTokens : t - a - n * a = t - (n + 1 : Nat) * a := by
        push_cast
        ring
      rw [← hRequests, ← hTokens]
      exact hLevel
    · rw [serve_burst_succ hA hLt, serve_burst_alone hA hLt, hServe]
      rfl

theorem serve_burst_length (hA : 0 ≤ a) (hLt : a < doubleOverflow) (n : Nat) :
    (l.serve (burst n a)).length = n := by
  induction n generalizing l with
  | zero => rfl
  | succ n ih =>
    rw [serve_burst_alone hA hLt, List.length_cons, ih]

/-- How long a caller waits at this level, against a bound on both deficits. -/
theorem Level.wait_bounds (h : Level limits r t l) {x : ℚ} (hx : 0 ≤ x)
    (hRequests : -(r / limits.requestsPerMin) ≤ x) (hTokens : -(t / limits.tokensPerMin) ≤ x) :
    60 * -(r / limits.requestsPerMin) ≤ max l.requests.wait l.tokens.wait ∧
      max l.requests.wait l.tokens.wait ≤ 60 * x := by
  rw [wait_eq h.requests limits.requests_pos, wait_eq h.tokens limits.tokens_pos, fill, fill,
    h.requests_tokens, h.tokens_tokens]
  constructor
  · apply le_max_of_le_left
    exact mul_le_mul_of_nonneg_left (le_max_right _ _) (by norm_num)
  · apply max_le
    · exact mul_le_mul_of_nonneg_left (max_le hx hRequests) (by norm_num)
    · exact mul_le_mul_of_nonneg_left (max_le hx hTokens) (by norm_num)

/-- As long as the request bucket is the emptier one, a burst leaves at its pace. -/
theorem released_of_mem_burst (h : Level limits r t l) (hA : 0 ≤ a) (hLt : a < doubleOverflow) {m : Nat}
    (hDebt : r ≤ m) (hHeavy : 1 / limits.requestsPerMin ≤ a / limits.tokensPerMin)
    (hLead : (r - m) / limits.requestsPerMin ≤ (t - m * a) / limits.tokensPerMin) :
    ∀ s ∈ l.serve (burst m a), s.caller.tokens = a ∧
      60 * ((1 - r) / limits.requestsPerMin) ≤ s.released ∧
      s.released ≤ 60 * ((m - r) / limits.requestsPerMin) := by
  have hR := limits.requests_pos
  have hT := limits.tokens_pos
  induction m generalizing l r t with
  | zero => exact fun _ hs => absurd hs List.not_mem_nil
  | succ m ih =>
    push_cast at hDebt hLead ⊢
    have hNext := ih (h.charged hA) (by linarith) (by
      have hRequests : r - 1 - m = r - (m + 1) := by ring
      have hTokens : t - a - m * a = t - (m + 1) * a := by ring
      rw [hRequests, hTokens]
      exact hLead)
    have hScaled : (m : ℚ) * (1 / limits.requestsPerMin) ≤ m * (a / limits.tokensPerMin) :=
      mul_le_mul_of_nonneg_left hHeavy m.cast_nonneg
    have hTokenWait : -((t - a) / limits.tokensPerMin) ≤ -((r - 1) / limits.requestsPerMin) := by
      have hLeft : (r - (m + 1)) / limits.requestsPerMin =
          (r - 1) / limits.requestsPerMin - m * (1 / limits.requestsPerMin) := by ring
      have hRight : (t - (m + 1) * a) / limits.tokensPerMin =
          (t - a) / limits.tokensPerMin - m * (a / limits.tokensPerMin) := by ring
      rw [hLeft, hRight] at hLead
      linarith
    have hLast : -((r - 1) / limits.requestsPerMin) ≤ (m + 1 - r) / limits.requestsPerMin := by
      rw [← neg_div]
      gcongr
      linarith [(m.cast_nonneg : (0 : ℚ) ≤ m)]
    have hEnd : 0 ≤ (m + 1 - r) / limits.requestsPerMin :=
      div_nonneg (by linarith) hR.le
    have hFirst : -((r - 1) / limits.requestsPerMin) = (1 - r) / limits.requestsPerMin := by ring
    intro s hs
    rw [serve_burst_alone hA hLt] at hs
    rcases List.mem_cons.mp hs with rfl | hMem
    · have hWait := (h.charged hA).wait_bounds hEnd hLast (hTokenWait.trans hLast)
      rw [hFirst] at hWait
      exact ⟨rfl, hWait.1.trans_eq (zero_add _).symm, (zero_add _).trans_le hWait.2⟩
    · obtain ⟨hTokens, hLow, hHigh⟩ := hNext s hMem
      refine ⟨hTokens, le_trans ?_ hLow, hHigh.trans_eq ?_⟩
      · gcongr
        linarith
      · ring

end ProviderLimiter

/-! ### When both ceilings hold -/

section Ceilings

open ProviderLimiter TokenBucket

variable {limits : ProviderLimits} {callers : List Caller} {start : ℚ}

theorem keepsCeilings_of_requests_stricter
    (hTimes : callers.Pairwise fun a b => a.time ≤ b.time)
    (hCap : ∀ c ∈ callers, c.tokens ≤ limits.tokensPerMin)
    (hShare : ∀ c ∈ callers, 0 ≤ c.tokens → c.tokens * limits.requestsPerMin ≤ limits.tokensPerMin) :
    KeepsCeilings limits ((new limits start).serve callers) := by
  have hR := limits.requests_pos
  have hT := limits.tokens_pos
  have hLt : ∀ c ∈ callers, c.tokens < doubleOverflow := fun c hc =>
    (hCap c hc).trans_lt limits.tokens_lt
  have hReleased : ∀ s ∈ (new limits start).serve callers,
      s.released = (s.grant requestDimension).release :=
    Dimension.released_eq_release (e := tokenDimension) (fun _ => rfl)
      (perMinute_perMinute hR start) (perMinute_perMinute hT start) hR hT
      ⟨rfl, by simp [fill, requestDimension, tokenDimension, new, perMinute, hR.ne', hT.ne']⟩
      (fun c hc h => by
        change c.tokens / _ ≤ 1 / _
        rw [div_le_div_iff₀ hT hR, one_mul]
        exact hShare c hc h) hLt
  have hSum := @Dimension.window_sum_le requestDimension limits.requestsPerMin (new limits start)
    callers hReleased (perMinute_perMinute hR start) hR hTimes hLt
  constructor
  · intro hOne x y hxy
    have h := hSum 1 zero_le_one (fun _ => 1) (fun c _ _ => ⟨(one_mul (1 : ℚ)).ge, by simpa⟩) hxy
    simpa using h
  · intro x y hxy
    have h := hSum (limits.tokensPerMin / limits.requestsPerMin) (by positivity) Caller.tokens
      (fun c hc hTokens => by
        constructor
        · change c.tokens ≤ _ * 1
          rw [mul_one, le_div_iff₀ hR]
          exact hShare c hc hTokens
        · rw [div_mul_cancel₀ _ hR.ne']
          exact hCap c hc) hxy
    apply h.trans_eq
    field_simp

theorem keepsCeilings_of_tokens_stricter
    (hTimes : callers.Pairwise fun a b => a.time ≤ b.time)
    (hCap : ∀ c ∈ callers, c.tokens ≤ limits.tokensPerMin)
    (hShare : ∀ c ∈ callers, 0 ≤ c.tokens → limits.tokensPerMin ≤ c.tokens * limits.requestsPerMin) :
    KeepsCeilings limits ((new limits start).serve callers) := by
  have hR := limits.requests_pos
  have hT := limits.tokens_pos
  have hLt : ∀ c ∈ callers, c.tokens < doubleOverflow := fun c hc =>
    (hCap c hc).trans_lt limits.tokens_lt
  have hReleased : ∀ s ∈ (new limits start).serve callers,
      s.released = (s.grant tokenDimension).release :=
    Dimension.released_eq_release (e := requestDimension) (fun _ => max_comm _ _)
      (perMinute_perMinute hT start) (perMinute_perMinute hR start) hT hR
      ⟨rfl, by simp [fill, requestDimension, tokenDimension, new, perMinute, hR.ne', hT.ne']⟩
      (fun c hc h => by
        change 1 / _ ≤ c.tokens / _
        rw [div_le_div_iff₀ hR hT, one_mul]
        exact hShare c hc h) hLt
  have hSum := @Dimension.window_sum_le tokenDimension limits.tokensPerMin (new limits start)
    callers hReleased (perMinute_perMinute hT start) hT hTimes hLt
  constructor
  · intro hOne x y hxy
    have h := hSum (limits.requestsPerMin / limits.tokensPerMin) (by positivity) (fun _ => 1)
      (fun c hc hTokens => by
        constructor
        · change 1 ≤ _ * c.tokens
          rw [div_mul_eq_mul_div, le_div_iff₀ hT, one_mul, mul_comm]
          exact hShare c hc hTokens
        · rw [div_mul_cancel₀ _ hT.ne']
          exact hOne) hxy
    have hCount : ((window ((new limits start).serve callers) x y).map fun _ => (1 : ℚ)).sum =
        (window ((new limits start).serve callers) x y).length := by simp
    rw [← hCount]
    apply h.trans_eq
    field_simp
  · intro x y hxy
    have h := hSum 1 zero_le_one Caller.tokens
      (fun c hc _ => ⟨(one_mul c.tokens).ge, (hCap c hc).trans_eq (one_mul _).symm⟩) hxy
    simpa using h

theorem nonneg_sum_served {l : ProviderLimiter} (hLt : ∀ c ∈ callers, c.tokens < doubleOverflow)
    (p : Served → Bool) : 0 ≤ (((l.serve callers).filter p).map fun s => s.caller.tokens).sum := by
  apply List.sum_nonneg
  intro q hq
  obtain ⟨s, hs, rfl⟩ := List.mem_map.mp hq
  exact (mem_serve hLt (List.mem_of_mem_filter hs)).2

/-- Callers with few tokens, then callers with many: the tokens of the second group were
earned while the first group waited for requests, and all leave together. -/
theorem exists_burst_over_tokens {low high : ℚ} (hLow : 0 ≤ low) (hHigh : 0 ≤ high)
    (hLowCap : low ≤ limits.tokensPerMin) (hHighCap : high ≤ limits.tokensPerMin)
    (hLight : low * limits.requestsPerMin < limits.tokensPerMin)
    (hHeavy : limits.tokensPerMin < high * limits.requestsPerMin) :
    ∃ n m, ¬ KeepsCeilings limits ((new limits 0).serve (burst n low ++ burst m high)) := by
  have hR := limits.requests_pos
  have hT := limits.tokens_pos
  have hGain : 0 < high * limits.requestsPerMin - limits.tokensPerMin := sub_pos.mpr hHeavy
  have hSlack : 0 < limits.tokensPerMin - low * limits.requestsPerMin := sub_pos.mpr hLight
  obtain ⟨m, hM⟩ := exists_nat_gt (max 1 (limits.tokensPerMin * (limits.requestsPerMin - 1) /
    (high * limits.requestsPerMin - limits.tokensPerMin)))
  obtain ⟨n, hN⟩ := exists_nat_gt (max limits.requestsPerMin
    (m * (high * limits.requestsPerMin - limits.tokensPerMin) /
      (limits.tokensPerMin - low * limits.requestsPerMin)))
  obtain ⟨hMOne, hMGain⟩ := max_lt_iff.mp hM
  obtain ⟨hNDebt, hNSlack⟩ := max_lt_iff.mp hN
  rw [div_lt_iff₀ hGain] at hMGain
  rw [div_lt_iff₀ hSlack] at hNSlack
  refine ⟨n, m, fun hKeeps => ?_⟩
  obtain ⟨l, hLevel, hServe⟩ := serve_burst_append (level_new limits) hLow
    (hLowCap.trans_lt limits.tokens_lt) n (burst m high)
  have hHighLt := hHighCap.trans_lt limits.tokens_lt
  have hLead : (limits.requestsPerMin - n - m) / limits.requestsPerMin ≤
      (limits.tokensPerMin - n * low - m * high) / limits.tokensPerMin := by
    rw [div_le_div_iff₀ hR hT]
    linarith
  have hShare : 1 / limits.requestsPerMin ≤ high / limits.tokensPerMin := by
    rw [div_le_div_iff₀ hR hT, one_mul]
    exact hHeavy.le
  have hReleased := released_of_mem_burst hLevel hHigh hHighLt (m := m) (by linarith) hShare hLead
  have hWindow := hKeeps.tokens (60 * ((1 - (limits.requestsPerMin - n)) / limits.requestsPerMin))
    (60 * ((m - (limits.requestsPerMin - n)) / limits.requestsPerMin)) (by gcongr)
  rw [hServe, window, List.filter_append, List.map_append, List.sum_append] at hWindow
  have hSecond : (l.serve (burst m high)).filter (fun s => decide
      (60 * ((1 - (limits.requestsPerMin - n)) / limits.requestsPerMin) ≤ s.released ∧
        s.released ≤ 60 * ((m - (limits.requestsPerMin - n)) / limits.requestsPerMin))) =
      l.serve (burst m high) :=
    List.filter_eq_self.mpr fun s hs => decide_eq_true (hReleased s hs).2
  have hSecondSum : ((l.serve (burst m high)).map fun s => s.caller.tokens).sum = m * high := by
    rw [List.map_congr_left fun s hs => (hReleased s hs).1]
    simp [serve_burst_length hHigh hHighLt]
  have hLowLt : ∀ c ∈ burst n low, c.tokens < doubleOverflow := by
    intro c hc
    rw [(List.mem_replicate.mp hc).2]
    exact hLowCap.trans_lt limits.tokens_lt
  rw [hSecond, hSecondSum] at hWindow
  have hTotal := (le_add_of_nonneg_left (nonneg_sum_served hLowLt _)).trans hWindow
  have hSpan : limits.tokensPerMin + limits.tokensPerMin / 60 *
      (60 * ((m - (limits.requestsPerMin - n)) / limits.requestsPerMin) -
        60 * ((1 - (limits.requestsPerMin - n)) / limits.requestsPerMin)) =
      (limits.tokensPerMin * limits.requestsPerMin + limits.tokensPerMin * (m - 1)) /
        limits.requestsPerMin := by
    field_simp
    ring
  rw [hSpan, le_div_iff₀ hR] at hTotal
  linarith

/-- Both ceilings hold over every sequence of callers exactly where no caller's token
share lies on the other side of its request share than another's. -/
theorem keepsCeilings_iff (limits : ProviderLimits) (amounts : Set ℚ)
    (hAmounts : ∀ a ∈ amounts, a ≤ limits.tokensPerMin) :
    (∀ start callers, callers.Pairwise (fun a b => a.time ≤ b.time) →
        (∀ c ∈ callers, c.tokens ∈ amounts) →
        KeepsCeilings limits ((new limits start).serve callers)) ↔
      (∀ a ∈ amounts, 0 ≤ a → a * limits.requestsPerMin ≤ limits.tokensPerMin) ∨
        ∀ a ∈ amounts, 0 ≤ a → limits.tokensPerMin ≤ a * limits.requestsPerMin := by
  constructor
  · intro h
    by_contra hBoth
    obtain ⟨hOver, hUnder⟩ := not_or.mp hBoth
    push Not at hOver hUnder
    obtain ⟨high, hHighMem, hHigh, hHeavy⟩ := hOver
    obtain ⟨low, hLowMem, hLow, hLight⟩ := hUnder
    obtain ⟨n, m, hBroken⟩ := exists_burst_over_tokens hLow hHigh (hAmounts low hLowMem)
      (hAmounts high hHighMem) hLight hHeavy
    refine hBroken (h 0 _ ?_ ?_)
    · have hZero : ∀ c ∈ burst n low ++ burst m high, c.time = 0 := by
        intro c hc
        cases List.mem_append.mp hc with
        | inl hc => rw [(List.mem_replicate.mp hc).2]
        | inr hc => rw [(List.mem_replicate.mp hc).2]
      exact List.pairwise_of_forall_mem_list fun a ha b hb => by rw [hZero a ha, hZero b hb]
    · intro c hc
      cases List.mem_append.mp hc with
      | inl hc =>
        rw [(List.mem_replicate.mp hc).2]
        exact hLowMem
      | inr hc =>
        rw [(List.mem_replicate.mp hc).2]
        exact hHighMem
  · intro h start callers hTimes hMem
    have hCap : ∀ c ∈ callers, c.tokens ≤ limits.tokensPerMin := fun c hc => hAmounts _ (hMem c hc)
    cases h with
    | inl h => exact keepsCeilings_of_requests_stricter hTimes hCap fun c hc => h _ (hMem c hc)
    | inr h => exact keepsCeilings_of_tokens_stricter hTimes hCap fun c hc => h _ (hMem c hc)

def twoRequestsSixtyTokens : ProviderLimits where
  requestsPerMin := 2
  tokensPerMin := 60
  requests_pos := by decide +kernel
  tokens_pos := by decide +kernel
  requests_lt := by decide +kernel
  tokens_lt := by decide +kernel

theorem keepsCeilings_iff_free_or_full :
    (∀ start callers, callers.Pairwise (fun a b => a.time ≤ b.time) →
        (∀ c ∈ callers, c.tokens ∈ ({0, 60} : Set ℚ)) →
        KeepsCeilings twoRequestsSixtyTokens ((new twoRequestsSixtyTokens start).serve callers)) ↔
      (∀ a ∈ ({0, 60} : Set ℚ), 0 ≤ a → a * 2 ≤ 60) ∨ ∀ a ∈ ({0, 60} : Set ℚ), 0 ≤ a → 60 ≤ a * 2 :=
  keepsCeilings_iff twoRequestsSixtyTokens {0, 60} (by
    rintro a (rfl | rfl)
    · decide +kernel
    · decide +kernel)

/-- Six callers at once, the last two with a full minute of tokens each: those two leave
30 seconds apart. -/
theorem ceilings_exceeded :
    (burst 4 0 ++ burst 2 60).Pairwise (fun a b => a.time ≤ b.time) ∧
      (∀ c ∈ burst 4 0 ++ burst 2 60, 0 ≤ c.tokens ∧ c.tokens ≤ 60) ∧
      ¬ KeepsCeilings twoRequestsSixtyTokens
        ((new twoRequestsSixtyTokens 0).serve (burst 4 0 ++ burst 2 60)) := by
  refine ⟨by decide +kernel, by decide +kernel, fun h => ?_⟩
  have hOver : ¬ ((window ((new twoRequestsSixtyTokens 0).serve (burst 4 0 ++ burst 2 60)) 90
      120).map fun s => s.caller.tokens).sum ≤ 60 + 60 / 60 * (120 - 90) := by decide +kernel
  exact hOver (h.tokens 90 120 (by decide +kernel))

end Ceilings

end LlmBus
