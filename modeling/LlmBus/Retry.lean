import LlmBus.Schema

/-! # Retry policy

Which failures are worth another attempt, and how long to wait before it. A power of
two can raise on a double, and a product or a sum can leave the finite range; `Power`
says whether they do, so the same definitions can be read with exact delays.
-/

namespace LlmBus

open Foundation

structure RetryPolicy where
  maxAttempts : Nat
  baseDelayS : Double
  maxDelayS : Double
  maxAttempts_pos : 1 ≤ maxAttempts
  base_pos : baseDelayS.le (.finite 0) = false
  base_le_max : maxDelayS.lt baseDelayS = false

structure WorkerPolicy where
  retry : RetryPolicy
  jobTimeoutS : Double
  defaultOutputTokens : Nat
  timeout_pos : jobTimeoutS.le (.finite 0) = false

/-- The arithmetic of the delays: `2.0**n`, or the `OverflowError` it raises, and what the exact
value of a product or of a sum becomes. -/
structure Power where
  pow : Nat → Option Double
  round : Double → Double

def floatPower : Power where
  pow n := if n < 1024 then some (.finite (2 ^ n)) else none
  round := Double.overflowing

def exactPower : Power where
  pow n := some (.finite (2 ^ n))
  round := id

def overflow (message : String) : PyError :=
  ⟨.overflowError, txt message⟩

/-- The wait before retry number `retryIndex`: exponential, capped, scaled by the draw. -/
def backoffDelay (power : Power) (retryIndex : Nat) (policy : RetryPolicy) (rand : ℚ) :
    Except PyError Double :=
  match power.pow retryIndex with
  | none => .error (overflow "(34, 'Numerical result out of range')")
  | some p =>
    -- a draw is below 1, so the second product stays within the range of the first
    .ok ((Double.min policy.maxDelayS (power.round (policy.baseDelayS.mul p))).mul (.finite rand))

/-- The wait before retry `i` comes to an end, the draw being `rand`: it is neither NaN nor
infinite. A policy whose limits are NaN is one the constructor lets through. -/
def RetryPolicy.Pauses (policy : RetryPolicy) (i : Nat) (rand : ℚ) : Prop :=
  policy.maxDelayS.isFinite = true ∨
    (policy.maxDelayS = .posInf ∧
      ∃ base : ℚ, policy.baseDelayS = .finite base ∧ base * 2 ^ i < doubleOverflow) ∨
      (policy.maxDelayS = .negInf ∧ rand ≠ 0)

theorem floatPower_pow {i : Nat} (h : i < 1024) : floatPower.pow i = some (.finite (2 ^ i)) :=
  if_pos h

@[simp] theorem floatPower_round (x : Double) : floatPower.round x = x.overflowing := rfl

@[simp] theorem exactPower_pow (i : Nat) : exactPower.pow i = some (.finite (2 ^ i)) := rfl

@[simp] theorem exactPower_round (x : Double) : exactPower.round x = x := rfl

theorem backoffDelay_floatPower {i : Nat} (h : i < 1024) (policy : RetryPolicy) (rand : ℚ) :
    backoffDelay floatPower i policy rand =
      .ok ((Double.min policy.maxDelayS
        (policy.baseDelayS.mul (.finite (2 ^ i))).overflowing).mul (.finite rand)) := by
  rw [backoffDelay, floatPower_pow h]
  rfl

/-- The wait before retry `i` as a double, neither capped nor scaled. -/
def RetryPolicy.uncapped (policy : RetryPolicy) (i : Nat) : Double :=
  (policy.baseDelayS.mul (.finite (2 ^ i))).overflowing

/-- The first wait is above zero, or NaN, and so is every later one. -/
theorem RetryPolicy.uncapped_cases (policy : RetryPolicy) (i : Nat) :
    (∃ base : ℚ, policy.baseDelayS = .finite base ∧ base * 2 ^ i < doubleOverflow ∧
      policy.uncapped i = .finite (base * 2 ^ i)) ∨
    ((∀ base : ℚ, policy.baseDelayS = .finite base → ¬ base * 2 ^ i < doubleOverflow) ∧
      (policy.uncapped i = .posInf ∨ policy.uncapped i = .nan)) := by
  have hPositive : (0 : ℚ) < 2 ^ i := by positivity
  have hBase := policy.base_pos
  unfold RetryPolicy.uncapped
  cases hB : policy.baseDelayS with
  | finite base =>
    rw [hB] at hBase
    have hScaled : 0 ≤ base * 2 ^ i := by
      simp only [Double.le_finite, decide_eq_false_iff_not, not_le] at hBase
      positivity
    rw [Double.mul_finite]
    rcases lt_or_ge (base * 2 ^ i) (doubleOverflow : ℚ) with hLt | hGe
    · exact .inl ⟨base, rfl, hLt, Double.overflowing_finite hScaled hLt⟩
    · refine .inr ⟨fun base' h => ?_, .inl (Double.overflowing_eq_posInf hGe)⟩
      cases h
      exact not_lt.mpr hGe
  | posInf =>
    have hInfinite : Double.signedInf (2 ^ i) = .posInf := by
      rw [Double.signedInf, if_neg hPositive.ne', if_pos hPositive]
    refine .inr ⟨fun base h => (by cases h), .inl ?_⟩
    rw [Double.mul, hInfinite]
    rfl
  | negInf =>
    rw [hB] at hBase
    cases hBase
  | nan => exact .inr ⟨fun base h => (by cases h), .inr rfl⟩

/-- A ceiling of minus infinity is below every first wait but NaN. -/
theorem RetryPolicy.uncapped_of_negInf {policy : RetryPolicy} (h : policy.maxDelayS = .negInf)
    (i : Nat) : policy.uncapped i = .nan := by
  have hBase := policy.base_pos
  have hMax := policy.base_le_max
  unfold RetryPolicy.uncapped
  rw [h] at hMax
  cases hB : policy.baseDelayS with
  | finite base => rw [hB] at hMax; cases hMax
  | posInf => rw [hB] at hMax; cases hMax
  | negInf => rw [hB] at hBase; cases hBase
  | nan => rfl

theorem posInf_mul_draw {rand : ℚ} (hRand : 0 ≤ rand) :
    Double.posInf.mul (.finite rand) = .nan ∨ Double.posInf.mul (.finite rand) = .posInf := by
  change Double.signedInf rand = .nan ∨ Double.signedInf rand = .posInf
  unfold Double.signedInf
  split
  · exact .inl rfl
  · rename_i hNe
    rw [if_pos (lt_of_le_of_ne hRand (Ne.symm hNe))]
    exact .inr rfl

theorem negInf_mul_draw {rand : ℚ} (hRand : 0 ≤ rand) :
    Double.negInf.mul (.finite rand) = if rand = 0 then .nan else .negInf := by
  have hNegative : ¬ 0 < -rand := by linarith
  simp only [Double.mul, Double.signedInf, neg_eq_zero, if_neg hNegative]

theorem exists_backoffDelay_floatPower {i : Nat} (hIndex : i < 1024) (policy : RetryPolicy)
    {rand : ℚ} (hRand : 0 ≤ rand) :
    ∃ delay, backoffDelay floatPower i policy rand = .ok delay ∧
      (policy.Pauses i rand ↔ delay ≠ .nan ∧ delay ≠ .posInf) := by
  refine ⟨_, backoffDelay_floatPower hIndex policy rand, ?_⟩
  change _ ↔ (Double.min policy.maxDelayS (policy.uncapped i)).mul (.finite rand) ≠ .nan ∧
    (Double.min policy.maxDelayS (policy.uncapped i)).mul (.finite rand) ≠ .posInf
  have hStuck := posInf_mul_draw hRand
  unfold RetryPolicy.Pauses
  cases hM : policy.maxDelayS with
  | finite m =>
    -- whatever the product is, the ceiling or something smaller is taken
    obtain ⟨base, -, -, hDelay⟩ | ⟨-, hDelay | hDelay⟩ := policy.uncapped_cases i
    · simp [hDelay, Double.min_finite]
    · simp [hDelay, Double.min, Double.lt]
    · simp [hDelay, Double.min, Double.lt]
  | posInf =>
    obtain ⟨base, hBase, hLt, hDelay⟩ | ⟨hNone, hDelay⟩ := policy.uncapped_cases i
    · simp [hBase, hDelay, Double.min, Double.lt, hLt]
    · have hKept : Double.min .posInf (policy.uncapped i) = .posInf := by
        rcases hDelay with hDelay | hDelay <;> rw [hDelay] <;> rfl
      rw [hKept]
      refine iff_of_false ?_ fun h => hStuck.elim h.1 h.2
      rintro (hFinite | ⟨-, base, hBase, hLt⟩ | ⟨hNegInf, -⟩)
      · cases hFinite
      · exact hNone base hBase hLt
      · cases hNegInf
  | negInf =>
    have hKept : Double.min .negInf (policy.uncapped i) = .negInf := by
      rw [RetryPolicy.uncapped_of_negInf hM]
      rfl
    rw [hKept, negInf_mul_draw hRand]
    by_cases hZero : rand = 0 <;> simp [hZero]
  | nan => simp [Double.min, Double.mul, Double.lt]

theorem exists_backoffDelay_exactPower (i : Nat) (policy : RetryPolicy) (rand : ℚ) :
    ∃ delay, backoffDelay exactPower i policy rand = .ok delay :=
  ⟨_, rfl⟩

/-- The wait before retry `i`, not yet scaled: the summand of the published budget. -/
def backoffCeiling (power : Power) (policy : RetryPolicy) (i : Nat) : Option Double :=
  (power.pow i).map fun p => Double.min (power.round (policy.baseDelayS.mul p)) policy.maxDelayS

def backoffTotal (power : Power) (policy : RetryPolicy) : Nat → Option Double
  | 0 => some (.finite 0)
  | n + 1 =>
    match backoffTotal power policy n, backoffCeiling power policy n with
    | some total, some ceiling => some (power.round (total.add ceiling))
    | _, _ => none

/-- `retry_budget_seconds`: every attempt at its timeout, every backoff at its ceiling. -/
def retryBudgetSeconds (power : Power) (policy : WorkerPolicy) : Except PyError Double :=
  match backoffTotal power policy.retry (policy.retry.maxAttempts - 1) with
  | none => .error (overflow "int too large to convert to float")
  | some total =>
    .ok (power.round
      ((power.round ((Double.finite policy.retry.maxAttempts).mul policy.jobTimeoutS)).add total))

def retryableStatus : List ℤ := [408, 409, 429]

def retryableExcNames : List Text := [txt "APIConnectionError", txt "APITimeoutError"]

def isRetryable (exc : ProviderError) : Bool :=
  if exc.transport then true
  else
    match exc.statusCode with
    | some status => retryableStatus.contains status || 500 ≤ status
    | none => retryableExcNames.contains exc.typeName

theorem floatPower_eq_none_iff {n : Nat} : floatPower.pow n = none ↔ 1024 ≤ n := by
  simp [floatPower]

theorem backoffTotal_floatPower_eq_none_iff {policy : RetryPolicy} {n : Nat} :
    backoffTotal floatPower policy n = none ↔ 1025 ≤ n := by
  induction n with
  | zero => simp [backoffTotal]
  | succ n ih =>
    have hCeiling : backoffCeiling floatPower policy n = none ↔ 1024 ≤ n := by
      rw [backoffCeiling, Option.map_eq_none_iff, floatPower_eq_none_iff]
    rw [backoffTotal]
    cases hTotal : backoffTotal floatPower policy n with
    | none =>
      rw [hTotal] at ih
      simp only [true_iff] at ih ⊢
      omega
    | some total =>
      rw [hTotal] at ih
      simp only [reduceCtorEq, false_iff] at ih
      cases hLast : backoffCeiling floatPower policy n with
      | none =>
        rw [hLast] at hCeiling
        simp only [true_iff] at hCeiling ⊢
        omega
      | some ceiling =>
        rw [hLast] at hCeiling
        simp only [reduceCtorEq, false_iff] at hCeiling ⊢
        omega

theorem nonneg_of_floatPower {n : Nat} {p x : Double} (h : floatPower.pow n = some p)
    (hx : x.nonneg = true) : (floatPower.round (x.mul p)).nonneg = true := by
  apply Double.nonneg_overflowing
  simp only [floatPower] at h
  split at h
  · cases h
    exact (Double.nonneg_mul_of_pos (by positivity) hx).2
  · cases h

theorem retryBudgetSeconds_nonneg {policy : WorkerPolicy} {budget : Double}
    (hTimeout : policy.jobTimeoutS.isNan = false) (hBase : policy.retry.baseDelayS.isNan = false)
    (hMax : policy.retry.maxDelayS.isNan = false)
    (h : retryBudgetSeconds floatPower policy = .ok budget) : budget.nonneg = true := by
  have hBaseNonneg := Double.nonneg_of_le_zero policy.retry.base_pos hBase
  have hMaxNonneg := Double.nonneg_of_lt policy.retry.base_le_max hBaseNonneg hMax
  have hTotal : ∀ n total, backoffTotal floatPower policy.retry n = some total →
      total.nonneg = true := by
    intro n
    induction n with
    | zero =>
      intro total hZero
      cases hZero
      rfl
    | succ n ih =>
      intro total hSucc
      rw [backoffTotal] at hSucc
      split at hSucc
      · rename_i before ceiling hBefore hCeiling
        cases hSucc
        obtain ⟨p, hPower, rfl⟩ := Option.map_eq_some_iff.mp hCeiling
        exact Double.nonneg_overflowing (Double.nonneg_add (ih before hBefore)
          (Double.nonneg_min (nonneg_of_floatPower hPower hBaseNonneg) hMaxNonneg))
      · cases hSucc
  unfold retryBudgetSeconds at h
  split at h
  · cases h
  · rename_i total hSome
    cases h
    have hAttempts : (0 : ℚ) < policy.retry.maxAttempts := by
      exact_mod_cast policy.retry.maxAttempts_pos
    have hTimeoutNonneg := Double.nonneg_of_le_zero policy.timeout_pos hTimeout
    exact Double.nonneg_overflowing (Double.nonneg_add
      (Double.nonneg_overflowing (Double.nonneg_mul_of_pos hAttempts hTimeoutNonneg).1)
      (hTotal _ _ hSome))

theorem exists_retryBudgetSeconds_iff {policy : WorkerPolicy} :
    (∃ budget, retryBudgetSeconds floatPower policy = .ok budget) ↔
      policy.retry.maxAttempts ≤ 1025 := by
  unfold retryBudgetSeconds
  cases hTotal : backoffTotal floatPower policy.retry (policy.retry.maxAttempts - 1) with
  | none =>
    have h := backoffTotal_floatPower_eq_none_iff.mp hTotal
    simp only [reduceCtorEq, exists_false, false_iff]
    omega
  | some total =>
    have h : ¬ 1025 ≤ policy.retry.maxAttempts - 1 := fun hLarge => by
      rw [backoffTotal_floatPower_eq_none_iff.mpr hLarge] at hTotal
      cases hTotal
    simp only [Except.ok.injEq, exists_eq', true_iff]
    omega

end LlmBus
