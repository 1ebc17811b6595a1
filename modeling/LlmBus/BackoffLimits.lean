import LlmBus.BrokerConnect
import LlmBus.Processing
import LlmBus.StoreFailures

/-! # How far the backoff arithmetic reaches

A power of two has a double up to 2 ** 1023. Up to there a backoff is a value between zero
and its cap, the budget has a sum, and neither retry loop stops at one of its own draws.
-/

namespace LlmBus

open Foundation Interaction

theorem RetryPolicy.exists_limits {policy : RetryPolicy} (hBase : policy.baseDelayS.isFinite = true)
    (hMax : policy.maxDelayS.isFinite = true) :
    ∃ base max : ℚ, policy.baseDelayS = .finite base ∧ policy.maxDelayS = .finite max ∧
      0 < base ∧ base ≤ max := by
  cases hB : policy.baseDelayS with
  | finite base =>
    cases hM : policy.maxDelayS with
    | finite max =>
      refine ⟨base, max, rfl, rfl, ?_, ?_⟩
      · simpa [hB] using policy.base_pos
      · simpa [hB, hM] using policy.base_le_max
    | posInf => rw [hM] at hMax; cases hMax
    | negInf => rw [hM] at hMax; cases hMax
    | nan => rw [hM] at hMax; cases hMax
  | posInf => rw [hB] at hBase; cases hBase
  | negInf => rw [hB] at hBase; cases hBase
  | nan => rw [hB] at hBase; cases hBase

theorem backoffDelay_exact {policy : RetryPolicy} {base max : ℚ}
    (hBase : policy.baseDelayS = .finite base) (hMax : policy.maxDelayS = .finite max) (i : Nat)
    (rand : ℚ) :
    backoffDelay exactPower i policy rand = .ok (.finite (Min.min max (base * 2 ^ i) * rand)) := by
  simp only [backoffDelay, exactPower_pow, exactPower_round, hBase, hMax, Double.mul_finite,
    Double.min_finite]

/-- The cap holds for a product that overflows too. -/
theorem exists_ceiling {base max : ℚ} (hBase : 0 < base) (hLe : base ≤ max) (i : Nat) :
    ∃ ceiling : ℚ, Double.min (.finite max) (Double.finite (base * 2 ^ i)).overflowing =
      .finite ceiling ∧ 0 ≤ ceiling ∧ ceiling ≤ max := by
  have hScaled : 0 ≤ base * 2 ^ i := by positivity
  rcases lt_or_ge (base * 2 ^ i) (doubleOverflow : ℚ) with hLt | hGe
  · rw [Double.overflowing_finite hScaled hLt, Double.min_finite]
    exact ⟨_, rfl, le_min (hBase.le.trans hLe) hScaled, min_le_left _ _⟩
  · rw [Double.overflowing_eq_posInf hGe]
    exact ⟨max, rfl, hBase.le.trans hLe, le_rfl⟩

theorem scaled_mem {ceiling max rand : ℚ} (hCeiling : 0 ≤ ceiling) (hLe : ceiling ≤ max)
    (hRand : 0 ≤ rand) (hOne : rand < 1) : 0 ≤ ceiling * rand ∧ ceiling * rand ≤ max :=
  ⟨mul_nonneg hCeiling hRand, (mul_le_of_le_one_right hCeiling hOne.le).trans hLe⟩

/-! ### The loops -/

/-- The request of a jitter draw, in either interface. -/
def BusOp.isRand {pyd : Pydantic} : BusOp pyd → Prop
  | .rand => True
  | _ => False

def HandshakeOp.isRand {Client : Type} : HandshakeOp Client → Prop
  | .rand => True
  | _ => False

section JobLoop

variable {pyd : Pydantic} (py : Interpreter) {deps : WorkerDeps} (job : Job)

theorem goesOn_afterCall (provider : Provider) {attempt : Nat} {again : Option (Bus pyd Result)}
    (hIndex : again.isSome = true → attempt < 1024)
    (hAgain : ∀ next, again = some next → GoesOn BusOp.isRand next)
    (outcome : Except ProviderError ProviderResult) :
    GoesOn BusOp.isRand (afterCall py floatPower deps job provider attempt again outcome) := by
  cases outcome with
  | ok call =>
    rw [afterCall_ok]
    exact goesOn_ofExcept_bind fun _ _ => trivial
  | error exc =>
    by_cases hRetry : isRetryable exc = true ∧ again.isSome = true
    · obtain ⟨hRetryable, hSome⟩ := hRetry
      obtain ⟨next, rfl⟩ := Option.isSome_iff_exists.mp hSome
      rw [afterCall_retry _ _ _ _ _ _ _ hRetryable]
      intro draw
      simp only [backoffDelay_floatPower (hIndex hSome), Program.ofExcept_ok, Program.ret_bind]
      refine ⟨fun slept => ⟨?_, fun hSleep => hSleep.elim⟩, fun _ => ⟨_, _, rfl⟩⟩
      exact goesOn_ofExcept_bind fun _ _ => hAgain next rfl
    · rw [afterCall_final _ _ _ _ _ _ hRetry]
      trivial

theorem goesOn_runAttempt (provider : Provider) (estimate : Nat) {attempt : Nat}
    {again : Option (Bus pyd Result)} (hIndex : again.isSome = true → attempt < 1024)
    (hAgain : ∀ next, again = some next → GoesOn BusOp.isRand next) :
    GoesOn BusOp.isRand (runAttempt py floatPower deps job provider estimate attempt again) := by
  rw [runAttempt_eq]
  refine fun before => ⟨goesOn_ofExcept_bind fun expired _ => ?_, fun hNow => hNow.elim⟩
  split
  · trivial
  · refine fun reserved => ⟨goesOn_ofExcept_bind fun _ _ => ?_, fun hAcquire => hAcquire.elim⟩
    refine fun after => ⟨goesOn_ofExcept_bind fun expired _ => ?_, fun hNow => hNow.elim⟩
    split
    · trivial
    · have hAfter : ∀ outcome, GoesOn BusOp.isRand
          (afterCall py floatPower deps job provider attempt again outcome) :=
        goesOn_afterCall py job provider hIndex hAgain
      unfold callProvider
      split
      · exact hAfter _
      · exact fun outcome => ⟨hAfter outcome, fun hCall => hCall.elim⟩

theorem goesOn_callLoop (provider : Provider) (estimate retries attempt : Nat)
    (hAttempts : attempt + retries ≤ 1024) :
    GoesOn BusOp.isRand
      (callLoop py floatPower deps job provider estimate retries attempt : Bus pyd Result) := by
  induction retries generalizing attempt with
  | zero =>
    exact goesOn_runAttempt py job provider estimate (fun h => absurd h Bool.false_ne_true)
      fun _ h => by cases h
  | succ retries ih =>
    apply goesOn_runAttempt py job provider estimate (fun _ => by omega)
    intro next h
    cases h
    exact ih (attempt + 1) (by omega)

end JobLoop

theorem goesOn_connectFrom {Client Exn : Type} {policy : RetryPolicy}
    (hAttempts : policy.maxAttempts ≤ 1025) (attempt : Nat) :
    GoesOn HandshakeOp.isRand (connectFrom floatPower policy attempt : Handshake Client Exn Client) := by
  have hRaise : ∀ {α : Type} (x : Except Exn α) (f : α → Handshake Client Exn Client),
      (∀ a, GoesOn HandshakeOp.isRand (f a)) → GoesOn HandshakeOp.isRand ((orRaise x).bind f) := by
    intro α x f hf
    cases x with
    | ok a => exact hf a
    | error exc => trivial
  rw [connectFrom]
  refine fun made => ⟨hRaise made _ fun client => ?_, fun hMake => hMake.elim⟩
  refine fun outcome => ⟨?_, fun hConnect => hConnect.elim⟩
  cases outcome with
  | ok u => trivial
  | error exc =>
    simp only
    split
    · trivial
    · rename_i hLeft
      intro draw
      have hIndex : attempt < 1024 := by omega
      simp only [backoffDelay_floatPower hIndex, orOverflow, Program.ret_bind]
      refine ⟨fun slept => ⟨?_, fun hSleep => hSleep.elim⟩, fun _ => ⟨_, _, rfl⟩⟩
      exact hRaise slept _ fun _ => goesOn_connectFrom hAttempts (attempt + 1)
termination_by policy.maxAttempts - attempt

/-! ### The limit -/

/-- Nothing that is computed from the policy's delays raises or leaves its range, and neither
loop ends right after it has drawn its jitter. -/
structure Unfailing (policy : WorkerPolicy) : Prop where
  budget : ∃ budget, retryBudgetSeconds floatPower policy = .ok budget
  delay : ∀ i < policy.retry.maxAttempts - 1, ∀ draw : Draw, ∃ delay,
    backoffDelay floatPower i policy.retry draw.value = .ok delay ∧
      (Double.finite 0).le delay = true ∧ delay.le policy.retry.maxDelayS = true
  jobLoop : ∀ (pyd : Pydantic) (py : Interpreter) (deps : WorkerDeps) (job : Job)
    (provider : Provider) (estimate : Nat) (trace : List (Event (busInterface pyd))) (draw : Draw)
    (outcome : Except PyError Result), deps.policy = policy →
      ¬ Yields (callWithRetry py floatPower deps job provider estimate)
        (trace ++ [⟨.rand, draw⟩]) outcome
  connectLoop : ∀ (Client Exn : Type) (trace : List (Event (handshakeInterface Client Exn)))
    (draw : Draw) (outcome : Except (ConnectFailure Exn) Client),
      ¬ Yields (connectBroker floatPower policy.retry) (trace ++ [⟨.rand, draw⟩]) outcome

/-- The arithmetic reaches as far as 1025 attempts, which have 1024 backoffs between them. -/
theorem unfailing_iff (policy : WorkerPolicy) (hBase : policy.retry.baseDelayS.isFinite = true)
    (hMax : policy.retry.maxDelayS.isFinite = true) :
    Unfailing policy ↔ policy.retry.maxAttempts ≤ 1025 := by
  constructor
  · intro h
    exact exists_retryBudgetSeconds_iff.mp h.budget
  · intro hAttempts
    have hPositive := policy.retry.maxAttempts_pos
    refine ⟨exists_retryBudgetSeconds_iff.mpr hAttempts, ?_, ?_, ?_⟩
    · intro i hI draw
      obtain ⟨base, max, hB, hM, hBasePos, hLe⟩ := RetryPolicy.exists_limits hBase hMax
      obtain ⟨ceiling, hCeiling, hFloor, hCap⟩ := exists_ceiling hBasePos hLe i
      obtain ⟨hNonneg, hCapped⟩ := scaled_mem hFloor hCap draw.nonneg draw.lt_one
      refine ⟨.finite (ceiling * draw.value), ?_, decide_eq_true hNonneg, ?_⟩
      · rw [backoffDelay_floatPower (by omega), hB, hM, Double.mul_finite, hCeiling,
          Double.mul_finite]
      · rw [hM]
        exact decide_eq_true hCapped
    · rintro pyd py deps job provider estimate trace draw outcome rfl hYields
      have hLoop : GoesOn BusOp.isRand
          (callWithRetry py floatPower deps job provider estimate : Bus pyd Result) :=
        goesOn_callLoop py job provider estimate (deps.policy.retry.maxAttempts - 1) 0 (by omega)
      exact hLoop.last hYields rfl trivial
    · intro Client Exn trace draw outcome hYields
      exact (goesOn_connectFrom hAttempts 0).last hYields rfl trivial

theorem unfailing_plainPolicy : Unfailing plainPolicy :=
  (unfailing_iff plainPolicy rfl rfl).mpr (by decide)

theorem not_unfailing_tooManyAttempts : ¬ Unfailing tooManyAttempts := by
  intro h
  obtain ⟨budget, hBudget⟩ := h.budget
  exact absurd (exists_retryBudgetSeconds_iff.mp ⟨budget, hBudget⟩) (by decide)

end LlmBus
