import LlmBus.Ceilings

/-! # The schedule of one bucket

A bucket with any rate and capacity, and whoever reserves from it in the order of time.
The balance may be overdrawn without bound; what ties it to the releases is the moment at
which the deficit is worked off.
-/

namespace LlmBus

open Foundation Foundation.Pacing

structure Reservation where
  time : ℚ
  amount : ℚ

/-- A caller who was told how long to wait, and the bucket it left behind. -/
structure Proceeding where
  call : Reservation
  released : ℚ
  after : TokenBucket

namespace TokenBucket

/-- Reservations one after the other; one that raises does not proceed. -/
def serve (b : TokenBucket) : List Reservation → List Proceeding
  | [] => []
  | c :: rest =>
    match b.reserve c.time c.amount with
    | (.ok wait, after) => ⟨c, c.time + wait, after⟩ :: after.serve rest
    | (.error _, after) => after.serve rest

end TokenBucket

def releasedWithin (served : List Proceeding) (x y : ℚ) : List Proceeding :=
  served.filter fun p => decide (x ≤ p.released ∧ p.released ≤ y)

def Proceeding.grant (p : Proceeding) : Grant ℚ :=
  ⟨p.call.time, p.after.due p.call.time, p.call.amount⟩

namespace TokenBucket

variable {b : TokenBucket} {calls : List Reservation} {rate capacity start before : ℚ}

theorem init_of_pos (hRate : 0 < rate) (hCapacity : 0 < capacity) :
    init rate capacity start = .ok ⟨rate, capacity, capacity, start, hRate, le_rfl⟩ := by
  rw [init, dif_neg]
  exact not_or.mpr ⟨not_le.mpr hRate, not_le.mpr hCapacity⟩

/-- A refused reservation takes nothing; at most it refills. -/
theorem reserve_cases (b : TokenBucket) (now amount : ℚ) :
    (amount < 0 ∧ b.reserve now amount = (.error negativeAmount, b)) ∨
      ((doubleOverflow : ℚ) ≤ amount ∧
        ∃ e, b.reserve now amount = (.error e, b.charged now 0 le_rfl)) ∨
      ∃ h : 0 ≤ amount,
        b.reserve now amount = (.ok (b.charged now amount h).wait, b.charged now amount h) := by
  rcases lt_or_ge amount 0 with hNegative | hNonneg
  · exact .inl ⟨hNegative, by rw [reserve, dif_pos hNegative]⟩
  cases lt_or_ge amount (doubleOverflow : ℚ) with
  | inl hLt => exact .inr (.inr ⟨hNonneg, reserve_eq_ok b now hNonneg hLt⟩)
  | inr hLarge =>
    have hSame : b.charged now 0 le_rfl = b.refill now := by
      simp only [charged, spend, sub_zero]
    rw [reserve, dif_neg (not_lt.mpr hNonneg), if_pos hLarge, hSame]
    exact .inr (.inl ⟨hLarge, _, rfl⟩)

/-- The invariant of the run: each grant is funded, and due only after its own charge has
been earned on top of what was due before it. -/
theorem paced_serve_after (hUpdated : before ≤ b.updated) (hBefore : ∀ c ∈ calls, before ≤ c.time)
    (hTimes : calls.Pairwise fun a b => a.time ≤ b.time) :
    Paced b.rate b.capacity Proceeding.grant (b.serve calls) ∧
      ∀ p ∈ b.serve calls, p.call.amount ≤ b.rate * (p.grant.due - b.due before) := by
  induction calls generalizing b before with
  | nil => exact ⟨⟨.nil, fun _ h => absurd h List.not_mem_nil⟩, fun _ h => absurd h List.not_mem_nil⟩
  | cons c rest ih =>
    obtain ⟨hLater, hRestTimes⟩ := List.pairwise_cons.mp hTimes
    have hNow : before ≤ c.time := hBefore c List.mem_cons_self
    have hCharged : ∀ amount (hAmount : 0 ≤ amount),
        amount ≤ b.rate * ((b.charged c.time amount hAmount).due c.time - b.due before) :=
      fun amount hAmount => charge_le_of_charged hAmount hUpdated hNow
    have hNext : ∀ amount (hAmount : 0 ≤ amount),
        c.time ≤ (b.charged c.time amount hAmount).updated :=
      fun _ _ => le_max_right _ _
    -- What follows is due later than the charge, hence later than what was due before it.
    have hOnTop : ∀ amount (hAmount : 0 ≤ amount) (p : Proceeding),
        p.call.amount ≤ b.rate * (p.grant.due - (b.charged c.time amount hAmount).due c.time) →
          p.call.amount ≤ b.rate * (p.grant.due - b.due before) := by
      intro amount hAmount p hLast
      have hGap := hAmount.trans (hCharged amount hAmount)
      rw [mul_sub] at hLast hGap ⊢
      linarith
    rcases reserve_cases b c.time c.amount with
      ⟨_, hReserve⟩ | ⟨_, e, hReserve⟩ | ⟨hAmount, hReserve⟩
    · rw [serve, hReserve]
      exact ih hUpdated (fun d hd => hBefore d (List.mem_cons_of_mem c hd)) hRestTimes
    · rw [serve, hReserve]
      obtain ⟨hPaced, hStep⟩ := ih (hNext 0 le_rfl) hLater hRestTimes
      exact ⟨hPaced, fun p hp => hOnTop 0 le_rfl p (hStep p hp)⟩
    · rw [serve, hReserve]
      obtain ⟨hPaced, hStep⟩ := ih (hNext c.amount hAmount) hLater hRestTimes
      refine ⟨hPaced.cons (charge_le_capacity_add b c.time hAmount) hStep, fun p hp => ?_⟩
      rcases List.mem_cons.mp hp with rfl | hMem
      · exact hCharged c.amount hAmount
      · exact hOnTop c.amount hAmount p (hStep p hMem)

theorem paced_serve (b : TokenBucket) (hTimes : calls.Pairwise fun a b => a.time ≤ b.time) :
    Paced b.rate b.capacity Proceeding.grant (b.serve calls) := by
  cases calls with
  | nil => exact ⟨.nil, fun _ h => absurd h List.not_mem_nil⟩
  | cons c rest =>
    have hBefore : ∀ d ∈ c :: rest, min b.updated c.time ≤ d.time := by
      intro d hd
      rcases List.mem_cons.mp hd with rfl | hMem
      · exact min_le_right _ _
      · exact (min_le_right _ _).trans ((List.pairwise_cons.mp hTimes).1 d hMem)
    exact (paced_serve_after (min_le_left _ _) hBefore hTimes).1

theorem mem_serve {p : Proceeding} (h : p ∈ b.serve calls) :
    p.call ∈ calls ∧ 0 ≤ p.call.amount ∧ p.released = p.grant.release := by
  induction calls generalizing b with
  | nil => cases h
  | cons c rest ih =>
    have hRest : ∀ after : TokenBucket, p ∈ after.serve rest →
        p.call ∈ c :: rest ∧ 0 ≤ p.call.amount ∧ p.released = p.grant.release := by
      intro after hMem
      obtain ⟨hCall, hFacts⟩ := ih hMem
      exact ⟨List.mem_cons_of_mem c hCall, hFacts⟩
    rcases reserve_cases b c.time c.amount with
      ⟨_, hReserve⟩ | ⟨_, e, hReserve⟩ | ⟨hAmount, hReserve⟩
    · rw [serve, hReserve] at h
      exact hRest _ h
    · rw [serve, hReserve] at h
      exact hRest _ h
    · rw [serve, hReserve] at h
      rcases List.mem_cons.mp h with rfl | hMem
      · exact ⟨List.mem_cons_self, hAmount, now_add_wait _ _⟩
      · exact hRest _ hMem

/-- Nobody is refused an amount that is not negative and has a double. -/
theorem serve_calls (h : ∀ c ∈ calls, 0 ≤ c.amount ∧ c.amount < doubleOverflow) :
    (b.serve calls).map (·.call) = calls := by
  induction calls generalizing b with
  | nil => rfl
  | cons c rest ih =>
    obtain ⟨hAmount, hLt⟩ := h c List.mem_cons_self
    rw [serve, reserve_eq_ok b c.time hAmount hLt, List.map_cons]
    exact congrArg (c :: ·) (ih fun d hd => h d (List.mem_cons_of_mem c hd))

/-- However much each caller asks for, a window sees no more than the burst and the refill. -/
theorem window_amount_le (b : TokenBucket) (hTimes : calls.Pairwise fun a b => a.time ≤ b.time)
    {peak : ℚ} (hPeak : b.capacity ≤ peak) (hPositive : 0 ≤ peak)
    (hAmounts : ∀ c ∈ calls, c.amount ≤ peak) {x y : ℚ} (hxy : x ≤ y) :
    ((releasedWithin (b.serve calls) x y).map (·.call.amount)).sum ≤ peak + b.rate * (y - x) := by
  have hPaced : Paced b.rate peak Proceeding.grant (b.serve calls) := by
    obtain ⟨hFollows, hFunded⟩ := paced_serve b hTimes
    refine ⟨hFollows, fun p hp => ?_⟩
    have hGrant : p.grant.charge ≤ b.capacity + b.rate * (p.grant.due - p.grant.arrival) := hFunded p hp
    exact hGrant.trans (add_le_add_left hPeak _)
  have hWindow : releasedWithin (b.serve calls) x y = (b.serve calls).filter fun p =>
      decide (x ≤ p.grant.release ∧ p.grant.release ≤ y) := by
    apply List.filter_congr
    intro p hp
    rw [(mem_serve hp).2.2]
  have hDominated : ∀ p ∈ b.serve calls,
      Dominated 1 peak Proceeding.grant (fun p => p.call.amount) p := fun p hp =>
    ⟨(one_mul p.call.amount).ge, (hAmounts p.call (mem_serve hp).1).trans (one_mul peak).ge⟩
  have hBound := hPaced.window_sum_le zero_le_one b.rate_pos.le hPositive hxy hDominated
  rw [hWindow]
  exact hBound.trans_eq (one_mul _)

theorem foldr_max_le_iff {amounts : List ℚ} {least v : ℚ} :
    amounts.foldr max least ≤ v ↔ least ≤ v ∧ ∀ a ∈ amounts, a ≤ v := by
  induction amounts with
  | nil => simp
  | cons a rest ih => simp [ih, and_left_comm]

/-- Within any window a bucket releases no more than its capacity and the refill of that
time, or than the largest single amount and the refill where that is more. -/
theorem bucket_conforms (hRate : 0 < rate) (hCapacity : 0 < capacity) (start : ℚ) :
    ∃ b, init rate capacity start = .ok b ∧
      ∀ calls : List Reservation, (calls.Pairwise fun a b => a.time ≤ b.time) →
        (∀ x y, x ≤ y → ((releasedWithin (b.serve calls) x y).map (·.call.amount)).sum ≤
          (calls.map (·.amount)).foldr max capacity + rate * (y - x)) ∧
        ((∀ c ∈ calls, c.amount ≤ capacity) →
          ∀ x y, x ≤ y → ((releasedWithin (b.serve calls) x y).map (·.call.amount)).sum ≤
            capacity + rate * (y - x)) ∧
        ((∀ c ∈ calls, 0 ≤ c.amount ∧ c.amount < doubleOverflow) →
          (b.serve calls).map (·.call) = calls) := by
  refine ⟨_, init_of_pos hRate hCapacity, fun calls hTimes => ⟨?_, ?_, serve_calls⟩⟩
  · intro x y hxy
    obtain ⟨hLeast, hEach⟩ := foldr_max_le_iff.mp (le_refl ((calls.map (·.amount)).foldr max capacity))
    refine window_amount_le _ hTimes hLeast (hCapacity.le.trans hLeast) (fun c hc => ?_) hxy
    exact hEach c.amount (List.mem_map_of_mem hc)
  · exact fun hAmounts x y hxy => window_amount_le _ hTimes le_rfl hCapacity.le hAmounts hxy

theorem bucket_conforms_overdrawn :
    ∃ b, init 1 10 0 = .ok b ∧
      ((releasedWithin (b.serve [⟨0, 10⟩, ⟨0, 7⟩, ⟨3, 25⟩]) 5 30).map (·.call.amount)).sum ≤
        25 + 1 * (30 - 5) := by
  obtain ⟨b, hInit, hConforms⟩ := bucket_conforms one_pos (by norm_num : (0 : ℚ) < 10) 0
  refine ⟨b, hInit, ?_⟩
  have hBound := (hConforms [⟨0, 10⟩, ⟨0, 7⟩, ⟨3, 25⟩] (by simp)).1 5 30 (by norm_num)
  norm_num at hBound ⊢
  exact hBound

end TokenBucket

end LlmBus
