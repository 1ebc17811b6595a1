import Mathlib.Data.Nat.Find
import Mathlib.Order.Lattice

/-! # Polling against a deadline

A loop that looks at something, gives up if it is late by then, and pauses before it looks
again. Looking and reading the clock are two instants, and the world goes on between them.
-/

namespace Foundation.Polling

variable {ι β : Type} [LinearOrder ι]

/-- The instants of one loop: when it starts, looks, and reads the clock. It gets past every
instant if nothing ends it. -/
structure Turns (ι : Type) [LinearOrder ι] where
  start : ι
  look : ℕ → ι
  clock : ℕ → ι
  start_le_look : start ≤ look 0
  look_le_clock : ∀ k, look k ≤ clock k
  clock_le_look : ∀ k, clock k ≤ look (k + 1)
  progress : ∀ i, ∃ k, i ≤ look k

inductive Pause where
  | ends
  | never
  | raises
  deriving DecidableEq

inductive Ending (β : Type) where
  | found (b : β)
  | late
  | failed

variable (ready : ι → Option β) (late : ι → Bool) (pause : Pause) (turns : Turns ι)

/-- The loop from turn `k` on; without an ending where the fuel does not reach one. -/
def poll : ℕ → ℕ → Option (Ending β)
  | 0, _ => none
  | fuel + 1, k =>
    match ready (turns.look k) with
    | some b => some (.found b)
    | none =>
      if late (turns.clock k) then some .late
      else
        match pause with
        | .ends => poll fuel (k + 1)
        | .never => none
        | .raises => some .failed

def Ends (ending : Ending β) : Prop :=
  ∃ fuel, poll ready late pause turns fuel 0 = some ending

/-- Turn `k` goes by without an end of the loop. -/
structure Passes (k : ℕ) : Prop where
  notReady : ready (turns.look k) = none
  inTime : late (turns.clock k) = false
  ends : pause = .ends

/-- Turn `k` ends the loop. -/
inductive Stops (k : ℕ) : Ending β → Prop where
  | found {b : β} (h : ready (turns.look k) = some b) : Stops k (.found b)
  | late (hNot : ready (turns.look k) = none) (h : late (turns.clock k) = true) : Stops k .late
  | failed (hNot : ready (turns.look k) = none) (hInTime : late (turns.clock k) = false)
      (h : pause = .raises) : Stops k .failed

variable {ready late pause turns}

theorem Turns.look_mono (turns : Turns ι) {j k : ℕ} (h : j ≤ k) : turns.look j ≤ turns.look k := by
  induction h with
  | refl => exact le_rfl
  | step _ ih => exact ih.trans ((turns.look_le_clock _).trans (turns.clock_le_look _))

theorem Passes.poll_succ {k : ℕ} (h : Passes ready late pause turns k) (fuel : ℕ) :
    poll ready late pause turns (fuel + 1) k = poll ready late pause turns fuel (k + 1) := by
  simp [poll, h.notReady, h.inTime, h.ends]

theorem Stops.poll_succ {k : ℕ} {ending : Ending β} (h : Stops ready late pause turns k ending)
    (fuel : ℕ) : poll ready late pause turns (fuel + 1) k = some ending := by
  cases h with
  | found h => simp [poll, h]
  | late hNot h => simp [poll, hNot, h]
  | failed hNot hInTime h => simp [poll, hNot, hInTime, h]

/-- What the fuel reaches is the first turn that stops. -/
theorem exists_stops_of_poll {fuel k : ℕ} {ending : Ending β}
    (h : poll ready late pause turns fuel k = some ending) :
    ∃ n, (∀ j, k ≤ j → j < k + n → Passes ready late pause turns j) ∧
      Stops ready late pause turns (k + n) ending := by
  induction fuel generalizing k with
  | zero => cases h
  | succ fuel ih =>
    have hNow : ∀ j, k ≤ j → j < k + 0 → Passes ready late pause turns j :=
      fun j hFrom hTo => absurd hFrom (by omega)
    cases hReady : ready (turns.look k) with
    | some b =>
      simp only [poll, hReady] at h
      cases h
      exact ⟨0, hNow, .found hReady⟩
    | none =>
      cases hLate : late (turns.clock k) with
      | true =>
        simp only [poll, hReady, hLate, if_true] at h
        cases h
        exact ⟨0, hNow, .late hReady hLate⟩
      | false =>
        cases hPause : pause with
        | never =>
          simp [poll, hReady, hLate, hPause] at h
        | raises =>
          simp only [poll, hReady, hLate, hPause] at h
          cases h
          exact ⟨0, by rwa [← hPause], .failed hReady hLate rfl⟩
        | ends =>
          have hPasses : Passes ready late pause turns k := ⟨hReady, hLate, hPause⟩
          rw [hPasses.poll_succ] at h
          obtain ⟨n, hBefore, hStops⟩ := ih h
          rw [← hPause]
          refine ⟨n + 1, fun j hFrom hTo => ?_, by rwa [Nat.add_right_comm] at hStops⟩
          rcases Nat.eq_or_lt_of_le hFrom with rfl | hLater
          · exact hPasses
          · exact hBefore j hLater (by omega)

theorem poll_of_passes {k n : ℕ} (h : ∀ j, k ≤ j → j < k + n → Passes ready late pause turns j)
    (fuel : ℕ) :
    poll ready late pause turns (n + fuel) k = poll ready late pause turns fuel (k + n) := by
  induction n generalizing k with
  | zero => rw [Nat.zero_add, Nat.add_zero]
  | succ n ih =>
    have hFirst := h k (Nat.le_refl k) (by omega)
    rw [Nat.add_right_comm, hFirst.poll_succ, ih fun j hFrom hTo => h j (by omega) (by omega)]
    congr 1
    omega

theorem ends_iff {ending : Ending β} :
    Ends ready late pause turns ending ↔
      ∃ n, (∀ j < n, Passes ready late pause turns j) ∧ Stops ready late pause turns n ending := by
  constructor
  · rintro ⟨fuel, h⟩
    obtain ⟨n, hBefore, hStops⟩ := exists_stops_of_poll h
    rw [Nat.zero_add] at hBefore hStops
    exact ⟨n, fun j hLt => hBefore j (Nat.zero_le j) hLt, hStops⟩
  · rintro ⟨n, hBefore, hStops⟩
    refine ⟨n + 1, ?_⟩
    rw [poll_of_passes fun j _ hTo => hBefore j (by omega), Nat.zero_add]
    exact hStops.poll_succ 0

theorem Stops.unique {k : ℕ} {ending ending' : Ending β} (h : Stops ready late pause turns k ending)
    (h' : Stops ready late pause turns k ending') : ending = ending' :=
  Option.some.inj ((h.poll_succ 0).symm.trans (h'.poll_succ 0))

theorem Stops.not_passes {k : ℕ} {ending : Ending β} (h : Stops ready late pause turns k ending) :
    ¬ Passes ready late pause turns k := by
  intro hPasses
  have hZero := (hPasses.poll_succ 0).symm.trans (h.poll_succ 0)
  cases hZero

theorem Ends.unique {ending ending' : Ending β} (h : Ends ready late pause turns ending)
    (h' : Ends ready late pause turns ending') : ending = ending' := by
  obtain ⟨n, hBefore, hStops⟩ := ends_iff.mp h
  obtain ⟨n', hBefore', hStops'⟩ := ends_iff.mp h'
  have hSame : n = n' := by
    apply Nat.le_antisymm
    · by_contra hLt
      exact hStops'.not_passes (hBefore n' (Nat.lt_of_not_le hLt))
    · by_contra hLt
      exact hStops.not_passes (hBefore' n (Nat.lt_of_not_le hLt))
  subst hSame
  exact hStops.unique hStops'

/-- What is found was there at one of the looks. -/
theorem Ends.look_of_found {b : β} (h : Ends ready late pause turns (.found b)) :
    ∃ k, ready (turns.look k) = some b := by
  obtain ⟨n, _, hStops⟩ := ends_iff.mp h
  cases hStops with
  | found hReady => exact ⟨n, hReady⟩

/-- Once there, it stays. -/
def Stable (ready : ι → Option β) : Prop :=
  ∀ i j b, i ≤ j → ready i = some b → ready j = some b

/-- Something that is there for good from some instant on is found, unless the first look misses
it and a pause does not end or the clock is late after a look that missed it. -/
theorem ends_found_iff (hStable : Stable ready) {i : ι} {b : β} (h : ready i = some b) :
    Ends ready late pause turns (.found b) ↔
      ready (turns.look 0) = some b ∨
        pause = .ends ∧ ∀ k, ready (turns.look k) = none → late (turns.clock k) = false := by
  constructor
  · intro hEnds
    obtain ⟨n, hBefore, hStops⟩ := ends_iff.mp hEnds
    cases hStops with
    | found hReady =>
      cases n with
      | zero => exact .inl hReady
      | succ n =>
        refine .inr ⟨(hBefore 0 n.succ_pos).ends, fun k hNone => ?_⟩
        have hLt : k < n + 1 := by
          by_contra hGe
          rw [hStable _ _ _ (turns.look_mono (Nat.le_of_not_lt hGe)) hReady] at hNone
          cases hNone
        exact (hBefore k hLt).inTime
  · rintro (hFirst | ⟨hPause, hInTime⟩)
    · exact ends_iff.mpr ⟨0, fun j hLt => absurd hLt j.not_lt_zero, .found hFirst⟩
    · obtain ⟨m, hPast⟩ := turns.progress i
      have hSome : ∃ k, ready (turns.look k) = some b := ⟨m, hStable _ _ _ hPast h⟩
      classical
      obtain ⟨hReady, hFirst⟩ := Nat.find_spec hSome, @Nat.find_min _ _ hSome
      refine ends_iff.mpr ⟨Nat.find hSome, fun j hLt => ?_, .found hReady⟩
      have hNone : ready (turns.look j) = none := by
        cases hEarlier : ready (turns.look j) with
        | none => rfl
        | some other =>
          have hSame := hStable _ _ _ (turns.look_mono (Nat.le_of_lt hLt)) hEarlier
          rw [hReady] at hSame
          cases hSame
          exact absurd hEarlier (hFirst hLt)
      exact ⟨hNone, hInTime j hNone, hPause⟩

end Foundation.Polling
