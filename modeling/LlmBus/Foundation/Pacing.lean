import Mathlib.Algebra.Order.Field.Basic
import Mathlib.Algebra.BigOperators.Group.List.Basic
import Mathlib.Tactic.GCongr
import Mathlib.Tactic.Ring

/-! # Paced grants

A grant arrives, is charged an amount, and is due once that amount has been earned at
a fixed rate. Where every later grant is due only after its own charge has been
earned on top, no stretch of time sees more than the capacity and what the rate earns
in it. The bound is stated for any weight that the charge dominates, so one schedule
also bounds what it was not charged for.
-/

namespace Foundation.Pacing

variable {𝕜 α : Type*} [Field 𝕜] [LinearOrder 𝕜]

structure Grant (𝕜 : Type*) where
  arrival : 𝕜
  due : 𝕜
  charge : 𝕜

def Grant.release (g : Grant 𝕜) : 𝕜 :=
  max g.arrival g.due

/-- The charge of the later grant is earned between the two due times. -/
def Follows (rate : 𝕜) (earlier later : Grant 𝕜) : Prop :=
  later.charge ≤ rate * (later.due - earlier.due)

/-- No more than the capacity was at hand when the grant arrived. -/
def Funded (rate capacity : 𝕜) (g : Grant 𝕜) : Prop :=
  g.charge ≤ capacity + rate * (g.due - g.arrival)

structure Paced (rate capacity : 𝕜) (grant : α → Grant 𝕜) (items : List α) : Prop where
  follows : items.Pairwise fun a b => Follows rate (grant a) (grant b)
  funded : ∀ a ∈ items, Funded rate capacity (grant a)

theorem Paced.filter {rate capacity : 𝕜} {grant : α → Grant 𝕜} {items : List α}
    (h : Paced rate capacity grant items) (p : α → Bool) :
    Paced rate capacity grant (items.filter p) where
  follows := h.follows.filter p
  funded a ha := h.funded a (List.mem_of_mem_filter ha)

theorem Paced.cons {rate capacity : 𝕜} {grant : α → Grant 𝕜} {a : α} {items : List α}
    (hFunded : Funded rate capacity (grant a)) (hFollows : ∀ b ∈ items, Follows rate (grant a) (grant b))
    (h : Paced rate capacity grant items) : Paced rate capacity grant (a :: items) where
  follows := List.pairwise_cons.mpr ⟨hFollows, h.follows⟩
  funded b hb := by
    rcases List.mem_cons.mp hb with rfl | hMem
    · exact hFunded
    · exact h.funded b hMem

/-- Each item with the charge it carries counted `scale` times. -/
structure Dominated (scale capacity : 𝕜) (grant : α → Grant 𝕜) (weight : α → 𝕜) (a : α) : Prop where
  charge : weight a ≤ scale * (grant a).charge
  capacity : weight a ≤ scale * capacity

variable [IsStrictOrderedRing 𝕜] {rate capacity scale : 𝕜} {grant : α → Grant 𝕜} {weight : α → 𝕜}

/-- What is due by `y` after `a` was earned since `a` was due. -/
theorem sum_after_le (hScale : 0 ≤ scale) (hRate : 0 ≤ rate) {y : 𝕜} (a : α) (items : List α)
    (hFollows : (a :: items).Pairwise fun a b => Follows rate (grant a) (grant b))
    (hWeight : ∀ b ∈ items, weight b ≤ scale * (grant b).charge)
    (hDue : ∀ b ∈ a :: items, (grant b).due ≤ y) :
    (items.map weight).sum ≤ scale * (rate * (y - (grant a).due)) := by
  induction items generalizing a with
  | nil =>
    have hA := hDue a List.mem_cons_self
    exact mul_nonneg hScale (mul_nonneg hRate (sub_nonneg.mpr hA))
  | cons b rest ih =>
    obtain ⟨hFirst, hRest⟩ := List.pairwise_cons.mp hFollows
    have hB : weight b ≤ scale * (grant b).charge := hWeight b List.mem_cons_self
    have hEarned : (grant b).charge ≤ rate * ((grant b).due - (grant a).due) :=
      hFirst b List.mem_cons_self
    have hTail : (rest.map weight).sum ≤ scale * (rate * (y - (grant b).due)) :=
      ih b hRest (fun c hc => hWeight c (List.mem_cons_of_mem b hc))
        fun c hc => hDue c (List.mem_cons_of_mem a hc)
    rw [List.map_cons, List.sum_cons]
    calc
      weight b + (rest.map weight).sum
          ≤ scale * (rate * ((grant b).due - (grant a).due)) +
              scale * (rate * (y - (grant b).due)) :=
        add_le_add (hB.trans (mul_le_mul_of_nonneg_left hEarned hScale)) hTail
      _ = scale * (rate * (y - (grant a).due)) := by ring

/-- Items all released within `[x, y]` weigh no more than the capacity and what is
earned in that time. -/
theorem sum_le_of_released (hScale : 0 ≤ scale) (hRate : 0 ≤ rate) (hCapacity : 0 ≤ capacity)
    {x y : 𝕜} (hxy : x ≤ y) {items : List α} (hPaced : Paced rate capacity grant items)
    (hWeight : ∀ a ∈ items, Dominated scale capacity grant weight a)
    (hReleased : ∀ a ∈ items, x ≤ (grant a).release ∧ (grant a).release ≤ y) :
    (items.map weight).sum ≤ scale * (capacity + rate * (y - x)) := by
  cases items with
  | nil =>
    exact mul_nonneg hScale (add_nonneg hCapacity (mul_nonneg hRate (sub_nonneg.mpr hxy)))
  | cons a rest =>
    have hDue : ∀ b ∈ a :: rest, (grant b).due ≤ y := fun b hb =>
      (le_max_right _ _).trans (hReleased b hb).2
    have hTail := sum_after_le hScale hRate a rest hPaced.follows
      (fun b hb => (hWeight b (List.mem_cons_of_mem a hb)).charge) hDue
    obtain ⟨hCharge, hCap⟩ := hWeight a List.mem_cons_self
    rw [List.map_cons, List.sum_cons]
    cases le_max_iff.mp (hReleased a List.mem_cons_self).1 with
    | inl hArrival =>
      -- The first one found its charge at hand, so at most the capacity was there.
      have hFunded : (grant a).charge ≤ capacity + rate * ((grant a).due - (grant a).arrival) :=
        hPaced.funded a List.mem_cons_self
      calc
        weight a + (rest.map weight).sum
            ≤ scale * (capacity + rate * ((grant a).due - (grant a).arrival)) +
                scale * (rate * (y - (grant a).due)) :=
          add_le_add (hCharge.trans (mul_le_mul_of_nonneg_left hFunded hScale)) hTail
        _ = scale * (capacity + rate * (y - (grant a).arrival)) := by ring
        _ ≤ scale * (capacity + rate * (y - x)) := by gcongr
    | inr hDueA =>
      calc
        weight a + (rest.map weight).sum
            ≤ scale * capacity + scale * (rate * (y - (grant a).due)) := add_le_add hCap hTail
        _ = scale * (capacity + rate * (y - (grant a).due)) := by ring
        _ ≤ scale * (capacity + rate * (y - x)) := by gcongr

theorem Paced.window_sum_le (hPaced : Paced rate capacity grant items) (hScale : 0 ≤ scale)
    (hRate : 0 ≤ rate) (hCapacity : 0 ≤ capacity) {x y : 𝕜} (hxy : x ≤ y)
    (hWeight : ∀ a ∈ items, Dominated scale capacity grant weight a) :
    ((items.filter fun a => decide (x ≤ (grant a).release ∧ (grant a).release ≤ y)).map weight).sum ≤
      scale * (capacity + rate * (y - x)) := by
  refine sum_le_of_released hScale hRate hCapacity hxy (hPaced.filter _) ?_ ?_
  · intro a ha
    exact hWeight a (List.mem_of_mem_filter ha)
  · intro a ha
    exact of_decide_eq_true (List.mem_filter.mp ha).2

end Foundation.Pacing
