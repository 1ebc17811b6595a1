import Mathlib.Algebra.BigOperators.Group.List.Basic
import Mathlib.Data.Prod.Lex
import LlmBus.Foundation.Double

/-! # Sums of doubles and their order

Exact addition is associative and commutative on all doubles, the special ones
included, so a sum does not depend on the order of its terms. The rank orders them all;
away from NaN it is the comparison of IEEE 754.
-/

namespace Foundation.Double

instance zeroDouble : Zero Double := ⟨finite 0⟩

instance addDouble : Add Double := ⟨add⟩

instance addCommMonoidDouble : AddCommMonoid Double where
  add_assoc x y z := by
    change (x.add y).add z = x.add (y.add z)
    cases x <;> cases y <;> cases z <;> simp only [add, add_assoc]
  zero_add x := by
    change (finite 0).add x = x
    cases x <;> simp only [add, zero_add]
  add_zero x := by
    change x.add (finite 0) = x
    cases x <;> simp only [add, add_zero]
  add_comm x y := by
    change x.add y = y.add x
    cases x <;> cases y <;> simp only [add, add_comm]
  nsmul := nsmulRec

theorem sum_finite (qs : List ℚ) : (qs.map finite).sum = finite qs.sum := by
  induction qs with
  | nil => rfl
  | cons q rest ih =>
    rw [List.map_cons, List.sum_cons, List.sum_cons, ih]
    rfl

theorem nonneg_sum {xs : List Double} (h : ∀ x ∈ xs, x.nonneg = true) : xs.sum.nonneg = true := by
  induction xs with
  | nil => rfl
  | cons x rest ih =>
    rw [List.sum_cons]
    exact nonneg_add (h x List.mem_cons_self) (ih fun y hy => h y (List.mem_cons_of_mem x hy))

def positive (x : Double) : Bool :=
  lt (finite 0) x

theorem eq_zero_of_not_positive {x : Double} (h : x.nonneg = true) (hNot : x.positive = false) :
    x = 0 := by
  cases x with
  | finite q =>
    have hLe : q ≤ 0 := not_lt.mp (of_decide_eq_false hNot)
    exact congrArg finite (le_antisymm hLe (of_decide_eq_true h))
  | posInf => cases hNot
  | negInf => cases h
  | nan => cases h

theorem nonneg_of_positive {x : Double} (h : x.positive = true) : x.nonneg = true := by
  cases x with
  | finite q => exact decide_eq_true (of_decide_eq_true h).le
  | posInf => rfl
  | negInf => cases h
  | nan => cases h

/-- Of amounts none of which is negative only the positive ones count. -/
theorem sum_map_filter_positive {α : Type} (amount : α → Double) {items : List α}
    (h : ∀ a ∈ items, (amount a).nonneg = true) :
    ((items.filter fun a => (amount a).positive).map amount).sum = (items.map amount).sum := by
  induction items with
  | nil => rfl
  | cons a rest ih =>
    have hRest := ih fun b hb => h b (List.mem_cons_of_mem a hb)
    cases hPositive : (amount a).positive with
    | true =>
      rw [List.filter_cons_of_pos (p := fun b => (amount b).positive) hPositive, List.map_cons,
        List.sum_cons, hRest, List.map_cons, List.sum_cons]
    | false =>
      rw [List.filter_cons_of_neg (by simp [hPositive]), hRest, List.map_cons, List.sum_cons,
        eq_zero_of_not_positive (h a List.mem_cons_self) hPositive, zero_add]

def rank : Double → ℕ ×ₗ ℚ
  | negInf => toLex (0, 0)
  | finite q => toLex (1, q)
  | posInf => toLex (2, 0)
  | nan => toLex (3, 0)

theorem rank_injective : Function.Injective rank := by
  intro x y h
  cases x <;> cases y <;> simp_all [rank]

theorem rank_lt_rank_iff {x y : Double} (hx : x.isNan = false) (hy : y.isNan = false) :
    rank x < rank y ↔ x.lt y = true := by
  cases x <;> cases y <;> simp [rank, lt, isNan, Prod.Lex.toLex_lt_toLex] at hx hy ⊢

end Foundation.Double
