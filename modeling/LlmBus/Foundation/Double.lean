import Mathlib.Data.Rat.Defs
import Mathlib.Algebra.Order.Ring.Rat
import Mathlib.Tactic.Linarith

/-! # Doubles in exact arithmetic

Finite values are rationals and never round; the infinities and NaN behave as IEEE
754 prescribes. NaN compares false with everything, itself included, so `lt` and
`le` are Boolean functions and not an order.
-/

namespace Foundation

inductive Double where
  | finite (q : ℚ)
  | posInf
  | negInf
  | nan
  deriving DecidableEq

namespace Double

def isFinite : Double → Bool
  | finite _ => true
  | _ => false

def isNan : Double → Bool
  | nan => true
  | _ => false

def lt : Double → Double → Bool
  | finite a, finite b => a < b
  | finite _, posInf => true
  | negInf, finite _ => true
  | negInf, posInf => true
  | _, _ => false

def le : Double → Double → Bool
  | finite a, finite b => a ≤ b
  | nan, _ => false
  | _, nan => false
  | a, b => a == b || lt a b

/-- An infinity carrying the sign of a product. -/
def signedInf (q : ℚ) : Double :=
  if q = 0 then nan else if 0 < q then posInf else negInf

def mul : Double → Double → Double
  | finite a, finite b => finite (a * b)
  | finite a, posInf => signedInf a
  | finite a, negInf => signedInf (-a)
  | posInf, finite b => signedInf b
  | negInf, finite b => signedInf (-b)
  | posInf, posInf => posInf
  | posInf, negInf => negInf
  | negInf, posInf => negInf
  | negInf, negInf => posInf
  | _, _ => nan

def add : Double → Double → Double
  | finite a, finite b => finite (a + b)
  | posInf, negInf => nan
  | negInf, posInf => nan
  | nan, _ => nan
  | _, nan => nan
  | posInf, _ => posInf
  | _, posInf => posInf
  | negInf, _ => negInf
  | _, negInf => negInf

/-- The built-in `min` of two arguments: the first one stays unless the second is smaller. -/
def min (a b : Double) : Double :=
  if lt b a then b else a

@[simp] theorem isFinite_finite (q : ℚ) : (finite q).isFinite = true := rfl

@[simp] theorem isFinite_posInf : posInf.isFinite = false := rfl

@[simp] theorem isFinite_negInf : negInf.isFinite = false := rfl

@[simp] theorem isFinite_nan : nan.isFinite = false := rfl

@[simp] theorem isNan_finite (q : ℚ) : (finite q).isNan = false := rfl

@[simp] theorem lt_finite (a b : ℚ) : lt (finite a) (finite b) = decide (a < b) := rfl

@[simp] theorem le_finite (a b : ℚ) : le (finite a) (finite b) = decide (a ≤ b) := rfl

@[simp] theorem mul_finite (a b : ℚ) : mul (finite a) (finite b) = finite (a * b) := rfl

@[simp] theorem add_finite (a b : ℚ) : add (finite a) (finite b) = finite (a + b) := rfl

theorem min_finite (a b : ℚ) : min (finite a) (finite b) = finite (Min.min a b) := by
  simp only [min, lt_finite, decide_eq_true_eq]
  split
  · rename_i h
    rw [min_eq_right h.le]
  · rename_i h
    rw [min_eq_left (not_lt.mp h)]

/-! ### Values from zero upwards -/

def nonneg : Double → Bool
  | finite q => 0 ≤ q
  | posInf => true
  | _ => false

theorem isNan_of_nonneg {x : Double} (h : x.nonneg = true) : x.isNan = false := by
  cases x with
  | finite q => rfl
  | posInf => rfl
  | negInf => cases h
  | nan => cases h

theorem nonneg_of_le_zero {x : Double} (h : x.le (finite 0) = false) (hNan : x.isNan = false) :
    x.nonneg = true := by
  cases x with
  | finite q =>
    simp only [le_finite, decide_eq_false_iff_not, not_le] at h
    exact decide_eq_true h.le
  | posInf => rfl
  | negInf => cases h
  | nan => cases hNan

theorem nonneg_of_lt {x y : Double} (h : y.lt x = false) (hx : x.nonneg = true)
    (hNan : y.isNan = false) : y.nonneg = true := by
  cases y with
  | finite q =>
    cases x with
    | finite r =>
      simp only [lt_finite, decide_eq_false_iff_not, not_lt] at h
      exact decide_eq_true ((of_decide_eq_true hx).trans h)
    | posInf => cases h
    | negInf => cases hx
    | nan => cases hx
  | posInf => rfl
  | negInf =>
    cases x with
    | finite r => cases h
    | posInf => cases h
    | negInf => cases hx
    | nan => cases hx
  | nan => cases hNan

theorem nonneg_add {x y : Double} (hx : x.nonneg = true) (hy : y.nonneg = true) :
    (x.add y).nonneg = true := by
  cases x with
  | finite q =>
    cases y with
    | finite r => exact decide_eq_true (add_nonneg (of_decide_eq_true hx) (of_decide_eq_true hy))
    | posInf => rfl
    | negInf => cases hy
    | nan => cases hy
  | posInf =>
    cases y with
    | finite r => rfl
    | posInf => rfl
    | negInf => cases hy
    | nan => cases hy
  | negInf => cases hx
  | nan => cases hx

theorem nonneg_mul_of_pos {q : ℚ} (hq : 0 < q) {x : Double} (hx : x.nonneg = true) :
    ((finite q).mul x).nonneg = true ∧ (x.mul (finite q)).nonneg = true := by
  have hInf : signedInf q = posInf := by rw [signedInf, if_neg hq.ne', if_pos hq]
  cases x with
  | finite r =>
    exact ⟨decide_eq_true (mul_nonneg hq.le (of_decide_eq_true hx)),
      decide_eq_true (mul_nonneg (of_decide_eq_true hx) hq.le)⟩
  | posInf =>
    change (signedInf q).nonneg = true ∧ (signedInf q).nonneg = true
    rw [hInf]
    exact ⟨rfl, rfl⟩
  | negInf => cases hx
  | nan => cases hx

theorem nonneg_min {x y : Double} (hx : x.nonneg = true) (hy : y.nonneg = true) :
    (min x y).nonneg = true := by
  unfold min
  split
  · exact hy
  · exact hx

end Double

/-- The integers from here on have no double: the bound is half a unit in the last
place above the greatest finite one. -/
@[irreducible] def doubleOverflow : ℤ :=
  2 ^ 1024 - 2 ^ 970

/-- A positive quotient of at most this has no double but zero: half of the least positive one. -/
@[irreducible] def doubleUnderflow : ℚ :=
  1 / 2 ^ 1075

theorem doubleOverflow_pos : (0 : ℚ) < doubleOverflow := by
  have h : (0 : ℤ) < doubleOverflow := by decide +kernel
  exact_mod_cast h

namespace Double

/-- What an exact sum, product or quotient becomes: an infinity where no double is left for it. -/
def overflowing : Double → Double
  | finite q =>
    if (doubleOverflow : ℚ) ≤ q then posInf
    else if q ≤ -(doubleOverflow : ℚ) then negInf
    else finite q
  | x => x

theorem overflowing_finite {q : ℚ} (hNonneg : 0 ≤ q) (hLt : q < doubleOverflow) :
    overflowing (finite q) = finite q := by
  have hAbove : ¬ q ≤ -(doubleOverflow : ℚ) := by linarith [doubleOverflow_pos]
  rw [overflowing, if_neg (not_le.mpr hLt), if_neg hAbove]

theorem overflowing_eq_posInf {q : ℚ} (h : (doubleOverflow : ℚ) ≤ q) :
    overflowing (finite q) = posInf :=
  if_pos h

theorem nonneg_overflowing {x : Double} (h : x.nonneg = true) : (overflowing x).nonneg = true := by
  cases x with
  | finite q =>
    rcases lt_or_ge q (doubleOverflow : ℚ) with hLt | hGe
    · rw [overflowing_finite (of_decide_eq_true h) hLt]
      exact h
    · rw [overflowing_eq_posInf hGe]
      rfl
  | posInf => rfl
  | negInf => cases h
  | nan => cases h

end Double

end Foundation
