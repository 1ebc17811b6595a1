import Mathlib.Data.Int.Log
import LlmBus.Foundation.Calendar
import LlmBus.Foundation.Double
import LlmBus.Foundation.Markup

/-! # Figures

Numbers rounded to what a floating format carries, and written out with a fixed number of
places. Whatever the number, no character of it means anything in markup.
-/

namespace Foundation

/-- A floating format: its base, its digits, and the exponents of its last and first digit. -/
structure Floating where
  base : Nat
  digits : Nat
  least : ℤ
  top : ℤ

namespace Floating

def binary64 : Floating := ⟨2, 53, -1074, 1023⟩

/-- The default context of decimal arithmetic. -/
def decimal28 : Floating := ⟨10, 28, -1000026, 999999⟩

variable (f : Floating)

/-- The nearest number with so many digits, ties to even. -/
def round (q : ℚ) : ℚ :=
  if q = 0 then 0
  else
    let unit := (f.base : ℚ) ^ max f.least (Int.log f.base |q| - (f.digits - 1))
    roundHalfEven (q / unit) * unit

def overflows (q : ℚ) : Bool :=
  q ≠ 0 && f.top < Int.log f.base |q|

end Floating

namespace Double

/-- `float` of a number, and the rounding of every operation on floats. -/
def rounded : Double → Double
  | finite q =>
    if Floating.binary64.overflows (Floating.binary64.round q) then signedInf q
    else finite (Floating.binary64.round q)
  | x => x

/-- The built-in `max` of two arguments: the first one stays unless the second is larger. -/
def max (a b : Double) : Double :=
  if lt a b then b else a

/-- `a / b` of decimals; `none` where it raises. -/
def decimalDivide : Double → Double → Option Double
  | nan, _ => some nan
  | _, nan => some nan
  | finite a, finite b =>
    if b = 0 ∨ Floating.decimal28.overflows (Floating.decimal28.round (a / b)) then none
    else some (finite (Floating.decimal28.round (a / b)))
  | finite _, _ => some (finite 0)
  | posInf, finite b => some (if b < 0 then negInf else posInf)
  | negInf, finite b => some (if b < 0 then posInf else negInf)
  | _, _ => none

end Double

namespace Figures

open Markup

/-- A comma before every third digit, with the last digit first. -/
def groupedFrom : Text → Text
  | a :: b :: c :: d :: rest => a :: b :: c :: 0x2C :: groupedFrom (d :: rest)
  | s => s

def thousands (n : Nat) : Text :=
  (groupedFrom (decimalText n).reverse).reverse

/-- The sign, the digits before the point as `whole` writes them, and so many places after it. -/
def fixedText (whole : Nat → Text) (places : Nat) (q : ℚ) : Text :=
  let n := (roundHalfEven (|q| * 10 ^ places)).toNat
  (if q < 0 then txt "-" else []) ++ whole (n / 10 ^ places) ++ txt "." ++
    paddedDecimal places (n % 10 ^ places)

/-- `format(x, ",.{places}f")` of a decimal. -/
def decimalFigure (places : Nat) : Double → Text
  | .nan => txt "NaN"
  | .negInf => txt "-Infinity"
  | .posInf => txt "Infinity"
  | .finite q => fixedText thousands places q

/-- `format(x, ".{places}f")` of a float. -/
def floatFigure (places : Nat) : Double → Text
  | .nan => txt "nan"
  | .negInf => txt "-inf"
  | .posInf => txt "inf"
  | .finite q => fixedText decimalText places q

example : decimalFigure 6 (.finite (12345678901 / 10000000)) = txt "1,234.567890" := by
  decide +kernel

/-! ### No figure is markup -/

theorem plainChar_hexDigit {n : Nat} (h : n < 16) : plainChar (hexDigit n) = true := by
  have hAll : ∀ n < 16, plainChar (hexDigit n) = true := by decide
  exact hAll n h

theorem plain_decimalDigits (width n : Nat) : plain (decimalDigits width n) = true := by
  induction width generalizing n with
  | zero => rfl
  | succ width ih =>
    have hDigit : plain [hexDigit (n % 10)] = true := by
      simp [plain, plainChar_hexDigit (show n % 10 < 16 by omega)]
    rw [decimalDigits, plain_append, hDigit, Bool.and_true]
    split
    · rfl
    · exact ih (n / 10)

theorem plain_decimalText (n : Nat) : plain (decimalText n) = true :=
  plain_decimalDigits _ n

theorem plain_paddedDecimal (width n : Nat) : plain (paddedDecimal width n) = true := by
  induction width generalizing n with
  | zero => rfl
  | succ width ih =>
    rw [paddedDecimal, plain_append, ih]
    simp [plain, plainChar_hexDigit (show n % 10 < 16 by omega)]

theorem plain_groupedFrom {s : Text} (h : plain s = true) : plain (groupedFrom s) = true := by
  induction s using groupedFrom.induct with
  | case1 a b c d rest ih =>
    have hComma : plainChar 0x2C = true := by decide
    rw [groupedFrom]
    simp only [plain, List.all_cons, Bool.and_eq_true] at h ih ⊢
    obtain ⟨ha, hb, hc, hd, hRest⟩ := h
    exact ⟨ha, hb, hc, hComma, ih ⟨hd, hRest⟩⟩
  | case2 s hShort =>
    unfold groupedFrom
    split
    · exact absurd rfl (hShort _ _ _ _ _)
    · exact h

theorem plain_thousands (n : Nat) : plain (thousands n) = true := by
  have hReversed : plain (decimalText n).reverse = true := by
    rw [plain, List.all_reverse]
    exact plain_decimalText n
  rw [thousands, plain, List.all_reverse]
  exact plain_groupedFrom hReversed

theorem plain_fixedText {whole : Nat → Text} (hWhole : ∀ n, plain (whole n) = true) (places : Nat)
    (q : ℚ) : plain (fixedText whole places q) = true := by
  have hSign : plain (if q < 0 then txt "-" else []) = true := by
    split
    · decide
    · rfl
  have hPoint : plain (txt ".") = true := by decide
  simp only [fixedText, plain_append, hSign, hWhole, hPoint, plain_paddedDecimal, Bool.and_self]

theorem plain_decimalFigure (places : Nat) (x : Double) : plain (decimalFigure places x) = true := by
  cases x with
  | finite q => exact plain_fixedText plain_thousands places q
  | posInf => exact (by decide : plain (txt "Infinity") = true)
  | negInf => exact (by decide : plain (txt "-Infinity") = true)
  | nan => exact (by decide : plain (txt "NaN") = true)

theorem plain_floatFigure (places : Nat) (x : Double) : plain (floatFigure places x) = true := by
  cases x with
  | finite q => exact plain_fixedText plain_decimalText places q
  | posInf => exact (by decide : plain (txt "inf") = true)
  | negInf => exact (by decide : plain (txt "-inf") = true)
  | nan => exact (by decide : plain (txt "nan") = true)

/-- `str(n)` -/
def count (n : Nat) : Figure :=
  ⟨decimalText n, plain_decimalText n⟩

end Figures

end Foundation
