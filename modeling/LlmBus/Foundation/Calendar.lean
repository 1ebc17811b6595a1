import Mathlib.Order.Basic
import Mathlib.Algebra.Order.Floor.Ring
import Mathlib.Data.Rat.Floor
import LlmBus.Foundation.Text

/-! # Dates and aware timestamps

The proleptic Gregorian calendar of years 1 to 9999, with microseconds. A timestamp
keeps the local date and time it was written with and its own offset from UTC; two of
them compare by instant, and a sum is computed on the local side, where it can leave
the calendar.
-/

namespace Foundation

def isLeap (year : Nat) : Bool :=
  year % 4 == 0 && (year % 100 != 0 || year % 400 == 0)

def daysInMonth (year month : Nat) : Nat :=
  if month = 2 then if isLeap year then 29 else 28
  else if month = 4 ∨ month = 6 ∨ month = 9 ∨ month = 11 then 30
  else 31

structure Date where
  year : Nat
  month : Nat
  day : Nat
  valid : (1 ≤ year ∧ year ≤ 9999) ∧ (1 ≤ month ∧ month ≤ 12) ∧ 1 ≤ day ∧ day ≤ daysInMonth year month
  deriving DecidableEq

theorem daysInMonth_le (year month : Nat) : daysInMonth year month ≤ 31 := by
  unfold daysInMonth
  split
  · split <;> omega
  · split <;> omega

namespace Date

/-- Year, month and day read as one number, the way dates compare. -/
def key (d : Date) : Nat :=
  (d.year * 16 + d.month) * 32 + d.day

theorem key_injective : Function.Injective key := by
  intro d e h
  obtain ⟨y, m, a, hv⟩ := d
  obtain ⟨y', m', a', hv'⟩ := e
  have h1 := daysInMonth_le y m
  have h2 := daysInMonth_le y' m'
  simp only [key] at h
  simp only [Date.mk.injEq]
  omega

instance : LinearOrder Date :=
  LinearOrder.lift' key key_injective

def daysBeforeYear (year : Nat) : Nat :=
  (year - 1) * 365 + (year - 1) / 4 - (year - 1) / 100 + (year - 1) / 400

def daysBeforeMonth (year : Nat) : Nat → Nat
  | 0 => 0
  | month + 1 => daysBeforeMonth year month + if month = 0 then 0 else daysInMonth year month

def toordinal (d : Date) : Nat :=
  daysBeforeYear d.year + daysBeforeMonth d.year d.month + d.day

end Date

/-- `n` in `width` decimal digits, the most significant first. -/
def paddedDecimal : Nat → Nat → Text
  | 0, _ => []
  | width + 1, n => paddedDecimal width (n / 10) ++ [hexDigit (n % 10)]

theorem paddedDecimal_length (width n : Nat) : (paddedDecimal width n).length = width := by
  induction width generalizing n with
  | zero => rfl
  | succ width ih => simp [paddedDecimal, ih]

theorem asciiText_paddedDecimal (width n : Nat) : asciiText (paddedDecimal width n) = true := by
  induction width generalizing n with
  | zero => rfl
  | succ width ih =>
    have hDigit : isAscii (hexDigit (n % 10)) = true := isAscii_hexDigit (by omega)
    rw [paddedDecimal, asciiText_append, ih]
    simp [asciiText, hDigit]

def isoDate (d : Date) : Text :=
  paddedDecimal 4 d.year ++ txt "-" ++ paddedDecimal 2 d.month ++ txt "-" ++ paddedDecimal 2 d.day

theorem isoDate_length (d : Date) : (isoDate d).length = 10 := by
  simp only [isoDate, List.length_append, paddedDecimal_length]
  decide

def microsPerDay : Nat := 86400000000

def microsPerMinute : Nat := 60000000

structure DateTime where
  date : Date
  /-- Microseconds since local midnight. -/
  micros : Nat
  /-- `utcoffset`, in microseconds. -/
  offset : ℤ
  micros_lt : micros < microsPerDay
  offset_lt : offset.natAbs < microsPerDay
  deriving DecidableEq

namespace DateTime

def startOf (d : Date) : DateTime where
  date := d
  micros := 0
  offset := 0
  micros_lt := by decide
  offset_lt := by decide

def localMicros (t : DateTime) : Nat :=
  (t.date.toordinal - 1) * microsPerDay + t.micros

/-- Microseconds on the UTC axis, by which timestamps compare. -/
def instant (t : DateTime) : ℤ :=
  t.localMicros - t.offset

def calendarMicros : Nat := 3652059 * microsPerDay

def timeText (micros : Nat) : Text :=
  let seconds := micros / 1000000
  let fraction := micros % 1000000
  paddedDecimal 2 (seconds / 3600) ++ txt ":" ++ paddedDecimal 2 (seconds / 60 % 60) ++ txt ":" ++
    paddedDecimal 2 (seconds % 60) ++
    if fraction = 0 then [] else txt "." ++ paddedDecimal 6 fraction

/-- The offset without seconds where it has none, as `isoformat` writes it. -/
def offsetText (offset : ℤ) : Text :=
  let n := offset.natAbs
  (if offset < 0 then txt "-" else txt "+") ++
    if n % microsPerMinute = 0 then
      paddedDecimal 2 (n / (60 * microsPerMinute)) ++ txt ":" ++
        paddedDecimal 2 (n / microsPerMinute % 60)
    else timeText n

def isoformat (t : DateTime) : Text :=
  isoDate t.date ++ txt "T" ++ timeText t.micros ++ offsetText t.offset

/-- `isoformat(timespec="seconds")` -/
def isoformatSeconds (t : DateTime) : Text :=
  isoDate t.date ++ txt "T" ++ timeText (t.micros / 1000000 * 1000000) ++ offsetText t.offset

/-- The first ten characters are the local date, whatever the offset. -/
theorem take_isoformat (t : DateTime) : t.isoformat.take 10 = isoDate t.date := by
  simp only [isoformat, List.append_assoc]
  rw [List.take_append_of_le_length (by rw [isoDate_length]), List.take_of_length_le (by
    rw [isoDate_length])]

end DateTime

def roundHalfEven (q : ℚ) : ℤ :=
  let below := ⌊q⌋
  if q - below < 1 / 2 then below
  else if 1 / 2 < q - below then below + 1
  else if below % 2 = 0 then below else below + 1

theorem roundHalfEven_le {q : ℚ} {n : ℤ} (h : q ≤ n) : roundHalfEven q ≤ n := by
  have hFloor : ⌊q⌋ ≤ n := by exact_mod_cast (Int.floor_le q).trans h
  have hNext : ¬ q - ⌊q⌋ < 1 / 2 → ⌊q⌋ + 1 ≤ n := by
    intro hHalf
    have hLt : (⌊q⌋ : ℚ) < n := by linarith
    have hLt : ⌊q⌋ < n := by exact_mod_cast hLt
    omega
  unfold roundHalfEven
  simp only
  split
  · exact hFloor
  · rename_i hHalf
    have := hNext hHalf
    split
    · exact this
    · split
      · exact hFloor
      · exact this

/-- `timedelta(seconds=s)` in microseconds, the exact value rounded. The interpreter splits off the
whole seconds and multiplies the rest in doubles, which can come out a microsecond away. -/
def timedeltaSeconds (s : ℚ) : ℤ :=
  roundHalfEven (s * 1000000)

/-- The instant of `t + delta`; `none` stands for the `OverflowError` of a sum that
leaves the calendar. -/
def DateTime.plus (t : DateTime) (delta : ℤ) : Option ℤ :=
  if 0 ≤ t.localMicros + delta ∧ t.localMicros + delta < DateTime.calendarMicros then
    some (t.instant + delta)
  else none

end Foundation
