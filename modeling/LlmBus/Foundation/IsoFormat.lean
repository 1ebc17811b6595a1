import LlmBus.Foundation.Timestamp

/-! # Timestamps as `isoformat` writes them

Unlike the form on the wire, this one keeps an offset's seconds and microseconds, so
what is written is read back whole.
-/

namespace Foundation.IsoFormat

open Timestamp

def readTime (s : Text) : Option (Nat × Text) := do
  let (hour, minute, second, s) ← readTriple 2 0x3A s
  let (fraction, s) ← readFraction s
  some (((hour * 60 + minute) * 60 + second) * 1000000 + fraction, s)

/-- Hours and minutes alone, or a time with seconds. -/
def readClock (s : Text) : Option Nat :=
  if s.length = 5 then do
    let (hours, s) ← readDigits 2 0 s
    let s ← expect 0x3A s
    let (minutes, _) ← readDigits 2 0 s
    some ((hours * 60 + minutes) * microsPerMinute)
  else do
    let (micros, s) ← readTime s
    if s = [] then some micros else none

def readOffset : Text → Option ℤ
  | [] => none
  | sign :: s => do
    let n ← readClock s
    if sign = 0x2B then some n
    else if sign = 0x2D then some (-n)
    else none

def read (s : Text) : Option DateTime := do
  let (year, month, day, s) ← readTriple 4 0x2D s
  let s ← expect 0x54 s
  let (micros, s) ← readTime s
  let offset ← readOffset s
  ofFields year month day micros offset

theorem timeText_eq (n : Nat) :
    DateTime.timeText n =
      tripleText 2 0x3A (n / 1000000 / 3600) (n / 1000000 / 60 % 60) (n / 1000000 % 60) ++
        fractionText (n % 1000000) := by
  simp only [DateTime.timeText, tripleText, fractionText, List.append_assoc]
  rfl

theorem readTime_timeText {n : Nat} (h : n < microsPerDay) {rest : Text}
    (hRest : rest.head? ≠ some 0x2E) :
    readTime (DateTime.timeText n ++ rest) = some (n, rest) := by
  have hDay : n < 86400000000 := h
  have hSplit : ((n / 1000000 / 3600 * 60 + n / 1000000 / 60 % 60) * 60 + n / 1000000 % 60) * 1000000 +
      n % 1000000 = n := by omega
  rw [timeText_eq, List.append_assoc]
  simp only [readTime, Option.bind_eq_bind]
  rw [readTriple_tripleText (by omega) (by omega) (by omega)]
  simp only [Option.bind_some, readFraction_append (show n % 1000000 < 10 ^ 6 by omega) hRest, hSplit]

theorem length_timeText (n : Nat) : 8 ≤ (DateTime.timeText n).length := by
  simp only [timeText_eq, tripleText, List.length_append, List.length_cons, paddedDecimal_length]
  omega

theorem readClock_timeText {n : Nat} (h : n < microsPerDay) :
    readClock (DateTime.timeText n) = some n := by
  have hLong := length_timeText n
  have hRead := @readTime_timeText n h [] (by decide)
  rw [List.append_nil] at hRead
  rw [readClock, if_neg (by omega), hRead]
  rfl

theorem readClock_minutes {n : Nat} (h : n < microsPerDay) (hWhole : n % microsPerMinute = 0) :
    readClock (paddedDecimal 2 (n / (60 * microsPerMinute)) ++ txt ":" ++
      paddedDecimal 2 (n / microsPerMinute % 60)) = some n := by
  have hDay : n < 86400000000 := h
  have hMinute : n % 60000000 = 0 := hWhole
  have hHours : n / (60 * microsPerMinute) < 10 ^ 2 := by
    change n / (60 * 60000000) < _
    omega
  have hTotal : (n / (60 * microsPerMinute) * 60 + n / microsPerMinute % 60) * microsPerMinute = n := by
    change (n / (60 * 60000000) * 60 + n / 60000000 % 60) * 60000000 = n
    omega
  have hLast : readDigits 2 0 (paddedDecimal 2 (n / microsPerMinute % 60)) =
      some (n / microsPerMinute % 60, []) := by
    rw [← List.append_nil (paddedDecimal 2 _)]
    exact readDigits_of_lt (by omega) []
  rw [List.append_assoc, readClock, if_pos (by simp [paddedDecimal_length]; rfl)]
  rw [readDigits_of_lt hHours]
  simp only [Option.bind_eq_bind, Option.bind_some]
  change ((expect 0x3A (0x3A :: paddedDecimal 2 _)).bind _) = _
  rw [expect_append, Option.bind_some, hLast]
  exact congrArg some hTotal

theorem readOffset_offsetText {offset : ℤ} (h : offset.natAbs < microsPerDay) :
    readOffset (DateTime.offsetText offset) = some offset := by
  have hClock : readClock (if offset.natAbs % microsPerMinute = 0 then
      paddedDecimal 2 (offset.natAbs / (60 * microsPerMinute)) ++ txt ":" ++
        paddedDecimal 2 (offset.natAbs / microsPerMinute % 60)
      else DateTime.timeText offset.natAbs) = some offset.natAbs := by
    split
    · rename_i hWhole
      exact readClock_minutes h hWhole
    · exact readClock_timeText h
  have hSign : ∀ (sign : CodePoint) (clock : Text), readClock clock = some offset.natAbs →
      readOffset ([sign] ++ clock) =
        if sign = 0x2B then some (offset.natAbs : ℤ)
        else if sign = 0x2D then some (-(offset.natAbs : ℤ)) else none := by
    intro sign clock hRead
    rw [List.singleton_append, readOffset, hRead]
    rfl
  simp only [DateTime.offsetText]
  cases lt_or_ge offset 0 with
  | inl hNeg =>
    rw [if_pos hNeg]
    refine (hSign 0x2D _ hClock).trans ?_
    rw [if_neg (by decide), if_pos rfl]
    congr 1
    omega
  | inr hPos =>
    rw [if_neg (by omega)]
    refine (hSign 0x2B _ hClock).trans ?_
    rw [if_pos rfl]
    congr 1
    omega

theorem head?_offsetText (offset : ℤ) : (DateTime.offsetText offset).head? ≠ some 0x2E := by
  unfold DateTime.offsetText
  split
  · exact fun h => absurd (Option.some.inj h) (by decide)
  · exact fun h => absurd (Option.some.inj h) (by decide)

theorem read_isoformat (t : DateTime) : read t.isoformat = some t := by
  have hDay := daysInMonth_le t.date.year t.date.month
  have hDate := t.date.valid
  have hIso : t.isoformat = tripleText 4 0x2D t.date.year t.date.month t.date.day ++ 0x54 ::
      (DateTime.timeText t.micros ++ DateTime.offsetText t.offset) := by
    simp only [DateTime.isoformat, isoDate, tripleText, List.append_assoc]
    rfl
  rw [hIso]
  simp only [read, Option.bind_eq_bind]
  rw [readTriple_tripleText (by omega) (by omega) (by omega)]
  simp only [Option.bind_some, expect_append, readTime_timeText t.micros_lt (head?_offsetText t.offset),
    readOffset_offsetText t.offset_lt, ofFields]
  rw [dif_pos hDate, dif_pos ⟨t.micros_lt, t.offset_lt⟩]

theorem asciiText_timeText (n : Nat) : asciiText (DateTime.timeText n) = true := by
  rw [DateTime.timeText]
  simp only [asciiText_append, asciiText_paddedDecimal, Bool.and_true, Bool.true_and]
  split
  · decide
  · rw [asciiText_append, asciiText_paddedDecimal]
    decide

theorem asciiText_isoformat (t : DateTime) : asciiText t.isoformat = true := by
  have hOffset : asciiText (DateTime.offsetText t.offset) = true := by
    rw [DateTime.offsetText, asciiText_append, Bool.and_eq_true]
    constructor
    · split <;> decide
    · split
      · rw [asciiText_append, asciiText_append, asciiText_paddedDecimal, asciiText_paddedDecimal]
        decide
      · exact asciiText_timeText _
  rw [DateTime.isoformat, isoDate]
  simp only [asciiText_append, asciiText_paddedDecimal, asciiText_timeText, hOffset]
  decide

end Foundation.IsoFormat
