import LlmBus.Foundation.Calendar

/-! # Timestamps on the wire

The form `YYYY-MM-DDTHH:MM:SS[.ffffff]` with `Z` or a whole-minute offset. Writing drops
what an offset has beyond whole minutes; the local date and time survive, and so does
the offset of every real time zone.
-/

namespace Foundation.Timestamp

def offsetText (offset : ℤ) : Text :=
  if offset = 0 then txt "Z"
  else
    (if offset < 0 then txt "-" else txt "+") ++
      (paddedDecimal 2 (offset.natAbs / microsPerMinute / 60) ++
        (txt ":" ++ paddedDecimal 2 (offset.natAbs / microsPerMinute % 60)))

def fractionText (fraction : Nat) : Text :=
  if fraction = 0 then [] else txt "." ++ paddedDecimal 6 fraction

def tripleText (width : Nat) (mark : CodePoint) (a b c : Nat) : Text :=
  paddedDecimal width a ++ mark :: (paddedDecimal 2 b ++ mark :: paddedDecimal 2 c)

def write (t : DateTime) : Text :=
  tripleText 4 0x2D t.date.year t.date.month t.date.day ++ 0x54 ::
    (tripleText 2 0x3A (t.micros / 3600000000) (t.micros / 60000000 % 60)
        (t.micros / 1000000 % 60) ++
      (fractionText (t.micros % 1000000) ++ offsetText t.offset))

/-- The value of exactly `width` decimal digits, on top of those already read. -/
def readDigits : Nat → Nat → Text → Option (Nat × Text)
  | 0, acc, s => some (acc, s)
  | _ + 1, _, [] => none
  | width + 1, acc, c :: s =>
    if 0x30 ≤ c.val ∧ c.val ≤ 0x39 then readDigits width (acc * 10 + (c.val - 0x30)) s else none

def expect (mark : CodePoint) : Text → Option Text
  | [] => none
  | c :: s => if c = mark then some s else none

def readFraction : Text → Option (Nat × Text)
  | 0x2E :: s => readDigits 6 0 s
  | s => some (0, s)

def readOffset : Text → Option ℤ
  | [0x5A] => some 0
  | sign :: s => do
    let (hours, s) ← readDigits 2 0 s
    let s ← expect 0x3A s
    let (minutes, s) ← readDigits 2 0 s
    if s ≠ [] then none
    else if sign = 0x2B then some ((hours * 60 + minutes) * microsPerMinute)
    else if sign = 0x2D then some (-((hours * 60 + minutes) * microsPerMinute))
    else none
  | [] => none

def readTriple (width : Nat) (mark : CodePoint) (s : Text) : Option (Nat × Nat × Nat × Text) := do
  let (a, s) ← readDigits width 0 s
  let s ← expect mark s
  let (b, s) ← readDigits 2 0 s
  let s ← expect mark s
  let (c, s) ← readDigits 2 0 s
  some (a, b, c, s)

def ofFields (year month day micros : Nat) (offset : ℤ) : Option DateTime :=
  if hDate : (1 ≤ year ∧ year ≤ 9999) ∧ (1 ≤ month ∧ month ≤ 12) ∧ 1 ≤ day ∧
      day ≤ daysInMonth year month then
    if hTime : micros < microsPerDay ∧ offset.natAbs < microsPerDay then
      some ⟨⟨year, month, day, hDate⟩, micros, offset, hTime.1, hTime.2⟩
    else none
  else none

def read (s : Text) : Option DateTime := do
  let (year, month, day, s) ← readTriple 4 0x2D s
  let s ← expect 0x54 s
  let (hour, minute, second, s) ← readTriple 2 0x3A s
  let (fraction, s) ← readFraction s
  let offset ← readOffset s
  ofFields year month day (((hour * 60 + minute) * 60 + second) * 1000000 + fraction) offset

def wholeMinutes (offset : ℤ) : ℤ :=
  offset.sign * (offset.natAbs / microsPerMinute * microsPerMinute : Nat)

theorem natAbs_wholeMinutes_le (offset : ℤ) : (wholeMinutes offset).natAbs ≤ offset.natAbs := by
  rw [wholeMinutes, Int.natAbs_mul, Int.natAbs_natCast]
  have hSign : offset.sign.natAbs ≤ 1 := by
    rcases Int.lt_trichotomy offset 0 with h | h | h
    · simp [Int.sign_eq_neg_one_of_neg h]
    · simp [h]
    · simp [Int.sign_eq_one_of_pos h]
  calc
    offset.sign.natAbs * (offset.natAbs / microsPerMinute * microsPerMinute)
        ≤ 1 * (offset.natAbs / microsPerMinute * microsPerMinute) := Nat.mul_le_mul_right _ hSign
    _ ≤ offset.natAbs := by
      rw [Nat.one_mul]
      exact Nat.div_mul_le_self _ _

def truncate (t : DateTime) : DateTime :=
  { t with
    offset := wholeMinutes t.offset
    offset_lt := (natAbs_wholeMinutes_le t.offset).trans_lt t.offset_lt }

theorem readDigits_append_digit {width : Nat} {s : Text} {n : Nat} (hn : n < 10) (rest : Text) :
    ∀ acc value, readDigits width acc s = some (value, hexDigit n :: rest) →
      readDigits (width + 1) acc s = some (value * 10 + n, rest) := by
  have hVal : (hexDigit n).val = 0x30 + n := by
    have h : (hexDigit n).val = if n < 10 then 0x30 + n else 0x57 + n :=
      Nat.mod_eq_of_lt (by split <;> omega)
    rw [h, if_pos hn]
  induction width generalizing s with
  | zero =>
    intro acc value h
    cases h
    simp only [readDigits, hVal]
    rw [if_pos (by omega)]
    simp
  | succ width ih =>
    intro acc value h
    cases s with
    | nil => cases h
    | cons c s =>
      rw [readDigits] at h ⊢
      split at h
      · rename_i hDigit
        rw [if_pos hDigit]
        exact ih _ value h
      · cases h

theorem readDigits_paddedDecimal (width n : Nat) (rest : Text) :
    readDigits width 0 (paddedDecimal width n ++ rest) = some (n % 10 ^ width, rest) := by
  induction width generalizing n rest with
  | zero => simp [readDigits, paddedDecimal, Nat.mod_one]
  | succ width ih =>
    rw [paddedDecimal, List.append_assoc, List.singleton_append]
    rw [readDigits_append_digit (Nat.mod_lt n (by decide : 0 < 10)) rest 0 _ (ih (n / 10) _)]
    congr 2
    rw [Nat.pow_succ, Nat.mul_comm (10 ^ width) 10, Nat.mod_mul]
    omega

theorem readDigits_of_lt {width n : Nat} (h : n < 10 ^ width) (rest : Text) :
    readDigits width 0 (paddedDecimal width n ++ rest) = some (n, rest) := by
  rw [readDigits_paddedDecimal, Nat.mod_eq_of_lt h]

theorem expect_append (mark : CodePoint) (rest : Text) : expect mark (mark :: rest) = some rest := by
  rw [expect, if_pos rfl]

theorem readFraction_append {fraction : Nat} (h : fraction < 10 ^ 6) {rest : Text}
    (hRest : rest.head? ≠ some 0x2E) :
    readFraction (fractionText fraction ++ rest) = some (fraction, rest) := by
  unfold fractionText
  split
  · rename_i hZero
    subst hZero
    cases rest with
    | nil => rfl
    | cons c rest =>
      rw [List.nil_append, readFraction]
      rintro s ⟨rfl⟩
      exact hRest rfl
  · exact readDigits_of_lt h rest

theorem readOffset_offsetText {offset : ℤ} (h : offset.natAbs < microsPerDay) :
    readOffset (offsetText offset) = some (wholeMinutes offset) := by
  unfold offsetText
  split
  · rename_i hZero
    subst hZero
    rfl
  · rename_i hNonzero
    have hMinutes : offset.natAbs / microsPerMinute < 1440 := by
      simp only [microsPerMinute, microsPerDay] at h ⊢
      omega
    have hRead : ∀ sign : CodePoint, sign ≠ 0x5A →
        readOffset (sign :: (paddedDecimal 2 (offset.natAbs / microsPerMinute / 60) ++
          (txt ":" ++ paddedDecimal 2 (offset.natAbs / microsPerMinute % 60)))) =
        if sign = 0x2B then some ((offset.natAbs / microsPerMinute * microsPerMinute : Nat) : ℤ)
        else if sign = 0x2D then some (-((offset.natAbs / microsPerMinute * microsPerMinute : Nat) : ℤ))
        else none := by
      intro sign hSign
      have hLast : readDigits 2 0 (paddedDecimal 2 (offset.natAbs / microsPerMinute % 60)) =
          some (offset.natAbs / microsPerMinute % 60, []) := by
        rw [← List.append_nil (paddedDecimal 2 _)]
        exact readDigits_of_lt (by omega) []
      have hTotal : ((offset.natAbs / microsPerMinute / 60 : Nat) * 60 +
          (offset.natAbs / microsPerMinute % 60 : Nat) : ℤ) = (offset.natAbs / microsPerMinute : Nat) := by
        omega
      rw [readOffset]
      · rw [readDigits_of_lt (by omega)]
        simp only [Option.bind_eq_bind, Option.bind_some]
        change ((expect 0x3A (0x3A :: paddedDecimal 2 _)).bind _) = _
        rw [expect_append, Option.bind_some, hLast]
        simp only [Option.bind_some, ne_eq, not_true_eq_false, if_false, hTotal]
        push_cast
        rfl
      · intro hSame
        exact absurd hSame hSign
    split
    · rename_i hNeg
      refine (hRead 0x2D (by decide)).trans ?_
      rw [if_neg (by decide), if_pos rfl, wholeMinutes, Int.sign_eq_neg_one_of_neg hNeg, neg_one_mul]
    · rename_i hPos
      refine (hRead 0x2B (by decide)).trans ?_
      rw [if_pos rfl, wholeMinutes, Int.sign_eq_one_of_pos (by omega), one_mul]

theorem head?_offsetText (offset : ℤ) : (offsetText offset).head? ≠ some 0x2E := by
  unfold offsetText
  split
  · decide
  · split
    · exact fun h => absurd (Option.some.inj h) (by decide)
    · exact fun h => absurd (Option.some.inj h) (by decide)

theorem readTriple_tripleText {width : Nat} {mark : CodePoint} {a b c : Nat} (ha : a < 10 ^ width)
    (hb : b < 10 ^ 2) (hc : c < 10 ^ 2) (rest : Text) :
    readTriple width mark (tripleText width mark a b c ++ rest) = some (a, b, c, rest) := by
  simp only [readTriple, tripleText, List.append_assoc, List.cons_append, Option.bind_eq_bind,
    readDigits_of_lt ha, readDigits_of_lt hb, readDigits_of_lt hc, expect_append, Option.bind_some]

/-- What is written is read back, but for seconds in the offset. -/
theorem read_write (t : DateTime) : read (write t) = some (truncate t) := by
  have hDay := daysInMonth_le t.date.year t.date.month
  have hDate := t.date.valid
  have hTime : t.micros < 86400000000 := t.micros_lt
  have hSplit : ((t.micros / 3600000000 * 60 + t.micros / 60000000 % 60) * 60 +
      t.micros / 1000000 % 60) * 1000000 + t.micros % 1000000 = t.micros := by omega
  have hWhole := (natAbs_wholeMinutes_le t.offset).trans_lt t.offset_lt
  have hFraction : readFraction (fractionText (t.micros % 1000000) ++ offsetText t.offset) =
      some (t.micros % 1000000, offsetText t.offset) :=
    readFraction_append (by omega) (head?_offsetText t.offset)
  simp only [read, write, Option.bind_eq_bind]
  rw [readTriple_tripleText (by omega) (by omega) (by omega)]
  simp only [Option.bind_some, expect_append]
  rw [readTriple_tripleText (by omega) (by omega) (by omega)]
  simp only [Option.bind_some, hFraction, readOffset_offsetText t.offset_lt, hSplit, ofFields]
  rw [dif_pos hDate, dif_pos ⟨t.micros_lt, hWhole⟩]
  rfl

theorem asciiText_write (t : DateTime) : asciiText (write t) = true := by
  have hFraction : ∀ n, asciiText (fractionText n) = true := by
    intro n
    unfold fractionText
    split
    · rfl
    · rw [asciiText_append, asciiText_paddedDecimal]
      decide
  have hOffset : ∀ offset, asciiText (offsetText offset) = true := by
    intro offset
    unfold offsetText
    split
    · decide
    · split
      · rw [asciiText_append, asciiText_append, asciiText_append, asciiText_paddedDecimal,
          asciiText_paddedDecimal]
        decide
      · rw [asciiText_append, asciiText_append, asciiText_append, asciiText_paddedDecimal,
          asciiText_paddedDecimal]
        decide
  have hMark : ∀ (c : CodePoint) (s : Text), asciiText (c :: s) = (isAscii c && asciiText s) :=
    fun _ _ => rfl
  simp only [write, tripleText, asciiText_append, hMark, asciiText_paddedDecimal, hFraction, hOffset]
  decide

theorem truncate_of_whole {t : DateTime} (h : t.offset.natAbs % microsPerMinute = 0) :
    truncate t = t := by
  have hOffset : wholeMinutes t.offset = t.offset := by
    rw [wholeMinutes, Nat.div_mul_cancel (Nat.dvd_of_mod_eq_zero h), Int.sign_mul_natAbs]
  obtain ⟨date, micros, offset, hMicros, hLt⟩ := t
  simp only [truncate, DateTime.mk.injEq, true_and]
  exact hOffset

end Foundation.Timestamp
