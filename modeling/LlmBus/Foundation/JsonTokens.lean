import Mathlib.Data.List.TakeDrop
import LlmBus.Foundation.JsonText

/-! # The strings and numbers of JSON, read back

A string comes back as it was written, but for a high surrogate that stands right before a
low one; the reader takes the two for one character. A number comes back as it was written,
whatever follows it that no number goes on with.
-/

namespace Foundation.JsonText

/-! ### Strings -/

/-- What reading back makes of a string: each pair of halves becomes one character. -/
def joined : Text → Text
  | [] => []
  | [c] => [c]
  | c :: d :: s => if isHigh c && isLow d then joinPair c d :: joined s else c :: joined (d :: s)

def hasPair : Text → Bool
  | [] => false
  | [_] => false
  | c :: d :: s => (isHigh c && isLow d) || hasPair (d :: s)

theorem joined_of_not_hasPair {s : Text} (h : hasPair s = false) : joined s = s := by
  fun_induction joined s with
  | case1 => rfl
  | case2 c => rfl
  | case3 c d s hPair ih =>
    rw [hasPair, hPair] at h
    cases h
  | case4 c d s hPair ih =>
    rw [hasPair, Bool.or_eq_false_iff] at h
    rw [ih h.2]

theorem length_joined_le (s : Text) : (joined s).length ≤ s.length := by
  fun_induction joined s with
  | case1 => exact le_rfl
  | case2 c => exact le_rfl
  | case3 c d s hPair ih =>
    simp only [List.length_cons]
    omega
  | case4 c d s hPair ih =>
    simp only [List.length_cons] at ih ⊢
    omega

theorem length_joined_lt {s : Text} (h : hasPair s = true) : (joined s).length < s.length := by
  fun_induction joined s with
  | case1 => cases h
  | case2 c => cases h
  | case3 c d s hPair ih =>
    have hRest := length_joined_le s
    simp only [List.length_cons]
    omega
  | case4 c d s hPair ih =>
    rw [hasPair, Bool.or_eq_true] at h
    have hRest := ih (h.resolve_left hPair)
    simp only [List.length_cons] at hRest ⊢
    omega

theorem joined_eq_self_iff {s : Text} : joined s = s ↔ hasPair s = false := by
  constructor
  · intro h
    rw [Bool.eq_false_iff]
    intro hPair
    have hLt := length_joined_lt hPair
    rw [h] at hLt
    exact Nat.lt_irrefl _ hLt
  · exact joined_of_not_hasPair

/-- How a character stands in its escaped form. -/
def unitsOf (c : CodePoint) : List CharUnit :=
  if (shorthands.lookup c).isSome then [(c, false)]
  else if 0x20 ≤ c.val ∧ c.val ≤ 0x7E then [(c, false)]
  else if c.val < 0x10000 then [(c, true)]
  else [(Fin.ofNat 0x110000 (highOf c), true), (Fin.ofNat 0x110000 (lowOf c), true)]

theorem hexValue_hexDigit {n : Nat} (h : n < 16) : hexValue (hexDigit n) = some n := by
  rw [hexValue, Uuid.digitValue_hexDigit h]
  simp [h]

theorem scanUnits_unicodeEscape {n : Nat} (h : n < 0x10000) (s : Text) :
    scanUnits (unicodeEscape n ++ s) = pushUnit (Fin.ofNat 0x110000 n, true) (scanUnits s) := by
  have hDigit : ∀ k : Nat, hexValue (hexDigit (k % 16)) = some (k % 16) :=
    fun k => hexValue_hexDigit (Nat.mod_lt k (by decide))
  have hQuad : hexQuad (hexDigit (n / 16 / 16 / 16 % 16)) (hexDigit (n / 16 / 16 % 16))
      (hexDigit (n / 16 % 16)) (hexDigit (n % 16)) = some (Fin.ofNat 0x110000 n) := by
    simp only [hexQuad, hDigit]
    congr 2
    omega
  change scanUnits (0x5C :: 0x75 :: hexDigit (n / 16 / 16 / 16 % 16) :: hexDigit (n / 16 / 16 % 16) ::
    hexDigit (n / 16 % 16) :: hexDigit (n % 16) :: s) = _
  rw [scanUnits, hQuad]

theorem scanUnits_plain {c : CodePoint} (hQuote : c ≠ 0x22) (hSlash : c ≠ 0x5C) (hPrintable : 0x20 ≤ c.val)
    (s : Text) : scanUnits (c :: s) = pushUnit (c, false) (scanUnits s) := by
  rw [scanUnits, if_neg]
  · rintro (hControl | hSame)
    · omega
    · exact hSlash hSame
  · exact hQuote
  · exact fun _ _ _ _ _ hSame => absurd hSame hSlash
  · exact fun _ _ hSame => absurd hSame hSlash

/-- The short escapes read back as what they stand for. -/
theorem scanUnits_shorthand {c letter : CodePoint} (h : shorthands.lookup c = some letter) (s : Text) :
    scanUnits (0x5C :: letter :: s) = pushUnit (c, false) (scanUnits s) := by
  obtain ⟨_, _, hLetter, hUnescape⟩ := shorthands_spec h
  rw [scanUnits, hUnescape]
  exact fun _ _ _ _ _ hSame => absurd hSame hLetter

def pushUnits (units : List CharUnit) (read : Option (List CharUnit × Text)) :
    Option (List CharUnit × Text) :=
  read.map fun out => (units ++ out.1, out.2)

theorem highOf_lt {c : CodePoint} (h : 0x10000 ≤ c.val) : highOf c < 0xDC00 ∧ 0xD800 ≤ highOf c := by
  have hLt := c.isLt
  unfold highOf
  omega

theorem lowOf_lt (c : CodePoint) : lowOf c < 0xE000 ∧ 0xDC00 ≤ lowOf c := by
  unfold lowOf
  omega

theorem scanUnits_escapeChar (c : CodePoint) (s : Text) :
    scanUnits (escapeChar c ++ s) = pushUnits (unitsOf c) (scanUnits s) := by
  unfold escapeChar unitsOf
  cases hShort : shorthands.lookup c with
  | some letter => exact scanUnits_shorthand hShort s
  | none =>
    simp only [Option.isSome_none, Bool.false_eq_true, if_false]
    split
    · rename_i hPrintable
      refine scanUnits_plain ?_ ?_ hPrintable.1 s
      · rintro rfl
        cases hShort
      · rintro rfl
        cases hShort
    split
    · rename_i hSmall
      have hSame : Fin.ofNat 0x110000 c.val = c := Fin.ext (Nat.mod_eq_of_lt c.isLt)
      rw [scanUnits_unicodeEscape hSmall, hSame]
      rfl
    · rename_i hLarge
      have hHigh := highOf_lt (not_lt.mp hLarge)
      have hLow := lowOf_lt c
      rw [List.append_assoc, scanUnits_unicodeEscape (by omega), scanUnits_unicodeEscape (by omega)]
      cases scanUnits s <;> rfl

theorem scanUnits_flatMap (s rest : Text) :
    scanUnits (s.flatMap escapeChar ++ 0x22 :: rest) = some (s.flatMap unitsOf, rest) := by
  induction s with
  | nil => rfl
  | cons c s ih =>
    rw [List.flatMap_cons, List.append_assoc, scanUnits_escapeChar, ih, List.flatMap_cons]
    rfl

/-- The first half of what a character is written as is a low surrogate only where it is one itself,
and then it is written as `\u`. -/
theorem head_unitsOf (c : CodePoint) :
    ∃ u rest, unitsOf c = u :: rest ∧ (u.2 && isLow u.1) = isLow c := by
  unfold unitsOf
  split
  · rename_i hShort
    obtain ⟨letter, hLetter⟩ := Option.isSome_iff_exists.mp hShort
    have hSmall := (shorthands_spec hLetter).1
    refine ⟨_, _, rfl, ?_⟩
    simp only [isLow, Bool.false_and, Bool.false_eq, Bool.and_eq_false_iff, decide_eq_false_iff_not]
    omega
  split
  · rename_i hPrintable
    refine ⟨_, _, rfl, ?_⟩
    simp only [isLow, Bool.false_and, Bool.false_eq, Bool.and_eq_false_iff, decide_eq_false_iff_not]
    omega
  split
  · exact ⟨_, _, rfl, Bool.true_and _⟩
  · rename_i hLarge
    have hHigh := highOf_lt (not_lt.mp hLarge)
    have hVal : (Fin.ofNat 0x110000 (highOf c)).val = highOf c := Nat.mod_eq_of_lt (by omega)
    refine ⟨_, _, rfl, ?_⟩
    have hFirst : isLow (Fin.ofNat 0x110000 (highOf c)) = false := by
      simp only [isLow, hVal, Bool.and_eq_false_iff, decide_eq_false_iff_not]
      omega
    have hSelf : isLow c = false := by
      simp only [isLow, Bool.and_eq_false_iff, decide_eq_false_iff_not]
      omega
    rw [hFirst, hSelf, Bool.and_false]

/-- A character that is no high surrogate is not joined with what follows it. -/
theorem joinUnits_unitsOf {c : CodePoint} (h : isHigh c = false) (rest : List CharUnit) :
    joinUnits (unitsOf c ++ rest) = c :: joinUnits rest := by
  have hAlone : ∀ flag, joinUnits ((c, flag) :: rest) = c :: joinUnits rest := by
    intro flag
    cases rest with
    | nil => rfl
    | cons v rest => rw [joinUnits, h, Bool.false_and, Bool.and_false, if_neg Bool.false_ne_true]
  unfold unitsOf
  split
  · exact hAlone false
  split
  · exact hAlone false
  split
  · exact hAlone true
  · rename_i hLarge
    have hHigh := highOf_lt (not_lt.mp hLarge)
    have hLow := lowOf_lt c
    have hHighVal : (Fin.ofNat 0x110000 (highOf c)).val = highOf c := Nat.mod_eq_of_lt (by omega)
    have hLowVal : (Fin.ofNat 0x110000 (lowOf c)).val = lowOf c := Nat.mod_eq_of_lt (by omega)
    have hPair : (isHigh (Fin.ofNat 0x110000 (highOf c)) && isLow (Fin.ofNat 0x110000 (lowOf c))) =
        true := by
      simp only [isHigh, isLow, hHighVal, hLowVal, Bool.and_eq_true, decide_eq_true_eq]
      omega
    have hJoin : joinPair (Fin.ofNat 0x110000 (highOf c)) (Fin.ofNat 0x110000 (lowOf c)) = c := by
      apply Fin.ext
      rw [joinPair, hHighVal, hLowVal]
      unfold highOf lowOf
      have hLt := c.isLt
      exact (Nat.mod_eq_of_lt (by omega)).trans (by omega)
    rw [List.cons_append, List.cons_append, List.nil_append, joinUnits, hPair]
    exact (if_pos rfl).trans (congrArg (· :: joinUnits rest) hJoin)

/-- A lone half is always written as `\u`. -/
theorem unitsOf_surrogate {c : CodePoint} (h : isHigh c = true ∨ isLow c = true) :
    unitsOf c = [(c, true)] := by
  have hRange : 0xD800 ≤ c.val ∧ c.val ≤ 0xDFFF := by
    simp only [isHigh, isLow, Bool.and_eq_true, decide_eq_true_eq] at h
    omega
  have hShort : (shorthands.lookup c).isSome = false := by
    cases hLookup : shorthands.lookup c with
    | none => rfl
    | some letter =>
      have hSmall := (shorthands_spec hLookup).1
      omega
  rw [unitsOf, hShort, if_neg Bool.false_ne_true, if_neg (by omega), if_pos (by omega)]

theorem joinUnits_flatMap (s : Text) : joinUnits (s.flatMap unitsOf) = joined s := by
  fun_induction joined s with
  | case1 => rfl
  | case2 c =>
    cases hHigh : isHigh c with
    | false => exact joinUnits_unitsOf hHigh []
    | true => rw [List.flatMap_cons, unitsOf_surrogate (.inl hHigh)]; rfl
  | case3 c d s hPair ih =>
    rw [Bool.and_eq_true] at hPair
    rw [List.flatMap_cons, List.flatMap_cons, unitsOf_surrogate (.inl hPair.1),
      unitsOf_surrogate (.inr hPair.2), ← ih]
    simp only [List.cons_append, List.nil_append, joinUnits, hPair, Bool.and_self, if_true]
  | case4 c d s hPair ih =>
    rw [← ih, List.flatMap_cons]
    cases hHigh : isHigh c with
    | false => exact joinUnits_unitsOf hHigh _
    | true =>
      obtain ⟨u, rest, hUnits, hLow⟩ := head_unitsOf d
      rw [hHigh, Bool.true_and, Bool.not_eq_true] at hPair
      have hApart : (u.2 && isLow u.1) = false := hLow.trans hPair
      rw [unitsOf_surrogate (.inl hHigh), List.flatMap_cons, hUnits]
      simp only [List.cons_append, List.nil_append, joinUnits, hHigh, Bool.true_and, hApart,
        Bool.false_eq_true, if_false]

theorem scanString_escaped (s rest : Text) :
    scanString (s.flatMap escapeChar ++ 0x22 :: rest) = some (joined s, rest) := by
  rw [scanString, scanUnits_flatMap, Option.map_some, joinUnits_flatMap]

/-! ### Numbers -/

def Digits (s : Text) : Prop :=
  s ≠ [] ∧ s.all isDigit = true

/-- The four parts of a number as JSON writes it. -/
structure NumberText (minus whole fraction exponent : Text) : Prop where
  minus : minus = [] ∨ minus = [0x2D]
  whole : whole = [0x30] ∨ Digits whole ∧ whole.head? ≠ some 0x30
  fraction : fraction = [] ∨ ∃ ds, Digits ds ∧ fraction = 0x2E :: ds
  exponent : exponent = [] ∨ ∃ mark sign ds, isExponentMark mark = true ∧
    (sign = [] ∨ sign = [0x2B] ∨ sign = [0x2D]) ∧ Digits ds ∧ exponent = mark :: (sign ++ ds)

/-- No number goes on with what stands here. -/
def endsNumber : Text → Bool
  | [] => true
  | c :: _ => !(isDigit c || c == 0x2E || isExponentMark c)

theorem span_digits {ds rest : Text} (hDigits : ds.all isDigit = true)
    (hRest : ∀ c s, rest = c :: s → isDigit c = false) : (ds ++ rest).span isDigit = (ds, rest) := by
  rw [List.span_eq_takeWhile_dropWhile]
  have hAll : ∀ c ∈ ds, isDigit c = true := List.all_eq_true.mp hDigits
  rw [List.takeWhile_append_of_pos hAll, List.dropWhile_append_of_pos hAll]
  cases rest with
  | nil => simp
  | cons c s => simp [hRest c s rfl]

theorem scanWhole_append {whole rest : Text}
    (h : whole = [0x30] ∨ Digits whole ∧ whole.head? ≠ some 0x30)
    (hRest : ∀ c s, rest = c :: s → isDigit c = false) : scanWhole (whole ++ rest) = (whole, rest) := by
  cases h with
  | inl hZero =>
    rw [hZero]
    rfl
  | inr hDigits =>
    obtain ⟨⟨hNonempty, hAll⟩, hHead⟩ := hDigits
    cases whole with
    | nil => exact absurd rfl hNonempty
    | cons c ds =>
      have hFirst : c ≠ 0x30 := fun hSame => hHead (by rw [hSame]; rfl)
      rw [List.cons_append, scanWhole]
      · exact span_digits hAll hRest
      · exact fun _ hSame => absurd (List.cons.inj hSame).1 hFirst

theorem scanMarked_append {ds rest : Text} (mark sign : Text) (hDigits : Digits ds)
    (hRest : ∀ c s, rest = c :: s → isDigit c = false) :
    scanMarked mark sign (ds ++ rest) = (mark ++ sign ++ ds, rest) := by
  rw [scanMarked, span_digits hDigits.2 hRest]
  cases ds with
  | nil => exact absurd rfl hDigits.1
  | cons d ds => rfl

theorem digits_head {ds : Text} (h : Digits ds) : ∃ d rest, ds = d :: rest ∧ isDigit d = true := by
  obtain ⟨hNonempty, hAll⟩ := h
  cases ds with
  | nil => exact absurd rfl hNonempty
  | cons d ds =>
    rw [List.all_cons, Bool.and_eq_true] at hAll
    exact ⟨d, ds, rfl, hAll.1⟩

theorem not_isDigit_of_isExponentMark {c : CodePoint} (h : isExponentMark c = true) :
    isDigit c = false := by
  simp only [isExponentMark, Bool.or_eq_true, beq_iff_eq] at h
  cases h with
  | inl hLower =>
    rw [hLower]
    rfl
  | inr hUpper =>
    rw [hUpper]
    rfl

theorem endsNumber_cons {c : CodePoint} {s : Text} :
    endsNumber (c :: s) = true ↔ isDigit c = false ∧ c ≠ 0x2E ∧ isExponentMark c = false := by
  simp [endsNumber, and_assoc]

theorem not_isDigit_of_endsNumber {rest : Text} (h : endsNumber rest = true) :
    ∀ c s, rest = c :: s → isDigit c = false := by
  rintro c s rfl
  exact (endsNumber_cons.mp h).1

theorem scanExponent_append {exponent rest : Text}
    (h : exponent = [] ∨ ∃ mark sign ds, isExponentMark mark = true ∧
      (sign = [] ∨ sign = [0x2B] ∨ sign = [0x2D]) ∧ Digits ds ∧ exponent = mark :: (sign ++ ds))
    (hRest : endsNumber rest = true) : scanExponent (exponent ++ rest) = (exponent, rest) := by
  rcases h with rfl | ⟨mark, sign, ds, hMark, hSign, hDigits, rfl⟩
  · cases rest with
    | nil => rfl
    | cons c s =>
      have hApart := (endsNumber_cons.mp hRest).2.2
      cases s with
      | nil => rfl
      | cons d s => rw [List.nil_append, scanExponent, hApart, if_neg Bool.false_ne_true]
  · have hStop := not_isDigit_of_endsNumber hRest
    rcases hSign with rfl | rfl | rfl
    · obtain ⟨d, tail, rfl, hDigit⟩ := digits_head hDigits
      have hPlain : ¬ (d = 0x2B ∨ d = 0x2D) := by
        rintro (rfl | rfl) <;> cases hDigit
      rw [List.cons_append, List.nil_append, List.cons_append, scanExponent, if_pos hMark, if_neg hPlain]
      exact scanMarked_append [mark] [] hDigits hStop
    · rw [List.cons_append, List.append_assoc, List.cons_append, scanExponent, if_pos hMark,
        if_pos (.inl rfl), List.nil_append]
      exact scanMarked_append [mark] [0x2B] hDigits hStop
    · rw [List.cons_append, List.append_assoc, List.cons_append, scanExponent, if_pos hMark,
        if_pos (.inr rfl), List.nil_append]
      exact scanMarked_append [mark] [0x2D] hDigits hStop

theorem scanFraction_append {fraction rest : Text}
    (h : fraction = [] ∨ ∃ ds, Digits ds ∧ fraction = 0x2E :: ds)
    (hRest : ∀ c s, rest = c :: s → isDigit c = false ∧ c ≠ 0x2E) :
    scanFraction (fraction ++ rest) = (fraction, rest) := by
  rcases h with rfl | ⟨ds, hDigits, rfl⟩
  · cases rest with
    | nil => rfl
    | cons c s =>
      rw [List.nil_append, scanFraction]
      exact fun _ hSame => absurd (List.cons.inj hSame).1 (hRest c s rfl).2
  · rw [List.cons_append, scanFraction]
    exact scanMarked_append [0x2E] [] hDigits fun c s hSame => (hRest c s hSame).1

theorem NumberText.whole_head {minus whole fraction exponent : Text}
    (h : NumberText minus whole fraction exponent) :
    ∃ c s, whole = c :: s ∧ isDigit c = true := by
  cases h.whole with
  | inl hZero => exact ⟨0x30, [], hZero, rfl⟩
  | inr hDigits => exact digits_head hDigits.1

theorem scanMinus_append {minus rest : Text} (h : minus = [] ∨ minus = [0x2D])
    (hRest : rest.head? ≠ some 0x2D) : scanMinus (minus ++ rest) = (minus, rest) := by
  rcases h with rfl | rfl
  · cases rest with
    | nil => rfl
    | cons c s =>
      rw [List.nil_append, scanMinus]
      exact fun _ hSame => absurd (congrArg some (List.cons.inj hSame).1) hRest
  · rfl

/-- A number is scanned whole, and what follows it is left. -/
theorem scanNumber_append (parseFloat : Text → Double) {minus whole fraction exponent rest : Text}
    (h : NumberText minus whole fraction exponent) (hRest : endsNumber rest = true) :
    scanNumber parseFloat (minus ++ (whole ++ (fraction ++ (exponent ++ rest)))) =
      if fraction = [] ∧ exponent = [] then
        if Interpreter.maxDigits < whole.length then none
        else some (.int (if minus = [] then digitsNumber whole else -digitsNumber whole), rest)
      else some (.float (parseFloat (minus ++ whole ++ fraction ++ exponent)), rest) := by
  obtain ⟨c, tail, hWhole, hDigit⟩ := h.whole_head
  have hAfterFraction : ∀ d s, exponent ++ rest = d :: s → isDigit d = false ∧ d ≠ 0x2E := by
    intro d s hSame
    rcases h.exponent with rfl | ⟨mark, sign, ds, hMark, _, _, rfl⟩
    · rw [List.nil_append] at hSame
      subst hSame
      exact ⟨(endsNumber_cons.mp hRest).1, (endsNumber_cons.mp hRest).2.1⟩
    · obtain rfl : mark = d := (List.cons.inj hSame).1
      refine ⟨not_isDigit_of_isExponentMark hMark, ?_⟩
      rintro rfl
      cases hMark
  have hAfterWhole : ∀ d s, fraction ++ (exponent ++ rest) = d :: s → isDigit d = false := by
    intro d s hSame
    rcases h.fraction with rfl | ⟨ds, _, rfl⟩
    · exact (hAfterFraction d s hSame).1
    · obtain rfl : 0x2E = d := (List.cons.inj hSame).1
      rfl
  have hNotMinus : (whole ++ (fraction ++ (exponent ++ rest))).head? ≠ some 0x2D := by
    rw [hWhole]
    intro hSame
    obtain rfl : c = 0x2D := Option.some.inj hSame
    cases hDigit
  have hNonempty : whole ≠ [] := by
    rw [hWhole]
    exact List.cons_ne_nil _ _
  simp only [scanNumber, scanMinus_append h.minus hNotMinus, scanWhole_append h.whole hAfterWhole,
    scanFraction_append h.fraction hAfterFraction, scanExponent_append h.exponent hRest, hNonempty,
    if_false]
  split
  · rename_i hInteger
    rw [hInteger.1, hInteger.2]
    rfl
  · rfl

theorem isDigit_hexDigit {n : Nat} (h : n < 10) : isDigit (hexDigit n) = true := by
  simp only [isDigit, Uuid.hexDigit_val (h.trans (by decide)), if_pos h, Bool.and_eq_true,
    decide_eq_true_eq]
  omega

theorem digitsNumber_append (ds : Text) (c : CodePoint) :
    digitsNumber (ds ++ [c]) = digitsNumber ds * 10 + (c.val - 0x30) := by
  rw [digitsNumber, List.foldl_append]
  rfl

/-- The decimal digits of a number, without a zero before them. -/
theorem decimalDigits_spec {width n : Nat} (h : n < width) :
    digitsNumber (decimalDigits width n) = n ∧ Digits (decimalDigits width n) ∧
      (0 < n → (decimalDigits width n).head? ≠ some 0x30) := by
  induction width generalizing n with
  | zero => omega
  | succ width ih =>
    have hMod : n % 10 < 10 := Nat.mod_lt n (by decide)
    have hVal : (hexDigit (n % 10)).val = 0x30 + n % 10 := by
      rw [Uuid.hexDigit_val (hMod.trans (by decide)), if_pos hMod]
    have hLast := isDigit_hexDigit hMod
    rw [decimalDigits, digitsNumber_append, hVal]
    by_cases hSmall : n < 10
    · rw [if_pos hSmall, List.nil_append]
      refine ⟨?_, ⟨List.cons_ne_nil _ _, by simp [hLast]⟩, fun hPos hZero => ?_⟩
      · change 0 * 10 + (0x30 + n % 10 - 0x30) = n
        omega
      · have hHead := congrArg Fin.val (Option.some.inj hZero)
        rw [hVal] at hHead
        change 0x30 + n % 10 = 0x30 at hHead
        omega
    · rw [if_neg hSmall]
      obtain ⟨hValue, ⟨hNonempty, hAll⟩, hHead⟩ := ih (n := n / 10) (by omega)
      refine ⟨by rw [hValue]; omega, ⟨by simp, by simp [hAll, hLast]⟩, fun _ => ?_⟩
      rw [List.head?_append_of_ne_nil _ hNonempty]
      exact hHead (by omega)

theorem length_decimalDigits_le {k : Nat} (width n : Nat) (h : n < 10 ^ (k + 1)) :
    (decimalDigits width n).length ≤ k + 1 := by
  induction width generalizing n k with
  | zero => exact Nat.zero_le _
  | succ width ih =>
    rw [decimalDigits, List.length_append, List.length_singleton]
    by_cases hSmall : n < 10
    · rw [if_pos hSmall, List.length_nil]
      omega
    · rw [if_neg hSmall]
      cases k with
      | zero => omega
      | succ k =>
        have hRest := ih (k := k) (n / 10) (by rw [pow_succ] at h; omega)
        omega

theorem numberText_intText (n : ℤ) :
    NumberText (if n < 0 then [0x2D] else []) (decimalText n.natAbs) [] [] where
  minus := by
    split
    · exact .inr rfl
    · exact .inl rfl
  whole := by
    obtain ⟨_, hDigits, hHead⟩ := decimalDigits_spec (Nat.lt_succ_self n.natAbs)
    rcases Nat.eq_zero_or_pos n.natAbs with hZero | hPos
    · rw [hZero]
      exact .inl rfl
    · exact .inr ⟨hDigits, hHead hPos⟩
  fraction := .inl rfl
  exponent := .inl rfl

theorem scanNumber_intText (parseFloat : Text → Double) {n : ℤ}
    (h : n.natAbs < 10 ^ Interpreter.maxDigits) {rest : Text} (hRest : endsNumber rest = true) :
    scanNumber parseFloat (intText n ++ rest) = some (.int n, rest) := by
  have hScan := scanNumber_append parseFloat (numberText_intText n) hRest
  have hMax : Interpreter.maxDigits = 4299 + 1 := rfl
  have hLength : (decimalText n.natAbs).length ≤ Interpreter.maxDigits := by
    rw [hMax] at h ⊢
    exact length_decimalDigits_le _ _ h
  have hValue : digitsNumber (decimalText n.natAbs) = n.natAbs :=
    (decimalDigits_spec (Nat.lt_succ_self n.natAbs)).1
  simp only [List.nil_append, and_self, if_true, not_lt.mpr hLength, if_false, hValue] at hScan
  rw [intText, List.append_assoc, hScan]
  congr 3
  split
  · rw [if_neg (List.cons_ne_nil _ _)]
    omega
  · rw [if_pos rfl]
    omega

end Foundation.JsonText
