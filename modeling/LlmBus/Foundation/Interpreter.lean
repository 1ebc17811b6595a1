import LlmBus.Foundation.Double
import LlmBus.Foundation.Utf8

/-! # The interpreter's own text functions

The Unicode character database and the shortest rendering of a double belong to the
interpreter. They are fields here, together with the few documented facts a program
can rely on whichever release it runs under; everything built from them is defined.
-/

namespace Foundation

structure Interpreter where
  /-- `str.lower`. -/
  lower : Text → Text
  lower_ascii : ∀ s, asciiText s = true → lower s = asciiLower s
  /-- No character outside ASCII is lowered into ASCII, but for the Kelvin sign, whose
  lower case is `k`. -/
  lower_foreign : ∀ s, asciiText s = false → ∃ c ∈ lower s, isAscii c = false ∨ c = 0x6B
  /-- The value of a decimal digit outside ASCII. -/
  decimal : CodePoint → Option Nat
  /-- `str.isprintable` of a character outside ASCII. -/
  printable : CodePoint → Bool
  printable_surrogate : ∀ c, isSurrogate c = true → printable c = false
  /-- `repr` of a double. -/
  floatText : Double → Text
  floatText_ascii : ∀ x, asciiText (floatText x) = true

def Interpreter.ascii : Interpreter where
  lower := asciiLower
  lower_ascii _ _ := rfl
  lower_foreign s h := by
    obtain ⟨c, hc, hForeign⟩ := List.all_eq_false.mp h
    refine ⟨asciiLowerChar c, List.mem_map_of_mem hc, .inl ?_⟩
    simp only [isAscii, decide_eq_true_eq] at hForeign
    rw [asciiLowerChar, if_neg (by omega)]
    simpa [isAscii] using hForeign
  decimal _ := none
  printable _ := false
  printable_surrogate _ _ := rfl
  floatText
    | .finite q => (if q < 0 then txt "-" else []) ++ decimalText q.num.natAbs ++
        (if q.den = 1 then txt ".0" else txt "/" ++ decimalText q.den)
    | .posInf => txt "inf"
    | .negInf => txt "-inf"
    | .nan => txt "nan"
  floatText_ascii x := by
    cases x with
    | finite q =>
      simp only [asciiText_append, asciiText_decimalText, Bool.and_true, Bool.and_eq_true]
      constructor
      · split <;> decide
      · split
        · decide
        · rw [asciiText_append, asciiText_decimalText]
          decide
    | posInf => decide
    | negInf => decide
    | nan => decide

namespace Interpreter

variable (py : Interpreter)

theorem isAscii_asciiLowerChar (c : CodePoint) : isAscii (asciiLowerChar c) = isAscii c := by
  unfold asciiLowerChar
  split
  · rename_i h
    have hVal : (Fin.ofNat 0x110000 (c.val + 0x20)).val = c.val + 0x20 :=
      Nat.mod_eq_of_lt (by omega)
    simp only [isAscii, hVal, decide_eq_decide]
    omega
  · rfl

theorem asciiText_asciiLower (s : Text) : asciiText (asciiLower s) = asciiText s := by
  simp [asciiText, asciiLower, List.all_map, Function.comp_def, isAscii_asciiLowerChar]

/-- Comparing a lowered text with an ASCII word that has no `k` is the same as
comparing under ASCII case folding. -/
theorem lower_eq_iff {word : Text} (hAscii : asciiText word = true) (hKelvin : 0x6B ∉ word)
    (s : Text) : py.lower s = word ↔ asciiLower s = word := by
  cases hs : asciiText s with
  | true => rw [py.lower_ascii s hs]
  | false =>
    constructor
    · intro h
      obtain ⟨c, hc, hForeign⟩ := py.lower_foreign s hs
      rw [h] at hc
      rcases hForeign with hForeign | rfl
      · rw [List.all_eq_true.mp hAscii c hc] at hForeign
        cases hForeign
      · exact absurd hc hKelvin
    · intro h
      rw [← asciiText_asciiLower, h, hAscii] at hs
      cases hs

/-! ### `repr` of a string -/

def reprChar (quote c : CodePoint) : Text :=
  if c = quote ∨ c = 0x5C then [0x5C, c]
  else if c = 0x09 then txt "\\t"
  else if c = 0x0A then txt "\\n"
  else if c = 0x0D then txt "\\r"
  else if c.val < 0x20 ∨ c.val = 0x7F then txt "\\x" ++ hexText 2 c.val
  else if c.val < 0x7F then [c]
  else if py.printable c then [c]
  else if c.val ≤ 0xFF then txt "\\x" ++ hexText 2 c.val
  else if c.val ≤ 0xFFFF then txt "\\u" ++ hexText 4 c.val
  else txt "\\U" ++ hexText 8 c.val

def repr (s : Text) : Text :=
  let quote : CodePoint := if 0x27 ∈ s ∧ 0x22 ∉ s then 0x22 else 0x27
  quote :: s.flatMap (py.reprChar quote) ++ [quote]

theorem surrogateFree_hexText (width n : Nat) : surrogateFree (hexText width n) = true :=
  surrogateFree_of_asciiText (asciiText_hexText width n)

theorem surrogateFree_reprChar {quote : CodePoint} (hQuote : isSurrogate quote = false)
    (c : CodePoint) : surrogateFree (py.reprChar quote c) = true := by
  have hEscape : ∀ s width n, surrogateFree s = true →
      surrogateFree (s ++ hexText width n) = true := by
    intro s width n hs
    rw [surrogateFree_append, hs, surrogateFree_hexText]
    rfl
  unfold reprChar
  split
  · rename_i h
    rcases h with rfl | rfl
    · simp only [surrogateFree_cons, hQuote]
      decide
    · decide
  split
  · decide
  split
  · decide
  split
  · decide
  split
  · exact hEscape _ _ _ (by decide)
  split
  · rename_i h
    have hAscii : isAscii c = true := by
      simp only [isAscii, decide_eq_true_eq]
      omega
    simp [isSurrogate_of_isAscii hAscii]
  split
  · rename_i h
    cases hc : isSurrogate c with
    | false => simp [hc]
    | true =>
      rw [py.printable_surrogate c hc] at h
      cases h
  split
  · exact hEscape _ _ _ (by decide)
  split
  · exact hEscape _ _ _ (by decide)
  · exact hEscape _ _ _ (by decide)

/-- Whatever a string holds, its `repr` can be written as UTF-8. -/
theorem surrogateFree_repr (s : Text) : surrogateFree (py.repr s) = true := by
  have hBody : ∀ quote, isSurrogate quote = false →
      surrogateFree (quote :: s.flatMap (py.reprChar quote) ++ [quote]) = true := by
    intro quote hQuote
    have hAll : surrogateFree (s.flatMap (py.reprChar quote)) = true := by
      simp only [surrogateFree, List.all_flatMap, List.all_eq_true]
      exact fun c _ => List.all_eq_true.mp (py.surrogateFree_reprChar hQuote c)
    simp [hQuote, hAll]
  unfold repr
  split
  · exact hBody _ (by decide)
  · exact hBody _ (by decide)

/-! ### `int` of a string -/

def isAsciiSpace (c : CodePoint) : Bool :=
  (0x09 ≤ c.val && c.val ≤ 0x0D) || c.val == 0x20

/-- Digits and spaces outside ASCII become ASCII ones; the first other character
ends the text in a way no number continues. -/
def foldDigits : Text → Text
  | [] => []
  | c :: s =>
    if c.val < 0x7F then c :: foldDigits s
    else if isSpace c then 0x20 :: foldDigits s
    else
      match py.decimal c with
      | some d => Fin.ofNat 0x110000 (0x30 + d) :: foldDigits s
      | none => [0x3F]

def digitValue (c : CodePoint) : Option Nat :=
  if 0x30 ≤ c.val ∧ c.val ≤ 0x39 then some (c.val - 0x30)
  else if 0x61 ≤ c.val ∧ c.val ≤ 0x7A then some (c.val - 0x57)
  else if 0x41 ≤ c.val ∧ c.val ≤ 0x5A then some (c.val - 0x37)
  else none

/-- Digits with single underscores between them, up to the first other character.
`ready` says that the last character read was a digit. -/
def scanDigits (base : Nat) : Nat → Bool → Text → Option (Nat × Text)
  | acc, ready, [] => if ready then some (acc, []) else none
  | acc, ready, c :: s =>
    if c = 0x5F then
      if ready then scanDigits base acc false s else none
    else
      match (digitValue c).filter (· < base) with
      | some d => scanDigits base (acc * base + d) true s
      | none => if ready then some (acc, c :: s) else none

def scanSign : Text → Bool × Text
  | 0x2B :: s => (false, s)
  | 0x2D :: s => (true, s)
  | s => (false, s)

/-- The optional `0x` of base sixteen, with the one underscore that may follow it. -/
def scanPrefix (base : Nat) : Text → Text
  | 0x30 :: c :: s =>
    if base = 16 ∧ (c = 0x78 ∨ c = 0x58) then
      match s with
      | 0x5F :: rest => rest
      | _ => s
    else 0x30 :: c :: s
  | s => s

/-- The interpreter's limit on the digits of a number that is not in a binary base. -/
def maxDigits : Nat := 4300

/-- `int(s, base)` for the bases ten and sixteen; `none` stands for its `ValueError`. -/
def parseInt (base : Nat) (s : Text) : Option ℤ :=
  let folded := if asciiText s then s else py.foldDigits s
  let (negative, unsigned) := scanSign (folded.dropWhile isAsciiSpace)
  if base = 10 ∧ maxDigits < unsigned.countP fun c => (digitValue c).isSome then none
  else
    match scanDigits base 0 false (scanPrefix base unsigned) with
    | some (n, rest) =>
      if rest.all isAsciiSpace then some (if negative then -(n : ℤ) else n) else none
    | none => none

end Interpreter

end Foundation
