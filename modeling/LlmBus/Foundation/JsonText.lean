import LlmBus.Foundation.Uuid

/-! # JSON as the interpreter writes and reads it

`json.dumps` in its default form, which escapes everything outside ASCII, and `json.loads`
with all it accepts: white space, the constants of JavaScript, escapes, repeated keys.
-/

namespace Foundation.JsonText

/-- A value of JSON. The members of an object are kept as they stand, repeated keys included. -/
inductive Datum where
  | null
  | bool (b : Bool)
  | int (n : ℤ)
  | float (x : Double)
  | str (s : Text)
  | arr (items : List Datum)
  | obj (members : List (Text × Datum))

def isHigh (c : CodePoint) : Bool :=
  0xD800 ≤ c.val && c.val ≤ 0xDBFF

def isLow (c : CodePoint) : Bool :=
  0xDC00 ≤ c.val && c.val ≤ 0xDFFF

def joinPair (high low : CodePoint) : CodePoint :=
  Fin.ofNat 0x110000 (0x10000 + (high.val - 0xD800) * 0x400 + (low.val - 0xDC00))

/-! ### Writing -/

/-- The characters with an escape of their own, and its letter. -/
def shorthands : List (CodePoint × CodePoint) :=
  [(0x22, 0x22), (0x5C, 0x5C), (0x0A, 0x6E), (0x0D, 0x72), (0x09, 0x74), (0x0C, 0x66), (0x08, 0x62)]

def unicodeEscape (n : Nat) : Text :=
  0x5C :: 0x75 :: hexText 4 n

def highOf (c : CodePoint) : Nat :=
  0xD800 + (c.val - 0x10000) / 0x400

def lowOf (c : CodePoint) : Nat :=
  0xDC00 + (c.val - 0x10000) % 0x400

def escapeChar (c : CodePoint) : Text :=
  match shorthands.lookup c with
  | some letter => [0x5C, letter]
  | none =>
    if 0x20 ≤ c.val ∧ c.val ≤ 0x7E then [c]
    else if c.val < 0x10000 then unicodeEscape c.val
    else unicodeEscape (highOf c) ++ unicodeEscape (lowOf c)

def quoted (s : Text) : Text :=
  0x22 :: (s.flatMap escapeChar ++ [0x22])

def intText (n : ℤ) : Text :=
  (if n < 0 then [0x2D] else []) ++ decimalText n.natAbs

/-- Opening and closing bracket, with a comma and a blank between the items. -/
def bracketed (opening closing : CodePoint) (items : List Text) : Text :=
  opening :: (List.intercalate [0x2C, 0x20] items ++ [closing])

section Writing

variable (floatText : Double → Text)

def floatToken : Double → Text
  | .nan => txt "NaN"
  | .posInf => txt "Infinity"
  | .negInf => txt "-Infinity"
  | .finite q => floatText (.finite q)

mutual

def dumps : Datum → Text
  | .null => txt "null"
  | .bool true => txt "true"
  | .bool false => txt "false"
  | .int n => intText n
  | .float x => floatToken floatText x
  | .str s => quoted s
  | .arr items => bracketed 0x5B 0x5D (dumpsItems items)
  | .obj members => bracketed 0x7B 0x7D (dumpsMembers members)

def dumpsItems : List Datum → List Text
  | [] => []
  | d :: rest => dumps d :: dumpsItems rest

def dumpsMembers : List (Text × Datum) → List Text
  | [] => []
  | (k, d) :: rest => (quoted k ++ 0x3A :: 0x20 :: dumps d) :: dumpsMembers rest

end

end Writing

/-! ### Reading -/

def isBlank (c : CodePoint) : Bool :=
  c == 0x20 || c == 0x09 || c == 0x0A || c == 0x0D

def skip (s : Text) : Text :=
  s.dropWhile isBlank

/-- One character of a string, and whether it was written as `\u`. -/
abbrev CharUnit := CodePoint × Bool

def hexValue (c : CodePoint) : Option Nat :=
  (Interpreter.digitValue c).filter (· < 16)

def hexQuad (a b c d : CodePoint) : Option CodePoint :=
  match hexValue a, hexValue b, hexValue c, hexValue d with
  | some w, some x, some y, some z =>
    some (Fin.ofNat 0x110000 (((w * 16 + x) * 16 + y) * 16 + z))
  | _, _, _, _ => none

/-- What a backslash makes of a letter. -/
def unescape (letter : CodePoint) : Option CodePoint :=
  if letter = 0x2F then some 0x2F
  else (shorthands.map Prod.swap).lookup letter

def pushUnit (unit : CharUnit) (read : Option (List CharUnit × Text)) : Option (List CharUnit × Text) :=
  read.map fun out => (unit :: out.1, out.2)

/-- The rest of a string after its opening quote. A control character does not stand in it as it
is. -/
def scanUnits : Text → Option (List CharUnit × Text)
  | [] => none
  | 0x22 :: s => some ([], s)
  | 0x5C :: 0x75 :: a :: b :: c :: d :: s =>
    match hexQuad a b c d with
    | none => none
    | some u => pushUnit (u, true) (scanUnits s)
  | 0x5C :: letter :: s =>
    match unescape letter with
    | none => none
    | some u => pushUnit (u, false) (scanUnits s)
  | c :: s => if c.val < 0x20 ∨ c = 0x5C then none else pushUnit (c, false) (scanUnits s)

/-- Two halves of a pair that were both written as `\u` are one character. -/
def joinUnits : List CharUnit → Text
  | [] => []
  | [u] => [u.1]
  | u :: v :: rest =>
    if (u.2 && v.2) && (isHigh u.1 && isLow v.1) then joinPair u.1 v.1 :: joinUnits rest
    else u.1 :: joinUnits (v :: rest)

def scanString (s : Text) : Option (Text × Text) :=
  (scanUnits s).map fun out => (joinUnits out.1, out.2)

def isDigit (c : CodePoint) : Bool :=
  0x30 ≤ c.val && c.val ≤ 0x39

def digitsNumber (s : Text) : Nat :=
  s.foldl (fun acc c => acc * 10 + (c.val - 0x30)) 0

def scanMinus : Text → Text × Text
  | 0x2D :: s => ([0x2D], s)
  | s => ([], s)

/-- A zero stands alone. -/
def scanWhole : Text → Text × Text
  | 0x30 :: s => ([0x30], s)
  | s => s.span isDigit

/-- A mark with digits after it; without them it is left where it stands. -/
def scanMarked (mark sign s : Text) : Text × Text :=
  match s.span isDigit with
  | ([], _) => ([], mark ++ sign ++ s)
  | (digits, rest) => (mark ++ sign ++ digits, rest)

def scanFraction : Text → Text × Text
  | 0x2E :: s => scanMarked [0x2E] [] s
  | s => ([], s)

def isExponentMark (c : CodePoint) : Bool :=
  c == 0x65 || c == 0x45

def scanExponent : Text → Text × Text
  | [] => ([], [])
  | [c] => ([], [c])
  | c :: sign :: s =>
    if isExponentMark c = true then
      if sign = 0x2B ∨ sign = 0x2D then scanMarked [c] [sign] s else scanMarked [c] [] (sign :: s)
    else ([], c :: sign :: s)

section Reading

variable (parseFloat : Text → Double)

/-- An integer, unless it has a fraction or an exponent. -/
def scanNumber (s : Text) : Option (Datum × Text) :=
  let minus := scanMinus s
  let whole := scanWhole minus.2
  let fraction := scanFraction whole.2
  let exponent := scanExponent fraction.2
  if whole.1 = [] then none
  else if fraction.1 = [] ∧ exponent.1 = [] then
    if Interpreter.maxDigits < whole.1.length then none
    else some (.int (if minus.1 = [] then digitsNumber whole.1 else -digitsNumber whole.1), whole.2)
  else some (.float (parseFloat (minus.1 ++ whole.1 ++ fraction.1 ++ exponent.1)), exponent.2)

def literals : List (Text × Datum) :=
  [(txt "null", .null), (txt "true", .bool true), (txt "false", .bool false),
    (txt "NaN", .float .nan), (txt "Infinity", .float .posInf), (txt "-Infinity", .float .negInf)]

/-- Items up to the closing bracket, at least one of them and at most so many. -/
def scanItems {α : Type} (closing : CodePoint) (item : Text → Option (α × Text)) :
    Nat → Text → Option (List α × Text)
  | 0, _ => none
  | n + 1, s =>
    match item s with
    | none => none
    | some (a, after) =>
      match skip after with
      | [] => none
      | c :: rest =>
        if c = closing then some ([a], rest)
        else if c = 0x2C then
          (scanItems closing item n (skip rest)).map fun out => (a :: out.1, out.2)
        else none

def scanBracketed {α : Type} (closing : CodePoint) (item : Text → Option (α × Text)) (s : Text) :
    Option (List α × Text) :=
  match skip s with
  | [] => none
  | c :: rest => if c = closing then some ([], rest) else scanItems closing item s.length (c :: rest)

def scanMember {α : Type} (value : Text → Option (α × Text)) : Text → Option ((Text × α) × Text)
  | 0x22 :: s =>
    match scanString s with
    | none => none
    | some (key, after) =>
      match skip after with
      | 0x3A :: rest => (value (skip rest)).map fun out => ((key, out.1), out.2)
      | _ => none
  | _ => none

/-- A value, nested less deep than the first argument. -/
def scanValue : Nat → Text → Option (Datum × Text)
  | 0, _ => none
  | _ + 1, [] => none
  | depth + 1, c :: s =>
    if c = 0x22 then (scanString s).map fun out => (.str out.1, out.2)
    else if c = 0x5B then
      (scanBracketed 0x5D (scanValue depth) s).map fun out => (.arr out.1, out.2)
    else if c = 0x7B then
      (scanBracketed 0x7D (scanMember (scanValue depth)) s).map fun out => (.obj out.1, out.2)
    else
      match literals.find? fun literal => literal.1.isPrefixOf (c :: s) with
      | some literal => some (literal.2, (c :: s).drop literal.1.length)
      | none => scanNumber parseFloat (c :: s)

/-- No nesting is deeper than the text is long. -/
def loads (s : Text) : Option Datum :=
  match scanValue parseFloat (s.length + 1) (skip s) with
  | none => none
  | some (d, rest) => if skip rest = [] then some d else none

end Reading

/-! ### What is written is ASCII -/

theorem asciiText_unicodeEscape (n : Nat) : asciiText (unicodeEscape n) = true :=
  asciiText_hexText 4 n

/-- What the table of the short escapes says of each of its entries. -/
theorem shorthands_spec {c letter : CodePoint} (h : shorthands.lookup c = some letter) :
    c.val < 0x80 ∧ isAscii letter = true ∧ letter ≠ 0x75 ∧ unescape letter = some c := by
  have hTable : shorthands.all (fun entry => decide (entry.1.val < 0x80) && isAscii entry.2 &&
      decide (entry.2 ≠ 0x75) && decide (unescape entry.2 = some entry.1)) = true := by decide
  obtain ⟨before, after, hSplit, _⟩ := List.lookup_eq_some_iff.mp h
  have hMem : (c, letter) ∈ shorthands := hSplit ▸ List.mem_append_right _ List.mem_cons_self
  have hEntry := List.all_eq_true.mp hTable _ hMem
  simp only [Bool.and_eq_true, decide_eq_true_eq] at hEntry
  exact ⟨hEntry.1.1.1, hEntry.1.1.2, hEntry.1.2, hEntry.2⟩

theorem asciiText_escapeChar (c : CodePoint) : asciiText (escapeChar c) = true := by
  unfold escapeChar
  split
  · rename_i letter hShort
    have hLetter : isAscii letter = true := (shorthands_spec hShort).2.1
    have hSlash : isAscii 0x5C = true := rfl
    simp [asciiText, hLetter, hSlash]
  split
  · rename_i hPrintable
    simp only [asciiText, List.all_cons, List.all_nil, Bool.and_true, isAscii, decide_eq_true_eq]
    omega
  split
  · exact asciiText_unicodeEscape _
  · rw [asciiText_append, asciiText_unicodeEscape, asciiText_unicodeEscape]
    rfl

theorem asciiText_quoted (s : Text) : asciiText (quoted s) = true := by
  have hBody : asciiText (s.flatMap escapeChar) = true := by
    simp only [asciiText, List.all_flatMap, List.all_eq_true]
    exact fun c _ => List.all_eq_true.mp (asciiText_escapeChar c)
  have hQuote : ∀ t, asciiText (0x22 :: t) = asciiText t := fun _ => rfl
  rw [quoted, hQuote, asciiText_append, hBody]
  rfl

theorem asciiText_intText (n : ℤ) : asciiText (intText n) = true := by
  rw [intText, asciiText_append, asciiText_decimalText, Bool.and_true]
  split <;> rfl

theorem asciiText_bracketed {opening closing : CodePoint} (hOpening : isAscii opening = true)
    (hClosing : isAscii closing = true) {items : List Text}
    (h : ∀ item ∈ items, asciiText item = true) :
    asciiText (bracketed opening closing items) = true := by
  have hItems : asciiText (List.intercalate [0x2C, 0x20] items) = true := by
    induction items with
    | nil => rfl
    | cons first rest ih =>
      have hRest := ih fun item hItem => h item (List.mem_cons_of_mem _ hItem)
      have hFirst := h first List.mem_cons_self
      cases rest with
      | nil => rwa [List.intercalate_singleton]
      | cons second rest =>
        rw [List.intercalate_cons_cons, asciiText_append, asciiText_append, hFirst, hRest]
        rfl
  rw [bracketed, ← List.singleton_append, asciiText_append, asciiText_append, hItems]
  simp [asciiText, hOpening, hClosing]

section Ascii

variable {floatText : Double → Text}

theorem asciiText_floatToken (hFloat : ∀ x, asciiText (floatText x) = true) (x : Double) :
    asciiText (floatToken floatText x) = true := by
  cases x with
  | finite q => exact hFloat _
  | posInf => exact (by decide : asciiText (txt "Infinity") = true)
  | negInf => exact (by decide : asciiText (txt "-Infinity") = true)
  | nan => exact (by decide : asciiText (txt "NaN") = true)

mutual

theorem asciiText_dumps (hFloat : ∀ x, asciiText (floatText x) = true) :
    ∀ d : Datum, asciiText (dumps floatText d) = true
  | .null => (by decide : asciiText (txt "null") = true)
  | .bool true => (by decide : asciiText (txt "true") = true)
  | .bool false => (by decide : asciiText (txt "false") = true)
  | .int n => asciiText_intText n
  | .float x => asciiText_floatToken hFloat x
  | .str s => asciiText_quoted s
  | .arr items => asciiText_bracketed rfl rfl (asciiText_dumpsItems hFloat items)
  | .obj members => asciiText_bracketed rfl rfl (asciiText_dumpsMembers hFloat members)

theorem asciiText_dumpsItems (hFloat : ∀ x, asciiText (floatText x) = true) :
    ∀ (items : List Datum), ∀ item ∈ dumpsItems floatText items, asciiText item = true
  | [] => nofun
  | d :: rest =>
    List.forall_mem_cons.mpr ⟨asciiText_dumps hFloat d, asciiText_dumpsItems hFloat rest⟩

theorem asciiText_dumpsMembers (hFloat : ∀ x, asciiText (floatText x) = true) :
    ∀ (members : List (Text × Datum)), ∀ item ∈ dumpsMembers floatText members,
      asciiText item = true
  | [] => nofun
  | (k, d) :: rest => by
    have hColon : ∀ t, asciiText (0x3A :: 0x20 :: t) = asciiText t := fun _ => rfl
    refine List.forall_mem_cons.mpr ⟨?_, asciiText_dumpsMembers hFloat rest⟩
    rw [asciiText_append, asciiText_quoted, hColon, asciiText_dumps hFloat d]
    rfl

end

end Ascii

end Foundation.JsonText
