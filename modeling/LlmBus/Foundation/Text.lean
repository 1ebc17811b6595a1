import Mathlib.Algebra.GroupWithZero.Nat
import Mathlib.Data.List.Basic
import Mathlib.Data.List.DropRight

/-! # Text as an interpreter holds it

A string is a sequence of code points in which a surrogate may stand alone, so
neither `String` nor `Char` can carry it. The operations are the ones a program
applies to untrusted text before it decides anything about it.
-/

namespace Foundation

abbrev CodePoint := Fin 0x110000

instance neZero_codePoint : NeZero 0x110000 := ⟨by decide⟩

instance lawfulBEq_codePoint : LawfulBEq CodePoint := inferInstance

abbrev Text := List CodePoint

def txt (s : String) : Text :=
  s.toList.map fun c => Fin.ofNat 0x110000 c.toNat

def isAscii (c : CodePoint) : Bool :=
  c.val < 0x80

def isSurrogate (c : CodePoint) : Bool :=
  0xD800 ≤ c.val && c.val ≤ 0xDFFF

def asciiText (s : Text) : Bool :=
  s.all isAscii

/-- Text with no lone surrogate, which is what UTF-8 can carry. -/
def surrogateFree (s : Text) : Bool :=
  s.all fun c => !isSurrogate c

theorem isSurrogate_of_isAscii {c : CodePoint} (h : isAscii c = true) : isSurrogate c = false := by
  simp only [isAscii, decide_eq_true_eq] at h
  simp only [isSurrogate, Bool.and_eq_false_iff, decide_eq_false_iff_not]
  omega

theorem surrogateFree_of_asciiText {s : Text} (h : asciiText s = true) : surrogateFree s = true := by
  simp only [asciiText, List.all_eq_true] at h
  simp only [surrogateFree, List.all_eq_true]
  intro c hc
  rw [isSurrogate_of_isAscii (h c hc)]
  rfl

@[simp] theorem surrogateFree_append (s t : Text) :
    surrogateFree (s ++ t) = (surrogateFree s && surrogateFree t) := by
  simp [surrogateFree]

@[simp] theorem surrogateFree_cons (c : CodePoint) (s : Text) :
    surrogateFree (c :: s) = (!isSurrogate c && surrogateFree s) := by
  simp [surrogateFree]

@[simp] theorem surrogateFree_nil : surrogateFree [] = true := rfl

@[simp] theorem asciiText_append (s t : Text) :
    asciiText (s ++ t) = (asciiText s && asciiText t) := by
  simp [asciiText]

def asciiLowerChar (c : CodePoint) : CodePoint :=
  if 0x41 ≤ c.val ∧ c.val ≤ 0x5A then Fin.ofNat 0x110000 (c.val + 0x20) else c

def asciiLower (s : Text) : Text :=
  s.map asciiLowerChar

/-- `str.isspace` of one code point. -/
def isSpace (c : CodePoint) : Bool :=
  (0x09 ≤ c.val && c.val ≤ 0x0D) || (0x1C ≤ c.val && c.val ≤ 0x20) || c.val == 0x85 ||
    c.val == 0xA0 || c.val == 0x1680 || (0x2000 ≤ c.val && c.val ≤ 0x200A) || c.val == 0x2028 ||
    c.val == 0x2029 || c.val == 0x202F || c.val == 0x205F || c.val == 0x3000

/-- `str.strip` with the set of characters to strip as a predicate. -/
def stripBy (p : CodePoint → Bool) (s : Text) : Text :=
  (s.dropWhile p).rdropWhile p

def strip (s : Text) : Text :=
  stripBy isSpace s

/-- Nothing is left to strip. -/
theorem stripBy_stripBy (p : CodePoint → Bool) (s : Text) : stripBy p (stripBy p s) = stripBy p s := by
  have hPrefix : stripBy p s <+: s.dropWhile p := List.rdropWhile_prefix ..
  have hFront : (stripBy p s).dropWhile p = stripBy p s := by
    rw [List.dropWhile_eq_self_iff]
    intro hLength hStart
    have hSame := hPrefix.getElem hLength
    have hHead := List.dropWhile_eq_self_iff.mp (List.dropWhile_idempotent (p := p) s)
      (hLength.trans_le hPrefix.length_le)
    rw [← hSame] at hHead
    exact hHead hStart
  rw [stripBy, hFront]
  exact List.rdropWhile_idempotent ..

/-- `str.partition` at one character: what stands before it, whether it occurs,
and what stands after its first occurrence. -/
def partition (sep : CodePoint) (s : Text) : Text × Bool × Text :=
  match s.dropWhile (· != sep) with
  | [] => (s, false, [])
  | _ :: after => (s.takeWhile (· != sep), true, after)

theorem partition_append {sep : CodePoint} {before : Text} (hSep : sep ∉ before) (after : Text) :
    partition sep (before ++ sep :: after) = (before, true, after) := by
  have hBefore : ∀ c ∈ before, (c != sep) = true := by
    intro c hc
    simp only [bne_iff_ne, ne_eq]
    rintro rfl
    exact hSep hc
  have hDrop : (before ++ sep :: after).dropWhile (· != sep) = sep :: after := by
    rw [List.dropWhile_append_of_pos hBefore]
    simp
  have hTake : (before ++ sep :: after).takeWhile (· != sep) = before := by
    rw [List.takeWhile_append_of_pos hBefore]
    simp
  simp only [partition, hDrop, hTake]

theorem partition_absent {sep : CodePoint} {s : Text} (hSep : sep ∉ s) :
    partition sep s = (s, false, []) := by
  have hDrop : s.dropWhile (· != sep) = [] := by
    rw [List.dropWhile_eq_nil_iff]
    intro c hc
    simp only [bne_iff_ne, ne_eq]
    rintro rfl
    exact hSep hc
  simp only [partition, hDrop]

theorem exists_split {sep : CodePoint} {s : Text} (h : sep ∈ s) :
    ∃ before after, s = before ++ sep :: after ∧ sep ∉ before := by
  obtain ⟨before, after, hs, hBefore⟩ := List.eq_append_cons_of_mem h
  exact ⟨before, after, hs, hBefore⟩

/-- Where one separator splits a text, no other way of splitting there exists. -/
theorem split_unique {sep : CodePoint} {b b' a a' : Text} (hb : sep ∉ b) (hb' : sep ∉ b')
    (h : b ++ sep :: a = b' ++ sep :: a') : b = b' ∧ a = a' := by
  have hFirst := partition_append hb a
  rw [h, partition_append hb'] at hFirst
  cases hFirst
  exact ⟨rfl, rfl⟩

/-- `str.replace(pattern, "")`: drop every occurrence from left to right. The
counter is the number of characters of the current occurrence still to skip. -/
def removeFrom (pattern : Text) : Nat → Text → Text
  | _, [] => []
  | skip + 1, _ :: s => removeFrom pattern skip s
  | 0, c :: s =>
    if pattern.isPrefixOf (c :: s) then removeFrom pattern (pattern.length - 1) s
    else c :: removeFrom pattern 0 s

def remove (pattern s : Text) : Text :=
  removeFrom pattern 0 s

def hexDigit (n : Nat) : CodePoint :=
  Fin.ofNat 0x110000 (if n < 10 then 0x30 + n else 0x57 + n)

/-- `n` in lower-case hexadecimal, `width` digits, the most significant first. -/
def hexText : Nat → Nat → Text
  | 0, _ => []
  | width + 1, n => hexText width (n / 16) ++ [hexDigit (n % 16)]

def decimalDigits : Nat → Nat → Text
  | 0, _ => []
  | width + 1, n => (if n < 10 then [] else decimalDigits width (n / 10)) ++ [hexDigit (n % 10)]

/-- `str(n)`; no number has more digits than one more than itself. -/
def decimalText (n : Nat) : Text :=
  decimalDigits (n + 1) n

theorem isAscii_hexDigit {n : Nat} (h : n < 16) : isAscii (hexDigit n) = true := by
  have hVal : (hexDigit n).val = if n < 10 then 0x30 + n else 0x57 + n :=
    Nat.mod_eq_of_lt (by split <;> omega)
  simp only [isAscii, hVal, decide_eq_true_eq]
  split <;> omega

theorem asciiText_hexText (width n : Nat) : asciiText (hexText width n) = true := by
  induction width generalizing n with
  | zero => rfl
  | succ width ih =>
    rw [hexText, asciiText_append, ih]
    simp [asciiText, isAscii_hexDigit (Nat.mod_lt n (by decide : 0 < 16))]

theorem asciiText_decimalDigits (width n : Nat) : asciiText (decimalDigits width n) = true := by
  induction width generalizing n with
  | zero => rfl
  | succ width ih =>
    have hDigit : isAscii (hexDigit (n % 10)) = true := isAscii_hexDigit (by omega)
    rw [decimalDigits, asciiText_append]
    split
    · simp [asciiText, hDigit]
    · rw [ih]
      simp [asciiText, hDigit]

theorem asciiText_decimalText (n : Nat) : asciiText (decimalText n) = true :=
  asciiText_decimalDigits _ n

end Foundation
