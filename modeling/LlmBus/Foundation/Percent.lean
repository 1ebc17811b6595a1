import LlmBus.Foundation.FormData
import Mathlib.Data.List.SplitBy

/-! # Percent escapes

Bytes written as ASCII: those of a given set stand for themselves and every other one becomes
an escape of two upper-case digits. Reading the escapes back gives the bytes.
-/

namespace Foundation.Percent

open Utf8 FormData

def upperHexDigit (n : Nat) : CodePoint :=
  Fin.ofNat 0x110000 (if n < 10 then 0x30 + n else 0x37 + n)

def escape (b : Byte) : Text :=
  [0x25, upperHexDigit (b.val / 16), upperHexDigit (b.val % 16)]

/-- One byte, where `kept` says which ones stand for themselves. -/
def quoteByte (kept : Byte → Bool) (b : Byte) : Text :=
  if kept b then [point b.val] else escape b

def quoteBytes (kept : Byte → Bool) (bs : List Byte) : Text :=
  bs.flatMap (quoteByte kept)

/-- A kept byte is ASCII and does not open an escape. -/
def Plain (kept : Byte → Bool) : Prop :=
  ∀ b, kept b = true → b.val < 0x80 ∧ b.val ≠ 0x25

/-- An ASCII letter or digit. -/
def alphanumeric (b : Byte) : Bool :=
  (0x30 ≤ b.val && b.val ≤ 0x39) || (0x41 ≤ b.val && b.val ≤ 0x5A) || (0x61 ≤ b.val && b.val ≤ 0x7A)

/-- What `quote(s, safe="")` leaves: letters, digits and `_.-~`. -/
def unreserved (b : Byte) : Bool :=
  alphanumeric b || b == 0x5F || b == 0x2E || b == 0x2D || b == 0x7E

/-- The escapes of ASCII text undone, and the bytes read strictly as UTF-8. -/
def percentDecode (s : Text) : Option Text :=
  if asciiText s then decode (unquoteToBytes s) else none

variable {kept : Byte → Bool} {s : Text}

theorem upperHexDigit_val {n : Nat} (h : n < 16) :
    (upperHexDigit n).val = if n < 10 then 0x30 + n else 0x37 + n :=
  Nat.mod_eq_of_lt (by split <;> omega)

theorem hexValue_upperHexDigit {n : Nat} (h : n < 16) : hexValue (upperHexDigit n) = some n := by
  unfold hexValue
  rw [upperHexDigit_val h]
  cases lt_or_ge n 10 with
  | inl hDigit =>
    rw [if_pos hDigit, if_pos (by omega)]
    simp
  | inr hLetter =>
    rw [if_neg (not_lt.mpr hLetter), if_neg (by omega), if_pos (by omega)]
    simp

theorem isAscii_upperHexDigit {n : Nat} (h : n < 16) : isAscii (upperHexDigit n) = true := by
  simp only [isAscii, upperHexDigit_val h, decide_eq_true_eq]
  split <;> omega

theorem plain_unreserved : Plain unreserved := by
  intro b h
  simp only [unreserved, alphanumeric, Bool.or_eq_true, Bool.and_eq_true, decide_eq_true_eq,
    beq_iff_eq] at h
  rcases h with (((h | rfl) | rfl) | rfl) | rfl
  · omega
  · decide
  · decide
  · decide
  · decide

/-! ### What the escapes are made of -/

theorem asciiText_quoteByte (hKept : Plain kept) (b : Byte) : asciiText (quoteByte kept b) = true := by
  have hb := b.isLt
  unfold quoteByte
  split
  · rename_i h
    have hVal : (point b.val).val = b.val := point_val (by omega)
    simpa [asciiText, isAscii, hVal] using (hKept b h).1
  · have hHigh := isAscii_upperHexDigit (show b.val / 16 < 16 by omega)
    have hLow := isAscii_upperHexDigit (show b.val % 16 < 16 by omega)
    have hPercent : isAscii 0x25 = true := by decide
    simp [asciiText, escape, hHigh, hLow, hPercent]

theorem asciiText_quoteBytes (hKept : Plain kept) (bs : List Byte) :
    asciiText (quoteBytes kept bs) = true := by
  induction bs with
  | nil => rfl
  | cons b bs ih =>
    rw [quoteBytes, List.flatMap_cons, asciiText_append, asciiText_quoteByte hKept]
    exact ih

theorem not_mem_quoteBytes {c : CodePoint} (hAscii : c.val < 0x80) (hKept : kept (byte c.val) = false)
    (hPercent : c ≠ 0x25) (hDigit : ∀ n < 16, c ≠ upperHexDigit n) (bs : List Byte) :
    c ∉ quoteBytes kept bs := by
  intro hMem
  obtain ⟨b, _, hByte⟩ := List.mem_flatMap.mp hMem
  have hb := b.isLt
  unfold quoteByte at hByte
  split at hByte
  · rename_i hKeep
    obtain rfl := List.mem_singleton.mp hByte
    have hVal : (point b.val).val = b.val := point_val (by omega)
    rw [hVal, byte_eq rfl, hKeep] at hKept
    cases hKept
  · simp only [escape, List.mem_cons, List.not_mem_nil, or_false] at hByte
    rcases hByte with rfl | rfl | rfl
    · exact hPercent rfl
    · exact hDigit _ (by omega) rfl
    · exact hDigit _ (by omega) rfl

/-! ### Reading the escapes back -/

theorem escaped_eq_none {c : CodePoint} (h : c ≠ 0x25) : escaped c s = none := by
  unfold escaped
  split
  · rw [if_neg h]
  · rfl

theorem unquoteFrom_quoteByte (hKept : Plain kept) (b : Byte) (s : Text) :
    unquoteFrom 0 (quoteByte kept b ++ s) = b :: unquoteFrom 0 s := by
  have hb := b.isLt
  unfold quoteByte
  split
  · rename_i h
    have hVal : (point b.val).val = b.val := point_val (by omega)
    have hNe : point b.val ≠ 0x25 := by
      intro hEq
      exact (hKept b h).2 (hVal ▸ congrArg Fin.val hEq)
    rw [List.singleton_append, unquoteFrom, escaped_eq_none hNe, hVal, byte_eq rfl]
  · have hEscaped : escaped 0x25 (upperHexDigit (b.val / 16) :: upperHexDigit (b.val % 16) :: s) =
        some b := by
      rw [escaped, if_pos rfl, hexValue_upperHexDigit (by omega), hexValue_upperHexDigit (by omega)]
      exact congrArg some (byte_eq (by omega))
    rw [escape, List.cons_append, List.cons_append, List.cons_append, List.nil_append, unquoteFrom,
      hEscaped]
    rfl

theorem unquoteToBytes_quoteBytes (hKept : Plain kept) (bs : List Byte) :
    unquoteToBytes (quoteBytes kept bs) = bs := by
  induction bs with
  | nil => rfl
  | cons b bs ih =>
    rw [unquoteToBytes, quoteBytes, List.flatMap_cons, unquoteFrom_quoteByte hKept]
    exact congrArg (b :: ·) ih

theorem percentDecode_quoteBytes (hKept : Plain kept) (h : surrogateFree s = true) :
    percentDecode (quoteBytes kept (encode s)) = some s := by
  rw [percentDecode, if_pos (asciiText_quoteBytes hKept _), unquoteToBytes_quoteBytes hKept,
    decode_encode h]

/-- Without an escape the bytes of ASCII text are its characters. -/
theorem unquoteToBytes_of_not_mem (hAscii : asciiText s = true) (hPercent : (0x25 : CodePoint) ∉ s) :
    unquoteToBytes s = encode s := by
  induction s with
  | nil => rfl
  | cons c s ih =>
    simp only [asciiText, List.all_cons, Bool.and_eq_true] at hAscii
    rw [List.mem_cons, not_or] at hPercent
    rw [unquoteToBytes, unquoteFrom, escaped_eq_none (Ne.symm hPercent.1), encode_cons,
      encodeChar_of_isAscii hAscii.1]
    exact congrArg (byte c.val :: ·) (ih hAscii.2 hPercent.2)

/-- A field that was quoted comes back, whether or not anything had to be escaped. -/
theorem unquote_quoteBytes (hKept : Plain kept) (h : surrogateFree s = true) :
    unquote (quoteBytes kept (encode s)) = s := by
  have hAscii := asciiText_quoteBytes hKept (encode s)
  have hBytes := unquoteToBytes_quoteBytes hKept (encode s)
  generalize quoteBytes kept (encode s) = t at hAscii hBytes ⊢
  rw [unquote]
  split
  · rename_i hPercent
    have hChain : t.IsChain fun a b => (isAscii a == isAscii b) = true := by
      refine List.Pairwise.isChain (List.pairwise_of_forall_mem_list fun a ha b hb => ?_)
      have hAll := List.all_eq_true.mp hAscii
      rw [hAll a ha, hAll b hb]
      rfl
    rw [List.splitBy_of_isChain (List.ne_nil_of_mem hPercent) hChain]
    simp only [List.flatMap_cons, List.flatMap_nil, List.append_nil, hAscii, if_true, hBytes]
    exact decodeReplace_encode h
  · rename_i hPercent
    have hSame : encode t = encode s := (unquoteToBytes_of_not_mem hAscii hPercent).symm.trans hBytes
    have hDecoded := decode_encode (surrogateFree_of_asciiText hAscii)
    rw [hSame, decode_encode h] at hDecoded
    exact (Option.some.inj hDecoded).symm

end Foundation.Percent
