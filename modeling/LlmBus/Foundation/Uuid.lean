import Mathlib.Tactic.Ring
import LlmBus.Foundation.IntLiteral

/-! # UUIDs and their spellings

A UUID is its 128 bits. `Uuid.text` is the one canonical spelling; `Uuid.parse` is the
lenient reader of the standard library, string surgery followed by `int(…, 16)`.
-/

namespace Foundation

structure Uuid where
  value : Fin (2 ^ 128)
  deriving DecidableEq

instance neZero_uuid : NeZero (2 ^ 128) := ⟨by decide⟩

namespace Uuid

def hyphen : CodePoint := 0x2D

/-- `str(uuid.UUID(…))`: the digits in groups of 8, 4, 4, 4 and 12. -/
def text (u : Uuid) : Text :=
  let hex := hexText 32 u.value
  hex.take 8 ++ hyphen :: (hex.drop 8).take 4 ++ hyphen :: (hex.drop 12).take 4 ++
    hyphen :: (hex.drop 16).take 4 ++ hyphen :: hex.drop 20

def grouped (hex : Text) : Text :=
  hex.take 8 ++ hyphen :: (hex.drop 8).take 4 ++ hyphen :: (hex.drop 12).take 4 ++
    hyphen :: (hex.drop 16).take 4 ++ hyphen :: hex.drop 20

/-- `uuid.UUID(s)`; `none` stands for its `ValueError`. -/
def parse (py : Interpreter) (s : Text) : Option Uuid :=
  let bare := remove (txt "uuid:") (remove (txt "urn:") s)
  let hex := remove [hyphen] (stripBy (fun c => c == 0x7B || c == 0x7D) bare)
  if hex.length = 32 then
    match py.parseInt 16 hex with
    | some n => if h : 0 ≤ n ∧ n < 2 ^ 128 then some ⟨⟨n.toNat, by omega⟩⟩ else none
    | none => none
  else none

def isHex (c : CodePoint) : Bool :=
  (0x30 ≤ c.val && c.val ≤ 0x39) || (0x61 ≤ c.val && c.val ≤ 0x66)

theorem hexDigit_val {n : Nat} (h : n < 16) :
    (hexDigit n).val = if n < 10 then 0x30 + n else 0x57 + n :=
  Nat.mod_eq_of_lt (by split <;> omega)

theorem isHex_hexDigit {n : Nat} (h : n < 16) : isHex (hexDigit n) = true := by
  simp only [isHex, hexDigit_val h, Bool.or_eq_true, Bool.and_eq_true, decide_eq_true_eq]
  split <;> omega

theorem isHex_of_mem_hexText {width n : Nat} {c : CodePoint} (h : c ∈ hexText width n) :
    isHex c = true := by
  induction width generalizing n with
  | zero => cases h
  | succ width ih =>
    cases List.mem_append.mp h with
    | inl h => exact ih h
    | inr h =>
      rw [List.mem_singleton.mp h]
      exact isHex_hexDigit (Nat.mod_lt n (by decide))

theorem hexText_length (width n : Nat) : (hexText width n).length = width := by
  induction width generalizing n with
  | zero => rfl
  | succ width ih => simp [hexText, ih]

theorem isHex_or_hyphen_of_mem_text {u : Uuid} {c : CodePoint} (h : c ∈ u.text) :
    isHex c = true ∨ c = hyphen := by
  have hHex : ∀ part : Text, (∀ d ∈ part, d ∈ hexText 32 u.value) → c ∈ part → isHex c = true :=
    fun part hPart hc => isHex_of_mem_hexText (hPart c hc)
  simp only [text, List.cons_append, List.mem_append, List.mem_cons, List.append_assoc] at h
  rcases h with h | h | h | h | h | h | h | h | h
  · exact .inl (hHex _ (fun _ => List.mem_of_mem_take) h)
  · exact .inr h
  · exact .inl (hHex _ (fun _ hd => List.mem_of_mem_drop (List.mem_of_mem_take hd)) h)
  · exact .inr h
  · exact .inl (hHex _ (fun _ hd => List.mem_of_mem_drop (List.mem_of_mem_take hd)) h)
  · exact .inr h
  · exact .inl (hHex _ (fun _ hd => List.mem_of_mem_drop (List.mem_of_mem_take hd)) h)
  · exact .inr h
  · exact .inl (hHex _ (fun _ => List.mem_of_mem_drop) h)

theorem asciiText_text (u : Uuid) : asciiText u.text = true := by
  simp only [asciiText, List.all_eq_true]
  intro c hc
  simp only [isAscii, decide_eq_true_eq]
  rcases isHex_or_hyphen_of_mem_text hc with h | rfl
  · simp only [isHex, Bool.or_eq_true, Bool.and_eq_true, decide_eq_true_eq] at h
    omega
  · decide

/-! ### Reading the canonical spelling back -/

theorem remove_eq_self {pattern s : Text} {c : CodePoint} (hc : c ∈ pattern) (h : c ∉ s) :
    remove pattern s = s := by
  unfold remove
  induction s with
  | nil => rfl
  | cons d s ih =>
    have hPrefix : pattern.isPrefixOf (d :: s) = false := by
      rw [Bool.eq_false_iff]
      intro hPrefix
      exact h ((List.isPrefixOf_iff_prefix.mp hPrefix).subset hc)
    rw [removeFrom, hPrefix, ih fun hMem => h (List.mem_cons_of_mem _ hMem)]
    rfl

theorem remove_singleton (c : CodePoint) (s : Text) : remove [c] s = s.filter (· != c) := by
  unfold remove
  induction s with
  | nil => rfl
  | cons d s ih =>
    simp only [removeFrom, List.isPrefixOf, Bool.and_true, beq_iff_eq, List.length_cons,
      List.length_nil, Nat.zero_add, Nat.sub_self, ih]
    by_cases h : c = d
    · simp [h]
    · simp [h, Ne.symm h]

theorem stripBy_eq_self {p : CodePoint → Bool} {s : Text} (h : ∀ c ∈ s, p c = false) :
    stripBy p s = s := by
  have hDrop : s.dropWhile p = s := by
    cases s with
    | nil => rfl
    | cons c s => rw [List.dropWhile_cons_of_neg (by simp [h c List.mem_cons_self])]
  rw [stripBy, hDrop, List.rdropWhile_eq_self_iff]
  intro hs
  simp [h _ (List.getLast_mem hs)]

theorem isHex_ne_hyphen {c : CodePoint} (h : isHex c = true) : (c != hyphen) = true := by
  simp only [bne_iff_ne, ne_eq]
  rintro rfl
  cases h

theorem text_eq_grouped (u : Uuid) : u.text = grouped (hexText 32 u.value) := rfl

theorem filter_grouped {hex : Text} (h : ∀ c ∈ hex, (c != hyphen) = true) :
    (grouped hex).filter (· != hyphen) = hex := by
  have hKeep : ∀ part : Text, (∀ d ∈ part, d ∈ hex) → part.filter (· != hyphen) = part :=
    fun part hPart => List.filter_eq_self.mpr fun d hd => h d (hPart d hd)
  have hSkip : ∀ s : Text, (hyphen :: s).filter (· != hyphen) = s.filter (· != hyphen) :=
    fun s => List.filter_cons_of_neg (by simp)
  simp only [grouped, List.filter_append, hSkip]
  rw [hKeep _ fun _ => List.mem_of_mem_take,
    hKeep _ fun _ hd => List.mem_of_mem_drop (List.mem_of_mem_take hd),
    hKeep _ fun _ hd => List.mem_of_mem_drop (List.mem_of_mem_take hd),
    hKeep _ fun _ hd => List.mem_of_mem_drop (List.mem_of_mem_take hd),
    hKeep _ fun _ => List.mem_of_mem_drop]
  have hDrop : ∀ i j, hex.drop (i + j) = (hex.drop i).drop j := fun i j =>
    (List.drop_drop (i := j) (j := i)).symm
  simp only [List.append_assoc]
  rw [hDrop 16 4, List.take_append_drop, hDrop 12 4, List.take_append_drop, hDrop 8 4,
    List.take_append_drop, List.take_append_drop]

theorem filter_text (u : Uuid) : u.text.filter (· != hyphen) = hexText 32 u.value := by
  rw [text_eq_grouped]
  exact filter_grouped fun c hc => isHex_ne_hyphen (isHex_of_mem_hexText hc)

theorem digitValue_hexDigit {n : Nat} (h : n < 16) :
    Interpreter.digitValue (hexDigit n) = some n := by
  simp only [Interpreter.digitValue, hexDigit_val h]
  by_cases hn : n < 10
  · rw [if_pos hn, if_pos (by omega)]
    simp
  · rw [if_neg hn, if_neg (by omega), if_pos (by omega)]
    simp

theorem digitRun_hexText (width n : Nat) :
    ∃ ds, Interpreter.DigitRun 16 true (hexText width n) ds ∧
      Interpreter.digitsValue 16 0 ds = n % 16 ^ width := by
  induction width generalizing n with
  | zero => exact ⟨[], .done, (Nat.mod_one n).symm⟩
  | succ width ih =>
    obtain ⟨ds, hRun, hValue⟩ := ih (n / 16)
    have hLt : n % 16 < 16 := Nat.mod_lt n (by decide)
    have hMod : n % 16 ^ (width + 1) = n / 16 % 16 ^ width * 16 + n % 16 := by
      rw [pow_succ', Nat.mod_mul]
      ring
    refine ⟨ds ++ [n % 16], hRun.append (.digit (digitValue_hexDigit hLt) hLt .done), ?_⟩
    rw [Interpreter.digitsValue_append_singleton, hValue, hMod]

theorem parseInt_hexText (py : Interpreter) {n : Nat} (h : n < 2 ^ 128) :
    py.parseInt 16 (hexText 32 n) = some (n : ℤ) := by
  obtain ⟨ds, hRun, hValue⟩ := digitRun_hexText 32 n
  have hNonempty : hexText 32 n ≠ [] := by
    intro hNil
    have hLength := hexText_length 32 n
    rw [hNil] at hLength
    cases hLength
  have hUnderscore : (0x5F : CodePoint) ∉ hexText 32 n := by
    intro hMem
    have hHex := isHex_of_mem_hexText hMem
    cases hHex
  have hRead := Interpreter.parseInt_of_digitRun py (asciiText_hexText 32 n)
    (hRun.start hNonempty hUnderscore)
  rwa [hValue, Nat.mod_eq_of_lt (h.trans_le (by norm_num))] at hRead

theorem parse_text (py : Interpreter) (u : Uuid) : parse py u.text = some u := by
  have hColon : (0x3A : CodePoint) ∉ u.text := by
    intro h
    cases isHex_or_hyphen_of_mem_text h with
    | inl h => cases h
    | inr h => cases h
  have hBrace : ∀ c ∈ u.text, (c == 0x7B || c == 0x7D) = false := by
    intro c hc
    rcases isHex_or_hyphen_of_mem_text hc with h | rfl
    · simp only [isHex, Bool.or_eq_true, Bool.and_eq_true, decide_eq_true_eq] at h
      simp only [Bool.or_eq_false_iff, beq_eq_false_iff_ne, ne_eq]
      constructor
      · rintro rfl
        exact absurd h (by decide)
      · rintro rfl
        exact absurd h (by decide)
    · decide
  have hUrn : remove (txt "urn:") u.text = u.text := remove_eq_self (by decide) hColon
  have hUuid : remove (txt "uuid:") u.text = u.text := remove_eq_self (by decide) hColon
  simp only [parse, hUrn, hUuid, stripBy_eq_self hBrace, remove_singleton, filter_text,
    hexText_length, if_true, parseInt_hexText py u.value.isLt]
  have hRange : (0 : ℤ) ≤ (u.value.val : ℤ) ∧ (u.value.val : ℤ) < 2 ^ 128 := by
    constructor
    · exact Int.natCast_nonneg _
    · exact_mod_cast u.value.isLt
  rw [dif_pos hRange]
  rfl

end Uuid

end Foundation
