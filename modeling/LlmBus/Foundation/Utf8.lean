import LlmBus.Foundation.Text

/-! # UTF-8

The decoder is a machine over bytes. It marks each ill-formed stretch by one `none`,
the longest prefix of a character that was cut short, so the strict reading (any mark
refuses the text) and the replacing one (each mark becomes U+FFFD) are two views of
the same run.
-/

namespace Foundation

abbrev Byte := Fin 0x100

instance neZero_byte : NeZero 0x100 := ⟨by decide⟩

namespace Utf8

def byte (n : Nat) : Byte :=
  Fin.ofNat 0x100 n

def point (n : Nat) : CodePoint :=
  Fin.ofNat 0x110000 n

def encodeChar (c : CodePoint) : List Byte :=
  if c.val < 0x80 then [byte c.val]
  else if c.val < 0x800 then [byte (0xC0 + c.val / 0x40), byte (0x80 + c.val % 0x40)]
  else if c.val < 0x10000 then
    [byte (0xE0 + c.val / 0x1000), byte (0x80 + c.val / 0x40 % 0x40), byte (0x80 + c.val % 0x40)]
  else
    [byte (0xF0 + c.val / 0x40000), byte (0x80 + c.val / 0x1000 % 0x40),
      byte (0x80 + c.val / 0x40 % 0x40), byte (0x80 + c.val % 0x40)]

def encode (s : Text) : List Byte :=
  s.flatMap encodeChar

/-- Between characters, or inside one: the continuation bytes still owed, the bounds
of the next one, and the bits read so far. -/
inductive State where
  | start
  | tail (owed low high bits : Nat)

/-- What a first byte of several announces. The bounds exclude overlong forms,
surrogates and everything above U+10FFFF. -/
def lead (b : Byte) : Option State :=
  if 0xC2 ≤ b.val ∧ b.val ≤ 0xDF then some (.tail 1 0x80 0xBF (b.val - 0xC0))
  else if b.val = 0xE0 then some (.tail 2 0xA0 0xBF 0)
  else if b.val = 0xED then some (.tail 2 0x80 0x9F 0xD)
  else if 0xE1 ≤ b.val ∧ b.val ≤ 0xEF then some (.tail 2 0x80 0xBF (b.val - 0xE0))
  else if b.val = 0xF0 then some (.tail 3 0x90 0xBF 0)
  else if 0xF1 ≤ b.val ∧ b.val ≤ 0xF3 then some (.tail 3 0x80 0xBF (b.val - 0xF0))
  else if b.val = 0xF4 then some (.tail 3 0x80 0x8F 4)
  else none

def onStart (b : Byte) : List (Option CodePoint) × State :=
  if b.val < 0x80 then ([some (point b.val)], .start)
  else
    match lead b with
    | some s => ([], s)
    | none => ([none], .start)

def step : State → Byte → List (Option CodePoint) × State
  | .start, b => onStart b
  | .tail owed low high bits, b =>
    if low ≤ b.val ∧ b.val ≤ high then
      if owed = 1 then ([some (point (bits * 0x40 + (b.val - 0x80)))], .start)
      else ([], .tail (owed - 1) 0x80 0xBF (bits * 0x40 + (b.val - 0x80)))
    else (none :: (onStart b).1, (onStart b).2)

def units : State → List Byte → List (Option CodePoint)
  | .start, [] => []
  | .tail _ _ _ _, [] => [none]
  | s, b :: bs => (step s b).1 ++ units (step s b).2 bs

def allSome : List (Option CodePoint) → Option Text
  | [] => some []
  | none :: _ => none
  | some c :: rest => (allSome rest).map (c :: ·)

/-- `bytes.decode()`: `none` stands for the `UnicodeDecodeError`. -/
def decode (bs : List Byte) : Option Text :=
  allSome (units .start bs)

/-- `bytes.decode("utf-8", errors="replace")`. -/
def decodeReplace (bs : List Byte) : Text :=
  (units .start bs).map fun u => u.getD 0xFFFD

@[simp] theorem encode_nil : encode [] = [] := rfl

@[simp] theorem encode_cons (c : CodePoint) (s : Text) :
    encode (c :: s) = encodeChar c ++ encode s := by
  simp [encode]

theorem point_val {n : Nat} (h : n < 0x110000) : (point n).val = n :=
  Nat.mod_eq_of_lt h

theorem byte_val {n : Nat} (h : n < 0x100) : (byte n).val = n :=
  Nat.mod_eq_of_lt h

theorem units_tail_last {owed low high bits : Nat} {b : Byte} {bs : List Byte}
    (hb : low ≤ b.val ∧ b.val ≤ high) (hOwed : owed = 1) :
    units (.tail owed low high bits) (b :: bs) =
      some (point (bits * 0x40 + (b.val - 0x80))) :: units .start bs := by
  simp only [units, step, if_pos hb, if_pos hOwed, List.cons_append, List.nil_append]

theorem units_tail_more {owed low high bits : Nat} {b : Byte} {bs : List Byte}
    (hb : low ≤ b.val ∧ b.val ≤ high) (hOwed : owed ≠ 1) :
    units (.tail owed low high bits) (b :: bs) =
      units (.tail (owed - 1) 0x80 0xBF (bits * 0x40 + (b.val - 0x80))) bs := by
  simp only [units, step, if_pos hb, if_neg hOwed, List.nil_append]

theorem units_lead {b : Byte} {s : State} {bs : List Byte} (hb : ¬ b.val < 0x80)
    (hLead : lead b = some s) : units .start (b :: bs) = units s bs := by
  simp only [units, step, onStart, if_neg hb, hLead, List.nil_append]

/-- The first byte of three leaves room for every second byte that is neither overlong
nor part of a surrogate. -/
theorem lead_three {q r : Nat} (hq : q ≤ 0xF) (hr : r < 0x40) (hOverlong : q = 0 → 0x20 ≤ r)
    (hSurrogate : q = 0xD → r < 0x20) :
    ∃ low high, lead (byte (0xE0 + q)) = some (.tail 2 low high q) ∧
      low ≤ 0x80 + r ∧ 0x80 + r ≤ high := by
  rw [lead, byte_val (by omega), if_neg (by omega)]
  by_cases hE0 : q = 0
  · refine ⟨0xA0, 0xBF, ?_, by omega, by omega⟩
    rw [if_pos (by omega), hE0]
  rw [if_neg (by omega)]
  by_cases hED : q = 0xD
  · refine ⟨0x80, 0x9F, ?_, by omega, by omega⟩
    rw [if_pos (by omega), hED]
  refine ⟨0x80, 0xBF, ?_, by omega, by omega⟩
  rw [if_neg (by omega), if_pos (by omega)]
  simp

theorem lead_four {q r : Nat} (hq : q ≤ 4) (hr : r < 0x40) (hOverlong : q = 0 → 0x10 ≤ r)
    (hTop : q = 4 → r < 0x10) :
    ∃ low high, lead (byte (0xF0 + q)) = some (.tail 3 low high q) ∧
      low ≤ 0x80 + r ∧ 0x80 + r ≤ high := by
  rw [lead, byte_val (by omega), if_neg (by omega), if_neg (by omega), if_neg (by omega),
    if_neg (by omega)]
  by_cases hF0 : q = 0
  · refine ⟨0x90, 0xBF, ?_, by omega, by omega⟩
    rw [if_pos (by omega), hF0]
  rw [if_neg (by omega)]
  by_cases hF4 : q = 4
  · refine ⟨0x80, 0x8F, ?_, by omega, by omega⟩
    rw [if_neg (by omega), if_pos (by omega), hF4]
  refine ⟨0x80, 0xBF, ?_, by omega, by omega⟩
  rw [if_pos (by omega)]
  simp

theorem units_encodeChar {c : CodePoint} (hc : isSurrogate c = false) (bs : List Byte) :
    units .start (encodeChar c ++ bs) = some c :: units .start bs := by
  have hMax : c.val < 0x110000 := c.isLt
  have hSurrogate : c.val < 0xD800 ∨ 0xDFFF < c.val := by
    simp only [isSurrogate, Bool.and_eq_false_iff, decide_eq_false_iff_not] at hc
    omega
  have hPoint : ∀ n, n = c.val → some (point n) = some c := by
    rintro n rfl
    exact congrArg some (Fin.ext (point_val hMax))
  unfold encodeChar
  split
  · rename_i h1
    have hByte : (byte c.val).val = c.val := byte_val (by omega)
    simp only [List.cons_append, List.nil_append, units, step, onStart, hByte, if_pos h1,
      hPoint c.val rfl]
  split
  · rename_i h1 h2
    have hB0 : (byte (0xC0 + c.val / 0x40)).val = 0xC0 + c.val / 0x40 := byte_val (by omega)
    have hB1 : (byte (0x80 + c.val % 0x40)).val = 0x80 + c.val % 0x40 := byte_val (by omega)
    have hLead : lead (byte (0xC0 + c.val / 0x40)) = some (.tail 1 0x80 0xBF (c.val / 0x40)) := by
      rw [lead, hB0, if_pos (by omega)]
      simp
    simp only [List.cons_append, List.nil_append]
    rw [units_lead (by omega) hLead, units_tail_last (by omega) rfl, hB1, hPoint _ (by omega)]
  split
  · rename_i h1 h2 h3
    have hB0 : (byte (0xE0 + c.val / 0x1000)).val = 0xE0 + c.val / 0x1000 := byte_val (by omega)
    have hB1 : (byte (0x80 + c.val / 0x40 % 0x40)).val = 0x80 + c.val / 0x40 % 0x40 :=
      byte_val (by omega)
    have hB2 : (byte (0x80 + c.val % 0x40)).val = 0x80 + c.val % 0x40 := byte_val (by omega)
    obtain ⟨low, high, hLead, hLow, hHigh⟩ := lead_three (q := c.val / 0x1000)
      (r := c.val / 0x40 % 0x40) (by omega) (by omega) (by omega) (by omega)
    simp only [List.cons_append, List.nil_append]
    rw [units_lead (by omega) hLead, units_tail_more (by omega) (by omega),
      units_tail_last (by omega) rfl, hB1, hB2, hPoint _ (by omega)]
  · rename_i h1 h2 h3
    have hB0 : (byte (0xF0 + c.val / 0x40000)).val = 0xF0 + c.val / 0x40000 := byte_val (by omega)
    have hB1 : (byte (0x80 + c.val / 0x1000 % 0x40)).val = 0x80 + c.val / 0x1000 % 0x40 :=
      byte_val (by omega)
    have hB2 : (byte (0x80 + c.val / 0x40 % 0x40)).val = 0x80 + c.val / 0x40 % 0x40 :=
      byte_val (by omega)
    have hB3 : (byte (0x80 + c.val % 0x40)).val = 0x80 + c.val % 0x40 := byte_val (by omega)
    obtain ⟨low, high, hLead, hLow, hHigh⟩ := lead_four (q := c.val / 0x40000)
      (r := c.val / 0x1000 % 0x40) (by omega) (by omega) (by omega) (by omega)
    simp only [List.cons_append, List.nil_append]
    rw [units_lead (by omega) hLead, units_tail_more (by omega) (by omega),
      units_tail_more (by omega) (by omega), units_tail_last (by omega) rfl, hB1, hB2, hB3,
      hPoint _ (by omega)]

theorem decode_encode {s : Text} (h : surrogateFree s = true) : decode (encode s) = some s := by
  induction s with
  | nil => rfl
  | cons c s ih =>
    simp only [surrogateFree_cons, Bool.and_eq_true, Bool.not_eq_true'] at h
    have hRest : allSome (units .start (encode s)) = some s := ih h.2
    rw [decode, encode_cons, units_encodeChar h.1, allSome, hRest]
    rfl

/-- Inside a character nothing but a continuation byte in bounds avoids a mark. -/
theorem allSome_tail {owed low high bits : Nat} {bs : List Byte} {s : Text}
    (h : allSome (units (.tail owed low high bits) bs) = some s) :
    ∃ b rest, bs = b :: rest ∧ low ≤ b.val ∧ b.val ≤ high := by
  cases bs with
  | nil => cases h
  | cons b rest =>
    by_cases hb : low ≤ b.val ∧ b.val ≤ high
    · exact ⟨b, rest, rfl, hb.1, hb.2⟩
    · simp [units, step, if_neg hb, allSome] at h

theorem allSome_tail_one {low high bits : Nat} {bs : List Byte} {s : Text}
    (h : allSome (units (.tail 1 low high bits) bs) = some s) :
    ∃ b rest t, bs = b :: rest ∧ low ≤ b.val ∧ b.val ≤ high ∧
      s = point (bits * 0x40 + (b.val - 0x80)) :: t ∧ allSome (units .start rest) = some t := by
  obtain ⟨b, rest, rfl, hLow, hHigh⟩ := allSome_tail h
  rw [units_tail_last ⟨hLow, hHigh⟩ rfl, allSome, Option.map_eq_some_iff] at h
  obtain ⟨t, ht, rfl⟩ := h
  exact ⟨b, rest, t, rfl, hLow, hHigh, rfl, ht⟩

theorem allSome_tail_more {owed low high bits : Nat} (hOwed : owed ≠ 1) {bs : List Byte} {s : Text}
    (h : allSome (units (.tail owed low high bits) bs) = some s) :
    ∃ b rest, bs = b :: rest ∧ low ≤ b.val ∧ b.val ≤ high ∧
      allSome (units (.tail (owed - 1) 0x80 0xBF (bits * 0x40 + (b.val - 0x80))) rest) = some s := by
  obtain ⟨b, rest, rfl, hLow, hHigh⟩ := allSome_tail h
  rw [units_tail_more ⟨hLow, hHigh⟩ hOwed] at h
  exact ⟨b, rest, rfl, hLow, hHigh, h⟩

theorem byte_eq {n : Nat} {b : Byte} (h : n = b.val) : byte n = b := by
  subst h
  exact Fin.ext (byte_val b.isLt)

/-- What a first byte of several can announce; only the bounds of the second byte depend
on which one it is. -/
theorem lead_cases {b : Byte} {st : State} (h : lead b = some st) :
    (st = .tail 1 0x80 0xBF (b.val - 0xC0) ∧ 0xC2 ≤ b.val ∧ b.val ≤ 0xDF) ∨
      (∃ low high, st = .tail 2 low high (b.val - 0xE0) ∧ 0xE0 ≤ b.val ∧ b.val ≤ 0xEF ∧
        0x80 ≤ low ∧ high ≤ 0xBF ∧ (b.val = 0xE0 → 0xA0 ≤ low) ∧ (b.val = 0xED → high ≤ 0x9F)) ∨
      (∃ low high, st = .tail 3 low high (b.val - 0xF0) ∧ 0xF0 ≤ b.val ∧ b.val ≤ 0xF4 ∧
        0x80 ≤ low ∧ high ≤ 0xBF ∧ (b.val = 0xF0 → 0x90 ≤ low) ∧ (b.val = 0xF4 → high ≤ 0x8F)) := by
  unfold lead at h
  split at h
  · cases h
    exact .inl ⟨rfl, by omega, by omega⟩
  split at h
  · cases h
    exact .inr (.inl ⟨0xA0, 0xBF, by simp [*], by omega, by omega, by omega, by omega, by omega,
      by omega⟩)
  split at h
  · cases h
    exact .inr (.inl ⟨0x80, 0x9F, by simp [*], by omega, by omega, by omega, by omega, by omega,
      by omega⟩)
  split at h
  · cases h
    exact .inr (.inl ⟨0x80, 0xBF, rfl, by omega, by omega, by omega, by omega, by omega, by omega⟩)
  split at h
  · cases h
    exact .inr (.inr ⟨0x90, 0xBF, by simp [*], by omega, by omega, by omega, by omega, by omega,
      by omega⟩)
  split at h
  · cases h
    exact .inr (.inr ⟨0x80, 0xBF, rfl, by omega, by omega, by omega, by omega, by omega, by omega⟩)
  split at h
  · cases h
    exact .inr (.inr ⟨0x80, 0x8F, by simp [*], by omega, by omega, by omega, by omega, by omega,
      by omega⟩)
  · cases h

/-- One character of a text that decodes: its bytes are the ones it encodes to. -/
theorem exists_char_of_decode {b : Byte} {bs : List Byte} {s : Text}
    (h : decode (b :: bs) = some s) :
    ∃ c rest t, s = c :: t ∧ isSurrogate c = false ∧ b :: bs = encodeChar c ++ rest ∧
      decode rest = some t := by
  have hb : b.val < 0x100 := b.isLt
  have hFree : ∀ n, n < 0x110000 → (n < 0xD800 ∨ 0xDFFF < n) → isSurrogate (point n) = false := by
    intro n hn hNot
    simp only [isSurrogate, point_val hn, Bool.and_eq_false_iff, decide_eq_false_iff_not]
    omega
  unfold decode at h
  by_cases hAscii : b.val < 0x80
  · simp only [units, step, onStart, if_pos hAscii, List.cons_append, List.nil_append, allSome,
      Option.map_eq_some_iff] at h
    obtain ⟨t, ht, rfl⟩ := h
    refine ⟨_, bs, t, rfl, hFree _ (by omega) (by omega), ?_, ht⟩
    rw [encodeChar, point_val (by omega), if_pos hAscii, byte_eq rfl]
    rfl
  cases hLead : lead b with
  | none => simp [units, step, onStart, if_neg hAscii, hLead, allSome] at h
  | some st =>
    rw [units_lead hAscii hLead] at h
    rcases lead_cases hLead with ⟨rfl, hMin, hMax⟩ |
      ⟨low, high, rfl, hMin, hMax, hLow0, hHigh0, hE0, hED⟩ |
      ⟨low, high, rfl, hMin, hMax, hLow0, hHigh0, hF0, hF4⟩
    · obtain ⟨b1, rest, t, rfl, hLow, hHigh, rfl, ht⟩ := allSome_tail_one h
      refine ⟨_, rest, t, rfl, hFree _ (by omega) (by omega), ?_, ht⟩
      rw [encodeChar, point_val (by omega), if_neg (by omega), if_pos (by omega),
        byte_eq (b := b) (by omega), byte_eq (b := b1) (by omega)]
      rfl
    · obtain ⟨b1, rest1, rfl, hLow1, hHigh1, h1⟩ := allSome_tail_more (by omega) h
      obtain ⟨b2, rest, t, rfl, hLow2, hHigh2, rfl, ht⟩ := allSome_tail_one h1
      refine ⟨_, rest, t, rfl, hFree _ (by omega) (by omega), ?_, ht⟩
      rw [encodeChar, point_val (by omega), if_neg (by omega), if_neg (by omega),
        if_pos (by omega), byte_eq (b := b) (by omega), byte_eq (b := b1) (by omega),
        byte_eq (b := b2) (by omega)]
      rfl
    · obtain ⟨b1, rest1, rfl, hLow1, hHigh1, h1⟩ := allSome_tail_more (by omega) h
      obtain ⟨b2, rest2, rfl, hLow2, hHigh2, h2⟩ := allSome_tail_more (by omega) h1
      obtain ⟨b3, rest, t, rfl, hLow3, hHigh3, rfl, ht⟩ := allSome_tail_one h2
      refine ⟨_, rest, t, rfl, hFree _ (by omega) (by omega), ?_, ht⟩
      rw [encodeChar, point_val (by omega), if_neg (by omega), if_neg (by omega),
        if_neg (by omega), byte_eq (b := b) (by omega), byte_eq (b := b1) (by omega),
        byte_eq (b := b2) (by omega), byte_eq (b := b3) (by omega)]
      rfl

theorem encodeChar_ne_nil (c : CodePoint) : encodeChar c ≠ [] := by
  unfold encodeChar
  split
  · simp
  split
  · simp
  split <;> simp

theorem encode_of_decode {bs : List Byte} {s : Text} (h : decode bs = some s) :
    surrogateFree s = true ∧ encode s = bs := by
  induction bs using (measure List.length).wf.induction generalizing s with
  | h bs ih =>
    cases bs with
    | nil =>
      cases h
      exact ⟨rfl, rfl⟩
    | cons b bs =>
      obtain ⟨c, rest, t, rfl, hc, hBytes, hRest⟩ := exists_char_of_decode h
      have hLength := congrArg List.length hBytes
      have hPositive := List.length_pos_iff.mpr (encodeChar_ne_nil c)
      simp only [List.length_cons, List.length_append] at hLength
      obtain ⟨hFree, hEncode⟩ := ih rest (by
        change rest.length < (b :: bs).length
        simp only [List.length_cons]
        omega) hRest
      exact ⟨by simp [hc, hFree], by rw [encode_cons, hEncode, hBytes]⟩

/-- Strict decoding inverts encoding, on exactly the text that has no lone surrogate. -/
theorem decode_eq_some_iff {bs : List Byte} {s : Text} :
    decode bs = some s ↔ surrogateFree s = true ∧ encode s = bs := by
  constructor
  · exact encode_of_decode
  · rintro ⟨hFree, rfl⟩
    exact decode_encode hFree

theorem encodeChar_of_isAscii {c : CodePoint} (h : isAscii c = true) :
    encodeChar c = [byte c.val] := by
  rw [encodeChar, if_pos (of_decide_eq_true h)]

/-- Where nothing has to be replaced, decoding with replacement is decoding. -/
theorem decodeReplace_of_decode {bs : List Byte} {s : Text} (h : decode bs = some s) :
    decodeReplace bs = s := by
  have hAll : ∀ {us : List (Option CodePoint)} {s : Text}, allSome us = some s →
      us.map (fun u => u.getD 0xFFFD) = s := by
    intro us
    induction us with
    | nil =>
      intro s hs
      cases hs
      rfl
    | cons u us ih =>
      intro s hs
      cases u with
      | none => cases hs
      | some c =>
        obtain ⟨rest, hRest, rfl⟩ := Option.map_eq_some_iff.mp hs
        exact congrArg (c :: ·) (ih hRest)
  exact hAll h

theorem decodeReplace_encode {s : Text} (h : surrogateFree s = true) : decodeReplace (encode s) = s :=
  decodeReplace_of_decode (decode_encode h)

end Utf8

end Foundation
