import LlmBus.Foundation.Uuid

/-! # The spellings of a UUID

Thirty-two hexadecimal digits, with hyphens among them, a label before them and one pair of
braces around them. The reader deletes labels, braces and hyphens wherever it meets them and
hands what remains to `int`, so it takes all of these, and more.
-/

namespace Foundation.Uuid

def unlabelled (s : Text) : Text :=
  remove (txt "uuid:") (remove (txt "urn:") s)

/-- What `uuid.UUID` leaves of a text to be read as a number. -/
def remainder (s : Text) : Text :=
  remove [hyphen] (stripBy (fun c => c == 0x7B || c == 0x7D) (unlabelled s))

def labels : List Text :=
  [[], txt "urn:", txt "uuid:", txt "urn:uuid:"]

/-- A text with its label and its one pair of braces, if it has them, around a body. -/
inductive Dressed : Text → Text → Prop
  | bare {label body : Text} (hLabel : label ∈ labels) : Dressed (label ++ body) body
  | inside {label body : Text} (hLabel : label ∈ labels) :
      Dressed (label ++ 0x7B :: (body ++ [0x7D])) body
  | around {label body : Text} (hLabel : label ∈ labels) :
      Dressed (0x7B :: (label ++ (body ++ [0x7D]))) body

/-- Nothing in the body can be taken for a part of a label or for a brace. -/
def Plain (body : Text) : Prop :=
  ∀ c ∈ body, c ≠ 0x3A ∧ c ≠ 0x7B ∧ c ≠ 0x7D

structure Spelling (s body digits : Text) : Prop where
  dressed : Dressed s body
  digits_eq : body.filter (· != hyphen) = digits
  length_eq : digits.length = 32
  hex : digits.all Interpreter.isHexDigit = true

def Spells (s digits : Text) : Prop :=
  ∃ body, Spelling s body digits

variable {s body digits : Text}

/-! ### The groups -/

theorem grouped_asciiLower_inj {digits' : Text} (hHex : digits.all Interpreter.isHexDigit = true)
    (hHex' : digits'.all Interpreter.isHexDigit = true) :
    grouped (asciiLower digits) = grouped (asciiLower digits') ↔ asciiLower digits = asciiLower digits' := by
  have hNoHyphen : ∀ t : Text, t.all Interpreter.isHexDigit = true →
      ∀ c ∈ asciiLower t, (c != hyphen) = true := by
    intro t ht c hc
    obtain ⟨e, he, rfl⟩ := List.mem_map.mp hc
    obtain ⟨d, _, hLt, hLower⟩ := Interpreter.exists_digitValue (List.all_eq_true.mp ht e he)
    rw [← hLower]
    exact isHex_ne_hyphen (isHex_hexDigit hLt)
  constructor
  · intro h
    rw [← filter_grouped (hNoHyphen digits hHex), h, filter_grouped (hNoHyphen digits' hHex')]
  · exact congrArg grouped

/-! ### What the surgery leaves -/

theorem unlabelled_eq_self (h : (0x3A : CodePoint) ∉ s) : unlabelled s = s := by
  rw [unlabelled, remove_eq_self (by decide) h, remove_eq_self (by decide) h]

theorem unlabelled_label {label : Text} (hLabel : label ∈ labels) (h : (0x3A : CodePoint) ∉ s) :
    unlabelled (label ++ s) = s := by
  have hUrn : remove (txt "urn:") s = s := remove_eq_self (by decide) h
  have hUuid : remove (txt "uuid:") s = s := remove_eq_self (by decide) h
  simp only [labels, List.mem_cons, List.not_mem_nil, or_false] at hLabel
  rcases hLabel with rfl | rfl | rfl | rfl
  · exact unlabelled_eq_self h
  · have hFirst : remove (txt "urn:") (txt "urn:" ++ s) = remove (txt "urn:") s := rfl
    rw [unlabelled, hFirst, hUrn, hUuid]
  · have hFirst : remove (txt "urn:") (txt "uuid:" ++ s) = txt "uuid:" ++ remove (txt "urn:") s := rfl
    have hSecond : remove (txt "uuid:") (txt "uuid:" ++ s) = remove (txt "uuid:") s := rfl
    rw [unlabelled, hFirst, hUrn, hSecond, hUuid]
  · have hFirst : remove (txt "urn:") (txt "urn:uuid:" ++ s) = txt "uuid:" ++ remove (txt "urn:") s := rfl
    have hSecond : remove (txt "uuid:") (txt "uuid:" ++ s) = remove (txt "uuid:") s := rfl
    rw [unlabelled, hFirst, hUrn, hSecond, hUuid]

theorem unlabelled_brace (s : Text) : unlabelled (0x7B :: s) = 0x7B :: unlabelled s := rfl

theorem stripBy_around {p : CodePoint → Bool} {opening closing : CodePoint} (hOpening : p opening = true)
    (hClosing : p closing = true) (hBody : ∀ c ∈ body, p c = false) :
    stripBy p (opening :: (body ++ [closing])) = body := by
  rw [stripBy, List.dropWhile_cons_of_pos hOpening]
  cases body with
  | nil =>
    rw [List.nil_append, List.dropWhile_cons_of_pos hClosing]
    rfl
  | cons c body =>
    rw [List.cons_append, List.dropWhile_cons_of_neg (by simp [hBody c List.mem_cons_self]),
      ← List.cons_append, List.rdropWhile_concat_pos _ _ _ hClosing, List.rdropWhile_eq_self_iff]
    intro hs
    simp [hBody _ (List.getLast_mem hs)]

theorem remainder_of_dressed (h : Dressed s body) (hPlain : Plain body) :
    remainder s = body.filter (· != hyphen) := by
  have hColon : (0x3A : CodePoint) ∉ body := fun hMem => (hPlain _ hMem).1 rfl
  have hBrace : ∀ c ∈ body, (c == 0x7B || c == 0x7D) = false := by
    intro c hc
    rw [Bool.or_eq_false_iff, beq_eq_false_iff_ne, beq_eq_false_iff_ne]
    exact (hPlain c hc).2
  have hStripped : stripBy (fun c => c == 0x7B || c == 0x7D) (0x7B :: (body ++ [0x7D])) = body :=
    stripBy_around rfl rfl hBrace
  rw [remainder, ← remove_singleton]
  cases h with
  | bare hLabel => rw [unlabelled_label hLabel hColon, stripBy_eq_self hBrace]
  | inside hLabel =>
    rw [unlabelled_label hLabel (by simp [hColon]), hStripped]
  | around hLabel =>
    rw [unlabelled_brace, unlabelled_label hLabel (by simp [hColon]), hStripped]

theorem Spelling.plain (h : Spelling s body digits) : Plain body := by
  have hHex : ∀ c ∈ body, c ≠ hyphen → Interpreter.isHexDigit c = true := by
    intro c hc hHyphen
    apply List.all_eq_true.mp h.hex
    rw [← h.digits_eq]
    exact List.mem_filter.mpr ⟨hc, by simpa using hHyphen⟩
  intro c hc
  refine ⟨?_, ?_, ?_⟩
  all_goals
    rintro rfl
    exact absurd (hHex _ hc (by decide)) (by decide)

theorem Spells.remainder_eq (h : Spells s digits) : remainder s = digits := by
  obtain ⟨body, hSpelling⟩ := h
  rw [remainder_of_dressed hSpelling.dressed hSpelling.plain, hSpelling.digits_eq]

theorem Spells.length_eq (h : Spells s digits) : digits.length = 32 := by
  obtain ⟨body, hSpelling⟩ := h
  exact hSpelling.length_eq

theorem Spells.hex (h : Spells s digits) : digits.all Interpreter.isHexDigit = true := by
  obtain ⟨body, hSpelling⟩ := h
  exact hSpelling.hex

/-- Labels and braces stand where a spelling has them. -/
def WellPlaced (s : Text) : Prop :=
  ∃ body, Dressed s body ∧ Plain body

theorem exists_spells_iff (hLength : (remainder s).length = 32)
    (hHex : (remainder s).all Interpreter.isHexDigit = true) :
    (∃ digits, Spells s digits) ↔ WellPlaced s := by
  constructor
  · rintro ⟨digits, body, hSpelling⟩
    exact ⟨body, hSpelling.dressed, hSpelling.plain⟩
  · rintro ⟨body, hDressed, hPlain⟩
    exact ⟨remainder s, body, hDressed, (remainder_of_dressed hDressed hPlain).symm, hLength, hHex⟩

/-! ### What the reader makes of it -/

variable {py : Interpreter} {u : Uuid}

theorem toNat_lt_two_pow {n : ℤ} (h : 0 ≤ n ∧ n < 2 ^ 128) : n.toNat < 2 ^ 128 := by
  omega

/-- The range check of `uuid.UUID`. -/
def ofInt (n : ℤ) : Option Uuid :=
  if h : 0 ≤ n ∧ n < 2 ^ 128 then some ⟨⟨n.toNat, toNat_lt_two_pow h⟩⟩ else none

theorem ofInt_eq_some_iff {n : ℤ} : ofInt n = some u ↔ n = (u.value.val : ℤ) := by
  have hBound : (u.value.val : ℤ) < 2 ^ 128 := by exact_mod_cast u.value.isLt
  rw [ofInt]
  constructor
  · intro h
    obtain ⟨hRange, hValue⟩ := Option.dite_none_right_eq_some.mp h
    cases hValue
    exact (Int.toNat_of_nonneg hRange.1).symm
  · rintro rfl
    rw [dif_pos ⟨Int.natCast_nonneg _, hBound⟩]
    rfl

theorem parse_eq (py : Interpreter) (s : Text) :
    parse py s = if (remainder s).length = 32 then (py.parseInt 16 (remainder s)).bind ofInt else none := by
  unfold parse remainder unlabelled
  dsimp only
  generalize remove [hyphen] (stripBy _ _) = hex
  cases py.parseInt 16 hex with
  | none => rfl
  | some n => rfl

theorem parse_eq_some_iff :
    parse py s = some u ↔
      (remainder s).length = 32 ∧ py.parseInt 16 (remainder s) = some (u.value.val : ℤ) := by
  rw [parse_eq, Option.ite_none_right_eq_some, Option.bind_eq_some_iff]
  constructor
  · rintro ⟨hLength, n, hInt, hValue⟩
    exact ⟨hLength, hInt.trans (congrArg some (ofInt_eq_some_iff.mp hValue))⟩
  · rintro ⟨hLength, hInt⟩
    exact ⟨hLength, _, hInt, ofInt_eq_some_iff.mpr rfl⟩

/-- A text is read where 32 characters remain and `int` makes a number of them; so many
characters cannot spell one that is too large. -/
theorem exists_parse_iff :
    (∃ u, parse py s = some u) ↔
      (remainder s).length = 32 ∧ ∃ n, 0 ≤ n ∧ Interpreter.HexLiteral (py.folded (remainder s)) n := by
  constructor
  · rintro ⟨u, h⟩
    obtain ⟨hLength, hInt⟩ := parse_eq_some_iff.mp h
    exact ⟨hLength, _, Int.natCast_nonneg _, Interpreter.hexLiteral_of_parseInt py hInt⟩
  · rintro ⟨hLength, n, hNonneg, hLiteral⟩
    have hInt := Interpreter.parseInt_of_hexLiteral py hLiteral
    have hFolded : (py.folded (remainder s)).length ≤ 32 :=
      (Interpreter.length_folded_le py (remainder s)).trans_eq hLength
    have hBound : n < 2 ^ 128 := by
      have hPower : (16 : ℤ) ^ (py.folded (remainder s)).length ≤ 16 ^ 32 :=
        pow_le_pow_right₀ (by norm_num) hFolded
      exact hLiteral.lt.trans_le (hPower.trans_eq (by norm_num))
    obtain ⟨k, rfl⟩ := Int.eq_ofNat_of_zero_le hNonneg
    have hk : k < 2 ^ 128 := by exact_mod_cast hBound
    exact ⟨⟨⟨k, hk⟩⟩, parse_eq_some_iff.mpr ⟨hLength, hInt⟩⟩

/-- Where only digits remain they are read, and the UUID has them in their order. -/
theorem exists_parse_of_isHexDigit (hLength : (remainder s).length = 32)
    (hHex : (remainder s).all Interpreter.isHexDigit = true) :
    ∃ u, parse py s = some u ∧ u.text = grouped (asciiLower (remainder s)) := by
  have hNonempty : remainder s ≠ [] := by
    intro hNil
    rw [hNil] at hLength
    cases hLength
  obtain ⟨n, hInt, hText⟩ := Interpreter.exists_parseInt_of_isHexDigit py hHex hNonempty
  have hLiteral := Interpreter.hexLiteral_of_parseInt py hInt
  obtain ⟨u, hParse⟩ := exists_parse_iff.mpr ⟨hLength, n, Int.natCast_nonneg n, hLiteral⟩
  have hValue : (n : ℤ) = (u.value.val : ℤ) :=
    Option.some.inj (hInt.symm.trans (parse_eq_some_iff.mp hParse).2)
  refine ⟨u, hParse, ?_⟩
  rw [text_eq_grouped, ← hText, hLength, Int.ofNat_inj.mp hValue]

end Foundation.Uuid
