import LlmBus.Foundation.UuidSpelling
import LlmBus.Wire

/-! # Job ids

A job id is kept as the canonical spelling of a UUID. Which texts are taken for one is decided
by deletions and a lenient reading of what they leave, so the accepted texts are compared with
the spellings here, text by text.
-/

namespace LlmBus

open Foundation

/-- `_ensure_uuid`, with the refusals of the constructor it calls. -/
def ensureUuid (py : Interpreter) (value : Text) : Except PyError Text :=
  let hex := Uuid.remainder value
  if hex.length ≠ 32 then .error ⟨.valueError, txt "badly formed hexadecimal UUID string"⟩
  else
    match py.parseInt 16 hex with
    | none =>
      .error ⟨.valueError, txt "invalid literal for int() with base 16: " ++ (py.repr hex).take 200⟩
    | some n =>
      match Uuid.ofInt n with
      | none => .error ⟨.valueError, txt "int is out of range (need a 128-bit value)"⟩
      | some u => .ok u.text

variable {py : Interpreter} {value key digits : Text} {u : Uuid}

theorem ensureUuid_eq_ok_iff :
    ensureUuid py value = .ok key ↔ ∃ u, Uuid.parse py value = some u ∧ u.text = key := by
  rw [ensureUuid, Uuid.parse_eq]
  by_cases hLength : (Uuid.remainder value).length = 32
  · rw [if_neg (not_not.mpr hLength), if_pos hLength]
    cases py.parseInt 16 (Uuid.remainder value) with
    | none => simp
    | some n =>
      rw [Option.bind_some]
      cases hValue : Uuid.ofInt n with
      | none => simp [hValue]
      | some u => simp [hValue]
  · rw [if_pos hLength, if_neg hLength]
    simp

theorem ensureUuid_of_parse (h : Uuid.parse py value = some u) : ensureUuid py value = .ok u.text :=
  ensureUuid_eq_ok_iff.mpr ⟨u, h, rfl⟩

theorem ensureUuid_text (py : Interpreter) (u : Uuid) : ensureUuid py u.text = .ok u.text :=
  ensureUuid_of_parse (Uuid.parse_text py u)

/-! ### What is accepted -/

/-- What the validator promises about one text. -/
structure JobIdContract (py : Interpreter) (value : Text) : Prop where
  accepts : (∃ key, ensureUuid py value = .ok key) ↔ ∃ digits, Uuid.Spells value digits
  canonical : ∀ key, ensureUuid py value = .ok key →
    ∃ digits, Uuid.Spells value digits ∧ key = Uuid.grouped (asciiLower digits)
  idempotent : ∀ key, ensureUuid py value = .ok key → ensureUuid py key = .ok key
  same : ∀ value' key key' digits digits', ensureUuid py value = .ok key →
    ensureUuid py value' = .ok key' → Uuid.Spells value digits → Uuid.Spells value' digits' →
      (key = key' ↔ asciiLower digits = asciiLower digits')

/-- `int` makes a number of what remains, though it is not written in hexadecimal digits alone. -/
def Misread (py : Interpreter) (hex : Text) : Prop :=
  (∃ n, 0 ≤ n ∧ Interpreter.HexLiteral (py.folded hex) n) ∧ hex.all Interpreter.isHexDigit = false

/-- Of the 32 characters that remain none is padding, and nothing was deleted out of its place. -/
def TidyJobId (py : Interpreter) (value : Text) : Prop :=
  (Uuid.remainder value).length = 32 →
    ¬ Misread py (Uuid.remainder value) ∧
      ((Uuid.remainder value).all Interpreter.isHexDigit = true → Uuid.WellPlaced value)

theorem ensureUuid_of_spells (h : Uuid.Spells value digits) :
    ensureUuid py value = .ok (Uuid.grouped (asciiLower digits)) := by
  have hRemainder := h.remainder_eq
  obtain ⟨u, hParse, hText⟩ := @Uuid.exists_parse_of_isHexDigit value py
    (hRemainder ▸ h.length_eq) (hRemainder ▸ h.hex)
  rw [ensureUuid_of_parse hParse, hText, hRemainder]

theorem key_of_spells (h : Uuid.Spells value digits) (hKey : ensureUuid py value = .ok key) :
    key = Uuid.grouped (asciiLower digits) := by
  rw [ensureUuid_of_spells h] at hKey
  cases hKey
  rfl

theorem ensureUuid_key (h : ensureUuid py value = .ok key) : ensureUuid py key = .ok key := by
  obtain ⟨u, hParse, rfl⟩ := ensureUuid_eq_ok_iff.mp h
  exact ensureUuid_text py u

theorem jobIdContract_iff (py : Interpreter) (value : Text) :
    JobIdContract py value ↔ TidyJobId py value := by
  constructor
  · intro h hLength
    constructor
    · rintro ⟨hLiteral, hNotHex⟩
      obtain ⟨u, hParse⟩ := Uuid.exists_parse_iff.mpr ⟨hLength, hLiteral⟩
      obtain ⟨digits, hSpells⟩ := h.accepts.mp ⟨_, ensureUuid_of_parse hParse⟩
      rw [hSpells.remainder_eq, hSpells.hex] at hNotHex
      cases hNotHex
    · intro hHex
      obtain ⟨u, hParse, _⟩ := @Uuid.exists_parse_of_isHexDigit value py hLength hHex
      exact (Uuid.exists_spells_iff hLength hHex).mp (h.accepts.mp ⟨_, ensureUuid_of_parse hParse⟩)
  · intro h
    have hSpells : ∀ key, ensureUuid py value = .ok key → ∃ digits, Uuid.Spells value digits := by
      intro key hKey
      obtain ⟨u, hParse, _⟩ := ensureUuid_eq_ok_iff.mp hKey
      obtain ⟨hLength, hLiteral⟩ := Uuid.exists_parse_iff.mp ⟨u, hParse⟩
      obtain ⟨hNotMisread, hPlaced⟩ := h hLength
      cases hHex : (Uuid.remainder value).all Interpreter.isHexDigit with
      | true => exact (Uuid.exists_spells_iff hLength hHex).mpr (hPlaced hHex)
      | false => exact absurd ⟨hLiteral, hHex⟩ hNotMisread
    refine ⟨⟨?_, ?_⟩, ?_, fun _ => ensureUuid_key, ?_⟩
    · rintro ⟨key, hKey⟩
      exact hSpells key hKey
    · rintro ⟨digits, hDigits⟩
      exact ⟨_, ensureUuid_of_spells hDigits⟩
    · intro key hKey
      obtain ⟨digits, hDigits⟩ := hSpells key hKey
      exact ⟨digits, hDigits, key_of_spells hDigits hKey⟩
    · intro value' key key' digits digits' hKey hKey' hDigits hDigits'
      rw [key_of_spells hDigits hKey, key_of_spells hDigits' hKey']
      exact Uuid.grouped_asciiLower_inj hDigits.hex hDigits'.hex

/-- A space in front of thirty-one digits makes up the length. -/
theorem ensureUuid_padded :
    ensureUuid .ascii (txt " 23e4567e89b12d3a456426614174000") =
        .ok (txt "023e4567-e89b-12d3-a456-426614174000") ∧
      ¬ JobIdContract .ascii (txt " 23e4567e89b12d3a456426614174000") := by
  have hKey : ensureUuid .ascii (txt " 23e4567e89b12d3a456426614174000") =
      .ok (txt "023e4567-e89b-12d3-a456-426614174000") := by decide +kernel
  refine ⟨hKey, ?_⟩
  intro h
  obtain ⟨digits, hSpells⟩ := h.accepts.mp ⟨_, hKey⟩
  have hHex := hSpells.hex
  rw [← hSpells.remainder_eq] at hHex
  exact absurd hHex (by decide +kernel)

end LlmBus
