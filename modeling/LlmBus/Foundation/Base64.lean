import LlmBus.Foundation.Utf8

/-! # Strict base64

The alphabet of RFC 4648 in groups of four characters, padding in the last group
only. The unused bits of a padded group are ignored, as the interpreter does.
-/

namespace Foundation.Base64

open Utf8 (byte)

/-- A `str` argument outside ASCII is refused before its content is looked at, and by
a different exception. -/
inductive Failure where
  | notAscii
  | malformed
  deriving DecidableEq

def pad : CodePoint := 0x3D

def digit (c : CodePoint) : Option Nat :=
  if 0x41 ≤ c.val ∧ c.val ≤ 0x5A then some (c.val - 0x41)
  else if 0x61 ≤ c.val ∧ c.val ≤ 0x7A then some (c.val - 0x61 + 26)
  else if 0x30 ≤ c.val ∧ c.val ≤ 0x39 then some (c.val - 0x30 + 52)
  else if c.val = 0x2B then some 62
  else if c.val = 0x2F then some 63
  else none

def groups : Text → Option (List Byte)
  | [] => some []
  | a :: b :: c :: d :: rest =>
    match digit a, digit b with
    | some x, some y =>
      if c = pad ∧ d = pad ∧ rest = [] then some [byte (x * 4 + y / 16)]
      else
        match digit c with
        | some z =>
          if d = pad ∧ rest = [] then some [byte (x * 4 + y / 16), byte (y % 16 * 16 + z / 4)]
          else
            match digit d with
            | some w => (groups rest).map fun bs =>
                byte (x * 4 + y / 16) :: byte (y % 16 * 16 + z / 4) :: byte (z % 4 * 64 + w) :: bs
            | none => none
        | none => none
    | _, _ => none
  | _ => none

/-- `base64.b64decode(s, validate=True)` of a `str`, in the documented strict mode: excess padding
is refused. Some releases of the interpreter let it through behind a complete last group. -/
def decode (s : Text) : Except Failure (List Byte) :=
  if asciiText s then
    match groups s with
    | some bs => .ok bs
    | none => .error .malformed
  else .error .notAscii

theorem decode_eq_ok_iff {s : Text} {bs : List Byte} :
    decode s = .ok bs ↔ asciiText s = true ∧ groups s = some bs := by
  unfold decode
  split
  · rename_i h
    cases groups s <;> simp [h]
  · rename_i h
    simp [h]

theorem decode_eq_notAscii_iff {s : Text} : decode s = .error .notAscii ↔ asciiText s = false := by
  unfold decode
  split
  · rename_i h
    cases groups s <;> simp [h]
  · rename_i h
    simpa using h

end Foundation.Base64
