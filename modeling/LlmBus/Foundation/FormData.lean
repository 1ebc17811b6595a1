import LlmBus.Foundation.Utf8

/-! # URL-encoded forms

Percent escapes are undone inside each stretch of ASCII and the bytes read as UTF-8
with replacement; text outside ASCII stands for itself.
-/

namespace Foundation.FormData

open Utf8

def hexValue (c : CodePoint) : Option Nat :=
  if 0x30 ≤ c.val ∧ c.val ≤ 0x39 then some (c.val - 0x30)
  else if 0x41 ≤ c.val ∧ c.val ≤ 0x46 then some (c.val - 0x37)
  else if 0x61 ≤ c.val ∧ c.val ≤ 0x66 then some (c.val - 0x57)
  else none

/-- The byte an escape stands for; `none` where two hexadecimal digits do not follow. -/
def escaped (c : CodePoint) (s : Text) : Option Byte :=
  match s with
  | hi :: lo :: _ =>
    if c = 0x25 then
      match hexValue hi, hexValue lo with
      | some h, some l => some (byte (h * 16 + l))
      | _, _ => none
    else none
  | _ => none

/-- The counter is the number of characters of the current escape still to skip. -/
def unquoteFrom : Nat → Text → List Byte
  | _, [] => []
  | skip + 1, _ :: s => unquoteFrom skip s
  | 0, c :: s =>
    match escaped c s with
    | some b => b :: unquoteFrom 2 s
    | none => byte c.val :: unquoteFrom 0 s

/-- `unquote_to_bytes` of ASCII text. -/
def unquoteToBytes (s : Text) : List Byte :=
  unquoteFrom 0 s

def unquote (s : Text) : Text :=
  if 0x25 ∈ s then
    (s.splitBy fun a b => isAscii a == isAscii b).flatMap fun stretch =>
      if asciiText stretch then decodeReplace (unquoteToBytes stretch) else stretch
  else s

def plusToSpace (s : Text) : Text :=
  s.map fun c => if c = 0x2B then 0x20 else c

/-- `parse_qsl(body, keep_blank_values=True)`: the name-value pairs in order. -/
def parsePairs (body : Text) : List (Text × Text) :=
  (body.splitOn 0x26).filterMap fun pair =>
    if pair = [] then none
    else
      let (name, _, value) := partition 0x3D pair
      some (unquote (plusToSpace name), unquote (plusToSpace value))

/-- `parse_qs(body, keep_blank_values=True).get(name, [""])[0]`. -/
def firstValue (body name : Text) : Text :=
  (((parsePairs body).find? fun pair => decide (pair.1 = name)).map (·.2)).getD []

example : firstValue (txt "project=hate+mod&kind=a%20b") (txt "project") = txt "hate mod" := by
  decide

end Foundation.FormData
