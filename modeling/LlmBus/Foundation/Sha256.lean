import LlmBus.Foundation.Utf8
import LlmBus.Foundation.Uuid

/-! # SHA-256 and its keyed form

The digest as FIPS 180-4 computes it, block by block over the padded message, and HMAC over
it. One keyed digest stands for two messages only where the plain digest stands for two.
-/

namespace Foundation.Sha256

abbrev Word := BitVec 32

/-! ### One block -/

/-- The first 32 bits of the fractional parts of the cube roots of the first 64 primes. -/
def roundConstants : List Word :=
  [0x428a2f98, 0x71374491, 0xb5c0fbcf, 0xe9b5dba5, 0x3956c25b, 0x59f111f1, 0x923f82a4, 0xab1c5ed5,
    0xd807aa98, 0x12835b01, 0x243185be, 0x550c7dc3, 0x72be5d74, 0x80deb1fe, 0x9bdc06a7, 0xc19bf174,
    0xe49b69c1, 0xefbe4786, 0x0fc19dc6, 0x240ca1cc, 0x2de92c6f, 0x4a7484aa, 0x5cb0a9dc, 0x76f988da,
    0x983e5152, 0xa831c66d, 0xb00327c8, 0xbf597fc7, 0xc6e00bf3, 0xd5a79147, 0x06ca6351, 0x14292967,
    0x27b70a85, 0x2e1b2138, 0x4d2c6dfc, 0x53380d13, 0x650a7354, 0x766a0abb, 0x81c2c92e, 0x92722c85,
    0xa2bfe8a1, 0xa81a664b, 0xc24b8b70, 0xc76c51a3, 0xd192e819, 0xd6990624, 0xf40e3585, 0x106aa070,
    0x19a4c116, 0x1e376c08, 0x2748774c, 0x34b0bcb5, 0x391c0cb3, 0x4ed8aa4a, 0x5b9cca4f, 0x682e6ff3,
    0x748f82ee, 0x78a5636f, 0x84c87814, 0x8cc70208, 0x90befffa, 0xa4506ceb, 0xbef9a3f7, 0xc67178f2]

structure Chain where
  a : Word
  b : Word
  c : Word
  d : Word
  e : Word
  f : Word
  g : Word
  h : Word
  deriving DecidableEq

/-- The first 32 bits of the fractional parts of the square roots of the first 8 primes. -/
def initial : Chain :=
  ⟨0x6a09e667, 0xbb67ae85, 0x3c6ef372, 0xa54ff53a, 0x510e527f, 0x9b05688c, 0x1f83d9ab, 0x5be0cd19⟩

def smallSigma0 (x : Word) : Word :=
  x.rotateRight 7 ^^^ x.rotateRight 18 ^^^ x >>> 3

def smallSigma1 (x : Word) : Word :=
  x.rotateRight 17 ^^^ x.rotateRight 19 ^^^ x >>> 10

def bigSigma0 (x : Word) : Word :=
  x.rotateRight 2 ^^^ x.rotateRight 13 ^^^ x.rotateRight 22

def bigSigma1 (x : Word) : Word :=
  x.rotateRight 6 ^^^ x.rotateRight 11 ^^^ x.rotateRight 25

def choose (x y z : Word) : Word :=
  (x &&& y) ^^^ (~~~x &&& z)

def majority (x y z : Word) : Word :=
  (x &&& y) ^^^ (x &&& z) ^^^ (y &&& z)

/-- The schedule so far, the latest word first, and the word after it. -/
def expand (words : List Word) : List Word :=
  (smallSigma1 (words.getD 1 0) + words.getD 6 0 + smallSigma0 (words.getD 14 0) + words.getD 15 0) ::
    words

def schedule (block : List Word) : List Word :=
  (Nat.repeat expand 48 block.reverse).reverse

def round (s : Chain) (constant word : Word) : Chain :=
  let first := s.h + bigSigma1 s.e + choose s.e s.f s.g + constant + word
  let second := bigSigma0 s.a + majority s.a s.b s.c
  ⟨first + second, s.a, s.b, s.c, s.d + first, s.e, s.f, s.g⟩

def compress (s : Chain) (block : List Word) : Chain :=
  let t := (roundConstants.zip (schedule block)).foldl (fun t entry => round t entry.1 entry.2) s
  ⟨s.a + t.a, s.b + t.b, s.c + t.c, s.d + t.d, s.e + t.e, s.f + t.f, s.g + t.g, s.h + t.h⟩

/-! ### A message -/

def wordsOf : List Byte → List Word
  | a :: b :: c :: d :: rest =>
    BitVec.ofNat 32 (((a.val * 0x100 + b.val) * 0x100 + c.val) * 0x100 + d.val) :: wordsOf rest
  | _ => []

/-- `width` bytes, the most significant first. -/
def bigEndian : Nat → Nat → List Byte
  | 0, _ => []
  | width + 1, n => bigEndian width (n / 0x100) ++ [Utf8.byte n]

/-- A one bit, zeros, and the length in bits, up to a whole number of blocks. -/
def padded (message : List Byte) : List Byte :=
  message ++ 0x80 :: List.replicate ((119 - message.length % 64) % 64) 0 ++
    bigEndian 8 (8 * message.length)

def chained : Nat → Chain → List Byte → Chain
  | 0, s, _ => s
  | blocks + 1, s, bytes => chained blocks (compress s (wordsOf (bytes.take 64))) (bytes.drop 64)

def bytesOf (word : Word) : List Byte :=
  bigEndian 4 word.toNat

def digest (message : List Byte) : List Byte :=
  let s := chained ((padded message).length / 64) initial (padded message)
  [s.a, s.b, s.c, s.d, s.e, s.f, s.g, s.h].flatMap bytesOf

/-- `hexdigest()` -/
def hexBytes (bytes : List Byte) : Text :=
  bytes.flatMap fun b => hexText 2 b.val

example : hexBytes (digest (Utf8.encode (txt "abc"))) =
    txt "ba7816bf8f01cfea414140de5dae2223b00361a396177a9cb410ff61f20015ad" := by
  decide +kernel

theorem hexDigit_inj {m n : Nat} (hm : m < 16) (hn : n < 16) (h : hexDigit m = hexDigit n) : m = n := by
  have hValue := Uuid.digitValue_hexDigit hm
  rw [h, Uuid.digitValue_hexDigit hn] at hValue
  exact (Option.some.inj hValue).symm

theorem hexBytes_injective : Function.Injective hexBytes := by
  intro bytes
  induction bytes with
  | nil =>
    intro other h
    cases other with
    | nil => rfl
    | cons b rest => cases h
  | cons b rest ih =>
    intro other h
    cases other with
    | nil => cases h
    | cons b' rest' =>
      have hCons : hexDigit (b.val / 16 % 16) :: hexDigit (b.val % 16) :: hexBytes rest =
          hexDigit (b'.val / 16 % 16) :: hexDigit (b'.val % 16) :: hexBytes rest' := h
      obtain ⟨hHigh, hTail⟩ := List.cons.inj hCons
      obtain ⟨hLow, hRest⟩ := List.cons.inj hTail
      have hUpper := hexDigit_inj (Nat.mod_lt _ (by decide)) (Nat.mod_lt _ (by decide)) hHigh
      have hLower := hexDigit_inj (Nat.mod_lt _ (by decide)) (Nat.mod_lt _ (by decide)) hLow
      have hByte : b = b' := Fin.ext (by omega)
      rw [hByte, ih hRest]

/-! ### Keyed -/

def blockKey (key : List Byte) : List Byte :=
  let short := if key.length > 64 then digest key else key
  short ++ List.replicate (64 - short.length) 0

def masked (key : List Byte) (mask : Nat) : List Byte :=
  (blockKey key).map fun b => Utf8.byte (b.val ^^^ mask)

def innerText (key message : List Byte) : List Byte :=
  masked key 0x36 ++ message

def outerText (key message : List Byte) : List Byte :=
  masked key 0x5C ++ digest (innerText key message)

/-- `hmac.new(key, message, hashlib.sha256).digest()` -/
def keyedDigest (key message : List Byte) : List Byte :=
  digest (outerText key message)

example : hexBytes (keyedDigest (Utf8.encode (txt "Jefe"))
    (Utf8.encode (txt "what do ya want for nothing?"))) =
    txt "5bdcc146bf60754e6a042426089575c75a003f089d2739839dec58b964ec3843" := by
  decide +kernel

/-- Two texts that the digest does not tell apart. -/
def Collide (x y : List Byte) : Prop :=
  x ≠ y ∧ digest x = digest y

/-- Whoever finds a second message for a keyed digest holds two texts that collide. -/
theorem eq_or_collide {key message message' : List Byte}
    (h : keyedDigest key message = keyedDigest key message') :
    message = message' ∨ Collide (innerText key message) (innerText key message') ∨
      Collide (outerText key message) (outerText key message') := by
  by_cases hSame : message = message'
  · exact .inl hSame
  by_cases hOuter : outerText key message = outerText key message'
  · refine .inr (.inl ⟨fun hInner => hSame (List.append_cancel_left hInner), ?_⟩)
    exact List.append_cancel_left hOuter
  · exact .inr (.inr ⟨hOuter, h⟩)

end Foundation.Sha256
