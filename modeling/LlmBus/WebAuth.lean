import LlmBus.Foundation.Base64
import LlmBus.Foundation.Interpreter
import LlmBus.Schema

/-! # Authentication of the write surface

A header string and a secret in, a verdict out. Between them stand a partition, a case
folding, a strict base64 and a strict UTF-8 decoding and a constant-time comparison,
each with failures of its own.
-/

namespace LlmBus

open Foundation

/-- `hmac.compare_digest` of two `str` arguments. -/
def compareDigest (a b : Text) : Except PyError Bool :=
  if asciiText a && asciiText b then .ok (a == b)
  else .error ⟨.typeError, txt "comparing strings with non-ASCII characters is not supported"⟩

/-- The part of `basic_auth_ok` that reads the trimmed credentials. -/
def credentialsMatch (encoded secret : Text) : Except PyError Bool :=
  match Base64.decode encoded with
  | .error .notAscii =>
    .error ⟨.valueError, txt "string argument should contain only ASCII characters"⟩
  | .error .malformed => .ok false
  | .ok bytes =>
    match Utf8.decode bytes with
    | none => .ok false
    | some decoded =>
      let (_, separator, password) := partition 0x3A decoded
      if separator then compareDigest password secret else .ok false

def basicAuthOk (py : Interpreter) (header secret : Option Text) : Except PyError Bool :=
  match secret, header with
  | some secret, some header =>
    let (scheme, separator, remainder) := partition 0x20 header
    if !separator || py.lower scheme != txt "basic" then .ok false
    else
      let encoded := strip remainder
      if encoded = [] then .ok false else credentialsMatch encoded secret
  | _, _ => .ok false

def originAllowed : Option Text → Option Text → Bool
  | none, _ => true
  | some _, none => false
  | some origin, some host => origin == txt "http://" ++ host || origin == txt "https://" ++ host

/-! ### What the verdict is about -/

/-- `encoded` is what a header of the scheme `basic` carries, trimmed. -/
def BasicCredentials (header encoded : Text) : Prop :=
  ∃ scheme remainder, header = scheme ++ 0x20 :: remainder ∧ asciiLower scheme = txt "basic" ∧
    encoded = strip remainder

/-- `encoded` is strict base64 of the UTF-8 bytes of `user:password`. -/
structure Encodes (encoded user password : Text) : Prop where
  noColon : 0x3A ∉ user
  unicode : surrogateFree (user ++ 0x3A :: password) = true
  bytes : Base64.groups encoded = some (Utf8.encode (user ++ 0x3A :: password))

def Granted (header secret : Option Text) : Prop :=
  ∃ h s encoded user, header = some h ∧ secret = some s ∧ BasicCredentials h encoded ∧
    Encodes encoded user s

/-- The comparison is within what the standard library compares. -/
structure AsciiCredentials (encoded secret : Text) : Prop where
  trimmed : asciiText encoded = true
  compared : ∀ user password, Encodes encoded user password →
    asciiText password = true ∧ asciiText secret = true

/-! ### Reading the credentials -/

theorem encodes_iff_of_decode {encoded : Text} {bytes : List Byte} {decoded user password : Text}
    (hGroups : Base64.groups encoded = some bytes) (hDecode : Utf8.decode bytes = some decoded) :
    Encodes encoded user password ↔ decoded = user ++ 0x3A :: password ∧ 0x3A ∉ user := by
  constructor
  · intro h
    refine ⟨?_, h.noColon⟩
    have hBytes : Utf8.encode (user ++ 0x3A :: password) = bytes :=
      Option.some.inj (h.bytes.symm.trans hGroups)
    have hSame := Utf8.decode_eq_some_iff.mpr ⟨h.unicode, hBytes⟩
    exact Option.some.inj (hDecode.symm.trans hSame)
  · rintro ⟨rfl, hUser⟩
    obtain ⟨hUnicode, hBytes⟩ := Utf8.decode_eq_some_iff.mp hDecode
    exact ⟨hUser, hUnicode, hBytes ▸ hGroups⟩

theorem decode_of_encodes {encoded user password : Text} (h : Encodes encoded user password) :
    ∃ bytes, Base64.groups encoded = some bytes ∧
      Utf8.decode bytes = some (user ++ 0x3A :: password) :=
  ⟨_, h.bytes, Utf8.decode_eq_some_iff.mpr ⟨h.unicode, rfl⟩⟩

theorem not_encodes_nil (user password : Text) : ¬ Encodes [] user password := by
  intro h
  obtain ⟨bytes, hGroups, hDecode⟩ := decode_of_encodes h
  cases hGroups
  cases user with
  | nil => cases hDecode
  | cons c rest => cases hDecode

/-- The verdict exists and is true exactly for the right password. -/
def Exact (verdict : Except PyError Bool) (granted : Prop) : Prop :=
  ∃ b, verdict = .ok b ∧ (b = true ↔ granted)

theorem exact_false {granted : Prop} (h : ¬ granted) : Exact (.ok false) granted :=
  ⟨false, rfl, by simpa using h⟩

theorem not_exact_error {granted : Prop} (e : PyError) : ¬ Exact (.error e) granted := by
  rintro ⟨b, hb, _⟩
  cases hb

theorem credentialsMatch_of_decoded {encoded secret decoded : Text} {bytes : List Byte}
    (hAscii : asciiText encoded = true) (hGroups : Base64.groups encoded = some bytes)
    (hDecode : Utf8.decode bytes = some decoded) :
    credentialsMatch encoded secret =
      match partition 0x3A decoded with
      | (_, separator, password) => if separator then compareDigest password secret else .ok false := by
  rw [credentialsMatch, Base64.decode_eq_ok_iff.mpr ⟨hAscii, hGroups⟩]
  simp only [hDecode]

theorem exact_compareDigest_iff (password secret : Text) :
    Exact (compareDigest password secret) (password = secret) ↔
      asciiText password = true ∧ asciiText secret = true := by
  unfold compareDigest
  split
  · rename_i h
    simp only [Bool.and_eq_true] at h
    exact ⟨fun _ => h, fun _ => ⟨_, rfl, beq_iff_eq⟩⟩
  · rename_i h
    simp only [Bool.and_eq_true] at h
    exact ⟨fun hExact => absurd hExact (not_exact_error _), fun hBoth => absurd hBoth h⟩

/-- Credentials that spell no user and password at all are refused, and rightly so. -/
theorem exact_iff_of_not_encodes {encoded secret : Text} (hAscii : asciiText encoded = true)
    (hFalse : credentialsMatch encoded secret = .ok false)
    (hNone : ∀ user password, ¬ Encodes encoded user password) :
    Exact (credentialsMatch encoded secret) (∃ user, Encodes encoded user secret) ↔
      AsciiCredentials encoded secret := by
  rw [hFalse]
  exact ⟨fun _ => ⟨hAscii, fun u p h => absurd h (hNone u p)⟩,
    fun _ => exact_false fun ⟨u, h⟩ => hNone u secret h⟩

theorem encodes_iff_of_split {encoded user password u p : Text} {bytes : List Byte}
    (hGroups : Base64.groups encoded = some bytes)
    (hDecode : Utf8.decode bytes = some (user ++ 0x3A :: password)) (hUser : 0x3A ∉ user) :
    Encodes encoded u p ↔ u = user ∧ p = password := by
  rw [encodes_iff_of_decode hGroups hDecode]
  constructor
  · rintro ⟨hSplit, hu⟩
    obtain ⟨hLeft, hRight⟩ := split_unique hUser hu hSplit
    exact ⟨hLeft.symm, hRight.symm⟩
  · rintro ⟨rfl, rfl⟩
    exact ⟨rfl, hUser⟩

theorem exact_iff_of_split {encoded secret user password : Text} {bytes : List Byte}
    (hAscii : asciiText encoded = true) (hGroups : Base64.groups encoded = some bytes)
    (hDecode : Utf8.decode bytes = some (user ++ 0x3A :: password)) (hUser : 0x3A ∉ user) :
    Exact (credentialsMatch encoded secret) (∃ user, Encodes encoded user secret) ↔
      AsciiCredentials encoded secret := by
  have hOnly : ∀ u p, Encodes encoded u p ↔ u = user ∧ p = password :=
    fun _ _ => encodes_iff_of_split hGroups hDecode hUser
  have hGranted : (∃ u, Encodes encoded u secret) ↔ password = secret :=
    ⟨fun ⟨u, h⟩ => ((hOnly u secret).mp h).2.symm,
      fun h => ⟨user, (hOnly user secret).mpr ⟨rfl, h.symm⟩⟩⟩
  rw [credentialsMatch_of_decoded hAscii hGroups hDecode, partition_append hUser]
  simp only [if_true, hGranted, exact_compareDigest_iff]
  constructor
  · intro hBoth
    refine ⟨hAscii, fun u p h => ?_⟩
    rw [((hOnly u p).mp h).2]
    exact hBoth
  · exact fun h => h.compared user password ((hOnly user password).mpr ⟨rfl, rfl⟩)

theorem credentialsMatch_exact_iff (encoded secret : Text) :
    Exact (credentialsMatch encoded secret) (∃ user, Encodes encoded user secret) ↔
      AsciiCredentials encoded secret := by
  cases hAscii : asciiText encoded with
  | false =>
    rw [credentialsMatch, Base64.decode_eq_notAscii_iff.mpr hAscii]
    refine ⟨fun h => absurd h (not_exact_error _), fun h => ?_⟩
    rw [h.trimmed] at hAscii
    cases hAscii
  | true =>
    cases hGroups : Base64.groups encoded with
    | none =>
      refine exact_iff_of_not_encodes hAscii ?_ fun user password h => ?_
      · simp [credentialsMatch, Base64.decode, hAscii, hGroups]
      · rw [h.bytes] at hGroups
        cases hGroups
    | some bytes =>
      cases hDecode : Utf8.decode bytes with
      | none =>
        refine exact_iff_of_not_encodes hAscii ?_ fun user password h => ?_
        · rw [credentialsMatch, Base64.decode_eq_ok_iff.mpr ⟨hAscii, hGroups⟩]
          simp only [hDecode]
        · obtain ⟨bytes', hGroups', hDecode'⟩ := decode_of_encodes h
          cases hGroups.symm.trans hGroups'
          rw [hDecode] at hDecode'
          cases hDecode'
      | some decoded =>
        by_cases hColon : 0x3A ∈ decoded
        · obtain ⟨user, password, rfl, hUser⟩ := exists_split hColon
          exact exact_iff_of_split hAscii hGroups hDecode hUser
        · refine exact_iff_of_not_encodes hAscii ?_ fun u p h => ?_
          · rw [credentialsMatch_of_decoded hAscii hGroups hDecode, partition_absent hColon]
            rfl
          · rw [((encodes_iff_of_decode hGroups hDecode).mp h).1] at hColon
            exact hColon (by simp)

/-! ### Reading the header -/

theorem no_space_of_basic {scheme : Text} (h : asciiLower scheme = txt "basic") : 0x20 ∉ scheme := by
  intro hSpace
  have hLowered : asciiLowerChar 0x20 ∈ asciiLower scheme := List.mem_map_of_mem hSpace
  rw [h] at hLowered
  revert hLowered
  decide

theorem basicAuthOk_of_basic (py : Interpreter) {header encoded : Text}
    (h : BasicCredentials header encoded) (secret : Text) :
    basicAuthOk py (some header) (some secret) =
      if encoded = [] then .ok false else credentialsMatch encoded secret := by
  obtain ⟨scheme, remainder, rfl, hScheme, rfl⟩ := h
  have hLower : py.lower scheme = txt "basic" :=
    (py.lower_eq_iff (by decide) (by decide) scheme).mpr hScheme
  simp [basicAuthOk, partition_append (no_space_of_basic hScheme), hLower]

theorem basicAuthOk_of_not_basic (py : Interpreter) {header : Text}
    (h : ∀ encoded, ¬ BasicCredentials header encoded) (secret : Text) :
    basicAuthOk py (some header) (some secret) = .ok false := by
  by_cases hSpace : 0x20 ∈ header
  · obtain ⟨scheme, remainder, rfl, hScheme⟩ := exists_split hSpace
    have hLower : py.lower scheme ≠ txt "basic" := fun hEq =>
      h _ ⟨scheme, remainder, rfl, (py.lower_eq_iff (by decide) (by decide) scheme).mp hEq, rfl⟩
    simp [basicAuthOk, partition_append hScheme, hLower]
  · simp [basicAuthOk, partition_absent hSpace]

theorem basicCredentials_unique {header encoded encoded' : Text} (h : BasicCredentials header encoded)
    (h' : BasicCredentials header encoded') : encoded = encoded' := by
  obtain ⟨scheme, remainder, rfl, hScheme, rfl⟩ := h
  obtain ⟨scheme', remainder', hHeader, hScheme', rfl⟩ := h'
  obtain ⟨_, rfl⟩ :=
    split_unique (no_space_of_basic hScheme) (no_space_of_basic hScheme') hHeader
  rfl

theorem asciiCredentials_nil (secret : Text) : AsciiCredentials [] secret :=
  ⟨rfl, fun user password h => absurd h (not_encodes_nil user password)⟩

theorem granted_iff_of_basic {header encoded : Text} (h : BasicCredentials header encoded)
    (secret : Text) :
    Granted (some header) (some secret) ↔ ∃ user, Encodes encoded user secret := by
  constructor
  · rintro ⟨header', secret', encoded', user, hHeader, hSecret, hCredentials, hUser⟩
    cases hHeader
    cases hSecret
    rw [basicCredentials_unique h hCredentials]
    exact ⟨user, hUser⟩
  · rintro ⟨user, hUser⟩
    exact ⟨header, secret, encoded, user, rfl, rfl, h, hUser⟩

theorem basicAuthOk_exact_iff_of_basic (py : Interpreter) {header encoded : Text}
    (h : BasicCredentials header encoded) (secret : Text) :
    Exact (basicAuthOk py (some header) (some secret)) (Granted (some header) (some secret)) ↔
      AsciiCredentials encoded secret := by
  rw [basicAuthOk_of_basic py h, granted_iff_of_basic h]
  split
  · rename_i hEmpty
    subst hEmpty
    exact ⟨fun _ => asciiCredentials_nil secret,
      fun _ => exact_false fun ⟨user, hUser⟩ => not_encodes_nil user secret hUser⟩
  · exact credentialsMatch_exact_iff encoded secret

/-- The decision is total and exact just where what it decodes and compares is ASCII. -/
theorem basicAuthOk_exact_iff (py : Interpreter) (header secret : Option Text) :
    Exact (basicAuthOk py header secret) (Granted header secret) ↔
      ∀ h s encoded, header = some h → secret = some s → BasicCredentials h encoded →
        AsciiCredentials encoded s := by
  cases secret with
  | none =>
    refine ⟨fun _ _ _ _ _ hs => (nomatch hs), fun _ => exact_false ?_⟩
    rintro ⟨h, s, encoded, user, _, hs, _⟩
    cases hs
  | some secret =>
    cases header with
    | none =>
      refine ⟨fun _ _ _ _ hh => (nomatch hh), fun _ => exact_false ?_⟩
      rintro ⟨h, s, encoded, user, hh, _⟩
      cases hh
    | some header =>
      by_cases hBasic : ∃ encoded, BasicCredentials header encoded
      · obtain ⟨encoded, hEncoded⟩ := hBasic
        rw [basicAuthOk_exact_iff_of_basic py hEncoded]
        constructor
        · rintro hAscii h s encoded' hh hs hCredentials
          cases hh
          cases hs
          rw [← basicCredentials_unique hEncoded hCredentials]
          exact hAscii
        · exact fun h => h header secret encoded rfl rfl hEncoded
      · have hNone : ∀ encoded, ¬ BasicCredentials header encoded := fun encoded h =>
          hBasic ⟨encoded, h⟩
        rw [basicAuthOk_of_not_basic py hNone]
        constructor
        · rintro _ h s encoded hh _ hCredentials
          cases hh
          exact absurd hCredentials (hNone encoded)
        · intro _
          apply exact_false
          rintro ⟨h, s, encoded, user, hh, _, hCredentials, _⟩
          cases hh
          exact hNone encoded hCredentials

/-- A header outside ASCII raises before it is decoded, and the right password of a
secret outside ASCII raises when it is compared. -/
theorem basicAuthOk_raises :
    ¬ Exact (basicAuthOk .ascii (some (txt "Basic é")) (some (txt "s")))
        (Granted (some (txt "Basic é")) (some (txt "s"))) ∧
      ¬ Exact (basicAuthOk .ascii (some (txt "Basic OsOp")) (some (txt "é")))
        (Granted (some (txt "Basic OsOp")) (some (txt "é"))) := by
  have hHeader : basicAuthOk .ascii (some (txt "Basic é")) (some (txt "s")) =
      .error ⟨.valueError, txt "string argument should contain only ASCII characters"⟩ := by
    decide +kernel
  have hSecret : basicAuthOk .ascii (some (txt "Basic OsOp")) (some (txt "é")) =
      .error ⟨.typeError, txt "comparing strings with non-ASCII characters is not supported"⟩ := by
    decide +kernel
  rw [hHeader, hSecret]
  exact ⟨not_exact_error _, not_exact_error _⟩

end LlmBus
