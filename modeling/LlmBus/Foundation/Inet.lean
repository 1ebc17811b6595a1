import LlmBus.Foundation.Interpreter

/-! # Numeric addresses of the fourth version

`inet_aton` reads one to four parts, each in decimal, octal or hexadecimal, the last of
which fills the bytes that remain. One address therefore has unboundedly many spellings;
those of the wildcard are characterised below.
-/

namespace Foundation.Inet

open Interpreter

/-- All of the text as digits of the base, after what has been read before it. -/
def readDigits (base : Nat) : Nat → Text → Option Nat
  | acc, [] => some acc
  | acc, c :: s =>
    match (digitValue c).filter (· < base) with
    | some d => readDigits base (acc * base + d) s
    | none => none

/-- `strtoul` with base 0, of a text that starts with a digit and is read to its end. -/
def readPart : Text → Option Nat
  | [] => none
  | [c] => readDigits 10 0 [c]
  | c :: d :: s =>
    if c = 0x30 then
      if (d = 0x78 ∨ d = 0x58) ∧ s ≠ [] then readDigits 16 0 s else readDigits 8 0 (d :: s)
    else readDigits 10 0 (c :: d :: s)

def assemble : List Nat → Option Nat
  | [a] => if a < 2 ^ 32 then some a else none
  | [a, b] => if a < 2 ^ 8 ∧ b < 2 ^ 24 then some (a * 2 ^ 24 + b) else none
  | [a, b, c] =>
    if a < 2 ^ 8 ∧ b < 2 ^ 8 ∧ c < 2 ^ 16 then some (a * 2 ^ 24 + b * 2 ^ 16 + c) else none
  | [a, b, c, d] =>
    if a < 2 ^ 8 ∧ b < 2 ^ 8 ∧ c < 2 ^ 8 ∧ d < 2 ^ 8 then
      some (a * 2 ^ 24 + b * 2 ^ 16 + c * 2 ^ 8 + d)
    else none
  | _ => none

def inetAton (s : Text) : Option Nat :=
  ((s.splitOn 0x2E).mapM readPart).bind assemble

/-- Zeros only, or zeros only behind the prefix of base sixteen. -/
def zeroPart : Text → Bool
  | [] => false
  | [c] => c == 0x30
  | c :: d :: s =>
    c == 0x30 && (if (d = 0x78 ∨ d = 0x58) ∧ s ≠ [] then s.all (· == 0x30) else (d :: s).all (· == 0x30))

/-- The spellings of `0.0.0.0`. -/
def spellsZero (s : Text) : Bool :=
  let parts := s.splitOn 0x2E
  decide (parts.length ≤ 4) && parts.all zeroPart

theorem digitValue_eq_zero_iff {c : CodePoint} : digitValue c = some 0 ↔ c = 0x30 := by
  constructor
  · intro h
    unfold digitValue at h
    split at h
    · rename_i hDigit
      apply Fin.ext
      have hVal : c.val - 0x30 = 0 := Option.some.inj h
      change c.val = 0x30
      omega
    split at h
    · rename_i hLower
      have hVal : c.val - 0x57 = 0 := Option.some.inj h
      omega
    split at h
    · rename_i hUpper
      have hVal : c.val - 0x37 = 0 := Option.some.inj h
      omega
    · cases h
  · rintro rfl
    decide

theorem readDigits_eq_zero_iff {base acc : Nat} (hBase : 0 < base) {s : Text} :
    readDigits base acc s = some 0 ↔ acc = 0 ∧ s.all (· == 0x30) = true := by
  induction s generalizing acc with
  | nil => simp [readDigits]
  | cons c s ih =>
    rw [readDigits, List.all_cons, Bool.and_eq_true, beq_iff_eq, ← digitValue_eq_zero_iff]
    cases hDigit : digitValue c with
    | none => simp
    | some d =>
      by_cases hLt : d < base
      · have hFilter : (some d).filter (fun d => decide (d < base)) = some d := by simp [hLt]
        rw [hFilter]
        simp only [ih, Option.some.injEq, Nat.add_eq_zero_iff, Nat.mul_eq_zero, hBase.ne', or_false]
        exact and_assoc
      · have hFilter : (some d).filter (fun d => decide (d < base)) = none := by
          simpa using Nat.not_lt.mp hLt
        rw [hFilter]
        have hNe : d ≠ 0 := by omega
        simp [hNe]

theorem readPart_eq_zero_iff {s : Text} : readPart s = some 0 ↔ zeroPart s = true := by
  match s with
  | [] => simp [readPart, zeroPart]
  | [c] =>
    rw [readPart, zeroPart, readDigits_eq_zero_iff (by decide)]
    simp
  | c :: d :: s =>
    rw [readPart, zeroPart]
    by_cases hZero : c = 0x30
    · simp only [hZero, beq_self_eq_true, Bool.true_and, if_true]
      split
      · simp [readDigits_eq_zero_iff]
      · simp [readDigits_eq_zero_iff]
    · simp [hZero, readDigits_eq_zero_iff]

theorem assemble_eq_zero_iff {parts : List Nat} (h : parts ≠ []) :
    assemble parts = some 0 ↔ parts.length ≤ 4 ∧ ∀ a ∈ parts, a = 0 := by
  match parts with
  | [] => exact absurd rfl h
  | [a] =>
    simp only [assemble, Option.ite_none_right_eq_some, Option.some.injEq]
    constructor
    · rintro ⟨_, rfl⟩
      simp
    · rintro ⟨_, hAll⟩
      have ha := hAll a (by simp)
      omega
  | [a, b] =>
    simp only [assemble, Option.ite_none_right_eq_some, Option.some.injEq]
    constructor
    · rintro ⟨_, hSum⟩
      simp only [List.length_cons, List.length_nil, List.mem_cons, List.not_mem_nil, or_false,
        forall_eq_or_imp, forall_eq]
      omega
    · rintro ⟨_, hAll⟩
      have ha := hAll a (by simp)
      have hb := hAll b (by simp)
      omega
  | [a, b, c] =>
    simp only [assemble, Option.ite_none_right_eq_some, Option.some.injEq]
    constructor
    · rintro ⟨_, hSum⟩
      simp only [List.length_cons, List.length_nil, List.mem_cons, List.not_mem_nil, or_false,
        forall_eq_or_imp, forall_eq]
      omega
    · rintro ⟨_, hAll⟩
      have ha := hAll a (by simp)
      have hb := hAll b (by simp)
      have hc := hAll c (by simp)
      omega
  | [a, b, c, d] =>
    simp only [assemble, Option.ite_none_right_eq_some, Option.some.injEq]
    constructor
    · rintro ⟨_, hSum⟩
      simp only [List.length_cons, List.length_nil, List.mem_cons, List.not_mem_nil, or_false,
        forall_eq_or_imp, forall_eq]
      omega
    · rintro ⟨_, hAll⟩
      have ha := hAll a (by simp)
      have hb := hAll b (by simp)
      have hc := hAll c (by simp)
      have hd := hAll d (by simp)
      omega
  | a :: b :: c :: d :: e :: rest =>
    simp [assemble]

theorem mapM_readPart_cons_eq_some_iff {p : Text} {rest : List Text} {as : List Nat} :
    (p :: rest).mapM readPart = some as ↔
      ∃ a bs, readPart p = some a ∧ rest.mapM readPart = some bs ∧ as = a :: bs := by
  simp only [List.mapM_cons, Option.bind_eq_bind, Option.bind_eq_some_iff, Option.pure_def,
    Option.some.injEq]
  constructor
  · rintro ⟨a, hFirst, bs, hRest, rfl⟩
    exact ⟨a, bs, hFirst, hRest, rfl⟩
  · rintro ⟨a, bs, hFirst, hRest, rfl⟩
    exact ⟨a, hFirst, bs, hRest, rfl⟩

theorem exists_mapM_zero_iff {parts : List Text} :
    (∃ as, parts.mapM readPart = some as ∧ as.length = parts.length ∧ ∀ a ∈ as, a = 0) ↔
      ∀ p ∈ parts, zeroPart p = true := by
  induction parts with
  | nil => simp
  | cons p rest ih =>
    rw [List.forall_mem_cons, ← ih, ← readPart_eq_zero_iff]
    constructor
    · rintro ⟨as, hRead, hLength, hZero⟩
      obtain ⟨a, bs, hFirst, hRest, rfl⟩ := mapM_readPart_cons_eq_some_iff.mp hRead
      obtain ⟨rfl, hZeros⟩ := List.forall_mem_cons.mp hZero
      exact ⟨hFirst, bs, hRest, Nat.succ.inj hLength, hZeros⟩
    · rintro ⟨hFirst, bs, hRest, hLength, hZeros⟩
      exact ⟨0 :: bs, mapM_readPart_cons_eq_some_iff.mpr ⟨0, bs, hFirst, hRest, rfl⟩,
        congrArg (· + 1) hLength, List.forall_mem_cons.mpr ⟨rfl, hZeros⟩⟩

theorem length_of_mapM_readPart {parts : List Text} {as : List Nat} (h : parts.mapM readPart = some as) :
    as.length = parts.length := by
  induction parts generalizing as with
  | nil =>
    cases h
    rfl
  | cons p rest ih =>
    obtain ⟨a, bs, _, hRest, rfl⟩ := mapM_readPart_cons_eq_some_iff.mp h
    exact congrArg (· + 1) (ih hRest)

/-- A wildcard is spelled with zeros in every part, and in no other way. -/
theorem inetAton_eq_zero_iff {s : Text} : inetAton s = some 0 ↔ spellsZero s = true := by
  have hSome : s.splitOn 0x2E ≠ [] := List.splitOn_ne_nil _ _
  rw [spellsZero, Bool.and_eq_true, decide_eq_true_eq, List.all_eq_true, ← exists_mapM_zero_iff,
    inetAton, Option.bind_eq_some_iff]
  constructor
  · rintro ⟨as, hRead, hZero⟩
    have hLength := length_of_mapM_readPart hRead
    have hNe : as ≠ [] := by
      rintro rfl
      exact hSome (List.length_eq_zero_iff.mp hLength.symm)
    obtain ⟨hFour, hZeros⟩ := (assemble_eq_zero_iff hNe).mp hZero
    exact ⟨hLength ▸ hFour, as, hRead, hLength, hZeros⟩
  · rintro ⟨hFour, as, hRead, hLength, hZeros⟩
    have hNe : as ≠ [] := by
      rintro rfl
      exact hSome (List.length_eq_zero_iff.mp hLength.symm)
    exact ⟨as, hRead, (assemble_eq_zero_iff hNe).mpr ⟨hLength.trans_le hFour, hZeros⟩⟩

/-! ### Binding a host -/

/-- What the socket layer consults beyond the numbers: the codec of international names
and the name service. -/
structure Resolver where
  idna : Text → Option Text
  lookup : Text → Option Nat

namespace Resolver

variable (net : Resolver)

/-- The name as it reaches the resolver; `none` where the socket call raises on it. -/
def encoded (host : Text) : Option Text :=
  let name := if asciiText host then some host else net.idna host
  name.filter fun name => !name.contains 0

def broadcast (name : Text) : Bool :=
  name == txt "255.255.255.255" || name == txt "<broadcast>"

/-- The address that `bind` of an `AF_INET` socket takes the host for. -/
def bindAddress (host : Text) : Option Nat :=
  (net.encoded host).bind fun name =>
    if name = [] then some 0
    else if broadcast name then some (2 ^ 32 - 1)
    else (inetAton name).or (net.lookup name)

/-- The host is a spelling of the wildcard, or a name that the name service has for it. -/
def Wild (host : Text) : Prop :=
  ∃ name, net.encoded host = some name ∧
    (name = [] ∨ spellsZero name = true ∨
      broadcast name = false ∧ inetAton name = none ∧ net.lookup name = some 0)

theorem broadcast_of_spellsZero {name : Text} (h : spellsZero name = true) : broadcast name = false := by
  rw [broadcast, Bool.or_eq_false_iff, beq_eq_false_iff_ne, beq_eq_false_iff_ne]
  constructor
  · rintro rfl
    revert h
    decide
  · rintro rfl
    revert h
    decide

theorem bindAddress_eq_zero_iff {host : Text} : net.bindAddress host = some 0 ↔ net.Wild host := by
  rw [bindAddress, Option.bind_eq_some_iff, Wild]
  refine exists_congr fun name => and_congr_right fun _ => ?_
  by_cases hEmpty : name = []
  · simp [hEmpty]
  rw [if_neg hEmpty]
  cases hBroadcast : broadcast name with
  | true =>
    have hNumber : spellsZero name ≠ true := by
      intro hZero
      rw [broadcast_of_spellsZero hZero] at hBroadcast
      cases hBroadcast
    simp [hEmpty, hNumber]
  | false =>
    rw [← inetAton_eq_zero_iff]
    cases hNumber : inetAton name with
    | none => simp [hEmpty]
    | some a => simp [hEmpty]

end Resolver

end Foundation.Inet
