import LlmBus.Foundation.Interpreter

/-! # What `int` reads in base sixteen

The texts that `int(…, 16)` accepts, written as a grammar: spaces around, an optional sign,
an optional `0x` and digits with single underscores between them. The scanner of the
interpreter accepts exactly these, with the value the digits have.
-/

namespace Foundation.Interpreter

/-- Digits with single underscores between them; `ready` says that a digit stands before. -/
inductive DigitRun (base : Nat) : Bool → Text → List Nat → Prop
  | done : DigitRun base true [] []
  | digit {ready : Bool} {c : CodePoint} {d : Nat} {s : Text} {ds : List Nat}
      (hValue : digitValue c = some d) (hLt : d < base) (hRest : DigitRun base true s ds) :
      DigitRun base ready (c :: s) (d :: ds)
  | gap {s : Text} {ds : List Nat} (hRest : DigitRun base false s ds) :
      DigitRun base true (0x5F :: s) ds

def digitsValue (base acc : Nat) (ds : List Nat) : Nat :=
  ds.foldl (fun acc d => acc * base + d) acc

def signs : List (Text × Bool) :=
  [([], false), (txt "+", false), (txt "-", true)]

def markers : List Text :=
  [[], txt "0x", txt "0X", txt "0x_", txt "0X_"]

inductive HexLiteral : Text → ℤ → Prop
  | mk {before marker body after : Text} {sign : Text × Bool} {ds : List Nat}
      (hBefore : before.all isAsciiSpace = true) (hSign : sign ∈ signs) (hMarker : marker ∈ markers)
      (hBody : DigitRun 16 false body ds) (hAfter : after.all isAsciiSpace = true) :
      HexLiteral (before ++ (sign.1 ++ (marker ++ (body ++ after))))
        (if sign.2 then -(digitsValue 16 0 ds : ℤ) else digitsValue 16 0 ds)

variable {base acc n : Nat} {ready : Bool} {c : CodePoint} {s body after rest : Text} {ds : List Nat}

theorem digitValue_of_isAsciiSpace (h : isAsciiSpace c = true) : digitValue c = none := by
  simp only [isAsciiSpace, Bool.or_eq_true, Bool.and_eq_true, decide_eq_true_eq, beq_iff_eq] at h
  rw [digitValue, if_neg (by omega), if_neg (by omega), if_neg (by omega)]

theorem ne_underscore_of_isAsciiSpace (h : isAsciiSpace c = true) : c ≠ 0x5F := by
  rintro rfl
  cases h

theorem ne_underscore_of_digitValue {d : Nat} (h : digitValue c = some d) : c ≠ 0x5F := by
  rintro rfl
  cases h

/-! ### The digits -/

/-- What follows the digits is left over, as long as it is only spaces. -/
theorem DigitRun.scanDigits_eq (h : DigitRun base ready body ds)
    (hAfter : after.all isAsciiSpace = true) (acc : Nat) :
    scanDigits base acc ready (body ++ after) = some (digitsValue base acc ds, after) := by
  induction h generalizing acc with
  | done =>
    cases after with
    | nil => rfl
    | cons c after =>
      have hSpace : isAsciiSpace c = true := List.all_eq_true.mp hAfter c List.mem_cons_self
      rw [List.nil_append, scanDigits, if_neg (ne_underscore_of_isAsciiSpace hSpace),
        digitValue_of_isAsciiSpace hSpace]
      rfl
  | @digit ready c d s ds hValue hLt hRest ih =>
    rw [List.cons_append, scanDigits, if_neg (ne_underscore_of_digitValue hValue), hValue,
      Option.filter_some, if_pos (by simpa using hLt)]
    exact ih (acc * base + d)
  | gap hRest ih =>
    rw [List.cons_append, scanDigits, if_pos rfl]
    exact ih acc

theorem exists_digitRun_of_scanDigits (h : scanDigits base acc ready s = some (n, rest)) :
    ∃ body ds, s = body ++ rest ∧ DigitRun base ready body ds ∧ n = digitsValue base acc ds := by
  induction s generalizing acc ready with
  | nil =>
    cases ready with
    | false => cases h
    | true =>
      cases h
      exact ⟨[], [], rfl, .done, rfl⟩
  | cons c s ih =>
    rw [scanDigits] at h
    by_cases hUnderscore : c = 0x5F
    · subst hUnderscore
      rw [if_pos rfl] at h
      cases ready with
      | false => cases h
      | true =>
        obtain ⟨body, ds, rfl, hRun, hValue⟩ := ih h
        exact ⟨0x5F :: body, ds, rfl, .gap hRun, hValue⟩
    · rw [if_neg hUnderscore] at h
      cases hDigit : (digitValue c).filter (· < base) with
      | none =>
        rw [hDigit] at h
        cases ready with
        | false => cases h
        | true =>
          cases h
          exact ⟨[], [], rfl, .done, rfl⟩
      | some d =>
        rw [hDigit] at h
        obtain ⟨hValue, hLt⟩ := Option.filter_eq_some_iff.mp hDigit
        obtain ⟨body, ds, rfl, hRun, hTotal⟩ := ih h
        exact ⟨c :: body, d :: ds, rfl, .digit hValue (by simpa using hLt) hRun, hTotal⟩

theorem DigitRun.head (h : DigitRun base false body ds) :
    ∃ c d rest, body = c :: rest ∧ digitValue c = some d ∧ d < base := by
  cases h with
  | digit hValue hLt hRest => exact ⟨_, _, _, rfl, hValue, hLt⟩

theorem DigitRun.isSome_digitValue (h : DigitRun base false body ds) (after : Text) :
    ∀ c rest, body ++ after = c :: rest → (digitValue c).isSome = true := by
  obtain ⟨e, d, tail, rfl, hValue, _⟩ := h.head
  intro c rest hText
  rw [← (List.cons.inj hText).1, hValue]
  rfl

theorem DigitRun.start (h : DigitRun base true body ds) (hNonempty : body ≠ [])
    (hUnderscore : 0x5F ∉ body) : DigitRun base false body ds := by
  cases h with
  | done => exact absurd rfl hNonempty
  | digit hValue hLt hRest => exact .digit hValue hLt hRest
  | gap hRest => exact absurd List.mem_cons_self hUnderscore

theorem DigitRun.append {es : List Nat} (h : DigitRun base ready body ds)
    (h' : DigitRun base true rest es) : DigitRun base ready (body ++ rest) (ds ++ es) := by
  induction h with
  | done => exact h'
  | digit hValue hLt hRest ih => exact .digit hValue hLt ih
  | gap hRest ih => exact .gap ih

theorem digitsValue_append_singleton (base acc : Nat) (ds : List Nat) (d : Nat) :
    digitsValue base acc (ds ++ [d]) = digitsValue base acc ds * base + d := by
  simp only [digitsValue, List.foldl_append, List.foldl_cons, List.foldl_nil]

/-! ### The sign and the marker -/

theorem exists_sign (s : Text) : ∃ sign ∈ signs, s = sign.1 ++ (scanSign s).2 ∧ sign.2 = (scanSign s).1 := by
  unfold scanSign
  split
  · exact ⟨(txt "+", false), by decide, rfl, rfl⟩
  · exact ⟨(txt "-", true), by decide, rfl, rfl⟩
  · exact ⟨([], false), by decide, rfl, rfl⟩

theorem exists_marker (s : Text) : ∃ marker ∈ markers, s = marker ++ scanPrefix 16 s := by
  unfold scanPrefix
  split
  · rename_i c s
    by_cases hX : c = 0x78 ∨ c = 0x58
    · rw [if_pos ⟨rfl, hX⟩]
      cases hX with
      | inl hSmall =>
        subst hSmall
        split
        · exact ⟨txt "0x_", by decide, rfl⟩
        · exact ⟨txt "0x", by decide, rfl⟩
      | inr hLarge =>
        subst hLarge
        split
        · exact ⟨txt "0X_", by decide, rfl⟩
        · exact ⟨txt "0X", by decide, rfl⟩
    · rw [if_neg fun h => hX h.2]
      exact ⟨[], by decide, rfl⟩
  · exact ⟨[], by decide, rfl⟩

theorem scanSign_append {sign : Text × Bool} (hSign : sign ∈ signs)
    (hHead : ∀ c rest, s = c :: rest → (digitValue c).isSome = true) :
    scanSign (sign.1 ++ s) = (sign.2, s) := by
  simp only [signs, List.mem_cons, List.not_mem_nil, or_false] at hSign
  rcases hSign with rfl | rfl | rfl
  · rw [List.nil_append]
    unfold scanSign
    split
    · exact absurd (hHead _ _ rfl) (by decide)
    · exact absurd (hHead _ _ rfl) (by decide)
    · rfl
  · rfl
  · rfl

theorem scanPrefix_marked {x : CodePoint} (hX : x = 0x78 ∨ x = 0x58) (hDigit : c ≠ 0x5F) (s : Text) :
    scanPrefix 16 (0x30 :: x :: c :: s) = c :: s := by
  rw [scanPrefix, if_pos ⟨rfl, hX⟩]
  intro rest h
  exact hDigit (List.cons.inj h).1

/-- After a digit comes a digit, an underscore or a space, and no `x` is any of them. -/
theorem DigitRun.no_marker (h : DigitRun 16 true body ds) (hAfter : after.all isAsciiSpace = true) :
    ∀ x t, body ++ after = x :: t → ¬ (x = 0x78 ∨ x = 0x58) := by
  intro x t hText hX
  have hValue : digitValue x = some 33 := by
    cases hX with
    | inl hSmall => rw [hSmall]; rfl
    | inr hLarge => rw [hLarge]; rfl
  cases h with
  | done =>
    rw [List.nil_append] at hText
    have hSpace : isAsciiSpace x = true := List.all_eq_true.mp hAfter x (hText ▸ List.mem_cons_self)
    rw [digitValue_of_isAsciiSpace hSpace] at hValue
    cases hValue
  | digit hDigit hLt hRest =>
    cases hText
    rw [hValue] at hDigit
    cases hDigit
    exact absurd hLt (by decide)
  | gap hRest =>
    cases hText
    cases hValue

theorem scanPrefix_append {marker : Text} (hMarker : marker ∈ markers)
    (hBody : DigitRun 16 false body ds) (hAfter : after.all isAsciiSpace = true) :
    scanPrefix 16 (marker ++ (body ++ after)) = body ++ after := by
  cases hBody with
  | @digit _ c d s ds hValue hLt hRest =>
    have hDigit := ne_underscore_of_digitValue hValue
    simp only [markers, List.mem_cons, List.not_mem_nil, or_false] at hMarker
    rcases hMarker with rfl | rfl | rfl | rfl | rfl
    · have hNoMarker := hRest.no_marker hAfter
      rw [List.nil_append, List.cons_append]
      unfold scanPrefix
      split
      · rename_i heq
        obtain ⟨rfl, hTail⟩ := List.cons.inj heq
        rw [if_neg fun hX => hNoMarker _ _ hTail hX.2, hTail]
      · rfl
    · exact scanPrefix_marked (.inl rfl) hDigit _
    · exact scanPrefix_marked (.inr rfl) hDigit _
    · rfl
    · rfl

/-! ### The whole text -/

variable (py : Interpreter)

def folded (s : Text) : Text :=
  if asciiText s then s else py.foldDigits s

theorem dropWhile_isAsciiSpace_append {before : Text} (hBefore : before.all isAsciiSpace = true)
    (hHead : ∀ c rest, s = c :: rest → isAsciiSpace c = false) :
    (before ++ s).dropWhile isAsciiSpace = s := by
  rw [List.dropWhile_append_of_pos (List.all_eq_true.mp hBefore)]
  cases s with
  | nil => rfl
  | cons c rest => exact List.dropWhile_cons_of_neg (by simp [hHead c rest rfl])

theorem isSome_digitValue_head {marker : Text} (hMarker : marker ∈ markers)
    (hBody : DigitRun 16 false body ds) (after : Text) :
    ∀ c rest, marker ++ (body ++ after) = c :: rest → (digitValue c).isSome = true := by
  intro c rest h
  simp only [markers, List.mem_cons, List.not_mem_nil, or_false] at hMarker
  rcases hMarker with rfl | rfl | rfl | rfl | rfl
  · exact hBody.isSome_digitValue after c rest h
  all_goals
    rw [← (List.cons.inj h).1]
    decide

theorem isAsciiSpace_head {sign : Text × Bool} (hSign : sign ∈ signs)
    (hHead : ∀ c rest, s = c :: rest → (digitValue c).isSome = true) :
    ∀ c rest, sign.1 ++ s = c :: rest → isAsciiSpace c = false := by
  intro c rest h
  simp only [signs, List.mem_cons, List.not_mem_nil, or_false] at hSign
  rcases hSign with rfl | rfl | rfl
  · rw [Bool.eq_false_iff]
    intro hSpace
    have hDigit := hHead c rest h
    rw [digitValue_of_isAsciiSpace hSpace] at hDigit
    cases hDigit
  all_goals
    rw [← (List.cons.inj h).1]
    decide

theorem parseInt_sixteen (s : Text) :
    py.parseInt 16 s =
      (scanDigits 16 0 false
        (scanPrefix 16 (scanSign ((py.folded s).dropWhile isAsciiSpace)).2)).bind fun scanned =>
          if scanned.2.all isAsciiSpace then
            some (if (scanSign ((py.folded s).dropWhile isAsciiSpace)).1 then -(scanned.1 : ℤ)
              else scanned.1)
          else none := by
  simp only [parseInt, folded, if_neg (fun h : (16 = 10 ∧ _) => absurd h.1 (by decide))]
  cases scanDigits 16 0 false (scanPrefix 16 (scanSign
      ((if asciiText s then s else py.foldDigits s).dropWhile isAsciiSpace)).2) with
  | none => rfl
  | some scanned => rfl

theorem parseInt_of_hexLiteral {n : ℤ} (h : HexLiteral (py.folded s) n) : py.parseInt 16 s = some n := by
  rw [parseInt_sixteen]
  generalize py.folded s = t at h ⊢
  cases h with
  | @mk before marker body after sign ds hBefore hSign hMarker hBody hAfter =>
    have hDigit := isSome_digitValue_head hMarker hBody after
    rw [dropWhile_isAsciiSpace_append hBefore (isAsciiSpace_head hSign hDigit),
      scanSign_append hSign hDigit, scanPrefix_append hMarker hBody hAfter,
      hBody.scanDigits_eq hAfter, Option.bind_some, if_pos hAfter]

theorem hexLiteral_of_parseInt {n : ℤ} (h : py.parseInt 16 s = some n) : HexLiteral (py.folded s) n := by
  rw [parseInt_sixteen] at h
  generalize py.folded s = t at h ⊢
  obtain ⟨sign, hSign, hUnsigned, hNegative⟩ := exists_sign (t.dropWhile isAsciiSpace)
  obtain ⟨marker, hMarker, hDigits⟩ := exists_marker (scanSign (t.dropWhile isAsciiSpace)).2
  obtain ⟨scanned, hScan, hValue⟩ := Option.bind_eq_some_iff.mp h
  obtain ⟨body, ds, hBody, hRun, hTotal⟩ := exists_digitRun_of_scanDigits hScan
  have hSpaces : (t.takeWhile isAsciiSpace).all isAsciiSpace = true :=
    List.all_eq_true.mpr fun c hc => List.mem_takeWhile_imp hc
  rw [Option.ite_none_right_eq_some, ← hNegative, hTotal] at hValue
  obtain ⟨hAfter, hValue⟩ := hValue
  have hText : t = t.takeWhile isAsciiSpace ++ (sign.1 ++ (marker ++ (body ++ scanned.2))) := by
    rw [← hBody, ← hDigits, ← hUnsigned, List.takeWhile_append_dropWhile]
  rw [hText, ← Option.some.inj hValue]
  exact .mk hSpaces hSign hMarker hRun hAfter

theorem parseInt_of_digitRun (hAscii : asciiText s = true) (h : DigitRun 16 false s ds) :
    py.parseInt 16 s = some (digitsValue 16 0 ds : ℤ) := by
  have hPlain := @HexLiteral.mk [] [] s [] ([], false) ds rfl (by decide) (by decide) h rfl
  apply parseInt_of_hexLiteral
  rw [folded, if_pos hAscii]
  simpa using hPlain

/-! ### The size of the number -/

theorem DigitRun.digitsValue_lt (hBase : 0 < base) (h : DigitRun base ready body ds) (acc : Nat) :
    digitsValue base acc ds < (acc + 1) * base ^ body.length := by
  induction h generalizing acc with
  | done => exact (Nat.lt_succ_self acc).trans_eq (by simp)
  | @digit ready c d s ds hValue hLt hRest ih =>
    have hStep : acc * base + d + 1 ≤ (acc + 1) * base := by
      rw [Nat.succ_mul]
      omega
    calc
      digitsValue base acc (d :: ds) < (acc * base + d + 1) * base ^ s.length := ih (acc * base + d)
      _ ≤ (acc + 1) * base * base ^ s.length := Nat.mul_le_mul_right _ hStep
      _ = (acc + 1) * base ^ (c :: s).length := by rw [List.length_cons, pow_succ', mul_assoc]
  | @gap s ds hRest ih =>
    apply (ih acc).trans_le
    exact Nat.mul_le_mul_left _ (Nat.pow_le_pow_right hBase (Nat.le_succ s.length))

theorem HexLiteral.lt {n : ℤ} (h : HexLiteral s n) : n < 16 ^ s.length := by
  cases h with
  | @mk before marker body after sign ds hBefore hSign hMarker hBody hAfter =>
    have hValue := hBody.digitsValue_lt (by decide) 0
    rw [Nat.zero_add, Nat.one_mul] at hValue
    have hLength : body.length ≤ (before ++ (sign.1 ++ (marker ++ (body ++ after)))).length := by
      simp only [List.length_append]
      omega
    have hBound : digitsValue 16 0 ds < 16 ^ (before ++ (sign.1 ++ (marker ++ (body ++ after)))).length :=
      hValue.trans_le (Nat.pow_le_pow_right (by decide) hLength)
    have hCast : (digitsValue 16 0 ds : ℤ) <
        16 ^ (before ++ (sign.1 ++ (marker ++ (body ++ after)))).length := by
      exact_mod_cast hBound
    split
    · omega
    · exact hCast

theorem length_folded_le (s : Text) : (py.folded s).length ≤ s.length := by
  have hFold : ∀ t : Text, (py.foldDigits t).length ≤ t.length := by
    intro t
    induction t with
    | nil => rfl
    | cons c t ih =>
      rw [foldDigits]
      split
      · exact Nat.succ_le_succ ih
      split
      · exact Nat.succ_le_succ ih
      split
      · exact Nat.succ_le_succ ih
      · exact Nat.succ_le_succ (Nat.zero_le _)
  rw [folded]
  split
  · exact le_rfl
  · exact hFold s

/-! ### Plain digits -/

def isHexDigit (c : CodePoint) : Bool :=
  (0x30 ≤ c.val && c.val ≤ 0x39) || (0x41 ≤ c.val && c.val ≤ 0x46) || (0x61 ≤ c.val && c.val ≤ 0x66)

/-- The value of a digit is the one its lower-case form is written for. -/
theorem exists_digitValue (h : isHexDigit c = true) :
    ∃ d, digitValue c = some d ∧ d < 16 ∧ hexDigit d = asciiLowerChar c := by
  simp only [isHexDigit, Bool.or_eq_true, Bool.and_eq_true, decide_eq_true_eq] at h
  have hSame : ∀ n : Nat, n = c.val → Fin.ofNat 0x110000 n = c := by
    rintro n rfl
    exact Fin.ofNat_val_eq_self c
  rcases h with (h | h) | h
  · refine ⟨c.val - 0x30, by rw [digitValue, if_pos h], by omega, ?_⟩
    rw [hexDigit, if_pos (by omega), asciiLowerChar, if_neg (by omega)]
    exact hSame _ (by omega)
  · refine ⟨c.val - 0x37, by rw [digitValue, if_neg (by omega), if_neg (by omega), if_pos (by omega)],
      by omega, ?_⟩
    rw [hexDigit, if_neg (by omega), asciiLowerChar, if_pos (by omega)]
    congr 1
    omega
  · refine ⟨c.val - 0x57, by rw [digitValue, if_neg (by omega), if_pos (by omega)], by omega, ?_⟩
    rw [hexDigit, if_neg (by omega), asciiLowerChar, if_neg (by omega)]
    exact hSame _ (by omega)

theorem isAscii_of_isHexDigit (h : isHexDigit c = true) : isAscii c = true := by
  simp only [isHexDigit, Bool.or_eq_true, Bool.and_eq_true, decide_eq_true_eq] at h
  simp only [isAscii, decide_eq_true_eq]
  omega

theorem exists_digitRun (h : s.all isHexDigit = true) :
    ∃ ds, DigitRun 16 true s ds ∧ ds.length = s.length ∧ ds.map hexDigit = asciiLower s ∧
      ∀ d ∈ ds, d < 16 := by
  induction s with
  | nil => exact ⟨[], .done, rfl, rfl, fun d hd => absurd hd List.not_mem_nil⟩
  | cons c s ih =>
    rw [List.all_cons, Bool.and_eq_true] at h
    obtain ⟨d, hValue, hLt, hLower⟩ := exists_digitValue h.1
    obtain ⟨ds, hRun, hLength, hText, hAll⟩ := ih h.2
    refine ⟨d :: ds, .digit hValue hLt hRun, congrArg (· + 1) hLength, ?_, ?_⟩
    · rw [List.map_cons, hLower, hText]
      rfl
    · exact List.forall_mem_cons.mpr ⟨hLt, hAll⟩

theorem hexText_digitsValue {ds : List Nat} (h : ∀ d ∈ ds, d < 16) :
    hexText ds.length (digitsValue 16 0 ds) = ds.map hexDigit := by
  induction ds using List.reverseRecOn with
  | nil => rfl
  | append_singleton ds d ih =>
    have hLt : d < 16 := h d (List.mem_append_right _ List.mem_cons_self)
    rw [List.length_append, List.length_singleton, hexText, digitsValue_append_singleton,
      List.map_append, List.map_singleton, ← ih fun e he => h e (List.mem_append_left _ he)]
    congr 3
    · omega
    · omega

theorem exists_parseInt_of_isHexDigit (h : s.all isHexDigit = true) (hs : s ≠ []) :
    ∃ n : Nat, py.parseInt 16 s = some (n : ℤ) ∧ hexText s.length n = asciiLower s := by
  obtain ⟨ds, hRun, hLength, hText, hAll⟩ := exists_digitRun h
  have hUnderscore : (0x5F : CodePoint) ∉ s := by
    intro hMem
    have hDigit := List.all_eq_true.mp h _ hMem
    cases hDigit
  have hAscii : asciiText s = true :=
    List.all_eq_true.mpr fun c hc => isAscii_of_isHexDigit (List.all_eq_true.mp h c hc)
  refine ⟨digitsValue 16 0 ds, parseInt_of_digitRun py hAscii (hRun.start hs hUnderscore), ?_⟩
  rw [← hLength, hexText_digitsValue hAll, hText]

end Foundation.Interpreter
