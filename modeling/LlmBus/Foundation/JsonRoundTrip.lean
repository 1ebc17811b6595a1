import LlmBus.Foundation.JsonTokens

/-! # What JSON text reads back as

Every tree whose numbers can be read comes back from its text, with the pairs in its strings
and keys joined.
-/

namespace Foundation.JsonText

/-! ### Items between brackets -/

/-- A character that an item can begin with. -/
def startsItem (c : CodePoint) : Bool :=
  !isBlank c && c != 0x5D && c != 0x7D

/-- The reader takes exactly the text, and has the value of it. -/
structure Reads {α : Type} (item : Text → Option (α × Text)) (text : Text) (value : α) : Prop where
  starts : ∃ c s, text = c :: s ∧ startsItem c = true
  reads : ∀ rest, endsNumber rest = true → item (text ++ rest) = some (value, rest)

theorem skip_cons {c : CodePoint} (h : isBlank c = false) (s : Text) : skip (c :: s) = c :: s := by
  rw [skip, List.dropWhile_cons, h, if_neg Bool.false_ne_true]

theorem not_isBlank_of_startsItem {c : CodePoint} (h : startsItem c = true) : isBlank c = false := by
  simp only [startsItem, Bool.and_eq_true, Bool.not_eq_true'] at h
  exact h.1.1

section Items

variable {α : Type} {item : Text → Option (α × Text)} {closing : CodePoint}

theorem Reads.skip_append {text : Text} {value : α} (h : Reads item text value) (rest : Text) :
    skip (text ++ rest) = text ++ rest := by
  obtain ⟨c, s, hText, hStarts⟩ := h.starts
  rw [hText, List.cons_append]
  exact skip_cons (not_isBlank_of_startsItem hStarts) _

/-- What is asked of a closing bracket. -/
structure Closes (closing : CodePoint) : Prop where
  not_comma : closing ≠ 0x2C
  not_blank : isBlank closing = false
  ends : ∀ rest, endsNumber (closing :: rest) = true
  not_item : startsItem closing = false

theorem scanItems_intercalate (hClosing : Closes closing) {texts : List Text} {values : List α}
    (h : List.Forall₂ (Reads item) texts values) {n : Nat} (hLength : texts.length ≤ n)
    (hNonempty : texts ≠ []) (rest : Text) :
    scanItems closing item n (List.intercalate [0x2C, 0x20] texts ++ closing :: rest) =
      some (values, rest) := by
  induction h generalizing n with
  | nil => exact absurd rfl hNonempty
  | @cons text value texts values hFirst hRest ih =>
    cases n with
    | zero => exact absurd hLength (Nat.not_succ_le_zero _)
    | succ n =>
      cases hRest with
      | nil =>
        rw [List.intercalate_singleton, scanItems, hFirst.reads _ (hClosing.ends rest)]
        simp only [skip_cons hClosing.not_blank, if_true]
      | @cons second value' texts' values' hSecond hTail =>
        have hMore := ih (Nat.le_of_succ_le_succ hLength) (List.cons_ne_nil _ _)
        have hComma : ∀ s, endsNumber (0x2C :: s) = true := fun _ => rfl
        rw [List.intercalate_cons_cons, List.append_assoc, List.append_assoc, List.cons_append,
          List.cons_append, List.nil_append, scanItems, hFirst.reads _ (hComma _)]
        have hSkip : skip (0x20 :: (List.intercalate [0x2C, 0x20] (second :: texts') ++
            closing :: rest)) = List.intercalate [0x2C, 0x20] (second :: texts') ++ closing :: rest := by
          obtain ⟨c, s, hText, hStarts⟩ := hSecond.starts
          have hHead : ∃ more, List.intercalate [0x2C, 0x20] (second :: texts') ++ closing :: rest =
              c :: more := by
            cases texts' with
            | nil => exact ⟨_, by rw [List.intercalate_singleton, hText]; rfl⟩
            | cons third texts' => exact ⟨_, by rw [List.intercalate_cons_cons, hText]; rfl⟩
          obtain ⟨more, hText'⟩ := hHead
          have hBlank : isBlank 0x20 = true := rfl
          rw [hText', skip, List.dropWhile_cons, if_pos hBlank]
          exact skip_cons (not_isBlank_of_startsItem hStarts) _
        simp only [skip_cons (show isBlank 0x2C = false from rfl), if_neg hClosing.not_comma.symm,
          if_true, hSkip, hMore, Option.map_some]

theorem startsItem_of_intercalate {texts : List Text} {values : List α}
    (h : List.Forall₂ (Reads item) texts values) (hNonempty : texts ≠ []) (rest : Text) :
    ∃ c s, List.intercalate [0x2C, 0x20] texts ++ rest = c :: s ∧ startsItem c = true := by
  cases h with
  | nil => exact absurd rfl hNonempty
  | @cons text value texts values hFirst hRest =>
    obtain ⟨c, s, rfl, hStarts⟩ := hFirst.starts
    cases texts with
    | nil => exact ⟨c, _, by rw [List.intercalate_singleton]; rfl, hStarts⟩
    | cons second texts => exact ⟨c, _, by rw [List.intercalate_cons_cons]; rfl, hStarts⟩

theorem length_le_intercalate {texts : List Text} {values : List α}
    (h : List.Forall₂ (Reads item) texts values) :
    texts.length ≤ (List.intercalate [0x2C, 0x20] texts).length := by
  induction h with
  | nil => exact Nat.zero_le _
  | @cons text value texts values hFirst hRest ih =>
    obtain ⟨c, s, rfl, _⟩ := hFirst.starts
    cases texts with
    | nil => simp
    | cons second texts =>
      rw [List.intercalate_cons_cons]
      simp only [List.length_append, List.length_cons] at ih ⊢
      omega

theorem scanBracketed_intercalate (hClosing : Closes closing) {texts : List Text} {values : List α}
    (h : List.Forall₂ (Reads item) texts values) (rest : Text) :
    scanBracketed closing item (List.intercalate [0x2C, 0x20] texts ++ closing :: rest) =
      some (values, rest) := by
  by_cases hEmpty : texts = []
  · subst hEmpty
    cases h
    rw [List.intercalate_nil, List.nil_append, scanBracketed, skip_cons hClosing.not_blank]
    exact if_pos rfl
  · obtain ⟨c, s, hText, hStarts⟩ := startsItem_of_intercalate h hEmpty (closing :: rest)
    have hOther : c ≠ closing := by
      rintro rfl
      rw [hClosing.not_item] at hStarts
      cases hStarts
    have hLength : texts.length ≤ (c :: s).length := by
      rw [← hText, List.length_append]
      exact (length_le_intercalate h).trans (Nat.le_add_right _ _)
    have hScan := scanItems_intercalate hClosing h hLength hEmpty rest
    rw [hText] at hScan ⊢
    rw [scanBracketed, skip_cons (not_isBlank_of_startsItem hStarts)]
    exact (if_neg hOther).trans hScan

theorem closes_bracket : Closes 0x5D :=
  ⟨by decide, rfl, fun _ => rfl, rfl⟩

theorem closes_brace : Closes 0x7D :=
  ⟨by decide, rfl, fun _ => rfl, rfl⟩

theorem Reads.member {value : Text → Option (α × Text)} {text : Text} {a : α}
    (h : Reads value text a) (key : Text) :
    Reads (scanMember value) (quoted key ++ 0x3A :: 0x20 :: text) (joined key, a) where
  starts := ⟨0x22, _, rfl, rfl⟩
  reads rest hRest := by
    have hColon : skip (0x3A :: 0x20 :: (text ++ rest)) = 0x3A :: 0x20 :: (text ++ rest) := rfl
    have hBlank : skip (0x20 :: (text ++ rest)) = text ++ rest := by
      rw [← h.skip_append rest, skip, skip, List.dropWhile_cons]
      exact List.dropWhile_idempotent ..
    simp only [quoted, List.cons_append, List.append_assoc, List.nil_append, scanMember,
      scanString_escaped, hColon, hBlank, h.reads rest hRest, Option.map_some]

end Items

/-! ### Trees -/

mutual

/-- The tree with its strings and keys as they are read back. -/
def Datum.joined : Datum → Datum
  | .str s => .str (JsonText.joined s)
  | .arr items => .arr (Datum.joinedItems items)
  | .obj members => .obj (Datum.joinedMembers members)
  | d => d

def Datum.joinedItems : List Datum → List Datum
  | [] => []
  | d :: rest => d.joined :: Datum.joinedItems rest

def Datum.joinedMembers : List (Text × Datum) → List (Text × Datum)
  | [] => []
  | (k, d) :: rest => (JsonText.joined k, d.joined) :: Datum.joinedMembers rest

end

mutual

def Datum.depth : Datum → Nat
  | .arr items => Datum.depthItems items + 1
  | .obj members => Datum.depthMembers members + 1
  | _ => 0

def Datum.depthItems : List Datum → Nat
  | [] => 0
  | d :: rest => max d.depth (Datum.depthItems rest)

def Datum.depthMembers : List (Text × Datum) → Nat
  | [] => 0
  | (_, d) :: rest => max d.depth (Datum.depthMembers rest)

end

section RoundTrip

variable (floatText : Double → Text) (parseFloat : Text → Double)

/-- A double is rendered as a number that is no integer, and the rendering names it. -/
structure FloatReads (q : ℚ) : Prop where
  number : ∃ minus whole fraction exponent, NumberText minus whole fraction exponent ∧
    ¬ (fraction = [] ∧ exponent = []) ∧
    floatText (.finite q) = minus ++ whole ++ fraction ++ exponent
  names : parseFloat (floatText (.finite q)) = .finite q

mutual

/-- Every number of the tree can be written and read. -/
def Datum.Legible : Datum → Prop
  | .int n => n.natAbs < 10 ^ Interpreter.maxDigits
  | .float x => ∀ q, x = .finite q → FloatReads floatText parseFloat q
  | .arr items => Datum.LegibleItems items
  | .obj members => Datum.LegibleMembers members
  | _ => True

def Datum.LegibleItems : List Datum → Prop
  | [] => True
  | d :: rest => d.Legible ∧ Datum.LegibleItems rest

def Datum.LegibleMembers : List (Text × Datum) → Prop
  | [] => True
  | (_, d) :: rest => d.Legible ∧ Datum.LegibleMembers rest

end

variable {floatText parseFloat}

theorem reads_literal {word : Text} {d : Datum} (h : (word, d) ∈ literals) (depth : Nat) :
    Reads (scanValue parseFloat (depth + 1)) word d := by
  simp only [literals, List.mem_cons, Prod.mk.injEq, List.not_mem_nil, or_false] at h
  rcases h with ⟨rfl, rfl⟩ | ⟨rfl, rfl⟩ | ⟨rfl, rfl⟩ | ⟨rfl, rfl⟩ | ⟨rfl, rfl⟩ | ⟨rfl, rfl⟩
  all_goals exact ⟨⟨_, _, rfl, rfl⟩, fun _ _ => rfl⟩

/-- No literal begins like a number. -/
theorem find?_literals_number {minus whole fraction exponent : Text}
    (h : NumberText minus whole fraction exponent) (rest : Text) :
    (literals.find? fun literal => literal.1.isPrefixOf (minus ++ (whole ++ rest))) = none := by
  have hTable : ∀ literal ∈ literals, (literal.1.head?.all fun c => !isDigit c) = true ∧
      literal.1 ≠ [] ∧ (literal.1.head? = some 0x2D → literal.1.tail.head? = some 0x49) := by
    decide
  obtain ⟨c, s, rfl, hDigit⟩ := h.whole_head
  rw [List.find?_eq_none]
  intro literal hLiteral hPrefix
  obtain ⟨hHead, hNonempty, hMinus⟩ := hTable literal hLiteral
  obtain ⟨tail, hTail⟩ := List.isPrefixOf_iff_prefix.mp hPrefix
  obtain ⟨first, more, hWord⟩ := List.exists_cons_of_ne_nil hNonempty
  rw [hWord] at hHead hMinus hTail
  rcases h.minus with rfl | rfl
  · obtain rfl : first = c := (List.cons.inj hTail).1
    simp [hDigit] at hHead
  · obtain rfl : first = 0x2D := (List.cons.inj hTail).1
    have hSecond := hMinus rfl
    obtain ⟨next, more', rfl⟩ : ∃ next more', more = next :: more' := by
      cases more with
      | nil => cases hSecond
      | cons next more' => exact ⟨next, more', rfl⟩
    obtain rfl : next = 0x49 := Option.some.inj hSecond
    obtain rfl : 0x49 = c := (List.cons.inj (List.cons.inj hTail).2).1
    cases hDigit

theorem reads_number {minus whole fraction exponent : Text}
    (h : NumberText minus whole fraction exponent) {text : Text} {d : Datum}
    (hText : text = minus ++ whole ++ fraction ++ exponent)
    (hReads : ∀ rest, endsNumber rest = true → scanNumber parseFloat (text ++ rest) = some (d, rest))
    (depth : Nat) : Reads (scanValue parseFloat (depth + 1)) text d := by
  obtain ⟨c, s, hWhole, hDigit⟩ := h.whole_head
  have hFirst : ∃ first more, text = first :: more ∧ (isDigit first = true ∨ first = 0x2D) := by
    rcases h.minus with hMinus | hMinus
    · exact ⟨c, _, by rw [hText, hMinus, hWhole]; rfl, .inl hDigit⟩
    · exact ⟨0x2D, _, by rw [hText, hMinus]; rfl, .inr rfl⟩
  obtain ⟨first, more, hCons, hNumber⟩ := hFirst
  have hApart : startsItem first = true ∧ first ≠ 0x22 ∧ first ≠ 0x5B ∧ first ≠ 0x7B := by
    cases hNumber with
    | inr hMinus =>
      rw [hMinus]
      decide
    | inl hDigit =>
      simp only [isDigit, Bool.and_eq_true, decide_eq_true_eq] at hDigit
      have hNe : ∀ x : CodePoint, (x.val < 0x30 ∨ 0x39 < x.val) → first ≠ x := by
        rintro x hx rfl
        omega
      refine ⟨?_, hNe _ (.inl (by decide)), hNe _ (.inr (by decide)), hNe _ (.inr (by decide))⟩
      simp only [startsItem, isBlank, Bool.and_eq_true, Bool.not_eq_true', Bool.or_eq_false_iff,
        beq_eq_false_iff_ne, bne_iff_ne]
      exact ⟨⟨⟨⟨⟨hNe _ (.inl (by decide)), hNe _ (.inl (by decide))⟩, hNe _ (.inl (by decide))⟩,
        hNe _ (.inl (by decide))⟩, hNe _ (.inr (by decide))⟩, hNe _ (.inr (by decide))⟩
  refine ⟨⟨first, more, hCons, hApart.1⟩, fun rest hRest => ?_⟩
  have hNone := find?_literals_number h (fraction ++ (exponent ++ rest))
  have hScan := hReads rest hRest
  have hAll : minus ++ (whole ++ (fraction ++ (exponent ++ rest))) = text ++ rest := by
    rw [hText]
    simp only [List.append_assoc]
  rw [hAll] at hNone
  rw [hCons, List.cons_append] at hNone hScan ⊢
  rw [scanValue, if_neg hApart.2.1, if_neg hApart.2.2.1, if_neg hApart.2.2.2, hNone]
  exact hScan

theorem reads_quoted (s : Text) (depth : Nat) :
    Reads (scanValue parseFloat (depth + 1)) (quoted s) (.str (joined s)) where
  starts := ⟨0x22, _, rfl, rfl⟩
  reads rest _ := by
    rw [quoted, List.cons_append, List.append_assoc, List.cons_append, List.nil_append, scanValue,
      if_pos rfl, scanString_escaped, Option.map_some]

theorem reads_floatToken {x : Double} (h : ∀ q, x = .finite q → FloatReads floatText parseFloat q)
    (depth : Nat) :
    Reads (scanValue parseFloat (depth + 1)) (floatToken floatText x) (.float x) := by
  cases x with
  | nan => exact reads_literal (by simp [literals, floatToken]) depth
  | posInf => exact reads_literal (by simp [literals, floatToken]) depth
  | negInf => exact reads_literal (by simp [literals, floatToken]) depth
  | finite q =>
    obtain ⟨minus, whole, fraction, exponent, hNumber, hNotInteger, hText⟩ := (h q rfl).number
    refine reads_number hNumber hText (fun rest hRest => ?_) depth
    have hScan := scanNumber_append parseFloat hNumber hRest
    rw [if_neg hNotInteger, ← hText, (h q rfl).names] at hScan
    change scanNumber parseFloat (floatText (.finite q) ++ rest) = _
    rw [hText]
    simp only [List.append_assoc]
    exact hScan

mutual

theorem Datum.reads : ∀ d : Datum, d.Legible floatText parseFloat → ∀ n, d.depth ≤ n →
    Reads (scanValue parseFloat (n + 1)) (dumps floatText d) d.joined
  | .null, _, n, _ => reads_literal (by simp [literals, Datum.joined, dumps]) n
  | .bool true, _, n, _ => reads_literal (by simp [literals, Datum.joined, dumps]) n
  | .bool false, _, n, _ => reads_literal (by simp [literals, Datum.joined, dumps]) n
  | .int i, h, n, _ => by
    have hText : intText i = (if i < 0 then [0x2D] else []) ++ decimalText i.natAbs ++ [] ++ [] := by
      rw [List.append_nil, List.append_nil]
      rfl
    exact reads_number (numberText_intText i) hText (fun rest => scanNumber_intText parseFloat h) n
  | .float x, h, n, _ => reads_floatToken h n
  | .str s, _, n, _ => reads_quoted s n
  | .arr items, h, n, hDepth => by
    rw [Datum.depth] at hDepth
    obtain ⟨m, rfl⟩ : ∃ m, n = m + 1 := ⟨n - 1, by omega⟩
    have hItems := Datum.readsItems items h m (Nat.le_of_succ_le_succ hDepth)
    refine ⟨⟨0x5B, _, rfl, rfl⟩, fun rest _ => ?_⟩
    rw [dumps, bracketed, List.cons_append, List.append_assoc, List.cons_append, List.nil_append,
      scanValue, if_neg (by decide), if_pos rfl, scanBracketed_intercalate closes_bracket hItems,
      Option.map_some, Datum.joined]
  | .obj members, h, n, hDepth => by
    rw [Datum.depth] at hDepth
    obtain ⟨m, rfl⟩ : ∃ m, n = m + 1 := ⟨n - 1, by omega⟩
    have hMembers := Datum.readsMembers members h m (Nat.le_of_succ_le_succ hDepth)
    refine ⟨⟨0x7B, _, rfl, rfl⟩, fun rest _ => ?_⟩
    rw [dumps, bracketed, List.cons_append, List.append_assoc, List.cons_append, List.nil_append,
      scanValue, if_neg (by decide), if_neg (by decide), if_pos rfl,
      scanBracketed_intercalate closes_brace hMembers, Option.map_some, Datum.joined]

theorem Datum.readsItems : ∀ items : List Datum, Datum.LegibleItems floatText parseFloat items →
    ∀ n, Datum.depthItems items ≤ n →
      List.Forall₂ (Reads (scanValue parseFloat (n + 1))) (dumpsItems floatText items)
        (Datum.joinedItems items)
  | [], _, _, _ => .nil
  | d :: rest, h, n, hDepth =>
    .cons (Datum.reads d h.1 n (le_trans (le_max_left _ _) hDepth))
      (Datum.readsItems rest h.2 n (le_trans (le_max_right _ _) hDepth))

theorem Datum.readsMembers : ∀ members : List (Text × Datum),
    Datum.LegibleMembers floatText parseFloat members → ∀ n, Datum.depthMembers members ≤ n →
      List.Forall₂ (Reads (scanMember (scanValue parseFloat (n + 1)))) (dumpsMembers floatText members)
        (Datum.joinedMembers members)
  | [], _, _, _ => .nil
  | (k, d) :: rest, h, n, hDepth =>
    .cons ((Datum.reads d h.1 n (le_trans (le_max_left _ _) hDepth)).member k)
      (Datum.readsMembers rest h.2 n (le_trans (le_max_right _ _) hDepth))

end

/-! No tree is deeper than its text is long. -/

theorem length_mem_le_intercalate {texts : List Text} {text : Text} (h : text ∈ texts) :
    text.length ≤ (List.intercalate [0x2C, 0x20] texts).length := by
  induction texts with
  | nil => cases h
  | cons first texts ih =>
    cases texts with
    | nil =>
      rw [List.mem_singleton.mp h, List.intercalate_singleton]
    | cons second texts =>
      rw [List.intercalate_cons_cons]
      simp only [List.length_append]
      cases List.mem_cons.mp h with
      | inl hFirst =>
        rw [hFirst]
        omega
      | inr hLater =>
        have hRest := ih hLater
        omega

mutual

theorem Datum.depth_le : ∀ d : Datum, d.depth ≤ (dumps floatText d).length
  | .null => Nat.zero_le _
  | .bool _ => Nat.zero_le _
  | .int _ => Nat.zero_le _
  | .float _ => Nat.zero_le _
  | .str _ => Nat.zero_le _
  | .arr items => by
    have hItems := Datum.depthItems_le items fun _ => length_mem_le_intercalate
    rw [Datum.depth, dumps, bracketed, List.length_cons, List.length_append]
    omega
  | .obj members => by
    have hMembers := Datum.depthMembers_le members fun _ => length_mem_le_intercalate
    rw [Datum.depth, dumps, bracketed, List.length_cons, List.length_append]
    omega

theorem Datum.depthItems_le : ∀ (items : List Datum) {bound : Nat},
    (∀ text ∈ dumpsItems floatText items, text.length ≤ bound) → Datum.depthItems items ≤ bound
  | [], _, _ => Nat.zero_le _
  | d :: rest, _, h =>
    max_le ((Datum.depth_le d).trans (h _ List.mem_cons_self))
      (Datum.depthItems_le rest fun text hText => h text (List.mem_cons_of_mem _ hText))

theorem Datum.depthMembers_le : ∀ (members : List (Text × Datum)) {bound : Nat},
    (∀ text ∈ dumpsMembers floatText members, text.length ≤ bound) →
      Datum.depthMembers members ≤ bound
  | [], _, _ => Nat.zero_le _
  | (k, d) :: rest, bound, h => by
    have hFirst := h _ List.mem_cons_self
    rw [List.length_append, List.length_cons, List.length_cons] at hFirst
    have hDepth := Datum.depth_le d
    exact max_le (by omega)
      (Datum.depthMembers_le rest fun text hText => h text (List.mem_cons_of_mem _ hText))

end

/-- Writing and reading back gives the tree with the pairs of its strings joined. -/
theorem loads_dumps {d : Datum} (h : d.Legible floatText parseFloat) :
    loads parseFloat (dumps floatText d) = some d.joined := by
  have hReads := Datum.reads d h (dumps floatText d).length (Datum.depth_le d)
  have hSkip := hReads.skip_append []
  have hScan := hReads.reads [] rfl
  rw [List.append_nil] at hSkip hScan
  rw [loads, hSkip, hScan]
  rfl

end RoundTrip

end Foundation.JsonText
