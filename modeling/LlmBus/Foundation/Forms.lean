import LlmBus.Foundation.Markup
import LlmBus.Foundation.Percent

/-! # Forms

What a browser sends for a form that nobody touched. Controls are read from the tags of the
page; the body is encoded so that its fields come back as they were.
-/

namespace Foundation.Forms

open Utf8 FormData Percent Markup

/-! ### The body -/

/-- Letters, digits, `*-._` and the space, which is sent as a plus. -/
def formKept (b : Byte) : Bool :=
  alphanumeric b || b == 0x2A || b == 0x2D || b == 0x2E || b == 0x5F || b == 0x20

def spaceToPlus (s : Text) : Text :=
  s.map fun c => if c = 0x20 then 0x2B else c

def formEncode (s : Text) : Text :=
  spaceToPlus (quoteBytes formKept (encode s))

def formPair (pair : Text × Text) : Text :=
  formEncode pair.1 ++ 0x3D :: formEncode pair.2

/-- `application/x-www-form-urlencoded` -/
def formBody : List (Text × Text) → Text
  | [] => []
  | [pair] => formPair pair
  | pair :: pairs => formPair pair ++ 0x26 :: formBody pairs

theorem plain_formKept : Plain formKept := by
  intro b h
  simp only [formKept, alphanumeric, Bool.or_eq_true, Bool.and_eq_true, decide_eq_true_eq,
    beq_iff_eq] at h
  rcases h with ((((h | rfl) | rfl) | rfl) | rfl) | rfl
  · omega
  · decide
  · decide
  · decide
  · decide
  · decide

theorem plusToSpace_spaceToPlus {s : Text} (h : (0x2B : CodePoint) ∉ s) :
    plusToSpace (spaceToPlus s) = s := by
  rw [plusToSpace, spaceToPlus, List.map_map]
  refine (List.map_congr_left fun c hc => ?_).trans (List.map_id s)
  rcases eq_or_ne c 0x20 with rfl | hSpace
  · rfl
  · have hPlus : c ≠ 0x2B := by
      rintro rfl
      exact h hc
    simp only [Function.comp_apply, if_neg hSpace, if_neg hPlus, id_eq]

theorem not_mem_spaceToPlus {c : CodePoint} {s : Text} (hPlus : c ≠ 0x2B) (h : c ∉ s) :
    c ∉ spaceToPlus s := by
  intro hMem
  obtain ⟨d, hd, hEq⟩ := List.mem_map.mp hMem
  split at hEq
  · exact hPlus hEq.symm
  · exact h (hEq ▸ hd)

theorem unquote_formEncode {s : Text} (h : surrogateFree s = true) :
    unquote (plusToSpace (formEncode s)) = s := by
  rw [formEncode, plusToSpace_spaceToPlus (not_mem_quoteBytes (by decide) (by decide) (by decide)
    (by decide) _), unquote_quoteBytes plain_formKept h]

theorem separator_not_mem_formEncode {sep : CodePoint} (hSep : sep = 0x26 ∨ sep = 0x3D) (s : Text) :
    sep ∉ formEncode s := by
  rcases hSep with rfl | rfl
  · exact not_mem_spaceToPlus (by decide)
      (not_mem_quoteBytes (by decide) (by decide) (by decide) (by decide) _)
  · exact not_mem_spaceToPlus (by decide)
      (not_mem_quoteBytes (by decide) (by decide) (by decide) (by decide) _)

theorem ampersand_not_mem_formPair (pair : Text × Text) : (0x26 : CodePoint) ∉ formPair pair := by
  rw [formPair, List.mem_append, List.mem_cons, not_or, not_or]
  exact ⟨separator_not_mem_formEncode (.inl rfl) _, by decide, separator_not_mem_formEncode (.inl rfl) _⟩

def PairSurrogateFree (pair : Text × Text) : Prop :=
  surrogateFree pair.1 = true ∧ surrogateFree pair.2 = true

theorem parsePairs_cons {pair : Text × Text} (h : PairSurrogateFree pair) (rest : Text) :
    parsePairs (formPair pair ++ 0x26 :: rest) = pair :: parsePairs rest := by
  have hNonempty : formPair pair ≠ [] := by simp [formPair]
  have hSplit := partition_append (separator_not_mem_formEncode (.inr rfl) pair.1) (formEncode pair.2)
  rw [parsePairs, List.splitOn_append_cons_self_of_not_mem (ampersand_not_mem_formPair pair),
    List.filterMap_cons, if_neg hNonempty]
  simp only [formPair, hSplit, unquote_formEncode h.1, unquote_formEncode h.2]
  rfl

theorem parsePairs_formPair {pair : Text × Text} (h : PairSurrogateFree pair) :
    parsePairs (formPair pair) = [pair] := by
  have hNonempty : formPair pair ≠ [] := by simp [formPair]
  have hSplit := partition_append (separator_not_mem_formEncode (.inr rfl) pair.1) (formEncode pair.2)
  rw [parsePairs, List.splitOn_eq_singleton (ampersand_not_mem_formPair pair), List.filterMap_cons,
    if_neg hNonempty]
  simp only [formPair, hSplit, unquote_formEncode h.1, unquote_formEncode h.2]
  rfl

theorem parsePairs_formBody {pairs : List (Text × Text)} (h : ∀ pair ∈ pairs, PairSurrogateFree pair) :
    parsePairs (formBody pairs) = pairs := by
  induction pairs with
  | nil => rfl
  | cons pair pairs ih =>
    have hPair := h pair List.mem_cons_self
    have hRest := ih fun p hp => h p (List.mem_cons_of_mem pair hp)
    cases pairs with
    | nil => exact parsePairs_formPair hPair
    | cons next pairs =>
      rw [formBody, parsePairs_cons hPair, hRest]
      intro hNil
      cases hNil

theorem firstValue_formBody {pairs : List (Text × Text)}
    (h : ∀ pair ∈ pairs, PairSurrogateFree pair) (name : Text) :
    firstValue (formBody pairs) name =
      ((pairs.find? fun pair => decide (pair.1 = name)).map (·.2)).getD [] := by
  rw [firstValue, parsePairs_formBody h]

theorem asciiText_formEncode (s : Text) : asciiText (formEncode s) = true := by
  have hQuoted := List.all_eq_true.mp (asciiText_quoteBytes plain_formKept (encode s))
  apply List.all_eq_true.mpr
  intro c hc
  obtain ⟨d, hd, rfl⟩ := List.mem_map.mp hc
  split
  · decide
  · exact hQuoted d hd

theorem asciiText_formBody (pairs : List (Text × Text)) : asciiText (formBody pairs) = true := by
  have hPair : ∀ pair, asciiText (formPair pair) = true := by
    intro pair
    have hEquals : asciiText [0x3D] = true := by decide
    rw [formPair, ← List.singleton_append, asciiText_append, asciiText_append, hEquals,
      asciiText_formEncode, asciiText_formEncode]
    rfl
  induction pairs with
  | nil => rfl
  | cons pair pairs ih =>
    cases pairs with
    | nil => exact hPair pair
    | cons next pairs =>
      have hAmp : asciiText [0x26] = true := by decide
      rw [formBody, ← List.singleton_append, asciiText_append, asciiText_append, hPair, hAmp, ih]
      · rfl
      · intro hNil
        cases hNil

/-! ### The controls -/

/-- A tag without its values, word by word. -/
def tagWords (t : Tag) : List Text :=
  (t.attributes.flatMap fun a => a.label.splitOn 0x20) ++ t.rest.splitOn 0x20

def tagName (t : Tag) : Text :=
  (tagWords t).headD []

def flag (t : Tag) (name : String) : Bool :=
  (tagWords t).contains (txt name)

/-- The value of the attribute of that name, as it is written. -/
def attribute? (t : Tag) (name : String) : Option Text :=
  (t.attributes.find? fun a => (a.label.splitOn 0x20).getLast? == some (txt name ++ txt "=")).map
    (·.value)

structure Choice where
  value : Text
  selected : Bool
  disabled : Bool
  deriving DecidableEq

/-- The option a select of one choice stands on before anyone touches it. -/
def standing (choices : List Choice) : Option Choice :=
  ((choices.filter (·.selected)).getLast?).or (choices.find? fun c => !c.disabled)

section Reading

variable (reader : Reader)

def attributeText (t : Tag) (name : String) : Text :=
  reader.read ((attribute? t name).getD [])

/-- What an `input` sends. -/
def inputEntry (t : Tag) : List (Text × Text) :=
  if (attribute? t "name").isNone || flag t "disabled" then []
  else [(attributeText reader t "name", attributeText reader t "value")]

def optionChoice (t : Tag) : Choice :=
  ⟨attributeText reader t "value", flag t "selected", flag t "disabled"⟩

/-- What a `select` sends: nothing where the option it stands on is disabled. -/
def selectEntry (name : Text) (choices : List Choice) : List (Text × Text) :=
  match standing choices with
  | some choice => if choice.disabled then [] else [(name, choice.value)]
  | none => []

/-- The entries of a form from the tags inside it, with the name and the options so far of the
select that is open. -/
def entriesFrom : Option (Text × List Choice) → List Tag → List (Text × Text)
  | _, [] => []
  | none, t :: ts =>
    if tagName t = txt "input" then inputEntry reader t ++ entriesFrom none ts
    else if tagName t = txt "select" then entriesFrom (some (attributeText reader t "name", [])) ts
    else entriesFrom none ts
  | some (name, choices), t :: ts =>
    if tagName t = txt "/select" then selectEntry name choices ++ entriesFrom none ts
    else if tagName t = txt "option" then
      entriesFrom (some (name, choices ++ [optionChoice reader t])) ts
    else entriesFrom (some (name, choices)) ts

/-- The tags between each `form` and its end. -/
def formsFrom : Option (List Tag) → List Tag → List (List Tag)
  | _, [] => []
  | none, t :: ts => if tagName t = txt "form" then formsFrom (some []) ts else formsFrom none ts
  | some inner, t :: ts =>
    if tagName t = txt "/form" then inner :: formsFrom none ts else formsFrom (some (inner ++ [t])) ts

/-- The bodies a browser sends for the forms of a page, each submitted as it stands. -/
def untouchedBodies (page : Text) : List Text :=
  (formsFrom none (tags page)).map fun inner => formBody (entriesFrom reader none inner)

theorem formsFrom_append_of_outside {ts : List Tag} (h : ∀ t ∈ ts, tagName t ≠ txt "form")
    (rest : List Tag) : formsFrom none (ts ++ rest) = formsFrom none rest := by
  induction ts with
  | nil => rfl
  | cons t ts ih =>
    rw [List.cons_append, formsFrom, if_neg (h t List.mem_cons_self)]
    exact ih fun u hu => h u (List.mem_cons_of_mem t hu)

theorem formsFrom_append_of_inside {ts : List Tag} (h : ∀ t ∈ ts, tagName t ≠ txt "/form")
    (inner rest : List Tag) :
    formsFrom (some inner) (ts ++ rest) = formsFrom (some (inner ++ ts)) rest := by
  induction ts generalizing inner with
  | nil => rw [List.nil_append, List.append_nil]
  | cons t ts ih =>
    rw [List.cons_append, formsFrom, if_neg (h t List.mem_cons_self),
      ih fun u hu => h u (List.mem_cons_of_mem t hu), List.append_assoc, List.singleton_append]

end Reading

end Foundation.Forms
