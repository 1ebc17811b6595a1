import LlmBus.Foundation.IntLiteral

/-! # Request heads on a persistent connection

What a blocking HTTP server reads of the stream before it calls a handler, and the
bytes a client writes for one head. A head is read line by line, so what follows it
on the connection is left unread, whatever it is.
-/

namespace Foundation.Http

open Utf8 (byte point)

/-- Bytes as ISO-8859-1. -/
def ofLatin1 (bs : List Byte) : Text :=
  bs.map fun b => point b.val

def toLatin1 (s : Text) : List Byte :=
  s.map fun c => byte c.val

def crlf : Text := [0x0D, 0x0A]

def isBlank (c : CodePoint) : Bool :=
  c == 0x20 || c == 0x09

def isLineEnd (c : CodePoint) : Bool :=
  c == 0x0D || c == 0x0A

def isVisible (c : CodePoint) : Bool :=
  0x21 ≤ c.val && c.val ≤ 0x7E

/-- What a field name is made of: everything visible but the colon. -/
def isFieldChar (c : CodePoint) : Bool :=
  isVisible c && c != 0x3A

def isDigit (c : CodePoint) : Bool :=
  0x30 ≤ c.val && c.val ≤ 0x39

def number (s : Text) : Nat :=
  s.foldl (fun n c => n * 10 + (c.val - 0x30)) 0

def maxLine : Nat := 65536

/-- The blank line that ends them is among the lines of a head that are counted. -/
def maxHeaders : Nat := 100

/-- `readline(limit)`: through the first line feed, and no more than `limit` bytes. -/
def readLine : List Byte → Nat → List Byte × List Byte
  | [], _ => ([], [])
  | b :: s, 0 => ([], b :: s)
  | b :: s, limit + 1 =>
    if b = 0x0A then ([b], s)
    else (b :: (readLine s limit).1, (readLine s limit).2)

/-- `_read_headers`: the lines before the blank one, and what follows it. -/
def readHeaderLines : Nat → List Byte → Option (List (List Byte) × List Byte)
  | 0, _ => none
  | budget + 1, s =>
    let line := (readLine s (maxLine + 1)).1
    let rest := (readLine s (maxLine + 1)).2
    if maxLine < line.length then none
    else if line = [0x0D, 0x0A] ∨ line = [0x0A] ∨ line = [] then some ([], rest)
    else (readHeaderLines budget rest).map fun read => (line :: read.1, read.2)

/-- The text cut after each of its line ends, which may be a lone carriage return. -/
def cutLines : Text → List Text
  | [] => []
  | c :: s =>
    if c = 0x0A ∨ (c = 0x0D ∧ s.head? ≠ some 0x0A) then [c] :: cutLines s
    else
      match cutLines s with
      | [] => [[c]]
      | line :: lines => (c :: line) :: lines

def isContinuation (line : Text) : Bool :=
  line.head?.any isBlank

def isEnvelope (line : Text) : Bool :=
  (txt "From ").isPrefixOf line

/-- `headerRE` -/
def isHeaderLine (line : Text) : Bool :=
  isEnvelope line || isContinuation line || (line.dropWhile isFieldChar).head? == some 0x3A

def closeField : Option (Text × Text) → List (Text × Text)
  | none => []
  | some (name, value) => [(name, value.rdropWhile isLineEnd)]

/-- `_parse_headers`. The first argument is the field that further lines may continue. -/
def parseFields : Option (Text × Text) → List Text → List (Text × Text)
  | current, [] => closeField current
  | current, line :: lines =>
    if isContinuation line then
      parseFields (current.map fun field => (field.1, field.2 ++ line)) lines
    else if isEnvelope line then closeField current ++ parseFields none lines
    else
      let (name, _, value) := partition 0x3A line
      if name = [] then closeField current ++ parseFields none lines
      else closeField current ++ parseFields (some (name, value.dropWhile isBlank)) lines

def parseHeaders (lines : List (List Byte)) : List (Text × Text) :=
  parseFields none ((cutLines (ofLatin1 lines.flatten)).takeWhile isHeaderLine)

/-- `headers.get(name)` -/
def get (py : Interpreter) (headers : List (Text × Text)) (name : Text) : Option Text :=
  (headers.find? fun h => py.lower h.1 == py.lower name).map (·.2)

/-- `str.split()` -/
def words (s : Text) : List Text :=
  (s.splitOnP isSpace).filter (· ≠ [])

def parseVersion (version : Text) : Option (Nat × Nat) :=
  if (txt "HTTP/").isPrefixOf version then
    match (version.drop 5).splitOn 0x2E with
    | [major, minor] =>
      if major ≠ [] ∧ minor ≠ [] ∧ major.all isDigit ∧ minor.all isDigit ∧
          major.length ≤ 10 ∧ minor.length ≤ 10 then some (number major, number minor)
      else none
    | _ => none
  else none

/-- A request line of two words is one of HTTP/0.9. -/
def requestVersion (fields : List Text) : Option (Nat × Nat) :=
  if fields.length < 3 then some (0, 9) else parseVersion (fields.getLastD [])

/-- Several slashes at the start of a path are read as one. -/
def singleSlash (path : Text) : Text :=
  if (txt "//").isPrefixOf path then 0x2F :: path.dropWhile (· == 0x2F) else path

/-- Whether the connection is to be closed once the request has been answered. -/
def closeConnection (py : Interpreter) (version : Nat × Nat) (headers : List (Text × Text)) :
    Bool :=
  let connection := py.lower ((get py headers (txt "Connection")).getD [])
  if connection = txt "close" then true
  else if connection = txt "keep-alive" then false
  else !(decide (1 < version.1) || (version.1 == 1 && decide (1 ≤ version.2)))

structure Head where
  method : Text
  path : Text
  headers : List (Text × Text)
  closeConnection : Bool
  deriving DecidableEq

/-- What the server makes of the bytes at its hands: the connection ends there, or the
library answers by itself and ends it, or a handler is called, with the rest unread. -/
inductive Parsed where
  | ended
  | refused (status : Nat)
  | request (head : Head) (rest : List Byte)
  deriving DecidableEq

/-- What follows the request line, once the line has been accepted. -/
def parseHead (py : Interpreter) (command path : Text) (version : Nat × Nat) (s : List Byte) :
    Parsed :=
  match readHeaderLines maxHeaders s with
  | none => .refused 431
  | some (lines, rest) =>
    let headers := parseHeaders lines
    .request ⟨command, singleSlash path, headers, Http.closeConnection py version headers⟩ rest

/-- `handle_one_request` as far as `parse_request` -/
def parseRequest (py : Interpreter) (s : List Byte) : Parsed :=
  let line := (readLine s (maxLine + 1)).1
  let rest := (readLine s (maxLine + 1)).2
  if maxLine < line.length then .refused 414
  else
    let fields := words (ofLatin1 line)
    if fields = [] then .ended
    else
      match requestVersion fields with
      | none => .refused 400
      | some version =>
        if 2 ≤ version.1 then .refused 505
        else
          match fields with
          | [command, path] =>
            if command = txt "GET" then parseHead py command path version rest else .refused 400
          | [command, path, _] => parseHead py command path version rest
          | _ => .refused 400

/-! ### The writer -/

/-- The head of an HTTP/1.1 request: a value is what stands between the colon and the end
of its line. -/
structure RequestHead where
  method : Text
  target : Text
  fields : List (Text × Text)
  method_ne_nil : method ≠ []
  method_visible : ∀ c ∈ method, isVisible c = true
  target_ne_nil : target ≠ []
  target_visible : ∀ c ∈ target, isVisible c = true
  name_ne_nil : ∀ field ∈ fields, field.1 ≠ []
  name_chars : ∀ field ∈ fields, ∀ c ∈ field.1, isFieldChar c = true
  value_latin1 : ∀ field ∈ fields, ∀ c ∈ field.2, c.val < 0x100
  value_oneLine : ∀ field ∈ fields, ∀ c ∈ field.2, isLineEnd c = false

def fieldLine (field : Text × Text) : Text :=
  field.1 ++ 0x3A :: field.2

namespace RequestHead

variable (head : RequestHead)

def requestLine : Text :=
  head.method ++ 0x20 :: (head.target ++ 0x20 :: txt "HTTP/1.1")

def bytes : List Byte :=
  toLatin1 (head.requestLine ++ crlf) ++
    toLatin1 ((head.fields.map fieldLine).flatMap (· ++ crlf) ++ crlf)

def headers : List (Text × Text) :=
  head.fields.map fun field => (field.1, field.2.dropWhile isBlank)

/-- The head as its reader should come to hold it. -/
def read (py : Interpreter) : Head :=
  ⟨head.method, singleSlash head.target, head.headers,
    Http.closeConnection py (1, 1) head.headers⟩

/-- The limits a server sets on what it takes for one head. -/
def Fits : Prop :=
  head.requestLine.length + 2 ≤ maxLine ∧ head.fields.length + 1 ≤ maxHeaders ∧
    ∀ field ∈ head.fields, (fieldLine field).length + 2 ≤ maxLine

instance decidableFits : Decidable head.Fits :=
  inferInstanceAs (Decidable (_ ∧ _ ∧ _))

end RequestHead

/-! ### Reading what was written -/

@[simp] theorem toLatin1_append (s t : Text) : toLatin1 (s ++ t) = toLatin1 s ++ toLatin1 t :=
  List.map_append

@[simp] theorem ofLatin1_append (s t : List Byte) : ofLatin1 (s ++ t) = ofLatin1 s ++ ofLatin1 t :=
  List.map_append

@[simp] theorem toLatin1_crlf : toLatin1 crlf = [0x0D, 0x0A] := by decide

theorem ofLatin1_toLatin1 {s : Text} (h : ∀ c ∈ s, c.val < 0x100) : ofLatin1 (toLatin1 s) = s := by
  have hChar : ∀ c ∈ s, point (byte c.val).val = c := by
    intro c hc
    have hByte : (byte c.val).val = c.val := Nat.mod_eq_of_lt (h c hc)
    apply Fin.ext
    rw [hByte]
    exact Nat.mod_eq_of_lt c.isLt
  calc
    ofLatin1 (toLatin1 s) = s.map fun c => point (byte c.val).val := List.map_map
    _ = s.map id := List.map_congr_left hChar
    _ = s := List.map_id s

/-- Text that can stand between two line ends. -/
def OneLine (line : Text) : Prop :=
  ∀ c ∈ line, c.val < 0x100 ∧ isLineEnd c = false

theorem OneLine.append {s t : Text} (hs : OneLine s) (ht : OneLine t) : OneLine (s ++ t) := by
  intro c hc
  cases List.mem_append.mp hc with
  | inl hc => exact hs c hc
  | inr hc => exact ht c hc

theorem oneLine_of_visible {s : Text} (h : ∀ c ∈ s, isVisible c = true) : OneLine s := by
  intro c hc
  have hVisible := h c hc
  simp only [isVisible, Bool.and_eq_true, decide_eq_true_eq] at hVisible
  refine ⟨by omega, ?_⟩
  simp only [isLineEnd, Bool.or_eq_false_iff, beq_eq_false_iff_ne, ne_eq]
  constructor
  · rintro rfl
    exact absurd hVisible.1 (by decide)
  · rintro rfl
    exact absurd hVisible.1 (by decide)

theorem isSpace_of_visible {c : CodePoint} (h : isVisible c = true) : isSpace c = false := by
  simp only [isVisible, Bool.and_eq_true, decide_eq_true_eq] at h
  simp only [isSpace, Bool.or_eq_false_iff, Bool.and_eq_false_iff, decide_eq_false_iff_not,
    beq_eq_false_iff_ne]
  omega

theorem isVisible_of_isFieldChar {c : CodePoint} (h : isFieldChar c = true) : isVisible c = true := by
  simp only [isFieldChar, Bool.and_eq_true] at h
  exact h.1

theorem oneLine_crlf_latin1 {line : Text} (h : OneLine line) : ∀ c ∈ line ++ crlf, c.val < 0x100 := by
  intro c hc
  cases List.mem_append.mp hc with
  | inl hc => exact (h c hc).1
  | inr hc =>
    have hEnds : crlf.all (fun d => decide (d.val < 0x100)) = true := by decide
    exact of_decide_eq_true (List.all_eq_true.mp hEnds c hc)

theorem readLine_append {line : List Byte} (hLine : 0x0A ∉ line) (limit : Nat) (rest : List Byte) :
    readLine (line ++ 0x0A :: rest) limit =
      if line.length < limit then (line ++ [0x0A], rest)
      else (line.take limit, line.drop limit ++ 0x0A :: rest) := by
  induction line generalizing limit with
  | nil =>
    cases limit with
    | zero => rfl
    | succ limit => simp [readLine]
  | cons b line ih =>
    obtain ⟨hb, hLine⟩ := not_or.mp (List.mem_cons.not.mp hLine)
    cases limit with
    | zero => rfl
    | succ limit =>
      rw [List.cons_append, readLine, if_neg (Ne.symm hb), ih hLine]
      by_cases hLength : line.length < limit
      · rw [if_pos hLength, if_pos (by simpa using hLength)]
        rfl
      · rw [if_neg hLength, if_neg (by simpa using hLength)]
        rfl

theorem lineFeed_notMem {line : Text} (hLine : OneLine line) :
    0x0A ∉ toLatin1 line ++ [(0x0D : Byte)] := by
  intro hMem
  cases List.mem_append.mp hMem with
  | inl hMem =>
    obtain ⟨c, hc, hByte⟩ := List.mem_map.mp hMem
    obtain ⟨hLatin, hEnd⟩ := hLine c hc
    have hVal : c.val = 0x0A := by
      have hEq := congrArg Fin.val hByte
      rwa [show (byte c.val).val = c.val from Nat.mod_eq_of_lt hLatin] at hEq
    rw [show c = 0x0A from Fin.ext hVal] at hEnd
    cases hEnd
  | inr hMem =>
    revert hMem
    decide

theorem length_toLatin1_line (line : Text) : (toLatin1 (line ++ crlf)).length = line.length + 2 := by
  simp [toLatin1, crlf]

/-- A written line is read as it stands where it is short enough, and as too long a line
where it is not. -/
theorem readLine_line {line : Text} (hLine : OneLine line) (rest : List Byte) :
    (line.length + 2 ≤ maxLine →
        readLine (toLatin1 (line ++ crlf) ++ rest) (maxLine + 1) =
          (toLatin1 (line ++ crlf), rest)) ∧
      (maxLine < line.length + 2 →
        maxLine < (readLine (toLatin1 (line ++ crlf) ++ rest) (maxLine + 1)).1.length) := by
  have hBytes : toLatin1 (line ++ crlf) ++ rest =
      (toLatin1 line ++ [(0x0D : Byte)]) ++ 0x0A :: rest := by
    simp
  have hLength : (toLatin1 line ++ [(0x0D : Byte)]).length = line.length + 1 := by
    simp [toLatin1]
  rw [hBytes, readLine_append (lineFeed_notMem hLine), hLength]
  constructor
  · intro hShort
    rw [if_pos (by omega)]
    simp
  · intro hLong
    split
    · rw [List.length_append, hLength, List.length_singleton]
      omega
    · rw [List.length_take, hLength]
      omega

theorem readHeaderLines_blank (budget : Nat) (rest : List Byte) :
    readHeaderLines (budget + 1) (toLatin1 crlf ++ rest) = some ([], rest) := by
  have hEmpty : OneLine [] := by simp [OneLine]
  have hBlank := (readLine_line hEmpty rest).1 (by decide)
  rw [List.nil_append] at hBlank
  rw [readHeaderLines]
  simp only [hBlank]
  rw [toLatin1_crlf, if_neg (by decide), if_pos (.inl rfl)]

theorem not_blank_line {line : Text} (hNonempty : line ≠ []) :
    ¬ (toLatin1 (line ++ crlf) = [0x0D, 0x0A] ∨ toLatin1 (line ++ crlf) = [0x0A] ∨
      toLatin1 (line ++ crlf) = []) := by
  have hPositive : 0 < line.length := List.length_pos_of_ne_nil hNonempty
  have hLength := length_toLatin1_line line
  rintro (hEq | hEq | hEq)
  all_goals
    rw [hEq] at hLength
    simp only [List.length_cons, List.length_nil] at hLength
    omega

theorem readHeaderLines_cons {line : Text} (hLine : OneLine line) (hNonempty : line ≠ [])
    (budget : Nat) (rest : List Byte) :
    readHeaderLines (budget + 1) (toLatin1 (line ++ crlf) ++ rest) =
      if line.length + 2 ≤ maxLine then
        (readHeaderLines budget rest).map fun read => (toLatin1 (line ++ crlf) :: read.1, read.2)
      else none := by
  obtain ⟨hFits, hLong⟩ := readLine_line hLine rest
  rw [readHeaderLines]
  cases Nat.lt_or_ge maxLine (line.length + 2) with
  | inl hOver => rw [if_pos (hLong hOver), if_neg (Nat.not_le.mpr hOver)]
  | inr hShort =>
    have hNotLong : ¬ maxLine < (toLatin1 (line ++ crlf)).length := by
      rw [length_toLatin1_line]
      omega
    simp only [hFits hShort]
    rw [if_neg hNotLong, if_neg (not_blank_line hNonempty), if_pos hShort]

/-- The lines of a head are read one by one, up to the blank line, as far as the limits
allow. -/
theorem readHeaderLines_lines {lines : List Text}
    (hLines : ∀ line ∈ lines, OneLine line ∧ line ≠ []) (budget : Nat) (rest : List Byte) :
    readHeaderLines budget (toLatin1 (lines.flatMap (· ++ crlf) ++ crlf) ++ rest) =
      if lines.length + 1 ≤ budget ∧ ∀ line ∈ lines, line.length + 2 ≤ maxLine then
        some (lines.map fun line => toLatin1 (line ++ crlf), rest)
      else none := by
  induction lines generalizing budget with
  | nil =>
    cases budget with
    | zero => rfl
    | succ budget =>
      rw [List.flatMap_nil, List.nil_append, readHeaderLines_blank, if_pos ⟨by simp, by simp⟩]
      rfl
  | cons line lines ih =>
    cases budget with
    | zero => simp [readHeaderLines]
    | succ budget =>
      obtain ⟨hLine, hNonempty⟩ := hLines line List.mem_cons_self
      have hBytes : toLatin1 ((line :: lines).flatMap (· ++ crlf) ++ crlf) ++ rest =
          toLatin1 (line ++ crlf) ++ (toLatin1 (lines.flatMap (· ++ crlf) ++ crlf) ++ rest) := by
        simp
      rw [hBytes, readHeaderLines_cons hLine hNonempty,
        ih fun l hl => hLines l (List.mem_cons_of_mem _ hl)]
      simp only [List.length_cons, List.forall_mem_cons, Nat.add_le_add_iff_right]
      cases Nat.lt_or_ge maxLine (line.length + 2) with
      | inl hOver => rw [if_neg (Nat.not_le.mpr hOver), if_neg fun h => Nat.not_le.mpr hOver h.2.1]
      | inr hShort =>
        simp only [hShort, if_true, true_and]
        split
        · rfl
        · rfl

theorem cutLines_cons {line : Text} (hLine : OneLine line) (rest : Text) :
    cutLines (line ++ crlf ++ rest) = (line ++ crlf) :: cutLines rest := by
  induction line with
  | nil => simp [crlf, cutLines]
  | cons c line ih =>
    have hEnd := (hLine c List.mem_cons_self).2
    simp only [isLineEnd, Bool.or_eq_false_iff, beq_eq_false_iff_ne, ne_eq] at hEnd
    rw [List.cons_append, List.cons_append, cutLines,
      if_neg (by rintro (h | ⟨h, _⟩); exacts [hEnd.2 h, hEnd.1 h]),
      ih fun d hd => hLine d (List.mem_cons_of_mem _ hd)]

theorem cutLines_lines {lines : List Text} (hLines : ∀ line ∈ lines, OneLine line) :
    cutLines (lines.flatMap (· ++ crlf)) = lines.map (· ++ crlf) := by
  induction lines with
  | nil => rfl
  | cons line lines ih =>
    rw [List.flatMap_cons, cutLines_cons (hLines line List.mem_cons_self),
      ih fun l hl => hLines l (List.mem_cons_of_mem _ hl)]
    rfl

/-! ### The fields of a written head -/

structure IsField (field : Text × Text) : Prop where
  name_ne_nil : field.1 ≠ []
  name_chars : ∀ c ∈ field.1, isFieldChar c = true
  value : OneLine field.2

theorem colon_notMem {name : Text} (h : ∀ c ∈ name, isFieldChar c = true) : 0x3A ∉ name := by
  intro hMem
  have hColon := h _ hMem
  revert hColon
  decide

theorem isBlank_of_visible {c : CodePoint} (h : isVisible c = true) : isBlank c = false := by
  simp only [isBlank, Bool.or_eq_false_iff, beq_eq_false_iff_ne, ne_eq]
  constructor
  · rintro rfl
    exact absurd h (by decide)
  · rintro rfl
    exact absurd h (by decide)

namespace IsField

variable {field : Text × Text} (h : IsField field)
include h

theorem oneLine : OneLine (fieldLine field) := by
  have hName : OneLine field.1 :=
    oneLine_of_visible fun c hc => isVisible_of_isFieldChar (h.name_chars c hc)
  have hColon : OneLine [0x3A] := oneLine_of_visible (List.all_eq_true.mp (by decide))
  have hAll := (hName.append hColon).append h.value
  rwa [List.append_assoc] at hAll

theorem ne_nil : fieldLine field ≠ [] := by
  intro hNil
  exact h.name_ne_nil (List.append_eq_nil_iff.mp hNil).1

theorem not_continuation (rest : Text) : isContinuation (fieldLine field ++ rest) = false := by
  obtain ⟨c, name, hName⟩ := List.exists_cons_of_ne_nil h.name_ne_nil
  have hChar := h.name_chars c (hName ▸ List.mem_cons_self)
  simp [isContinuation, fieldLine, hName, isBlank_of_visible (isVisible_of_isFieldChar hChar)]

/-- A line of mail that opens an envelope has a blank before any colon. -/
theorem not_envelope (rest : Text) : isEnvelope (fieldLine field ++ rest) = false := by
  rw [isEnvelope, Bool.eq_false_iff, ne_eq, List.isPrefixOf_iff_prefix]
  intro hEnvelope
  have hSplit : field.1 ++ [0x3A] <+: fieldLine field ++ rest :=
    ⟨field.2 ++ rest, by simp [fieldLine]⟩
  cases List.prefix_or_prefix_of_prefix hEnvelope hSplit with
  | inl hShort =>
    have hBlank : (0x20 : CodePoint) ∈ field.1 ++ [0x3A] := hShort.subset (by decide)
    cases List.mem_append.mp hBlank with
    | inl hBlank =>
      have hChar := h.name_chars _ hBlank
      revert hChar
      decide
    | inr hBlank =>
      revert hBlank
      decide
  | inr hLong =>
    have hColon : (0x3A : CodePoint) ∈ txt "From " := hLong.subset (by simp)
    revert hColon
    decide

theorem isHeaderLine : isHeaderLine (fieldLine field ++ crlf) = true := by
  have hHead : ((fieldLine field ++ crlf).dropWhile isFieldChar).head? = some 0x3A := by
    rw [fieldLine, List.append_assoc, List.dropWhile_append_of_pos h.name_chars]
    rfl
  simp [Http.isHeaderLine, hHead]

theorem partition_line :
    partition 0x3A (fieldLine field ++ crlf) = (field.1, true, field.2 ++ crlf) := by
  rw [fieldLine, List.append_assoc, List.cons_append,
    partition_append (colon_notMem h.name_chars)]

/-- The blanks before a value and the line end after it are not part of it. -/
theorem closeField_eq :
    closeField (some (field.1, (field.2 ++ crlf).dropWhile isBlank)) =
      [(field.1, field.2.dropWhile isBlank)] := by
  have hValue : (field.2 ++ crlf).dropWhile isBlank = field.2.dropWhile isBlank ++ crlf := by
    rw [List.dropWhile_append]
    split
    · rename_i hNil
      rw [List.isEmpty_iff.mp hNil]
      rfl
    · rfl
  have hKept : (field.2.dropWhile isBlank).rdropWhile isLineEnd = field.2.dropWhile isBlank := by
    rw [List.rdropWhile_eq_self_iff]
    intro hNonempty hEnd
    have hMem := (List.dropWhile_sublist isBlank).subset (List.getLast_mem hNonempty)
    rw [(h.value _ hMem).2] at hEnd
    cases hEnd
  rw [hValue, closeField, show field.2.dropWhile isBlank ++ crlf =
    field.2.dropWhile isBlank ++ [0x0D] ++ [0x0A] by simp [crlf],
    List.rdropWhile_concat_pos _ _ _ (by decide), List.rdropWhile_concat_pos _ _ _ (by decide), hKept]

end IsField

theorem parseFields_lines {fields : List (Text × Text)} (hFields : ∀ field ∈ fields, IsField field)
    (current : Option (Text × Text)) :
    parseFields current ((fields.map fieldLine).map (· ++ crlf)) =
      closeField current ++ fields.map fun field => (field.1, field.2.dropWhile isBlank) := by
  induction fields generalizing current with
  | nil => simp [parseFields]
  | cons field fields ih =>
    have hField := hFields field List.mem_cons_self
    have hRest := ih (fun f hf => hFields f (List.mem_cons_of_mem _ hf))
      (some (field.1, (field.2 ++ crlf).dropWhile isBlank))
    rw [List.map_cons, List.map_cons, parseFields, hField.not_continuation, hField.not_envelope]
    simp only [Bool.false_eq_true, if_false, hField.partition_line, hField.name_ne_nil]
    rw [hRest, hField.closeField_eq]
    rfl

theorem parseHeaders_lines {fields : List (Text × Text)}
    (hFields : ∀ field ∈ fields, IsField field) :
    parseHeaders ((fields.map fieldLine).map fun line => toLatin1 (line ++ crlf)) =
      fields.map fun field => (field.1, field.2.dropWhile isBlank) := by
  have hFlatten : ((fields.map fieldLine).map fun line => toLatin1 (line ++ crlf)).flatten =
      toLatin1 ((fields.map fieldLine).flatMap (· ++ crlf)) := by
    simp only [toLatin1, List.flatMap, List.map_flatten, List.map_map]
    rfl
  have hLines : ∀ line ∈ fields.map fieldLine, OneLine line := by
    intro line hLine
    obtain ⟨field, hField, rfl⟩ := List.mem_map.mp hLine
    exact (hFields field hField).oneLine
  have hLatin : ∀ c ∈ (fields.map fieldLine).flatMap (· ++ crlf), c.val < 0x100 := by
    intro c hc
    obtain ⟨line, hLine, hc⟩ := List.mem_flatMap.mp hc
    exact oneLine_crlf_latin1 (hLines line hLine) c hc
  have hAll : ((fields.map fieldLine).map (· ++ crlf)).takeWhile isHeaderLine =
      (fields.map fieldLine).map (· ++ crlf) := by
    rw [List.takeWhile_eq_self_iff]
    intro line hLine
    obtain ⟨text, hText, rfl⟩ := List.mem_map.mp hLine
    obtain ⟨field, hField, rfl⟩ := List.mem_map.mp hText
    exact (hFields field hField).isHeaderLine
  rw [parseHeaders, hFlatten, ofLatin1_toLatin1 hLatin, cutLines_lines hLines, hAll,
    parseFields_lines hFields]
  rfl

/-! ### A head and what follows it -/

namespace RequestHead

variable (head : RequestHead)

theorem isField {field : Text × Text} (h : field ∈ head.fields) : IsField field :=
  ⟨head.name_ne_nil field h, head.name_chars field h,
    fun c hc => ⟨head.value_latin1 field h c hc, head.value_oneLine field h c hc⟩⟩

theorem oneLine_requestLine : OneLine head.requestLine := by
  have hSpace : OneLine [0x20] := fun c hc => by
    rw [List.mem_singleton.mp hc]
    decide
  have hVersion : OneLine (txt "HTTP/1.1") :=
    oneLine_of_visible (List.all_eq_true.mp (by decide))
  have hAll := (((oneLine_of_visible head.method_visible).append hSpace).append
    (oneLine_of_visible head.target_visible)).append (hSpace.append hVersion)
  rwa [List.append_assoc, List.append_assoc] at hAll

theorem words_requestLine :
    words (head.requestLine ++ crlf) = [head.method, head.target, txt "HTTP/1.1"] := by
  have hMethod : ∀ c ∈ head.method, isSpace c = false :=
    fun c hc => isSpace_of_visible (head.method_visible c hc)
  have hTarget : ∀ c ∈ head.target, isSpace c = false :=
    fun c hc => isSpace_of_visible (head.target_visible c hc)
  have hVersion : (txt "HTTP/1.1" ++ crlf).splitOnP isSpace = [txt "HTTP/1.1", [], []] := by decide
  rw [words, requestLine, List.append_assoc, List.cons_append, List.append_assoc, List.cons_append,
    List.splitOnP_append_cons_of_forall_mem hMethod 0x20 (by decide),
    List.splitOnP_append_cons_of_forall_mem hTarget 0x20 (by decide), hVersion]
  simp [head.method_ne_nil, head.target_ne_nil, txt]

theorem requestVersion_words :
    requestVersion [head.method, head.target, txt "HTTP/1.1"] = some (1, 1) := by
  have hVersion : parseVersion (txt "HTTP/1.1") = some (1, 1) := by decide
  exact hVersion

theorem readHeaderLines_fields (rest : List Byte) :
    readHeaderLines maxHeaders
        (toLatin1 ((head.fields.map fieldLine).flatMap (· ++ crlf) ++ crlf) ++ rest) =
      if head.fields.length + 1 ≤ maxHeaders ∧
          ∀ field ∈ head.fields, (fieldLine field).length + 2 ≤ maxLine then
        some ((head.fields.map fieldLine).map fun line => toLatin1 (line ++ crlf), rest)
      else none := by
  rw [readHeaderLines_lines fun line hLine => ?_]
  · simp only [List.length_map, List.forall_mem_map]
  · obtain ⟨field, hField, rfl⟩ := List.mem_map.mp hLine
    exact ⟨(head.isField hField).oneLine, (head.isField hField).ne_nil⟩

/-- A head within the limits is read to its end, and no byte that follows it is. -/
theorem parseRequest_bytes (py : Interpreter) (hFits : head.Fits) (rest : List Byte) :
    parseRequest py (head.bytes ++ rest) = .request (head.read py) rest := by
  obtain ⟨hLine, hFields⟩ := hFits
  have hLatin := oneLine_crlf_latin1 head.oneLine_requestLine
  rw [bytes, List.append_assoc, parseRequest]
  simp only [(readLine_line head.oneLine_requestLine _).1 hLine]
  rw [if_neg (by rw [length_toLatin1_line]; omega), ofLatin1_toLatin1 hLatin, head.words_requestLine]
  simp only [head.requestVersion_words]
  rw [if_neg (by simp), if_neg (by decide), parseHead, head.readHeaderLines_fields, if_pos hFields]
  simp only [parseHeaders_lines fun field => head.isField]
  rfl

theorem parseRequest_bytes_of_not_fits (py : Interpreter) (hFits : ¬ head.Fits)
    (rest : List Byte) : ∃ status, parseRequest py (head.bytes ++ rest) = .refused status := by
  have hLatin := oneLine_crlf_latin1 head.oneLine_requestLine
  rw [bytes, List.append_assoc, parseRequest]
  by_cases hLine : head.requestLine.length + 2 ≤ maxLine
  · simp only [(readLine_line head.oneLine_requestLine _).1 hLine]
    rw [if_neg (by rw [length_toLatin1_line]; omega), ofLatin1_toLatin1 hLatin, head.words_requestLine]
    simp only [head.requestVersion_words]
    rw [if_neg (by simp), if_neg (by decide), parseHead, head.readHeaderLines_fields,
      if_neg fun hFields => hFits ⟨hLine, hFields⟩]
    exact ⟨431, rfl⟩
  · rw [if_pos ((readLine_line head.oneLine_requestLine _).2 (by omega))]
    exact ⟨414, rfl⟩

end RequestHead

/-! ### The declared length of a body -/

/-- `Content-Length = 1*DIGIT`, where a value may carry blanks at its end; a request without
the field has no body. -/
def Declares : Option Text → Nat → Prop
  | none, length => length = 0
  | some value, length => ∃ digits blanks, value = digits ++ blanks ∧ digits ≠ [] ∧
      digits.all isDigit = true ∧ blanks.all isBlank = true ∧ number digits = length

def declaredLength (value : Option Text) : Nat :=
  number ((value.getD []).takeWhile isDigit)

theorem eq_of_isBlank {c : CodePoint} (h : isBlank c = true) : c = 0x20 ∨ c = 0x09 := by
  simpa only [isBlank, Bool.or_eq_true, beq_iff_eq] using h

theorem isDigit_of_isBlank {c : CodePoint} (h : isBlank c = true) : isDigit c = false := by
  rcases eq_of_isBlank h with rfl | rfl
  · decide
  · decide

theorem declaredLength_of_declares {value : Option Text} {length : Nat}
    (h : Declares value length) : declaredLength value = length := by
  cases value with
  | none => exact h.symm
  | some value =>
    obtain ⟨digits, blanks, rfl, _, hDigits, hBlanks, hNumber⟩ := h
    have hTake : (digits ++ blanks).takeWhile isDigit = digits := by
      rw [List.takeWhile_append_of_pos (List.all_eq_true.mp hDigits)]
      cases blanks with
      | nil => simp
      | cons c blanks =>
        have hBlank := List.all_eq_true.mp hBlanks c List.mem_cons_self
        rw [List.takeWhile_cons_of_neg (by simp [isDigit_of_isBlank hBlank]), List.append_nil]
    rw [declaredLength, Option.getD_some, hTake, hNumber]

theorem digitRun_digits {digits : Text} (h : digits.all isDigit = true) :
    Interpreter.DigitRun 10 true digits (digits.map fun c => c.val - 0x30) := by
  induction digits with
  | nil => exact .done
  | cons c digits ih =>
    rw [List.all_cons, Bool.and_eq_true] at h
    have hDigit := h.1
    simp only [isDigit, Bool.and_eq_true, decide_eq_true_eq] at hDigit
    have hLt : c.val - 0x30 < 10 := by omega
    exact .digit (by rw [Interpreter.digitValue, if_pos hDigit]) hLt (ih h.2)

theorem digitsValue_digits (digits : Text) :
    Interpreter.digitsValue 10 0 (digits.map fun c => c.val - 0x30) = number digits := by
  rw [Interpreter.digitsValue, List.foldl_map]
  rfl

theorem isAscii_of_isDigit {c : CodePoint} (h : isDigit c = true) : isAscii c = true := by
  simp only [isDigit, Bool.and_eq_true, decide_eq_true_eq] at h
  simp only [isAscii, decide_eq_true_eq]
  omega

theorem isAscii_of_isBlank {c : CodePoint} (h : isBlank c = true) : isAscii c = true := by
  rcases eq_of_isBlank h with rfl | rfl
  · decide
  · decide

theorem isAsciiSpace_of_isBlank {c : CodePoint} (h : isBlank c = true) :
    Interpreter.isAsciiSpace c = true := by
  rcases eq_of_isBlank h with rfl | rfl
  · decide
  · decide

theorem scanPrefix_ten (s : Text) : Interpreter.scanPrefix 10 s = s := by
  unfold Interpreter.scanPrefix
  split
  · rw [if_neg fun h => absurd h.1 (by decide)]
  · rfl

/-- The number a program reads in a declared length is that length, if it reads one. -/
theorem parseInt_of_declares (py : Interpreter) {value : Text} {length : Nat} {n : ℤ}
    (h : Declares (some value) length) (hParse : py.parseInt 10 value = some n) :
    n = (length : ℤ) := by
  obtain ⟨digits, blanks, rfl, hNonempty, hDigits, hBlanks, rfl⟩ := h
  have hAscii : asciiText (digits ++ blanks) = true := by
    rw [asciiText, List.all_eq_true]
    intro c hc
    cases List.mem_append.mp hc with
    | inl hDigit => exact isAscii_of_isDigit (List.all_eq_true.mp hDigits c hDigit)
    | inr hBlank => exact isAscii_of_isBlank (List.all_eq_true.mp hBlanks c hBlank)
  have hRest : blanks.all Interpreter.isAsciiSpace = true :=
    List.all_eq_true.mpr fun c hc => isAsciiSpace_of_isBlank (List.all_eq_true.mp hBlanks c hc)
  have hUnderscore : (0x5F : CodePoint) ∉ digits := by
    intro hMem
    have hDigit := List.all_eq_true.mp hDigits _ hMem
    cases hDigit
  have hRun := (digitRun_digits hDigits).start hNonempty hUnderscore
  have hHead := hRun.isSome_digitValue blanks
  have hSpace : (digits ++ blanks).dropWhile Interpreter.isAsciiSpace = digits ++ blanks :=
    @Interpreter.dropWhile_isAsciiSpace_append _ [] rfl
      (@Interpreter.isAsciiSpace_head _ ([], false) (by decide) hHead)
  have hSign : Interpreter.scanSign (digits ++ blanks) = (false, digits ++ blanks) :=
    @Interpreter.scanSign_append _ ([], false) (by decide) hHead
  simp only [Interpreter.parseInt, hAscii, if_true, hSpace, hSign, scanPrefix_ten,
    hRun.scanDigits_eq hRest, digitsValue_digits, hRest] at hParse
  split at hParse
  · cases hParse
  · cases hParse
    rfl

end Foundation.Http
