import LlmBus.Foundation.Text

/-! # Markup

A page is what its template says, with figures and texts from outside put in. A scanner reads
its tags and their attributes. Escaped texts are invisible to the scanner, and a reader who
knows the entities gets them back as they were.
-/

namespace Foundation.Markup

def delimiter (c : CodePoint) : Bool :=
  c == 0x3C || c == 0x3E || c == 0x22 || c == 0x27

/-- Neither a delimiter nor an ampersand. -/
def plainChar (c : CodePoint) : Bool :=
  !delimiter c && c != 0x26

def plain (s : Text) : Bool :=
  s.all plainChar

def entities : List (CodePoint × Text) :=
  [(0x26, txt "&amp;"), (0x3C, txt "&lt;"), (0x3E, txt "&gt;"), (0x22, txt "&quot;"),
    (0x27, txt "&#x27;")]

def escapeChar (c : CodePoint) : Text :=
  (entities.lookup c).getD [c]

/-- `html.escape`. The ampersand is replaced first, so no replacement meets another. -/
def escape (s : Text) : Text :=
  s.flatMap escapeChar

/-- Nowhere does a delimiter stand, or an ampersand that does not begin an entity. -/
def Inert (s : Text) : Prop :=
  ∀ c rest, (c :: rest) <:+ s →
    delimiter c = false ∧ (c = 0x26 → ∃ e ∈ entities, e.2 <+: c :: rest)

/-- Who reads text out of markup: each entity is one character again, and what no ampersand
opens stands for itself. What becomes of other references is left open. -/
structure Reader where
  read : Text → Text
  read_nil : read [] = []
  read_plain : ∀ c s, c ≠ 0x26 → read (c :: s) = c :: read s
  read_entity : ∀ e ∈ entities, ∀ s, read (e.2 ++ s) = e.1 :: read s

/-! ### Escaping -/

@[simp] theorem plain_append (s t : Text) : plain (s ++ t) = (plain s && plain t) := by
  simp [plain]

theorem inert_nil : Inert [] := by
  intro c rest hSuffix
  cases List.suffix_nil.mp hSuffix

theorem inert_cons_iff {c : CodePoint} {s : Text} : Inert (c :: s) ↔
    (delimiter c = false ∧ (c = 0x26 → ∃ e ∈ entities, e.2 <+: c :: s)) ∧ Inert s := by
  constructor
  · intro h
    exact ⟨h c s List.suffix_rfl, fun d rest hSuffix => h d rest (hSuffix.trans (List.suffix_cons c s))⟩
  · rintro ⟨hHead, hRest⟩ d rest hSuffix
    cases List.suffix_cons_iff.mp hSuffix with
    | inl hEq =>
      cases hEq
      exact hHead
    | inr hIn => exact hRest d rest hIn

theorem Inert.append {s t : Text} (hs : Inert s) (ht : Inert t) : Inert (s ++ t) := by
  induction s with
  | nil => exact ht
  | cons c s ih =>
    obtain ⟨⟨hDelimiter, hAmp⟩, hRest⟩ := inert_cons_iff.mp hs
    refine inert_cons_iff.mpr ⟨⟨hDelimiter, fun hc => ?_⟩, ih hRest⟩
    obtain ⟨e, he, hPrefix⟩ := hAmp hc
    exact ⟨e, he, hPrefix.trans (List.prefix_append (c :: s) t)⟩

theorem Inert.delimiter_eq_false {s : Text} (h : Inert s) {c : CodePoint} (hc : c ∈ s) :
    delimiter c = false := by
  obtain ⟨before, after, rfl⟩ := List.append_of_mem hc
  exact (h c after (List.suffix_append before (c :: after))).1

theorem escapeChar_cases (c : CodePoint) :
    (c, escapeChar c) ∈ entities ∨ c ≠ 0x26 ∧ delimiter c = false ∧ escapeChar c = [c] := by
  rcases eq_or_ne c 0x26 with rfl | hAmp
  · exact .inl (by decide)
  · cases hDelimiter : delimiter c with
    | true =>
      simp only [delimiter, Bool.or_eq_true, beq_iff_eq] at hDelimiter
      rcases hDelimiter with ((rfl | rfl) | rfl) | rfl
      · exact .inl (by decide)
      · exact .inl (by decide)
      · exact .inl (by decide)
      · exact .inl (by decide)
    | false =>
      have hAbsent : entities.lookup c = none := by
        simp only [delimiter, Bool.or_eq_false_iff] at hDelimiter
        obtain ⟨⟨⟨hLt, hGt⟩, hDouble⟩, hSingle⟩ := hDelimiter
        simp only [entities, List.lookup_cons, List.lookup_nil, beq_false_of_ne hAmp, hLt, hGt,
          hDouble, hSingle]
      exact .inr ⟨hAmp, rfl, by rw [escapeChar, hAbsent, Option.getD_none]⟩

theorem inert_of_plain {s : Text} (h : plain s = true) : Inert s := by
  intro c rest hSuffix
  have hc := List.all_eq_true.mp h c (hSuffix.mem List.mem_cons_self)
  simp only [plainChar, Bool.and_eq_true, Bool.not_eq_true', bne_iff_ne, ne_eq] at hc
  exact ⟨hc.1, fun hAmp => absurd hAmp hc.2⟩

theorem inert_of_mem_entities {e : CodePoint × Text} (he : e ∈ entities) : Inert e.2 := by
  have hShape : (entities.all fun e => e.2.head? == some 0x26 && plain e.2.tail) = true := by
    decide
  have hEntity := List.all_eq_true.mp hShape e he
  simp only [Bool.and_eq_true, beq_iff_eq] at hEntity
  have hHead : e.2 = 0x26 :: e.2.tail := List.eq_cons_of_mem_head? hEntity.1
  rw [hHead]
  refine inert_cons_iff.mpr ⟨⟨rfl, fun _ => ⟨e, he, ?_⟩⟩, inert_of_plain hEntity.2⟩
  exact hHead ▸ List.prefix_rfl

theorem escape_inert (s : Text) : Inert (escape s) := by
  induction s with
  | nil => exact inert_nil
  | cons c s ih =>
    rw [escape, List.flatMap_cons]
    refine Inert.append ?_ ih
    rcases escapeChar_cases c with hEntity | ⟨hAmp, hDelimiter, hPlain⟩
    · exact inert_of_mem_entities hEntity
    · rw [hPlain]
      exact inert_cons_iff.mpr ⟨⟨hDelimiter, fun hc => absurd hc hAmp⟩, inert_nil⟩

theorem Reader.read_escape (reader : Reader) (s : Text) : reader.read (escape s) = s := by
  induction s with
  | nil => exact reader.read_nil
  | cons c s ih =>
    rw [escape, List.flatMap_cons]
    rcases escapeChar_cases c with hEntity | ⟨hAmp, _, hPlain⟩
    · exact (reader.read_entity _ hEntity _).trans (congrArg (c :: ·) ih)
    · rw [hPlain]
      exact (reader.read_plain c _ hAmp).trans (congrArg (c :: ·) ih)

theorem Reader.read_of_plain (reader : Reader) {s : Text} (h : plain s = true) : reader.read s = s := by
  induction s with
  | nil => exact reader.read_nil
  | cons c s ih =>
    simp only [plain, List.all_cons, plainChar, Bool.and_eq_true, bne_iff_ne, ne_eq] at h
    rw [reader.read_plain c s h.1.2, ih (by simpa only [plain, plainChar] using h.2)]

/-! ### A reader who knows no more than the entities -/

/-- The counter is the number of characters of the current entity still to skip. -/
def readFrom : Nat → Text → Text
  | _, [] => []
  | skip + 1, _ :: s => readFrom skip s
  | 0, c :: s =>
    match entities.find? fun e => e.2.isPrefixOf (c :: s) with
    | some e => e.1 :: readFrom (e.2.length - 1) s
    | none => c :: readFrom 0 s

def entityReader : Reader where
  read := readFrom 0
  read_nil := rfl
  read_plain c s hAmp := by
    have hNone : (entities.find? fun e => e.2.isPrefixOf (c :: s)) = none := by
      have hAll : ∀ e ∈ entities, e.2.head? = some 0x26 := by decide
      refine List.find?_eq_none.mpr fun e he hPrefix => ?_
      have hHead : e.2 = 0x26 :: e.2.tail := List.eq_cons_of_mem_head? (hAll e he)
      rw [hHead, List.isPrefixOf_cons_cons, Bool.and_eq_true, beq_iff_eq] at hPrefix
      exact hAmp hPrefix.1.symm
    rw [readFrom, hNone]
  read_entity e he s := by
    simp only [entities, List.mem_cons, List.not_mem_nil, or_false] at he
    rcases he with rfl | rfl | rfl | rfl | rfl
    · rfl
    · rfl
    · rfl
    · rfl
    · rfl

/-! ### Scanning -/

inductive Quote where
  | double
  | single
  deriving DecidableEq

def Quote.char : Quote → CodePoint
  | double => 0x22
  | single => 0x27

def quoteOf (c : CodePoint) : Option Quote :=
  if c = 0x22 then some .double else if c = 0x27 then some .single else none

/-- A quoted value, and what stands before it in its tag. -/
structure Attribute where
  label : Text
  quote : Quote
  value : Text
  deriving DecidableEq

/-- The quoted values of a tag, and what follows the last of them. -/
structure Tag where
  attributes : List Attribute
  rest : Text
  deriving DecidableEq

/-- Where the scanner stands, with what it has read of the tag it is in. -/
inductive Scan where
  | text
  | tag (attributes : List Attribute) (label : Text)
  | value (attributes : List Attribute) (label : Text) (quote : Quote) (value : Text)
  deriving DecidableEq

/-- All but the values. -/
def Attribute.outline (a : Attribute) : Attribute :=
  { a with value := [] }

def Tag.outline (t : Tag) : Tag :=
  { t with attributes := t.attributes.map Attribute.outline }

namespace Scan

def next : Scan → CodePoint → Scan
  | text, c => if c = 0x3C then tag [] [] else text
  | tag as label, c =>
    if c = 0x3E then text
    else
      match quoteOf c with
      | some quote => value as label quote []
      | none => tag as (label ++ [c])
  | value as label quote v, c =>
    if c = quote.char then tag (as ++ [⟨label, quote, v⟩]) [] else value as label quote (v ++ [c])

/-- The tag that a character ends. -/
def closed : Scan → CodePoint → Option Tag
  | tag as label, c => if c = 0x3E then some ⟨as, label⟩ else none
  | _, _ => none

def after (st : Scan) (s : Text) : Scan :=
  s.foldl next st

/-- Whether text may be put in here: between the tags or into a quoted value. -/
def seat : Scan → Bool
  | tag _ _ => false
  | _ => true

def absorb : Scan → Text → Scan
  | value as label quote v, s => value as label quote (v ++ s)
  | st, _ => st

def outline : Scan → Scan
  | text => text
  | tag as label => tag (as.map Attribute.outline) label
  | value as label quote _ => value (as.map Attribute.outline) label quote []

end Scan

def tagsFrom : Scan → Text → List Tag
  | _, [] => []
  | st, c :: s => (st.closed c).toList ++ tagsFrom (st.next c) s

/-- The tags of a page without comments and scripts. -/
def tags (s : Text) : List Tag :=
  tagsFrom .text s

theorem after_append (st : Scan) (s t : Text) : st.after (s ++ t) = (st.after s).after t :=
  List.foldl_append

theorem tagsFrom_append (st : Scan) (s t : Text) :
    tagsFrom st (s ++ t) = tagsFrom st s ++ tagsFrom (st.after s) t := by
  induction s generalizing st with
  | nil => rfl
  | cons c s ih =>
    rw [List.cons_append, tagsFrom, tagsFrom, ih, List.append_assoc]
    rfl

/-- The scanner only collects what holds no delimiter. -/
theorem scan_undelimited {st : Scan} (hSeat : st.seat = true) {s : Text}
    (h : ∀ c ∈ s, delimiter c = false) : st.after s = st.absorb s ∧ tagsFrom st s = [] := by
  induction s generalizing st with
  | nil =>
    cases st with
    | text => exact ⟨rfl, rfl⟩
    | tag as label => cases hSeat
    | value as label quote v => exact ⟨by simp [Scan.after, Scan.absorb], rfl⟩
  | cons c s ih =>
    have hc : delimiter c = false := h c List.mem_cons_self
    have hRest : ∀ d ∈ s, delimiter d = false := fun d hd => h d (List.mem_cons_of_mem c hd)
    simp only [delimiter, Bool.or_eq_false_iff, beq_eq_false_iff_ne, ne_eq] at hc
    obtain ⟨⟨⟨hLt, _⟩, hDouble⟩, hSingle⟩ := hc
    cases st with
    | text =>
      have hNext : Scan.text.next c = .text := if_neg hLt
      obtain ⟨hAfter, hTags⟩ := @ih .text rfl hRest
      rw [Scan.after, List.foldl_cons, hNext, tagsFrom, hNext, hTags]
      exact ⟨hAfter, rfl⟩
    | tag as label => cases hSeat
    | value as label quote v =>
      have hQuote : c ≠ quote.char := by
        cases quote with
        | double => exact hDouble
        | single => exact hSingle
      have hNext : (Scan.value as label quote v).next c = .value as label quote (v ++ [c]) :=
        if_neg hQuote
      obtain ⟨hAfter, hTags⟩ := @ih (.value as label quote (v ++ [c])) rfl hRest
      rw [Scan.after, List.foldl_cons, hNext, tagsFrom, hNext, hTags]
      refine ⟨hAfter.trans ?_, rfl⟩
      rw [Scan.absorb, Scan.absorb, List.append_assoc, List.singleton_append]

/-! ### What the values do not decide -/

theorem outline_next {st st' : Scan} (h : st.outline = st'.outline) (c : CodePoint) :
    (st.next c).outline = (st'.next c).outline := by
  cases st with
  | text =>
    cases st' with
    | text => rfl
    | tag as' label' => cases h
    | value as' label' quote' v' => cases h
  | tag as label =>
    cases st' with
    | text => cases h
    | tag as' label' =>
      simp only [Scan.outline, Scan.tag.injEq] at h
      obtain ⟨hAttributes, rfl⟩ := h
      cases eq_or_ne c 0x3E with
      | inl hClose => simp only [Scan.next, if_pos hClose]
      | inr hOpen =>
        simp only [Scan.next, if_neg hOpen]
        cases quoteOf c with
        | none => simp only [Scan.outline, hAttributes]
        | some quote => simp only [Scan.outline, hAttributes]
    | value as' label' quote' v' => cases h
  | value as label quote v =>
    cases st' with
    | text => cases h
    | tag as' label' => cases h
    | value as' label' quote' v' =>
      simp only [Scan.outline, Scan.value.injEq, and_true] at h
      obtain ⟨hAttributes, rfl, rfl⟩ := h
      cases eq_or_ne c quote.char with
      | inl hClose =>
        simp only [Scan.next, if_pos hClose, Scan.outline, List.map_append, hAttributes]
        rfl
      | inr hOpen => simp only [Scan.next, if_neg hOpen, Scan.outline, hAttributes]

theorem outline_closed {st st' : Scan} (h : st.outline = st'.outline) (c : CodePoint) :
    (st.closed c).map Tag.outline = (st'.closed c).map Tag.outline := by
  cases st with
  | text =>
    cases st' with
    | text => rfl
    | tag as' label' => cases h
    | value as' label' quote' v' => cases h
  | tag as label =>
    cases st' with
    | text => cases h
    | tag as' label' =>
      simp only [Scan.outline, Scan.tag.injEq] at h
      obtain ⟨hAttributes, rfl⟩ := h
      cases eq_or_ne c 0x3E with
      | inl hClose =>
        simp only [Scan.closed, if_pos hClose, Option.map_some, Tag.outline, hAttributes]
      | inr hOpen => simp only [Scan.closed, if_neg hOpen, Option.map_none]
    | value as' label' quote' v' => cases h
  | value as label quote v =>
    cases st' with
    | text => cases h
    | tag as' label' => cases h
    | value as' label' quote' v' => rfl

theorem outline_tagsFrom {st st' : Scan} (h : st.outline = st'.outline) (s : Text) :
    (tagsFrom st s).map Tag.outline = (tagsFrom st' s).map Tag.outline ∧
      (st.after s).outline = (st'.after s).outline := by
  induction s generalizing st st' with
  | nil => exact ⟨rfl, h⟩
  | cons c s ih =>
    obtain ⟨hTags, hAfter⟩ := ih (outline_next h c)
    refine ⟨?_, hAfter⟩
    rw [tagsFrom, tagsFrom, List.map_append, List.map_append, hTags, ← Option.toList_map,
      ← Option.toList_map, outline_closed h c]

/-! ### Pages -/

/-- A text that is nothing to a scanner, such as a number written out. -/
structure Figure where
  text : Text
  plain : plain text = true

inductive Piece where
  | markup (s : Text)
  | figure (f : Figure)
  /-- A text from outside, with what is shown of it. -/
  | hole (source shown : Text)

namespace Piece

def text : Piece → Text
  | markup s => s
  | figure f => f.text
  | hole _ shown => shown

def blank : Piece → Piece
  | hole _ _ => hole [] []
  | piece => piece

def source? : Piece → Option (Text × Text)
  | hole source shown => some (source, shown)
  | _ => none

end Piece

abbrev Html := List Piece

/-- A literal of a template. -/
def lit (s : String) : Piece :=
  .markup (txt s)

def letters (l : List Char) : Text :=
  l.map fun c => Fin.ofNat 0x110000 c.toNat

/-- The characters of a literal are cheaper to look at than its bytes. -/
theorem txt_ofList (l : List Char) : txt (String.ofList l) = letters l := by
  rw [txt, String.toList_ofList, letters]

/-- Lines of a template, each with its line feed. -/
def lineFed (lines : List String) : Html :=
  lines.map fun line => .markup (txt line ++ [0x0A])

/-- A text put in as `html.escape` leaves it. -/
def escaped (s : Text) : Piece :=
  .hole s (escape s)

namespace Html

def text (page : Html) : Text :=
  page.flatMap Piece.text

/-- What a page has of its own, whatever is put in. -/
def skeleton (page : Html) : Html :=
  page.map Piece.blank

def holes (page : Html) : List (Text × Text) :=
  page.filterMap Piece.source?

/-- Every text from outside went through `html.escape`. -/
def Escaped (page : Html) : Prop :=
  ∀ hole ∈ page.holes, hole.2 = escape hole.1

/-- Where the scanner ends; `none` where something is put in inside a tag. -/
def scan : Scan → Html → Option Scan
  | st, [] => some st
  | st, .markup s :: page => scan (st.after s) page
  | st, .figure f :: page => if st.seat then scan (st.absorb f.text) page else none
  | st, .hole _ shown :: page => if st.seat then scan (st.absorb shown) page else none

/-- The tags, where what is put in is never looked into. -/
def tags : Scan → Html → List Tag
  | _, [] => []
  | st, .markup s :: page => tagsFrom st s ++ tags (st.after s) page
  | st, .figure f :: page => tags (st.absorb f.text) page
  | st, .hole _ shown :: page => tags (st.absorb shown) page

/-- A part of a page that stands between tags, leaves none open and has escaped what it shows. -/
structure Block (page : Html) : Prop where
  closed : page.scan .text = some .text
  escaped : page.Escaped

@[simp] theorem text_append (p q : Html) : text (p ++ q) = p.text ++ q.text :=
  List.flatMap_append

theorem holes_append (p q : Html) : holes (p ++ q) = p.holes ++ q.holes :=
  List.filterMap_append

theorem skeleton_append (p q : Html) : skeleton (p ++ q) = p.skeleton ++ q.skeleton :=
  List.map_append

theorem scan_append (st : Scan) (p q : Html) :
    scan st (p ++ q) = (scan st p).bind fun st' => scan st' q := by
  induction p generalizing st with
  | nil => rfl
  | cons piece p ih =>
    cases piece with
    | markup s => exact ih _
    | figure f =>
      rw [List.cons_append, scan, scan, ih]
      split
      · rfl
      · rfl
    | hole source shown =>
      rw [List.cons_append, scan, scan, ih]
      split
      · rfl
      · rfl

theorem tags_append {st st' : Scan} {p : Html} (h : p.scan st = some st') (q : Html) :
    tags st (p ++ q) = tags st p ++ tags st' q := by
  induction p generalizing st with
  | nil =>
    cases h
    rfl
  | cons piece p ih =>
    cases piece with
    | markup s =>
      rw [List.cons_append, tags, tags, ih h, List.append_assoc]
    | figure f =>
      rw [scan] at h
      split at h
      · exact ih h
      · cases h
    | hole source shown =>
      rw [scan] at h
      split at h
      · exact ih h
      · cases h

/-- A scanner that reads the text of a page finds the tags of its pieces. -/
theorem tagsFrom_text {st st' : Scan} {page : Html} (hScan : page.scan st = some st')
    (hEscaped : page.Escaped) : tagsFrom st page.text = page.tags st ∧ st.after page.text = st' := by
  induction page generalizing st with
  | nil =>
    cases hScan
    exact ⟨rfl, rfl⟩
  | cons piece page ih =>
    have hRest : Escaped page := by
      intro hole hMem
      apply hEscaped hole
      rw [holes, List.filterMap_cons]
      split
      · exact hMem
      · exact List.mem_cons_of_mem _ hMem
    have hText : text (piece :: page) = piece.text ++ text page := List.flatMap_cons
    rw [hText, tagsFrom_append, after_append]
    have hPut : ∀ s, (∀ c ∈ s, delimiter c = false) → st.seat = true →
        scan (st.absorb s) page = some st' →
        tagsFrom st s ++ tagsFrom (st.after s) (text page) = tags (st.absorb s) page ∧
          (st.after s).after (text page) = st' := by
      intro s hPlain hSeat hAbsorb
      obtain ⟨hAfter, hNone⟩ := scan_undelimited hSeat hPlain
      rw [hAfter, hNone]
      exact ih hAbsorb hRest
    cases piece with
    | markup s =>
      obtain ⟨hTags, hAfter⟩ := ih hScan hRest
      exact ⟨congrArg (tagsFrom st s ++ ·) hTags, hAfter⟩
    | figure f =>
      rw [scan] at hScan
      split at hScan
      · rename_i hSeat
        exact hPut f.text (fun c hc => (inert_of_plain f.plain).delimiter_eq_false hc) hSeat hScan
      · cases hScan
    | hole source shown =>
      rw [scan] at hScan
      split at hScan
      · rename_i hSeat
        have hShown : shown = escape source := hEscaped (source, shown) List.mem_cons_self
        refine hPut shown (fun c hc => ?_) hSeat hScan
        exact (hShown ▸ escape_inert source).delimiter_eq_false hc
      · cases hScan

/-- The tags but for their values are decided by the skeleton. -/
theorem outline_tags {page page' : Html} (hSkeleton : page.skeleton = page'.skeleton)
    {st st' : Scan} (h : st.outline = st'.outline) :
    (page.tags st).map Tag.outline = (page'.tags st').map Tag.outline := by
  have hAbsorb : ∀ (st : Scan) s, (st.absorb s).outline = st.outline := by
    intro st s
    cases st with
    | text => rfl
    | tag as label => rfl
    | value as label quote v => rfl
  induction page generalizing page' st st' with
  | nil =>
    cases page' with
    | nil => rfl
    | cons piece' page' => cases hSkeleton
  | cons piece page ih =>
    cases page' with
    | nil => cases hSkeleton
    | cons piece' page' =>
      obtain ⟨hPiece, hRest⟩ := List.cons.inj hSkeleton
      cases piece with
      | markup s =>
        cases piece' with
        | markup s' =>
          cases hPiece
          obtain ⟨hTags, hAfter⟩ := outline_tagsFrom h s
          rw [tags, tags, List.map_append, List.map_append, hTags, ih hRest hAfter]
        | figure f' => cases hPiece
        | hole source' shown' => cases hPiece
      | figure f =>
        cases piece' with
        | markup s' => cases hPiece
        | figure f' =>
          cases hPiece
          exact ih hRest (by rw [hAbsorb, hAbsorb, h])
        | hole source' shown' => cases hPiece
      | hole source shown =>
        cases piece' with
        | markup s' => cases hPiece
        | figure f' => cases hPiece
        | hole source' shown' => exact ih hRest (by rw [hAbsorb, hAbsorb, h])

/-! ### Literals -/

theorem scan_lit (st : Scan) (l : List Char) (page : Html) :
    scan st (lit (String.ofList l) :: page) = scan (st.after (letters l)) page := by
  rw [lit, scan, txt_ofList]

theorem scan_figure (st : Scan) (f : Figure) (page : Html) :
    scan st (.figure f :: page) = if st.seat then scan (st.absorb f.text) page else none := rfl

theorem scan_escaped (st : Scan) (s : Text) (page : Html) :
    scan st (escaped s :: page) = if st.seat then scan (st.absorb (escape s)) page else none := rfl

theorem tags_lit (st : Scan) (l : List Char) (page : Html) :
    tags st (lit (String.ofList l) :: page) =
      tagsFrom st (letters l) ++ tags (st.after (letters l)) page := by
  rw [lit, tags, txt_ofList]

theorem tags_escaped (st : Scan) (s : Text) (page : Html) :
    tags st (escaped s :: page) = tags (st.absorb (escape s)) page := rfl

/-! ### Blocks -/

@[simp] theorem escaped_nil : Escaped [] := by
  intro hole hMem
  cases hMem

@[simp] theorem escaped_append (p q : Html) : Escaped (p ++ q) ↔ Escaped p ∧ Escaped q := by
  simp only [Escaped, holes_append, List.forall_mem_append]

@[simp] theorem escaped_lit (s : String) (page : Html) : Escaped (lit s :: page) ↔ page.Escaped :=
  Iff.rfl

@[simp] theorem escaped_figure (f : Figure) (page : Html) :
    Escaped (.figure f :: page) ↔ page.Escaped :=
  Iff.rfl

@[simp] theorem escaped_escaped (s : Text) (page : Html) :
    Escaped (escaped s :: page) ↔ page.Escaped := by
  constructor
  · exact fun h hole hMem => h hole (List.mem_cons_of_mem _ hMem)
  · intro h hole hMem
    rcases List.mem_cons.mp hMem with rfl | hMem
    · rfl
    · exact h hole hMem

theorem Block.nil : Block [] :=
  ⟨rfl, escaped_nil⟩

theorem Block.append {p q : Html} (hp : Block p) (hq : Block q) : Block (p ++ q) := by
  refine ⟨?_, (escaped_append p q).mpr ⟨hp.escaped, hq.escaped⟩⟩
  rw [scan_append, hp.closed]
  exact hq.closed

theorem Block.flatMap {α : Type} {f : α → Html} {items : List α} (h : ∀ a ∈ items, Block (f a)) :
    Block (items.flatMap f) := by
  induction items with
  | nil => exact Block.nil
  | cons a items ih =>
    rw [List.flatMap_cons]
    exact (h a List.mem_cons_self).append (ih fun b hb => h b (List.mem_cons_of_mem a hb))

theorem Block.flatten {parts : List Html} (h : ∀ part ∈ parts, Block part) : Block parts.flatten := by
  rw [← List.flatMap_id]
  exact Block.flatMap h

theorem tags_flatMap {α : Type} {f : α → Html} {items : List α} (h : ∀ a ∈ items, Block (f a)) :
    tags .text (items.flatMap f) = items.flatMap fun a => tags .text (f a) := by
  induction items with
  | nil => rfl
  | cons a items ih =>
    rw [List.flatMap_cons, tags_append (h a List.mem_cons_self).closed, List.flatMap_cons,
      ih fun b hb => h b (List.mem_cons_of_mem a hb)]

theorem tags_flatten {parts : List Html} (h : ∀ part ∈ parts, Block part) :
    tags .text parts.flatten = parts.flatMap (tags .text) := by
  rw [← List.flatMap_id]
  exact tags_flatMap h

/-- A literal that leaves no tag open. -/
def LeavesText (s : String) : Prop :=
  Scan.text.after (txt s) = .text

theorem leavesText_ofList {l : List Char} (h : Scan.text.after (letters l) = .text) :
    LeavesText (String.ofList l) := by
  rw [LeavesText, txt_ofList, h]

theorem Block.lit {s : String} (h : LeavesText s) {page : Html} (hPage : Block page) :
    Block (lit s :: page) := by
  refine ⟨?_, hPage.escaped⟩
  rw [Markup.lit, scan, h]
  exact hPage.closed

theorem Block.lineFed {lines : List String} (h : ∀ line ∈ lines, LeavesText line) :
    Block (lineFed lines) := by
  induction lines with
  | nil => exact Block.nil
  | cons line lines ih =>
    have hLine : Scan.text.after (txt line ++ [0x0A]) = .text := by
      rw [after_append, h line List.mem_cons_self]
      rfl
    obtain ⟨hClosed, hEscaped⟩ := ih fun l hl => h l (List.mem_cons_of_mem line hl)
    refine ⟨?_, hEscaped⟩
    rw [Markup.lineFed, List.map_cons, scan, hLine]
    exact hClosed

theorem skeleton_flatMap {α β : Type} {f : α → Html} {g : β → Html} {items : List α}
    {items' : List β} (h : List.Forall₂ (fun a b => skeleton (f a) = skeleton (g b)) items items') :
    skeleton (items.flatMap f) = skeleton (items'.flatMap g) := by
  induction h with
  | nil => rfl
  | cons hHead _ ih =>
    rw [List.flatMap_cons, List.flatMap_cons, skeleton_append, skeleton_append, hHead, ih]

theorem skeleton_flatten {parts parts' : List Html}
    (h : List.Forall₂ (fun p q => skeleton p = skeleton q) parts parts') :
    skeleton parts.flatten = skeleton parts'.flatten := by
  rw [← List.flatMap_id, ← List.flatMap_id]
  exact skeleton_flatMap h

variable {page page' : Html}

/-- The tags of the text of a page and the delimiters of their attributes. -/
def outline (page : Html) : List Tag :=
  (Markup.tags page.text).map Tag.outline

theorem Block.tags_text (h : Block page) : Markup.tags page.text = page.tags .text :=
  (tagsFrom_text h.closed h.escaped).1

/-- Nothing that was put in shows in the tags. -/
theorem Block.outline_eq (h : Block page) (h' : Block page')
    (hSkeleton : page.skeleton = page'.skeleton) : page.outline = page'.outline := by
  rw [outline, outline, h.tags_text, h'.tags_text]
  exact outline_tags hSkeleton rfl

end Html

/-- The same page but for what was put in. -/
def SameSkeleton (p q : Html) : Prop :=
  p.skeleton = q.skeleton

end Foundation.Markup
