import LlmBus.Dashboard
import LlmBus.Foundation.Figures

/-! # The cost page

The ledger laid out as markup: tiles, two charts and the table, with every project, day and
path escaped where it is put in. Amounts decide the layout, names do not.
-/

namespace LlmBus

open Foundation Foundation.Markup Foundation.Figures

def moneyPlaces : Nat := 6

/-- `format_usd` -/
def formatUsd (amount : Double) : Figure where
  text := txt "$" ++ decimalFigure moneyPlaces amount
  plain := by
    have hSign : plain (txt "$") = true := by decide
    rw [plain_append, hSign, plain_decimalFigure]
    rfl

/-- `bar_width_pct`; `none` where decimal arithmetic raises. -/
def barWidthPct (amount largest : Double) : Option Double :=
  if largest.isNan then none
  else if largest.le (.finite 0) then some (.finite 0)
  else (Double.decimalDivide amount largest).map fun ratio =>
    Double.max (.finite 0) (Double.min (.finite 100) (ratio.rounded.mul (.finite 100)).rounded)

def widthFigure (width : Double) : Figure :=
  ⟨floatFigure 4 width, plain_floatFigure 4 width⟩

/-- The built-in `max` with a key: the first of the largest. A comparison with NaN raises. -/
def maxBy {α : Type} (key : α → Double) : α → List α → Option α
  | best, [] => some best
  | best, a :: rest =>
    if (key a).isNan || (key best).isNan then none
    else maxBy key (if (key best).lt (key a) then a else best) rest

def joinLines : List Html → Html
  | [] => []
  | cell :: cells => cell ++ cells.flatMap fun c => lit "\n" :: c

def barRow (largest : Double) (total : Total) : Option Html := do
  let width ← barWidthPct total.amount largest
  let label := escaped total.key
  let value := Piece.figure (formatUsd total.amount)
  pure
    [lit "<div class=\"row\" title=\"", label, lit ": ", value, lit "\">",
      lit "<div class=\"row-label\">", label, lit "</div>",
      lit "<div class=\"track\"><div class=\"bar\" style=\"width:", .figure (widthFigure width),
      lit "%\"></div></div>", lit "<div class=\"row-value\">", value, lit "</div>", lit "</div>"]

/-- `_bar_rows`, where `max` of no totals raises. -/
def barRows : List Total → Option Html
  | [] => none
  | total :: totals => do
    let largest ← maxBy id total.amount (totals.map (·.amount))
    let cells ← (total :: totals).mapM (barRow largest)
    pure (joinLines cells)

/-- `_chart` -/
def chart (title caption : Text) (totals : List Total) : Option Html :=
  if totals.isEmpty then some []
  else do
    let rows ← barRows totals
    pure ([lit "<section class=\"card\">", lit "<h2>", escaped title, lit "</h2>",
        lit "<p class=\"caption\">", escaped caption, lit "</p>", lit "<div class=\"chart\">"] ++
      rows ++ [lit "</div>", lit "</section>"])

def tile (label : String) (value : Html) : Html :=
  [lit "<div class=\"tile\"><div class=\"tile-label\">", lit label, lit "</div>",
    lit "<div class=\"tile-value\">"] ++ value ++ [lit "</div></div>"]

/-- The name of a total, or a dash where there is none. -/
def nameOrDash : Option Total → Html
  | some total => [escaped total.key]
  | none => [lit "—"]

/-- The day with the most spend, the earliest of several. -/
def peakDay : List Total → Option (Option Total)
  | [] => some none
  | day :: days => (maxBy (·.amount) day days).map some

/-- `_tiles` -/
def tiles (summary : CostSummary) : Option Html := do
  let topProject := summary.byProject.head?
  let peak ← peakDay summary.byDay
  pure ([lit "<div class=\"tiles\">"] ++
    tile "Projects" [.figure (count summary.byProject.length)] ++
    tile "Days with spend" [.figure (count summary.byDay.length)] ++
    tile "Top project" (nameOrDash topProject) ++ tile "Peak day" (nameOrDash peak) ++
    [lit "</div>"])

def amountCell (amount : Double) : Html :=
  [lit "<td>", .figure (formatUsd amount), lit "</td>"]

def spendCell : Option Double → Html
  | some amount => amountCell amount
  | none => [lit "<td>", lit "—", lit "</td>"]

def headCell (name : Text) : Html :=
  [lit "<th>", escaped name, lit "</th>"]

def tableRow (line : TableLine) : Html :=
  lit "<tr>" :: headCell line.day ++ line.cells.flatMap spendCell ++ amountCell line.total ++
    [lit "</tr>"]

/-- `_table` -/
def tableHtml (summary : CostSummary) : Html :=
  match table summary with
  | none => []
  | some t =>
    [lit "<section class=\"card\"><h2>Every project and day</h2>",
      lit "<p class=\"caption\">The same figures the charts encode, as numbers.</p>",
      lit "<div class=\"scroll\"><table><thead><tr><th>Day</th>"] ++ t.projects.flatMap headCell ++
    [lit "<th>Total</th></tr></thead>", lit "<tbody>"] ++ t.body.flatMap tableRow ++
    [lit "</tbody><tfoot>", lit "<tr><th>Total</th>"] ++ t.totals.flatMap amountCell ++
    amountCell t.grandTotal ++ [lit "</tr>", lit "</tfoot></table></div></section>"]

/-- `_empty_note` -/
def emptyNote (summary : CostSummary) : Html :=
  if summary.rows.isEmpty then
    [lit "<section class=\"card\"><h2>No spend recorded yet</h2>",
      lit "<p class=\"caption\">The ledger counts only jobs that completed with a non-zero ",
      lit "cost. A store holding only pending, failed, or zero-cost jobs is empty here ",
      lit "and that is correct — it is not an error.</p></section>"]
  else []

/-- `_STYLE`, line by line -/
def dashboardStyle : List String :=
  ["",
    ":root \x7b",
    "  color-scheme: light;",
    "  --surface: #fcfcfb; --plane: #f9f9f7;",
    "  --ink: #0b0b0b; --ink-2: #52514e; --muted: #898781;",
    "  --grid: #e1e0d9; --axis: #c3c2b7; --ring: rgba(11,11,11,0.10);",
    "  --series: #2a78d6;",
    "\x7d",
    "@media (prefers-color-scheme: dark) \x7b",
    "  :root:not([data-theme=\"light\"]) \x7b",
    "    color-scheme: dark;",
    "    --surface: #1a1a19; --plane: #0d0d0d;",
    "    --ink: #ffffff; --ink-2: #c3c2b7; --muted: #898781;",
    "    --grid: #2c2c2a; --axis: #383835; --ring: rgba(255,255,255,0.10);",
    "    --series: #3987e5;",
    "  \x7d",
    "\x7d",
    ":root[data-theme=\"dark\"] \x7b",
    "  color-scheme: dark;",
    "  --surface: #1a1a19; --plane: #0d0d0d;",
    "  --ink: #ffffff; --ink-2: #c3c2b7; --muted: #898781;",
    "  --grid: #2c2c2a; --axis: #383835; --ring: rgba(255,255,255,0.10);",
    "  --series: #3987e5;",
    "\x7d",
    "* \x7b box-sizing: border-box; \x7d",
    "body \x7b",
    "  margin: 0; padding: 2rem 1.25rem 4rem;",
    "  background: var(--plane); color: var(--ink);",
    "  font-family: system-ui, -apple-system, \"Segoe UI\", sans-serif;",
    "  line-height: 1.5;",
    "\x7d",
    "main \x7b max-width: 60rem; margin: 0 auto; \x7d",
    "h1 \x7b font-size: 1.125rem; font-weight: 600; margin: 0; letter-spacing: 0.01em; \x7d",
    "h2 \x7b font-size: 0.9375rem; font-weight: 600; margin: 0; \x7d",
    ".meta, .caption \x7b color: var(--muted); font-size: 0.8125rem; margin: 0.25rem 0 0; \x7d",
    ".meta code \x7b font-family: ui-monospace, SFMono-Regular, Menlo, monospace; \x7d",
    ".hero \x7b margin: 1.75rem 0 0; \x7d",
    ".hero-label \x7b color: var(--ink-2); font-size: 0.8125rem; \x7d",
    ".hero-value \x7b font-size: 3rem; font-weight: 600; line-height: 1.1; margin-top: 0.125rem; \x7d",
    ".tiles \x7b",
    "  display: grid; gap: 0.75rem; margin-top: 1.5rem;",
    "  grid-template-columns: repeat(auto-fit, minmax(9rem, 1fr));",
    "\x7d",
    ".tile \x7b",
    "  background: var(--surface); border: 1px solid var(--ring);",
    "  border-radius: 10px; padding: 0.75rem 0.875rem;",
    "\x7d",
    ".tile-label \x7b color: var(--muted); font-size: 0.75rem; \x7d",
    ".tile-value \x7b font-size: 1.125rem; font-weight: 600; margin-top: 0.125rem;",
    "  overflow-wrap: anywhere; \x7d",
    ".card \x7b",
    "  background: var(--surface); border: 1px solid var(--ring); border-radius: 12px;",
    "  padding: 1.125rem 1.25rem 1.25rem; margin-top: 1rem;",
    "\x7d",
    ".chart \x7b margin-top: 1rem; display: flex; flex-direction: column; gap: 0.625rem; \x7d",
    ".row \x7b",
    "  display: grid; align-items: center; gap: 0.75rem;",
    "  grid-template-columns: minmax(0, 9rem) 1fr minmax(0, auto);",
    "\x7d",
    ".row-label \x7b font-size: 0.8125rem; color: var(--ink-2); overflow-wrap: anywhere; \x7d",
    ".track \x7b border-left: 1px solid var(--axis); padding-left: 2px; \x7d",
    ".bar \x7b",
    "  height: 18px; background: var(--series);",
    "  border-radius: 0 4px 4px 0; min-width: 2px;",
    "\x7d",
    ".row-value \x7b",
    "  font-size: 0.8125rem; color: var(--ink-2);",
    "  font-variant-numeric: tabular-nums; white-space: nowrap;",
    "\x7d",
    ".scroll \x7b overflow-x: auto; margin-top: 1rem; \x7d",
    "table \x7b border-collapse: collapse; width: 100%; font-size: 0.8125rem; \x7d",
    "th, td \x7b",
    "  text-align: right; padding: 0.4375rem 0.75rem;",
    "  border-bottom: 1px solid var(--grid); white-space: nowrap;",
    "\x7d",
    "thead th \x7b color: var(--muted); font-weight: 500; \x7d",
    "/* The day column is left-aligned in the body, so its header must be too — a",
    "   right-aligned \"Day\" over left-aligned dates reads as a column boundary. */",
    "thead th:first-child \x7b text-align: left; \x7d",
    "tbody th, tfoot th \x7b text-align: left; font-weight: 500; color: var(--ink-2); \x7d",
    "td \x7b font-variant-numeric: tabular-nums; \x7d",
    "tfoot th, tfoot td \x7b font-weight: 600; color: var(--ink); border-bottom: none;",
    "  border-top: 1px solid var(--axis); \x7d",
    "footer \x7b color: var(--muted); font-size: 0.75rem; margin-top: 1.5rem; \x7d"]

/-- `render_dashboard`; `none` where decimal arithmetic raises. -/
def renderDashboard (summary : CostSummary) (generatedAt : DateTime) (storePath : Text) :
    Option Html := do
  let tiles ← tiles summary
  let byProject ← chart (txt "Spend by project") (txt "Total USD per project, largest first.")
    summary.byProject
  let byDay ← chart (txt "Spend by day") (txt "Total USD per day the bus recorded spend.")
    summary.byDay
  pure (List.flatten
    [lineFed ["<!doctype html>", "<html lang=\"en\">", "<head>", "<meta charset=\"utf-8\">",
        "<meta name=\"viewport\" content=\"width=device-width, initial-scale=1\">",
        "<title>llmbus — cost ledger</title>"],
      lit "<style>" :: lineFed dashboardStyle,
      lineFed ["</style>", "</head>", "<body>", "<main>", "<header>", "<h1>llmbus — cost ledger</h1>"],
      [lit "<p class=\"meta\">Generated ", escaped generatedAt.isoformatSeconds, lit " from <code>",
        escaped storePath, lit "</code></p>\n"],
      lineFed ["</header>", "<div class=\"hero\">", "<div class=\"hero-label\">Total spend</div>"],
      [lit "<div class=\"hero-value\">", .figure (formatUsd summary.grandTotal), lit "</div>\n"],
      lit "</div>\n" :: tiles,
      lit "\n" :: emptyNote summary,
      lit "\n" :: byProject,
      lit "\n" :: byDay,
      lit "\n" :: tableHtml summary,
      lit "\n" :: lineFed ["<footer>",
        "Costs are priced at the rate in force on each job's submission date (cost.py).",
        "Days without recorded spend are absent, not zero.", "</footer>", "</main>", "</body>",
        "</html>"]])

/-! ### Every part is a block -/

theorem mapM_rel {α α' β β' : Type} {r : β → β' → Prop} {f : α → Option β} {g : α' → Option β'}
    {as : List α} {bs : List α'} (h : List.Forall₂ (fun a b => Option.Rel r (f a) (g b)) as bs) :
    Option.Rel (List.Forall₂ r) (as.mapM f) (bs.mapM g) := by
  induction h with
  | nil => exact .some .nil
  | @cons a b as bs hStep _ ih =>
    rw [List.mapM_cons, List.mapM_cons]
    generalize f a = x at hStep ⊢
    generalize g b = y at hStep ⊢
    generalize as.mapM f = xs at ih ⊢
    generalize bs.mapM g = ys at ih ⊢
    cases hStep with
    | none => exact .none
    | some hHead =>
      cases ih with
      | none => exact .none
      | some hTail => exact .some (.cons hHead hTail)

section Blocks

variable {summary : CostSummary} {largest : Double}

theorem joinLines_block {cells : List Html} (h : ∀ cell ∈ cells, Html.Block cell) :
    Html.Block (joinLines cells) := by
  have hFeed : Html.LeavesText "\n" := Html.leavesText_ofList (by decide +kernel)
  cases cells with
  | nil => exact Html.Block.nil
  | cons cell cells =>
    refine (h cell List.mem_cons_self).append (Html.Block.flatMap fun c hc => ?_)
    exact Html.Block.lit hFeed (h c (List.mem_cons_of_mem cell hc))

set_option maxRecDepth 2000 in
theorem barRow_block {total : Total} {row : Html} (h : barRow largest total = some row) :
    Html.Block row := by
  obtain ⟨width, _, hRow⟩ := Option.bind_eq_some_iff.mp h
  cases hRow
  refine ⟨?_, by simp⟩
  repeat first | rw [Html.scan_lit] | rw [Html.scan_escaped] | rw [Html.scan_figure]
  rfl

theorem barRows_block {totals : List Total} {rows : Html} (h : barRows totals = some rows) :
    Html.Block rows := by
  cases totals with
  | nil => cases h
  | cons total totals =>
    obtain ⟨largest, _, h⟩ := Option.bind_eq_some_iff.mp h
    obtain ⟨cells, hCells, hRows⟩ := Option.bind_eq_some_iff.mp h
    cases hRows
    have hRel : Option.Rel (List.Forall₂ fun cell _ => Html.Block cell)
        ((total :: totals).mapM (barRow largest)) ((total :: totals).mapM (barRow largest)) := by
      refine mapM_rel (List.forall₂_same.mpr fun t _ => ?_)
      cases hRow : barRow largest t with
      | none => exact .none
      | some row => exact .some (barRow_block hRow)
    rw [hCells] at hRel
    cases hRel with
    | some hCells =>
      exact joinLines_block ((@List.forall₂_same Html (fun cell _ => Html.Block cell) cells).mp hCells)

theorem chart_block {title caption : Text} {totals : List Total} {page : Html}
    (h : chart title caption totals = some page) : Html.Block page := by
  unfold chart at h
  split at h
  · cases h
    exact Html.Block.nil
  · obtain ⟨rows, hRows, hPage⟩ := Option.bind_eq_some_iff.mp h
    cases hPage
    refine Html.Block.append (Html.Block.append ⟨?_, by simp⟩ (barRows_block hRows)) ⟨?_, by simp⟩
    · repeat first | rw [Html.scan_lit] | rw [Html.scan_escaped]
      rfl
    · repeat rw [Html.scan_lit]
      rfl

theorem tile_block {label : String} (hLabel : Html.LeavesText label) {value : Html}
    (hValue : Html.Block value) : Html.Block (tile label value) := by
  refine Html.Block.append (Html.Block.append ?_ hValue) ⟨?_, by simp⟩
  · refine ⟨?_, by simp⟩
    rw [Html.scan_lit, lit, Html.scan, (by rfl : Scan.text.after (letters _) = .text), hLabel]
    repeat rw [Html.scan_lit]
    rfl
  · rw [Html.scan_lit]
    rfl

theorem nameOrDash_block (total : Option Total) : Html.Block (nameOrDash total) := by
  cases total with
  | none =>
    refine ⟨?_, by simp [nameOrDash]⟩
    rw [nameOrDash, Html.scan_lit]
    rfl
  | some total => exact ⟨rfl, by simp [nameOrDash]⟩

theorem tiles_block {page : Html} (h : tiles summary = some page) : Html.Block page := by
  obtain ⟨peak, _, hPage⟩ := Option.bind_eq_some_iff.mp h
  cases hPage
  have hCount : ∀ n, Html.Block [.figure (count n)] := fun n => ⟨rfl, by simp⟩
  have hOpen : Html.Block [lit "<div class=\"tiles\">"] := by
    refine ⟨?_, by simp⟩
    rw [Html.scan_lit]
    rfl
  have hClose : Html.Block [lit "</div>"] := by
    refine ⟨?_, by simp⟩
    rw [Html.scan_lit]
    rfl
  have hProjects := tile_block (Html.leavesText_ofList (by decide +kernel) : Html.LeavesText "Projects")
    (hCount summary.byProject.length)
  have hDays := tile_block
    (Html.leavesText_ofList (by decide +kernel) : Html.LeavesText "Days with spend")
    (hCount summary.byDay.length)
  have hTop := tile_block (Html.leavesText_ofList (by decide +kernel) : Html.LeavesText "Top project")
    (nameOrDash_block summary.byProject.head?)
  have hPeak := tile_block (Html.leavesText_ofList (by decide +kernel) : Html.LeavesText "Peak day")
    (nameOrDash_block peak)
  exact ((((hOpen.append hProjects).append hDays).append hTop).append hPeak).append hClose

theorem amountCell_block (amount : Double) : Html.Block (amountCell amount) := by
  refine ⟨?_, by simp [amountCell]⟩
  rw [amountCell, Html.scan_lit, Html.scan_figure, Html.scan_lit]
  rfl

theorem spendCell_block (amount : Option Double) : Html.Block (spendCell amount) := by
  cases amount with
  | some amount => exact amountCell_block amount
  | none =>
    refine ⟨?_, by simp [spendCell]⟩
    rw [spendCell, Html.scan_lit, Html.scan_lit, Html.scan_lit]
    rfl

theorem headCell_block (name : Text) : Html.Block (headCell name) := by
  refine ⟨?_, by simp [headCell]⟩
  rw [headCell, Html.scan_lit, Html.scan_escaped, Html.scan_lit]
  rfl

theorem tableRow_block (line : TableLine) : Html.Block (tableRow line) := by
  have hOpen : Html.Block (lit "<tr>" :: headCell line.day) :=
    Html.Block.lit (Html.leavesText_ofList (by decide +kernel)) (headCell_block line.day)
  have hCells : Html.Block (line.cells.flatMap spendCell) :=
    Html.Block.flatMap fun amount _ => spendCell_block amount
  have hClose : Html.Block [lit "</tr>"] :=
    Html.Block.lit (Html.leavesText_ofList (by decide +kernel)) Html.Block.nil
  exact ((hOpen.append hCells).append (amountCell_block line.total)).append hClose

theorem tableHtml_block (summary : CostSummary) : Html.Block (tableHtml summary) := by
  unfold tableHtml
  cases table summary with
  | none => exact Html.Block.nil
  | some t =>
    have hHead : Html.Block (t.projects.flatMap headCell) :=
      Html.Block.flatMap fun name _ => headCell_block name
    have hBody : Html.Block (t.body.flatMap tableRow) :=
      Html.Block.flatMap fun line _ => tableRow_block line
    have hTotals : Html.Block (t.totals.flatMap amountCell) :=
      Html.Block.flatMap fun amount _ => amountCell_block amount
    refine Html.Block.append (Html.Block.append (Html.Block.append (Html.Block.append
      (Html.Block.append (Html.Block.append (Html.Block.append ?_ hHead) ?_) hBody) ?_) hTotals)
      (amountCell_block t.grandTotal)) ?_
    all_goals
      repeat refine Html.Block.lit (Html.leavesText_ofList (by decide +kernel)) ?_
      exact Html.Block.nil

theorem emptyNote_block (summary : CostSummary) : Html.Block (emptyNote summary) := by
  unfold emptyNote
  split
  · repeat refine Html.Block.lit (Html.leavesText_ofList (by decide +kernel)) ?_
    exact Html.Block.nil
  · exact Html.Block.nil

theorem dashboardStyle_block : Html.Block (lineFed dashboardStyle) := by
  apply Html.Block.lineFed
  simp only [dashboardStyle, List.forall_mem_cons, List.not_mem_nil, IsEmpty.forall_iff, implies_true,
    and_true]
  and_intros <;> exact Html.leavesText_ofList (by decide +kernel)

theorem renderDashboard_block {generatedAt : DateTime} {storePath : Text} {page : Html}
    (h : renderDashboard summary generatedAt storePath = some page) : Html.Block page := by
  obtain ⟨tiles, hTiles, h⟩ := Option.bind_eq_some_iff.mp h
  obtain ⟨byProject, hProject, h⟩ := Option.bind_eq_some_iff.mp h
  obtain ⟨byDay, hDay, h⟩ := Option.bind_eq_some_iff.mp h
  cases h
  have hFeed : Html.LeavesText "\n" := Html.leavesText_ofList (by decide +kernel)
  have hTiles : Html.Block (lit "</div>\n" :: tiles) :=
    .lit (Html.leavesText_ofList (by decide +kernel)) (tiles_block hTiles)
  have hStyle : Html.Block (lit "<style>" :: lineFed dashboardStyle) :=
    .lit (Html.leavesText_ofList (by decide +kernel)) dashboardStyle_block
  apply Html.Block.flatten
  simp only [List.forall_mem_cons, List.not_mem_nil, IsEmpty.forall_iff, implies_true, and_true]
  refine ⟨.lineFed ?_, hStyle, .lineFed ?_, ⟨?_, by simp⟩, .lineFed ?_, ⟨?_, by simp⟩, hTiles,
    .lit hFeed (emptyNote_block summary), .lit hFeed (chart_block hProject),
    .lit hFeed (chart_block hDay), .lit hFeed (tableHtml_block summary), .lit hFeed (.lineFed ?_)⟩
  case refine_3 =>
    rw [Html.scan_lit, Html.scan_escaped, Html.scan_lit, Html.scan_escaped, Html.scan_lit]
    rfl
  case refine_5 =>
    rw [Html.scan_lit, Html.scan_figure, Html.scan_lit]
    rfl
  all_goals
    simp only [List.forall_mem_cons, List.not_mem_nil, IsEmpty.forall_iff, implies_true, and_true]
    and_intros <;> exact Html.leavesText_ofList (by decide +kernel)

end Blocks

/-! ### Names decide nothing of the layout -/

def SameAmount (t t' : Total) : Prop :=
  t.amount = t'.amount

/-- The cells of the table, row by row, where a missing one holds nothing. -/
def CostSummary.cells (summary : CostSummary) : List (List (Option Double)) :=
  summary.byDay.map fun day =>
    summary.byProject.map fun project => cell summary.rows project.key day.key

/-- The same amounts in the same places, whatever they are called. -/
structure SameLayout (a b : CostSummary) : Prop where
  byProject : List.Forall₂ SameAmount a.byProject b.byProject
  byDay : List.Forall₂ SameAmount a.byDay b.byDay
  grandTotal : a.grandTotal = b.grandTotal
  rows : a.rows.isEmpty = b.rows.isEmpty
  cells : a.cells = b.cells

section Layout

variable {totals totals' : List Total} {a b : CostSummary}

theorem amounts_eq (h : List.Forall₂ SameAmount totals totals') :
    totals.map (·.amount) = totals'.map (·.amount) := by
  induction h with
  | nil => rfl
  | cons hHead _ ih => exact List.cons_eq_cons.mpr ⟨hHead, ih⟩

theorem maxBy_rel {day day' : Total} (h : SameAmount day day')
    (hRest : List.Forall₂ SameAmount totals totals') :
    Option.Rel SameAmount (maxBy (·.amount) day totals) (maxBy (·.amount) day' totals') := by
  induction hRest generalizing day day' with
  | nil => exact .some h
  | @cons t t' totals totals' ht _ ih =>
    have hDay : day.amount = day'.amount := h
    have hNext : t.amount = t'.amount := ht
    rw [maxBy, maxBy, hDay, hNext]
    split
    · exact .none
    · split
      · exact ih ht
      · exact ih h

theorem barRow_rel {largest : Double} {t t' : Total} (h : SameAmount t t') :
    Option.Rel SameSkeleton (barRow largest t) (barRow largest t') := by
  have hAmount : t.amount = t'.amount := h
  unfold barRow
  rw [hAmount]
  cases barWidthPct t'.amount largest with
  | none => exact .none
  | some width => exact .some rfl

theorem joinLines_same {cells cells' : List Html} (h : List.Forall₂ SameSkeleton cells cells') :
    SameSkeleton (joinLines cells) (joinLines cells') := by
  cases h with
  | nil => rfl
  | cons hHead hTail =>
    have hRest : List.Forall₂ (fun c c' => Html.skeleton (lit "\n" :: c) =
        Html.skeleton (lit "\n" :: c')) _ _ := hTail.imp fun _ _ hCell => congrArg (lit "\n" :: ·) hCell
    rw [SameSkeleton, joinLines, joinLines, Html.skeleton_append, Html.skeleton_append, hHead,
      Html.skeleton_flatMap hRest]

theorem barRows_rel (h : List.Forall₂ SameAmount totals totals') :
    Option.Rel SameSkeleton (barRows totals) (barRows totals') := by
  cases h with
  | nil => exact .none
  | @cons t t' totals totals' hHead hTail =>
    have hAmount : t.amount = t'.amount := hHead
    rw [barRows, barRows, hAmount, amounts_eq hTail]
    cases maxBy id t'.amount (totals'.map (·.amount)) with
    | none => exact .none
    | some largest =>
      have hCells := mapM_rel ((List.Forall₂.cons hHead hTail).imp
        fun _ _ h => @barRow_rel largest _ _ h)
      simp only [Option.bind_eq_bind, Option.bind_some]
      generalize (t :: totals).mapM (barRow largest) = x at hCells ⊢
      generalize (t' :: totals').mapM (barRow largest) = y at hCells ⊢
      cases hCells with
      | none => exact .none
      | some hCells => exact .some (joinLines_same hCells)

theorem chart_rel (title caption : Text) (h : List.Forall₂ SameAmount totals totals') :
    Option.Rel SameSkeleton (chart title caption totals) (chart title caption totals') := by
  have hRows := barRows_rel h
  cases h with
  | nil => exact .some rfl
  | @cons t t' totals totals' hHead hTail =>
    unfold chart
    rw [if_neg (by simp), if_neg (by simp)]
    generalize barRows (t :: totals) = x at hRows ⊢
    generalize barRows (t' :: totals') = y at hRows ⊢
    cases hRows with
    | none => exact .none
    | @some rows rows' hSame =>
      refine .some ?_
      simp only [SameSkeleton, Html.skeleton_append, (show rows.skeleton = rows'.skeleton from hSame)]

/-- Whether a name or a dash is shown is a matter of there being totals. -/
theorem nameOrDash_same {x x' : Option Total} (h : Option.Rel SameAmount x x') :
    SameSkeleton (nameOrDash x) (nameOrDash x') := by
  cases h with
  | none => rfl
  | some _ => rfl

theorem head_rel (h : List.Forall₂ SameAmount totals totals') :
    Option.Rel SameAmount totals.head? totals'.head? := by
  cases h with
  | nil => exact .none
  | cons hHead _ => exact .some hHead

theorem peakDay_rel (h : List.Forall₂ SameAmount totals totals') :
    Option.Rel (Option.Rel SameAmount) (peakDay totals) (peakDay totals') := by
  cases h with
  | nil => exact .some .none
  | @cons day day' days days' hHead hTail =>
    have hPeak := maxBy_rel hHead hTail
    rw [peakDay, peakDay]
    generalize maxBy (·.amount) day days = x at hPeak ⊢
    generalize maxBy (·.amount) day' days' = y at hPeak ⊢
    cases hPeak with
    | none => exact .none
    | some hDay => exact .some (.some hDay)

theorem tiles_rel (h : SameLayout a b) : Option.Rel SameSkeleton (tiles a) (tiles b) := by
  have hTop := nameOrDash_same (head_rel h.byProject)
  have hPeak := peakDay_rel h.byDay
  unfold tiles
  rw [h.byProject.length_eq, h.byDay.length_eq]
  generalize peakDay a.byDay = x at hPeak ⊢
  generalize peakDay b.byDay = y at hPeak ⊢
  cases hPeak with
  | none => exact .none
  | some hPeak =>
    have hDay := nameOrDash_same hPeak
    refine .some ?_
    simp only [SameSkeleton] at hTop hDay
    simp only [SameSkeleton, tile, Html.skeleton_append, hTop, hDay]

theorem forall₂_and_of_map_eq {α β γ : Type} {r : α → β → Prop} {f : α → γ} {g : β → γ} {as : List α}
    {bs : List β} (h : List.Forall₂ r as bs) (hMap : as.map f = bs.map g) :
    List.Forall₂ (fun a b => r a b ∧ f a = g b) as bs := by
  induction h with
  | nil => exact .nil
  | cons hHead _ ih =>
    obtain ⟨hEq, hRest⟩ := List.cons.inj hMap
    exact .cons ⟨hHead, hEq⟩ (ih hRest)

theorem tableRow_same {line line' : TableLine} (hCells : line.cells = line'.cells)
    (hTotal : line.total = line'.total) : SameSkeleton (tableRow line) (tableRow line') := by
  have hHead : Html.skeleton (lit "<tr>" :: headCell line.day) =
      Html.skeleton (lit "<tr>" :: headCell line'.day) := rfl
  rw [SameSkeleton, tableRow, tableRow, hCells, hTotal]
  simp only [Html.skeleton_append, hHead]

/-- The same figures in two tables. -/
structure TableAlike (t t' : Table) : Prop where
  projects : List.Forall₂ (fun _ _ => True) t.projects t'.projects
  body : List.Forall₂ (fun line line' => line.cells = line'.cells ∧ line.total = line'.total)
    t.body t'.body
  totals : t.totals = t'.totals
  grandTotal : t.grandTotal = t'.grandTotal

theorem table_rel (h : SameLayout a b) : Option.Rel TableAlike (table a) (table b) := by
  unfold table
  rw [h.rows]
  split
  · exact .none
  · refine .some ⟨?_, ?_, amounts_eq h.byProject, h.grandTotal⟩
    · rw [List.forall₂_map_left_iff, List.forall₂_map_right_iff]
      exact h.byProject.imp fun _ _ _ => trivial
    · rw [List.forall₂_map_left_iff, List.forall₂_map_right_iff]
      refine (forall₂_and_of_map_eq h.byDay h.cells).imp fun day day' hDay => ⟨?_, hDay.1⟩
      rw [List.map_map, List.map_map]
      exact hDay.2

theorem tableHtml_same (h : SameLayout a b) : SameSkeleton (tableHtml a) (tableHtml b) := by
  have hTable := table_rel h
  unfold tableHtml
  generalize table a = x at hTable ⊢
  generalize table b = y at hTable ⊢
  cases hTable with
  | none => rfl
  | @some t t' hAlike =>
    have hHeads : Html.skeleton (t.projects.flatMap headCell) =
        Html.skeleton (t'.projects.flatMap headCell) :=
      Html.skeleton_flatMap (hAlike.projects.imp fun _ _ _ => rfl)
    have hBody : Html.skeleton (t.body.flatMap tableRow) = Html.skeleton (t'.body.flatMap tableRow) :=
      Html.skeleton_flatMap (hAlike.body.imp fun _ _ hLine => tableRow_same hLine.1 hLine.2)
    simp only [SameSkeleton, Html.skeleton_append, hHeads, hBody, hAlike.totals, hAlike.grandTotal]

theorem renderDashboard_rel (h : SameLayout a b) (generatedAt generatedAt' : DateTime)
    (storePath storePath' : Text) :
    Option.Rel SameSkeleton (renderDashboard a generatedAt storePath)
      (renderDashboard b generatedAt' storePath') := by
  have hTiles := tiles_rel h
  have hProject := chart_rel (txt "Spend by project") (txt "Total USD per project, largest first.")
    h.byProject
  have hDay := chart_rel (txt "Spend by day") (txt "Total USD per day the bus recorded spend.") h.byDay
  have hTable := tableHtml_same h
  have hNote : emptyNote a = emptyNote b := by
    rw [emptyNote, emptyNote, h.rows]
  unfold renderDashboard
  generalize tiles a = x at hTiles ⊢
  generalize tiles b = y at hTiles ⊢
  generalize chart _ _ a.byProject = u at hProject ⊢
  generalize chart _ _ b.byProject = v at hProject ⊢
  generalize chart _ _ a.byDay = w at hDay ⊢
  generalize chart _ _ b.byDay = z at hDay ⊢
  cases hTiles with
  | none => exact .none
  | some hTiles =>
    cases hProject with
    | none => exact .none
    | some hProject =>
      cases hDay with
      | none => exact .none
      | some hDay =>
        refine .some (Html.skeleton_flatten ?_)
        rw [hNote, h.grandTotal]
        have hAfter : ∀ {p q : Html} (s : String), SameSkeleton p q →
            Html.skeleton (lit s :: p) = Html.skeleton (lit s :: q) :=
          fun s hSame => congrArg ((lit s).blank :: ·) hSame
        exact .cons rfl (.cons rfl (.cons rfl (.cons rfl (.cons rfl (.cons rfl
          (.cons (hAfter _ hTiles) (.cons rfl (.cons (hAfter _ hProject) (.cons (hAfter _ hDay)
            (.cons (hAfter _ hTable) (.cons rfl .nil)))))))))))

end Layout

end LlmBus
