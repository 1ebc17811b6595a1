import Mathlib.Data.List.Lex
import Mathlib.Order.Fin.Basic
import LlmBus.Foundation.DoubleSum
import LlmBus.Foundation.Grouping
import LlmBus.Store

/-! # The cost ledger and its page

The store groups what was spent by project and day; the page groups these figures again
by project and by day, and lays them out as a table. Amounts are exact throughout.
-/

namespace LlmBus

open Foundation Foundation.Grouping

/-! ### The ledger -/

structure ProjectDayCost where
  project : Text
  day : Text
  costUsd : Double

def JobRow.projectDay (row : JobRow) : Text × Text :=
  (row.project, row.day)

def ProjectDayCost.projectDay (e : ProjectDayCost) : Text × Text :=
  (e.project, e.day)

/-- `ORDER BY day, project`. Bytes of UTF-8 compare as the code points do. -/
def ProjectDayCost.dayThenProject (e : ProjectDayCost) : Text ×ₗ Text :=
  toLex (e.day, e.project)

/-- `cost_by_project_day`: `GROUP BY project, day HAVING SUM(cost_usd) > 0`. -/
def Database.costByProjectDay (db : Database) : List ProjectDayCost :=
  let groups := sumBy JobRow.projectDay JobRow.costUsd db.jobs.rows
  sortOn ProjectDayCost.dayThenProject
    ((groups.filter fun e => e.2.positive).map fun e => ⟨e.1.1, e.1.2, e.2⟩)

/-! ### The page -/

structure Total where
  key : Text
  amount : Double

structure CostSummary where
  rows : List ProjectDayCost
  byProject : List Total
  byDay : List Total
  grandTotal : Double

/-- `Decimal(str(value))`, which is the same number. -/
def toDecimal (value : Double) : Double :=
  value

def ProjectDayCost.decimal (e : ProjectDayCost) : Double :=
  toDecimal e.costUsd

/-- `(-item[1], item[0])` -/
def spendThenName (item : Text × Double) : (ℕ ×ₗ ℚ)ᵒᵈ ×ₗ Text :=
  toLex (OrderDual.toDual item.2.rank, item.1)

def summarize (rows : List ProjectDayCost) : CostSummary :=
  let perProject := sumBy ProjectDayCost.project ProjectDayCost.decimal rows
  let perDay := sumBy ProjectDayCost.day ProjectDayCost.decimal rows
  { rows := rows
    byProject := (sortOn spendThenName perProject).map fun item => ⟨item.1, item.2⟩
    byDay := (sortOn Prod.fst perDay).map fun item => ⟨item.1, item.2⟩
    grandTotal := (perProject.map Prod.snd).sum }

/-- `cells.get((project, day))`, where a later row replaces an earlier one. -/
def cell (rows : List ProjectDayCost) (project day : Text) : Option Double :=
  (rows.reverse.find? fun e => decide (e.projectDay = (project, day))).map (·.decimal)

structure TableLine where
  day : Text
  cells : List (Option Double)
  total : Double

structure Table where
  projects : List Text
  body : List TableLine
  totals : List Double
  grandTotal : Double

def table (summary : CostSummary) : Option Table :=
  if summary.rows.isEmpty then none
  else
    let projects := summary.byProject.map (·.key)
    some
      { projects := projects
        body := summary.byDay.map fun day =>
          ⟨day.key, projects.map fun project => cell summary.rows project day.key, day.amount⟩
        totals := summary.byProject.map (·.amount)
        grandTotal := summary.grandTotal }

/-! ### The ledger is exact -/

/-- Every positive group once, in order, and nothing of the total missing. -/
structure LedgerExact (rows : List JobRow) (ledger : List ProjectDayCost) : Prop where
  ordered : ledger.Pairwise fun a b => a.day < b.day ∨ a.day = b.day ∧ a.project < b.project
  positive : ∀ e ∈ ledger, e.costUsd.positive = true
  amount : ∀ e ∈ ledger, e.costUsd =
    ((rows.filter fun row => decide (row.project = e.project ∧ row.day = e.day)).map (·.costUsd)).sum
  total : (ledger.map (·.costUsd)).sum = (rows.map (·.costUsd)).sum

theorem nonneg_totalOf {α κ : Type} [DecidableEq κ] {key : α → κ} {amount : α → Double} {rows : List α}
    (h : ∀ r ∈ rows, (amount r).nonneg = true) (k : κ) : (totalOf key amount rows k).nonneg = true := by
  apply Double.nonneg_sum
  intro x hx
  obtain ⟨r, hr, rfl⟩ := List.mem_map.mp hx
  exact h r (List.mem_of_mem_filter hr)

section Ledger

variable {db : Database}

theorem mem_costByProjectDay_iff {e : ProjectDayCost} : e ∈ db.costByProjectDay ↔
    (e.projectDay, e.costUsd) ∈ sumBy JobRow.projectDay JobRow.costUsd db.jobs.rows ∧
      e.costUsd.positive = true := by
  rw [Database.costByProjectDay, mem_sortOn, List.mem_map]
  constructor
  · rintro ⟨item, hItem, rfl⟩
    exact List.mem_filter.mp hItem
  · rintro ⟨hMem, hPositive⟩
    exact ⟨(e.projectDay, e.costUsd), List.mem_filter.mpr ⟨hMem, hPositive⟩, rfl⟩

/-- No two entries of the ledger stand for the same project and day. -/
theorem nodup_costByProjectDay (db : Database) :
    (db.costByProjectDay.map ProjectDayCost.projectDay).Nodup := by
  have hGroups := nodup_keys_sumBy JobRow.projectDay JobRow.costUsd db.jobs.rows
  have hKept : (((sumBy JobRow.projectDay JobRow.costUsd db.jobs.rows).filter
      fun e => e.2.positive).map Prod.fst).Nodup := hGroups.sublist (List.filter_sublist.map Prod.fst)
  refine (((sortOn_perm _ _).map ProjectDayCost.projectDay).nodup_iff).mpr ?_
  rw [List.map_map]
  exact hKept

theorem ledgerExact (hCosts : ∀ row ∈ db.jobs.rows, row.costUsd.nonneg = true) :
    LedgerExact db.jobs.rows db.costByProjectDay where
  ordered := by
    have hKeys : (db.costByProjectDay.map ProjectDayCost.dayThenProject).Nodup := by
      have hSwapped := (nodup_costByProjectDay db).map
        (f := fun k => toLex (k.2, k.1)) fun a b hab => by
          obtain ⟨hDay, hProject⟩ := Prod.mk.inj (toLex.injective hab)
          exact Prod.ext hProject hDay
      rw [List.map_map] at hSwapped
      exact hSwapped
    have hStrict := strict_sortOn (((sortOn_perm ProjectDayCost.dayThenProject _).map _).nodup_iff.mp hKeys)
    exact hStrict.imp fun hLt => Prod.Lex.toLex_lt_toLex.mp hLt
  positive e he := (mem_costByProjectDay_iff.mp he).2
  amount e he := by
    have hGroup := (mem_sumBy_iff.mp (mem_costByProjectDay_iff.mp he).1).2
    simpa only [totalOf, JobRow.projectDay, ProjectDayCost.projectDay, Prod.mk.injEq] using hGroup
  total := by
    have hNonneg : ∀ item ∈ sumBy JobRow.projectDay JobRow.costUsd db.jobs.rows,
        item.2.nonneg = true := by
      rintro ⟨k, a⟩ hItem
      rw [(mem_sumBy_iff.mp hItem).2]
      exact nonneg_totalOf hCosts k
    calc
      (db.costByProjectDay.map (·.costUsd)).sum
          = (((sumBy JobRow.projectDay JobRow.costUsd db.jobs.rows).filter
              fun e => e.2.positive).map Prod.snd).sum := by
        rw [Database.costByProjectDay, ((sortOn_perm _ _).map _).sum_eq, List.map_map]
        rfl
      _ = ((sumBy JobRow.projectDay JobRow.costUsd db.jobs.rows).map Prod.snd).sum :=
        Double.sum_map_filter_positive Prod.snd hNonneg
      _ = (db.jobs.rows.map (·.costUsd)).sum := sum_sumBy _ _ _

end Ledger

/-! ### So is the page -/

structure TableExact (t : Table) : Prop where
  lines : ∀ line ∈ t.body, (line.cells.map fun c => c.getD 0).sum = line.total
  columns : ∀ (j : Nat) (total : Double), t.totals[j]? = some total →
    (t.body.map fun line => line.cells[j]?.join.getD 0).sum = total

structure SummaryExact (total : Double) (summary : CostSummary) : Prop where
  grandTotal : summary.grandTotal = total
  byProject : (summary.byProject.map (·.amount)).sum = total
  byDay : (summary.byDay.map (·.amount)).sum = total
  projects : summary.byProject.Pairwise fun a b =>
    b.amount.lt a.amount = true ∨ a.amount = b.amount ∧ a.key < b.key
  days : summary.byDay.Pairwise fun a b => a.key < b.key
  table : ∀ t, LlmBus.table summary = some t → TableExact t

section Summary

variable {rows rows' : List ProjectDayCost}

/-- What the summary says of its rows, whatever order they came in. -/
structure SameFigures (a b : CostSummary) : Prop where
  byProject : a.byProject = b.byProject
  byDay : a.byDay = b.byDay
  grandTotal : a.grandTotal = b.grandTotal
  table : LlmBus.table a = LlmBus.table b

@[simp] theorem summarize_rows (rows : List ProjectDayCost) : (summarize rows).rows = rows := rfl

theorem cell_eq_some_iff (hKeys : (rows.map ProjectDayCost.projectDay).Nodup) {project day : Text}
    {x : Double} :
    cell rows project day = some x ↔ ∃ e ∈ rows, e.projectDay = (project, day) ∧ e.decimal = x := by
  have hReversed : (rows.reverse.map ProjectDayCost.projectDay).Nodup := by
    rw [List.map_reverse, List.nodup_reverse]
    exact hKeys
  rw [cell, Option.map_eq_some_iff]
  constructor
  · rintro ⟨e, hFind, rfl⟩
    exact ⟨e, List.mem_reverse.mp (List.mem_of_find?_eq_some hFind),
      by simpa using List.find?_some hFind, rfl⟩
  · rintro ⟨e, hMem, hKey, rfl⟩
    refine ⟨e, ?_, rfl⟩
    rw [← hKey]
    exact KeyedTable.find?_of_nodup hReversed (List.mem_reverse.mpr hMem)

theorem cell_getD (hKeys : (rows.map ProjectDayCost.projectDay).Nodup) (project day : Text) :
    (cell rows project day).getD 0 =
      totalOf ProjectDayCost.projectDay ProjectDayCost.decimal rows (project, day) := by
  cases hCell : cell rows project day with
  | some x =>
    obtain ⟨e, hMem, hKey, rfl⟩ := (cell_eq_some_iff hKeys).mp hCell
    rw [← hKey, totalOf_of_mem hKeys hMem]
    rfl
  | none =>
    refine (totalOf_eq_zero fun hMem => ?_).symm
    obtain ⟨e, hMem, hKey⟩ := List.mem_map.mp hMem
    rw [(cell_eq_some_iff hKeys).mpr ⟨e, hMem, hKey, rfl⟩] at hCell
    cases hCell

theorem cell_perm (hKeys : (rows.map ProjectDayCost.projectDay).Nodup) (hPerm : rows.Perm rows') :
    cell rows = cell rows' := by
  have hKeys' : (rows'.map ProjectDayCost.projectDay).Nodup := (hPerm.map _).nodup_iff.mp hKeys
  funext project day
  apply Option.ext
  intro x
  rw [cell_eq_some_iff hKeys, cell_eq_some_iff hKeys']
  simp only [hPerm.mem_iff]

theorem nodup_spendThenName (rows : List ProjectDayCost) :
    ((sumBy ProjectDayCost.project ProjectDayCost.decimal rows).map spendThenName).Nodup := by
  have hNames := nodup_keys_sumBy ProjectDayCost.project ProjectDayCost.decimal rows
  refine List.Nodup.of_map (fun k => (ofLex k).2) ?_
  rw [List.map_map]
  exact hNames

theorem sameFigures_of_perm (hKeys : (rows.map ProjectDayCost.projectDay).Nodup)
    (hPerm : rows.Perm rows') : SameFigures (summarize rows) (summarize rows') := by
  have hProject : (summarize rows).byProject = (summarize rows').byProject :=
    congrArg (List.map _) (sortOn_eq_of_perm (nodup_spendThenName rows) (sumBy_perm hPerm))
  have hDay : (summarize rows).byDay = (summarize rows').byDay :=
    congrArg (List.map _) (sortOn_eq_of_perm (nodup_keys_sumBy _ _ rows) (sumBy_perm hPerm))
  have hGrand : (summarize rows).grandTotal = (summarize rows').grandTotal :=
    ((sumBy_perm hPerm).map _).sum_eq
  refine ⟨hProject, hDay, hGrand, ?_⟩
  have hEmpty : rows.isEmpty = rows'.isEmpty := by
    rw [Bool.eq_iff_iff, List.isEmpty_iff_length_eq_zero, List.isEmpty_iff_length_eq_zero,
      hPerm.length_eq]
  simp only [table, summarize_rows, hEmpty, hProject, hDay, hGrand, cell_perm hKeys hPerm]
  rfl

theorem mem_byDay_iff {t : Total} : t ∈ (summarize rows).byDay ↔
    t.key ∈ rows.map ProjectDayCost.day ∧
      t.amount = totalOf ProjectDayCost.day ProjectDayCost.decimal rows t.key := by
  rw [← mem_sumBy_iff, ← @mem_sortOn _ _ _ Prod.fst]
  constructor
  · intro h
    obtain ⟨item, hItem, rfl⟩ := List.mem_map.mp h
    exact hItem
  · exact fun h => List.mem_map.mpr ⟨(t.key, t.amount), h, rfl⟩

theorem mem_byProject_iff {t : Total} : t ∈ (summarize rows).byProject ↔
    t.key ∈ rows.map ProjectDayCost.project ∧
      t.amount = totalOf ProjectDayCost.project ProjectDayCost.decimal rows t.key := by
  rw [← mem_sumBy_iff, ← @mem_sortOn _ _ _ spendThenName]
  constructor
  · intro h
    obtain ⟨item, hItem, rfl⟩ := List.mem_map.mp h
    exact hItem
  · exact fun h => List.mem_map.mpr ⟨(t.key, t.amount), h, rfl⟩

theorem nodup_byProject (rows : List ProjectDayCost) : ((summarize rows).byProject.map (·.key)).Nodup := by
  have hNames := nodup_keys_sumBy ProjectDayCost.project ProjectDayCost.decimal rows
  have hSorted := ((sortOn_perm spendThenName _).map Prod.fst).nodup_iff.mpr hNames
  simp only [summarize, List.map_map]
  exact hSorted

theorem nodup_byDay (rows : List ProjectDayCost) : ((summarize rows).byDay.map (·.key)).Nodup := by
  have hDays := nodup_keys_sumBy ProjectDayCost.day ProjectDayCost.decimal rows
  have hSorted := ((sortOn_perm Prod.fst _).map Prod.fst).nodup_iff.mpr hDays
  simp only [summarize, List.map_map]
  exact hSorted

theorem lt_of_rank_lt {a b : Total} (ha : a.amount.nonneg = true) (hb : b.amount.nonneg = true)
    (h : spendThenName (a.key, a.amount) < spendThenName (b.key, b.amount)) :
    b.amount.lt a.amount = true ∨ a.amount = b.amount ∧ a.key < b.key := by
  rcases Prod.Lex.toLex_lt_toLex.mp h with hAmount | ⟨hAmount, hName⟩
  · exact .inl ((Double.rank_lt_rank_iff (Double.isNan_of_nonneg hb) (Double.isNan_of_nonneg ha)).mp
      (OrderDual.toDual_lt_toDual.mp hAmount))
  · exact .inr ⟨Double.rank_injective (OrderDual.toDual_inj.mp hAmount), hName⟩

theorem project_mem_byProject {e : ProjectDayCost} (h : e ∈ rows) :
    e.project ∈ (summarize rows).byProject.map (·.key) := by
  have hTotal : (⟨e.project, totalOf ProjectDayCost.project ProjectDayCost.decimal rows e.project⟩ :
      Total) ∈ (summarize rows).byProject :=
    mem_byProject_iff.mpr ⟨List.mem_map_of_mem h, rfl⟩
  exact List.mem_map_of_mem (f := Total.key) hTotal

theorem day_mem_byDay {e : ProjectDayCost} (h : e ∈ rows) :
    e.day ∈ (summarize rows).byDay.map (·.key) := by
  have hTotal : (⟨e.day, totalOf ProjectDayCost.day ProjectDayCost.decimal rows e.day⟩ :
      Total) ∈ (summarize rows).byDay :=
    mem_byDay_iff.mpr ⟨List.mem_map_of_mem h, rfl⟩
  exact List.mem_map_of_mem (f := Total.key) hTotal

theorem sum_line (hKeys : (rows.map ProjectDayCost.projectDay).Nodup) {day : Total}
    (hDay : day ∈ (summarize rows).byDay) :
    (((summarize rows).byProject.map (·.key)).map fun project =>
      (cell rows project day.key).getD 0).sum = day.amount := by
  have hCells : ∀ project, (cell rows project day.key).getD 0 =
      totalOf ProjectDayCost.project ProjectDayCost.decimal
        (rows.filter fun e => decide (e.day = day.key)) project :=
    fun project => (cell_getD hKeys project day.key).trans (totalOf_filter _ _).symm
  have hCover : ∀ e ∈ rows.filter fun e => decide (e.day = day.key),
      e.project ∈ (summarize rows).byProject.map (·.key) :=
    fun e he => project_mem_byProject (List.mem_of_mem_filter he)
  simp only [hCells]
  rw [sum_totalOf (nodup_byProject rows) hCover, (mem_byDay_iff.mp hDay).2]
  rfl

theorem sum_column (hKeys : (rows.map ProjectDayCost.projectDay).Nodup) {project : Total}
    (hProject : project ∈ (summarize rows).byProject) :
    (((summarize rows).byDay.map (·.key)).map fun day =>
      (cell rows project.key day).getD 0).sum = project.amount := by
  have hCells : ∀ day, (cell rows project.key day).getD 0 =
      totalOf ProjectDayCost.day ProjectDayCost.decimal
        (rows.filter fun e => decide (e.project = project.key)) day := by
    intro day
    rw [cell_getD hKeys, totalOf_filter]
    simp only [totalOf, ProjectDayCost.projectDay, Prod.mk.injEq, and_comm]
  have hCover : ∀ e ∈ rows.filter fun e => decide (e.project = project.key),
      e.day ∈ (summarize rows).byDay.map (·.key) :=
    fun e he => day_mem_byDay (List.mem_of_mem_filter he)
  simp only [hCells]
  rw [sum_totalOf (nodup_byDay rows) hCover, (mem_byProject_iff.mp hProject).2]
  rfl

/-- Every line and every column of the table adds up to its total. -/
theorem tableExact (hKeys : (rows.map ProjectDayCost.projectDay).Nodup) {t : Table}
    (h : table (summarize rows) = some t) : TableExact t := by
  unfold table at h
  split at h
  · cases h
  cases h
  constructor
  · intro line hLine
    obtain ⟨day, hDay, rfl⟩ := List.mem_map.mp hLine
    have hSum := sum_line hKeys hDay
    rw [List.map_map]
    exact hSum
  · intro j total hTotal
    rw [List.getElem?_map] at hTotal
    obtain ⟨project, hAt, rfl⟩ := Option.map_eq_some_iff.mp hTotal
    have hSum := sum_column hKeys (List.mem_of_getElem? hAt)
    rw [List.map_map] at hSum ⊢
    refine Eq.trans (congrArg List.sum (List.map_congr_left fun day _ => ?_)) hSum
    simp [hAt]

theorem summaryExact {total : Double} (hKeys : (rows.map ProjectDayCost.projectDay).Nodup)
    (hPositive : ∀ e ∈ rows, e.costUsd.positive = true) (hTotal : (rows.map (·.costUsd)).sum = total) :
    SummaryExact total (summarize rows) where
  grandTotal := (sum_sumBy _ _ rows).trans hTotal
  byProject := by
    have hSorted := ((sortOn_perm spendThenName
      (sumBy ProjectDayCost.project ProjectDayCost.decimal rows)).map Prod.snd).sum_eq
    simp only [summarize, List.map_map]
    exact hSorted.trans ((sum_sumBy _ _ rows).trans hTotal)
  byDay := by
    have hSorted := ((sortOn_perm Prod.fst
      (sumBy ProjectDayCost.day ProjectDayCost.decimal rows)).map Prod.snd).sum_eq
    simp only [summarize, List.map_map]
    exact hSorted.trans ((sum_sumBy _ _ rows).trans hTotal)
  projects := by
    have hNonneg : ∀ item ∈ sortOn spendThenName
        (sumBy ProjectDayCost.project ProjectDayCost.decimal rows), item.2.nonneg = true := by
      rintro ⟨name, amount⟩ hItem
      rw [(mem_sumBy_iff.mp (mem_sortOn.mp hItem)).2]
      exact nonneg_totalOf (fun e he => Double.nonneg_of_positive (hPositive e he)) name
    refine List.pairwise_map.mpr ((strict_sortOn (nodup_spendThenName rows)).imp_of_mem ?_)
    exact fun ha hb hLt => lt_of_rank_lt (a := ⟨_, _⟩) (b := ⟨_, _⟩) (hNonneg _ ha) (hNonneg _ hb) hLt
  days := by
    have hStrict := strict_sortOn (nodup_keys_sumBy ProjectDayCost.day ProjectDayCost.decimal rows)
    exact List.pairwise_map.mpr hStrict
  table t ht := tableExact hKeys ht

/-- From the rows of the store to the figures of the page nothing is lost, counted twice or
left to the order in which the ledger is read. -/
theorem spend_conserved (db : Database) (hCosts : ∀ row ∈ db.jobs.rows, row.costUsd.nonneg = true) :
    LedgerExact db.jobs.rows db.costByProjectDay ∧
      ∀ rows, rows.Perm db.costByProjectDay →
        SummaryExact (db.jobs.rows.map (·.costUsd)).sum (summarize rows) ∧
          SameFigures (summarize rows) (summarize db.costByProjectDay) := by
  have hLedger := ledgerExact hCosts
  refine ⟨hLedger, fun rows hPerm => ?_⟩
  have hKeys : (rows.map ProjectDayCost.projectDay).Nodup :=
    (hPerm.map _).nodup_iff.mpr (nodup_costByProjectDay db)
  have hPositive : ∀ e ∈ rows, e.costUsd.positive = true :=
    fun e he => hLedger.positive e (hPerm.mem_iff.mp he)
  have hTotal : (rows.map (·.costUsd)).sum = (db.jobs.rows.map (·.costUsd)).sum :=
    ((hPerm.map _).sum_eq).trans hLedger.total
  exact ⟨summaryExact hKeys hPositive hTotal, sameFigures_of_perm hKeys hPerm⟩

end Summary

/-! ### Two projects on one day -/

def spentRow (jobId project : Text) (cost : ℚ) : JobRow :=
  { pendingRow jobId project (txt "gpt-5") [] (.startOf newYear2026) with
    status := .ok
    costUsd := .finite cost }

def twoProjects : Database :=
  { Database.empty with
    jobs := ⟨[spentRow (txt "a") (txt "demo") 2, spentRow (txt "b") (txt "shop") 3,
      spentRow (txt "c") (txt "demo") 1], by decide⟩ }

theorem spend_conserved_twoProjects :
    LedgerExact twoProjects.jobs.rows twoProjects.costByProjectDay ∧
      (summarize twoProjects.costByProjectDay.reverse).grandTotal = .finite 6 := by
  have hCosts : ∀ row ∈ twoProjects.jobs.rows, row.costUsd.nonneg = true := by decide
  obtain ⟨hLedger, hPage⟩ := spend_conserved twoProjects hCosts
  refine ⟨hLedger, (hPage _ (List.reverse_perm _)).1.grandTotal.trans ?_⟩
  exact (Double.sum_finite [2, 3, 1]).trans (congrArg Double.finite (by norm_num))

end LlmBus
