import LlmBus.Foundation.IsoFormat
import LlmBus.Foundation.Isolation
import LlmBus.Processing
import LlmBus.Server
import LlmBus.StoreFailures

/-! # Publishing over an older policy table

One worker publishes its policy, any number of producers read it. `connect` leaves an
existing `worker_policy` alone, whatever its shape; the worker repairs it inside the
transaction that publishes. A read is one query and sees one committed state. A table with
the expected columns is taken to be declared as the schema declares it.
-/

namespace LlmBus

open Foundation Transaction Interaction Isolation

/-! ### Reading a published policy -/

structure PublishedWorkerPolicy where
  maxAttempts : ℤ
  jobTimeoutS : Double
  baseDelayS : Double
  maxDelayS : Double
  retryBudgetS : Double
  updatedAt : DateTime
  deriving DecidableEq

/-- The readers of texts the interpreter has; what `isoformat` writes is read back. -/
structure TextReaders where
  py : Interpreter
  parseFloat : Text → Option Double
  fromisoformat : Text → Option DateTime
  fromisoformat_isoformat : ∀ t, fromisoformat t.isoformat = some t

def plainReaders : TextReaders where
  py := .ascii
  parseFloat _ := none
  fromisoformat := IsoFormat.read
  fromisoformat_isoformat := IsoFormat.read_isoformat

namespace TextReaders

variable (r : TextReaders)

/-- `int(value)`, toward zero. -/
def int : SqlValue → Except PyError ℤ
  | .integer n => .ok n
  | .real (.finite q) => .ok (q.num.tdiv q.den)
  | .real .nan => .error ⟨.valueError, txt "cannot convert float NaN to integer"⟩
  | .real _ => .error (overflow "cannot convert float infinity to integer")
  | .text s =>
    match r.py.parseInt 10 s with
    | some n => .ok n
    | none => .error ⟨.valueError, txt "invalid literal for int() with base 10: " ++ r.py.repr s⟩
  | .null => .error ⟨.typeError,
      txt "int() argument must be a string, a bytes-like object or a real number, not 'NoneType'"⟩

/-- `float(value)` -/
def float : SqlValue → Except PyError Double
  | .integer n => .ok (.finite n)
  | .real x => .ok x
  | .text s =>
    match r.parseFloat s with
    | some x => .ok x
    | none => .error ⟨.valueError, txt "could not convert string to float: " ++ r.py.repr s⟩
  | .null => .error ⟨.typeError,
      txt "float() argument must be a string or a real number, not 'NoneType'"⟩

/-- `datetime.fromisoformat(value)` -/
def timestamp : SqlValue → Except PyError DateTime
  | .text s =>
    match r.fromisoformat s with
    | some t => .ok t
    | none => .error ⟨.valueError, txt "Invalid isoformat string: " ++ r.py.repr s⟩
  | _ => .error ⟨.typeError, txt "fromisoformat: argument must be str"⟩

end TextReaders

/-- `row[column]` -/
def rowItem (row : List (Text × SqlValue)) (column : String) : SqlValue :=
  (row.lookup (txt column)).getD .null

def publishedOf (r : TextReaders) (row : List (Text × SqlValue)) : Except PyError PublishedWorkerPolicy := do
  let maxAttempts ← r.int (rowItem row "max_attempts")
  let jobTimeoutS ← r.float (rowItem row "job_timeout_s")
  let baseDelayS ← r.float (rowItem row "base_delay_s")
  let maxDelayS ← r.float (rowItem row "max_delay_s")
  let retryBudgetS ← r.float (rowItem row "retry_budget_s")
  let updatedAt ← r.timestamp (rowItem row "updated_at")
  pure ⟨maxAttempts, jobTimeoutS, baseDelayS, maxDelayS, retryBudgetS, updatedAt⟩

/-- `set(row.keys()) == _WORKER_POLICY_COLUMNS` -/
def expectedColumns (names : List Text) : Bool :=
  names.all (workerPolicyColumns.contains ·) && workerPolicyColumns.all (names.contains ·)

/-- Whether a statement may name the column `id`; names of columns ignore ASCII case. -/
def PolicyTable.hasId (table : PolicyTable) : Bool :=
  table.columns.any fun column => asciiLower column = txt "id"

def SqlValue.isOne : SqlValue → Bool
  | .integer n => n = 1
  | .real x => x = .finite 1
  | _ => false

/-- `WHERE id = 1` -/
def pinned (row : List (Text × SqlValue)) : Bool :=
  row.any fun entry => asciiLower entry.1 = txt "id" && entry.2.isOne

def readWorkerPolicy (r : TextReaders) (db : Database) : Except PyError (Option PublishedWorkerPolicy) :=
  match db.workerPolicy with
  | none => .error (operational "no such table: worker_policy")
  | some table =>
    if table.hasId then
      match table.rows.find? pinned with
      | none => .ok none
      | some row =>
        if expectedColumns table.columns then (publishedOf r row).map some
        else .ok none
    else .error (operational "no such column: id")

def PolicyValues.published (v : PolicyValues) : PublishedWorkerPolicy :=
  ⟨v.maxAttempts, v.jobTimeoutS, v.baseDelayS, v.maxDelayS, v.retryBudgetS, v.updatedAt⟩

/-- The row a publish writes reads back as what was published. -/
theorem publishedOf_row (r : TextReaders) (v : PolicyValues) :
    publishedOf r v.row = .ok v.published := by
  have hAttempts : rowItem v.row "max_attempts" = .integer v.maxAttempts := rfl
  have hTimeout : rowItem v.row "job_timeout_s" = .real v.jobTimeoutS := rfl
  have hBase : rowItem v.row "base_delay_s" = .real v.baseDelayS := rfl
  have hMax : rowItem v.row "max_delay_s" = .real v.maxDelayS := rfl
  have hBudget : rowItem v.row "retry_budget_s" = .real v.retryBudgetS := rfl
  have hUpdated : rowItem v.row "updated_at" = .text v.updatedAt.isoformat := rfl
  simp only [publishedOf, hAttempts, hTimeout, hBase, hMax, hBudget, hUpdated, TextReaders.int,
    TextReaders.float, TextReaders.timestamp, r.fromisoformat_isoformat]
  rfl

theorem pinned_row (v : PolicyValues) : pinned v.row = true := rfl

theorem stale_eq {db : Database} {table : PolicyTable} (h : db.workerPolicy = some table) :
    db.stale = !expectedColumns table.columns := by
  have hNonempty : table.columns.isEmpty = false := by simpa using table.columns_ne
  have hStale : db.stale = (!table.columns.isEmpty && !expectedColumns table.columns) := by
    rw [Database.stale, reportedColumns, h]
    rfl
  rw [hStale, hNonempty]
  rfl

theorem expectedColumns_new : expectedColumns newPolicyTable.columns = true := by
  decide

theorem hasId_of_expectedColumns {table : PolicyTable} (h : expectedColumns table.columns = true) :
    table.hasId = true := by
  have hContains : table.columns.contains (txt "id") = true :=
    List.all_eq_true.mp (Bool.and_eq_true_iff.mp h).2 _ (by decide)
  exact List.any_eq_true.mpr ⟨txt "id", List.contains_iff_mem.mp hContains, by decide⟩

/-! ### One worker and its producers -/

abbrev Publication := WorkerPolicy × DateTime

def policyService : Service Database Statement Answer PyError Publication where
  dialect := storeDialect
  opened := Database.connected
  session x := publishWorkerPolicy x.1 x.2

abbrev PolicyWorld := World Database Statement Answer PyError Publication

abbrev PolicyAction := Isolation.Action PyError Publication

/-- What a publish leaves committed: the one row of the new table, and nothing else. -/
structure Posted (prior : Database) (x : Publication) (d : Database) : Prop where
  jobs : d.jobs = prior.jobs
  modelPolicy : d.modelPolicy = prior.modelPolicy
  row : ∃ budget table, retryBudgetSeconds floatPower x.1 = .ok budget ∧
    d.workerPolicy = some table ∧ expectedColumns table.columns = true ∧
      table.rows = [(publishedValues x.1 budget x.2).row]

/-- A table a publish can take over: of another shape, or with no row but one it replaces. -/
def Replaceable (table : PolicyTable) : Prop :=
  expectedColumns table.columns = true → table.rows = [] ∨ ∃ v : PolicyValues, table.rows = [v.row]

theorem upsertPolicyRow_of_replaceable {table : PolicyTable} (h : Replaceable table)
    (hColumns : expectedColumns table.columns = true) (v : PolicyValues) :
    upsertPolicyRow table.rows v.row = [v.row] := by
  rcases h hColumns with hEmpty | ⟨old, hOld⟩
  · rw [hEmpty]
    rfl
  · have hPinned : old.row.lookup (txt "id") = some (.integer 1) := rfl
    rw [hOld]
    simp [upsertPolicyRow, hPinned]

theorem upsertWorkerPolicy_eq_ok {values : PolicyValues} {db : Database} {table : PolicyTable}
    {out : Answer × Database} (hTable : db.workerPolicy = some table)
    (h : upsertWorkerPolicy values db = .ok out) :
    out.2 = { db with
      workerPolicy := some { table with rows := upsertPolicyRow table.rows values.row } } := by
  simp only [upsertWorkerPolicy, hTable] at h
  split at h
  · simp only [bind_eq_ok_iff] at h
    obtain ⟨_, _, _, _, _, _, _, _, _, _, h⟩ := h
    cases h
    rfl
  · cases h

section Publishing

variable {prior d v : Database} {x : Publication}

/-- The columns as they must be, what is left of the session commits the new row. -/
theorem delivers_upsert {table : PolicyTable} (hJobs : v.jobs = prior.jobs)
    (hModel : v.modelPolicy = prior.modelPolicy) (hTable : v.workerPolicy = some table)
    (hColumns : expectedColumns table.columns = true) (hReplaceable : Replaceable table) :
    Delivers storeDialect (Posted prior x)
      ((Program.ofExcept (retryBudgetSeconds floatPower x.1)).bind fun budget =>
        (execute (.upsertWorkerPolicy (publishedValues x.1 budget x.2))).bind fun _ => commit)
      ⟨d, some v⟩ := by
  refine delivers_ofExcept fun budget hBudget => delivers_execute fun a v' hApply => delivers_commit ?_
  have hAfter := upsertWorkerPolicy_eq_ok hTable hApply
  rw [upsertPolicyRow_of_replaceable hReplaceable hColumns] at hAfter
  change v' = _ at hAfter
  subst hAfter
  exact ⟨hJobs, hModel, budget, _, hBudget, rfl, hColumns, rfl⟩

theorem delivers_publish {table : PolicyTable} {pending : Option Database} (hJobs : d.jobs = prior.jobs)
    (hModel : d.modelPolicy = prior.modelPolicy) (hTable : d.workerPolicy = some table)
    (hReplaceable : Replaceable table) :
    Delivers storeDialect (Posted prior x) (publishWorkerPolicy x.1 x.2) ⟨d, pending⟩ := by
  rw [publishWorkerPolicy_eq_explicit, explicit]
  cases pending with
  | some v => exact delivers_nested
  | none =>
    apply delivers_beginImmediate
    simp only [publishBody, Program.bind_assoc, rebuildWorkerPolicyIfStale, Program.bind_eq]
    apply delivers_execute
    intro info v' hInfo
    cases hInfo
    have hStale : isStale (reportedColumns d) = !expectedColumns table.columns := stale_eq hTable
    cases hColumns : expectedColumns table.columns with
    | true =>
      change Delivers _ _ ((if isStale (reportedColumns d) then _ else _ : Session Unit).bind _) _
      rw [hStale, hColumns, if_neg (by decide)]
      exact delivers_upsert hJobs hModel hTable hColumns hReplaceable
    | false =>
      change Delivers _ _ ((if isStale (reportedColumns d) then _ else _ : Session Unit).bind _) _
      rw [hStale, hColumns, if_pos (by decide)]
      simp only [Program.bind_assoc]
      apply delivers_execute
      intro _ dropped hDrop
      simp only [storeDialect, Statement.apply, hTable] at hDrop
      cases hDrop
      apply delivers_execute
      intro _ created hCreate
      cases hCreate
      exact delivers_upsert hJobs hModel rfl expectedColumns_new fun _ => .inl rfl

end Publishing

/-! ### Migration -/

/-- What an earlier release may have left: no table, one of another shape that still has a
column `id`, or the expected one with at most the row a publish wrote. -/
inductive Migratable (db : Database) : Prop where
  | absent (h : db.workerPolicy = none)
  | stale {table : PolicyTable} (h : db.workerPolicy = some table)
      (hStale : expectedColumns table.columns = false) (hId : table.hasId = true)
  | unpublished {table : PolicyTable} (h : db.workerPolicy = some table)
      (hColumns : expectedColumns table.columns = true) (hRows : table.rows = [])
  | published {table : PolicyTable} (v : PolicyValues) (h : db.workerPolicy = some table)
      (hColumns : expectedColumns table.columns = true) (hRows : table.rows = [v.row])

/-- A policy that was there before, or one whose publish has begun, with its budget. -/
def Offered (prior : Database) (trace : List PolicyAction) (p : PublishedWorkerPolicy) : Prop :=
  (∃ table v, prior.workerPolicy = some table ∧ table.rows = [PolicyValues.row v] ∧ p = v.published) ∨
    ∃ policy stamped budget, .start (policy, stamped) ∈ trace ∧
      retryBudgetSeconds floatPower policy = .ok budget ∧
        p = (publishedValues policy budget stamped).published

/-- What is promised of a state that a run over `prior` has reached. -/
structure Migrates (r : TextReaders) (prior : Database) (trace : List PolicyAction) (w : PolicyWorld) :
    Prop where
  jobs : w.committed.jobs = prior.jobs
  modelPolicy : w.committed.modelPolicy = prior.modelPolicy
  reads : ∀ reader ∈ w.readers, ∃ found, readWorkerPolicy r w.committed = .ok found ∧
    ∀ p, found = some p → Offered prior trace p
  latest : ∀ policy stamped, standing trace = some (policy, stamped) →
    ∃ budget, retryBudgetSeconds floatPower policy = .ok budget ∧
      readWorkerPolicy r w.committed = .ok (some (publishedValues policy budget stamped).published)
  single : (∃ x, .finish x ∈ trace) →
    ∃ table, w.committed.workerPolicy = some table ∧ table.rows.length = 1

theorem connected_of_some {db : Database} {table : PolicyTable} (h : db.workerPolicy = some table) :
    db.connected = db := by
  rw [Database.connected, h, Option.getD_some, ← h]

theorem Migratable.exists_table {prior : Database} (h : Migratable prior) :
    ∃ table, prior.connected.workerPolicy = some table ∧ Replaceable table := by
  cases h with
  | absent hNone =>
    refine ⟨newPolicyTable, ?_, fun _ => .inl rfl⟩
    rw [Database.connected, hNone]
    rfl
  | @stale table hTable hStale hId =>
    refine ⟨table, by rw [connected_of_some hTable, hTable], fun hColumns => ?_⟩
    rw [hStale] at hColumns
    cases hColumns
  | @unpublished table hTable hColumns hRows =>
    exact ⟨table, by rw [connected_of_some hTable, hTable], fun _ => .inl hRows⟩
  | @published table v hTable hColumns hRows =>
    exact ⟨table, by rw [connected_of_some hTable, hTable], fun _ => .inr ⟨v, hRows⟩⟩

theorem policyService_sound {prior : Database} (h : Migratable prior) :
    Sound policyService prior (Posted prior) where
  idem := by
    obtain ⟨table, hTable, _⟩ := h.exists_table
    exact connected_of_some hTable
  kept x d hPost := by
    obtain ⟨_, table, _, hTable, _⟩ := hPost.row
    exact connected_of_some hTable
  delivers x d pending hReached := by
    rcases hReached with rfl | ⟨y, hPost⟩
    · obtain ⟨table, hTable, hReplaceable⟩ := h.exists_table
      exact delivers_publish rfl rfl hTable hReplaceable
    · obtain ⟨budget, table, _, hTable, _, hRows⟩ := hPost.row
      exact delivers_publish hPost.jobs hPost.modelPolicy hTable fun _ => .inr ⟨_, hRows⟩

/-! ### What is read -/

section Reading

variable {r : TextReaders} {db : Database} {table : PolicyTable}

theorem readWorkerPolicy_stale (hTable : db.workerPolicy = some table) (hId : table.hasId = true)
    (hStale : expectedColumns table.columns = false) : readWorkerPolicy r db = .ok none := by
  simp only [readWorkerPolicy, hTable, hId, if_true, hStale]
  cases table.rows.find? pinned <;> rfl

theorem readWorkerPolicy_unpublished (hTable : db.workerPolicy = some table)
    (hColumns : expectedColumns table.columns = true) (hRows : table.rows.find? pinned = none) :
    readWorkerPolicy r db = .ok none := by
  simp only [readWorkerPolicy, hTable, hasId_of_expectedColumns hColumns, if_true, hRows]

theorem readWorkerPolicy_row {v : PolicyValues} (hTable : db.workerPolicy = some table)
    (hColumns : expectedColumns table.columns = true) (hRows : table.rows = [v.row]) :
    readWorkerPolicy r db = .ok (some v.published) := by
  have hFind : table.rows.find? pinned = some v.row := by
    rw [hRows, List.find?_cons_of_pos (pinned_row v)]
  simp only [readWorkerPolicy, hTable, hasId_of_expectedColumns hColumns, if_true, hFind, hColumns,
    publishedOf_row]
  rfl

theorem Posted.read {prior : Database} {x : Publication} (h : Posted prior x db) :
    ∃ budget, retryBudgetSeconds floatPower x.1 = .ok budget ∧
      readWorkerPolicy r db = .ok (some (publishedValues x.1 budget x.2).published) := by
  obtain ⟨budget, table, hBudget, hTable, hColumns, hRows⟩ := h.row
  exact ⟨budget, hBudget, readWorkerPolicy_row hTable hColumns hRows⟩

theorem Migratable.read {prior : Database} (h : Migratable prior) (trace : List PolicyAction) :
    ∃ found, readWorkerPolicy r prior.connected = .ok found ∧
      ∀ p, found = some p → Offered prior trace p := by
  cases h with
  | absent hNone =>
    refine ⟨none, ?_, fun _ hFound => nomatch hFound⟩
    have hTable : prior.connected.workerPolicy = some newPolicyTable := by
      rw [Database.connected, hNone]
      rfl
    exact readWorkerPolicy_unpublished hTable expectedColumns_new rfl
  | stale hTable hStale hId =>
    rw [connected_of_some hTable]
    exact ⟨none, readWorkerPolicy_stale hTable hId hStale, fun _ hFound => nomatch hFound⟩
  | unpublished hTable hColumns hRows =>
    rw [connected_of_some hTable]
    exact ⟨none, readWorkerPolicy_unpublished hTable hColumns (by rw [hRows]; rfl), fun _ hFound => nomatch hFound⟩
  | published v hTable hColumns hRows =>
    rw [connected_of_some hTable]
    refine ⟨some v.published, readWorkerPolicy_row hTable hColumns hRows, ?_⟩
    rintro p ⟨rfl⟩
    exact .inl ⟨_, v, hTable, hRows, rfl⟩

end Reading

theorem Migratable.migrates (r : TextReaders) {prior : Database} (h : Migratable prior)
    {trace : List PolicyAction} {w : PolicyWorld} (hRuns : Runs policyService (.initial prior) trace w) :
    Migrates r prior trace w := by
  have hRun := hRuns.consistent (policyService_sound h)
  refine ⟨?_, ?_, fun reader hReader => ?_, fun policy stamped hStanding => ?_, fun hFinish => ?_⟩
  · rcases hRun.offered with hSame | hSame | ⟨x, _, hPost⟩
    · rw [hSame]
    · rw [hSame]
      rfl
    · exact hPost.jobs
  · rcases hRun.offered with hSame | hSame | ⟨x, _, hPost⟩
    · rw [hSame]
    · rw [hSame]
      rfl
    · exact hPost.modelPolicy
  · have hOpened : w.committed.connected = w.committed := hRun.opened (.inr ⟨reader, hReader⟩)
    rcases hRun.offered with hSame | hSame | ⟨⟨policy, stamped⟩, hStart, hPost⟩
    · rw [← hOpened, hSame]
      exact h.read trace
    · rw [hSame]
      exact h.read trace
    · obtain ⟨budget, hBudget, hRead⟩ := hPost.read (r := r)
      refine ⟨_, hRead, ?_⟩
      rintro p ⟨rfl⟩
      exact .inr ⟨policy, stamped, budget, hStart, hBudget, rfl⟩
  · exact (hRun.latest _ hStanding).1.read
  · obtain ⟨x, hPost⟩ := hRun.completed hFinish
    obtain ⟨_, table, _, hTable, _, hRows⟩ := hPost.row
    exact ⟨table, hTable, by rw [hRows]; rfl⟩

/-! ### The condition is exact -/

theorem repaired_of_expectedColumns {db : Database} {table : PolicyTable}
    (hTable : db.workerPolicy = some table) (hColumns : expectedColumns table.columns = true) :
    db.stale = false ∧ db.repaired = db := by
  have hStale : db.stale = false := by
    rw [stale_eq hTable, hColumns]
    rfl
  refine ⟨hStale, ?_⟩
  rw [Database.repaired, hStale, if_neg (by decide)]

/-- Alone and without exceptions, a publish goes through over a table of the expected shape. -/
theorem run_publish {db : Database} {table : PolicyTable} (policy : WorkerPolicy) (stamped : DateTime)
    (hTable : db.workerPolicy = some table) (hColumns : expectedColumns table.columns = true)
    (hAttempts : policy.retry.maxAttempts ≤ 1025) (hNan : WithoutNan policy) :
    ∃ budget c m, run (answer storeDialect noFaults) (publishWorkerPolicy policy stamped) (idle db, 0) =
        (.ok (), c, m) ∧
      c.committed = { db with workerPolicy := some { table with
        rows := upsertPolicyRow table.rows (publishedValues policy budget stamped).row } } := by
  obtain ⟨hStale, hRepaired⟩ := repaired_of_expectedColumns hTable hColumns
  obtain ⟨budget, hBudget, out, hUpsert⟩ := (upsert_published_succeeds_iff stamped).mpr
    ⟨hAttempts, hNan, fun hNone => by rw [hTable] at hNone; cases hNone⟩
  rw [hRepaired] at hUpsert
  have hAfter := upsertWorkerPolicy_eq_ok hTable hUpsert
  obtain ⟨a, after⟩ := out
  have hRebuild := (run_rebuild_eq_ok_iff noFaults db db 1).mpr ⟨fun _ _ => rfl, rfl, rfl⟩
  rw [hRepaired] at hRebuild
  have hApply : storeDialect.apply (.upsertWorkerPolicy (publishedValues policy budget stamped)) db =
      .ok (a, after) := hUpsert
  have hBody : run (answer storeDialect noFaults) (publishBody policy stamped) (⟨db, some db⟩, 0 + 1) =
      (.ok a, ⟨db, some after⟩, 0 + 1 + db.repairCalls + 1) := by
    rw [publishBody, run_bind, hRebuild]
    simp only [hBudget, Program.ofExcept_ok, Program.ret_bind]
    rw [← Program.bind_ret (execute _), run_execute]
    simp only [noFaults, openFor_pending, view_pending, hApply, write_pending, run_ret]
  refine ⟨budget, idle after, 0 + 1 + db.repairCalls + 1 + 1, ?_, hAfter⟩
  rw [publishWorkerPolicy_eq_explicit, explicit, run_beginImmediate]
  simp only [noFaults] at hBody ⊢
  rw [run_bind, hBody]
  simp only
  rw [← Program.bind_ret commit, run_commit]
  rfl

theorem upsertPolicyRow_of_not_pinned {rows : List (List (Text × SqlValue))}
    {row : List (Text × SqlValue)} (h : rows.find? pinned = none) :
    upsertPolicyRow rows row = rows ++ [row] := by
  have hNone : (rows.any fun old => old.lookup (txt "id") = some (.integer 1)) = false := by
    apply List.any_eq_false.mpr
    intro old hOld hLookup
    obtain ⟨front, back, hSplit, _⟩ := List.lookup_eq_some_iff.mp (of_decide_eq_true hLookup)
    refine List.find?_eq_none.mp h old hOld (List.any_eq_true.mpr ⟨(txt "id", .integer 1), ?_, rfl⟩)
    rw [hSplit]
    exact List.mem_append_right _ List.mem_cons_self
  rw [upsertPolicyRow, hNone, if_neg (by decide)]

theorem runs_connect (prior : Database) :
    Runs policyService (.initial prior) [.connect 0] ⟨prior.connected, none, {0}⟩ :=
  (Runs.nil _).snoc (.connect 0 (.inl rfl))

/-- One read before anything is published, and one publish, already need the condition. -/
theorem migratable_of_migrates {r : TextReaders} {prior : Database}
    (h : ∀ trace w, Runs policyService (.initial prior) trace w → Migrates r prior trace w) :
    Migratable prior := by
  cases hTable : prior.workerPolicy with
  | none => exact .absent hTable
  | some table =>
    have hConnected := connected_of_some hTable
    obtain ⟨found, hRead, hOffered⟩ := (h _ _ (runs_connect prior)).reads 0 (Finset.mem_singleton_self 0)
    simp only [hConnected, readWorkerPolicy, hTable] at hRead
    cases hColumns : expectedColumns table.columns with
    | false =>
      cases hId : table.hasId with
      | true => exact .stale hTable hColumns hId
      | false =>
        rw [hId] at hRead
        cases hRead
    | true =>
      simp only [hasId_of_expectedColumns hColumns, if_true, hColumns] at hRead
      cases hFind : table.rows.find? pinned with
      | none =>
        obtain ⟨budget, c, m, hRun, hCommitted⟩ := run_publish plainPolicy
          (.startOf newYear2026) hTable hColumns (by decide) ⟨rfl, rfl, rfl⟩
        rw [← hConnected] at hRun
        obtain ⟨trace, w, hRuns, hSame, _, hFinish⟩ := exists_completed (V := policyService)
          (x := (plainPolicy, .startOf newYear2026)) hRun
        obtain ⟨after, hAfter, hLength⟩ := (h trace w hRuns).single ⟨_, hFinish⟩
        rw [hSame, hCommitted] at hAfter
        cases hAfter
        simp only [upsertPolicyRow_of_not_pinned hFind, List.length_append, List.length_singleton] at hLength
        exact .unpublished hTable hColumns (List.eq_nil_of_length_eq_zero (by omega))
      | some row =>
        simp only [hFind] at hRead
        cases hPolicy : publishedOf r row with
        | error e =>
          rw [hPolicy] at hRead
          cases hRead
        | ok p =>
          rw [hPolicy] at hRead
          cases hRead
          rcases hOffered p rfl with ⟨before, v, hBefore, hRows, _⟩ | ⟨policy, stamped, _, hStart, _⟩
          · rw [hTable] at hBefore
            cases hBefore
            exact .published v hTable hColumns hRows
          · cases List.mem_singleton.mp hStart

/-- Over a database from an earlier release, in every order in which one worker's publishes
and the producers' connects and reads can come: reads never fail and show one whole policy
or none, the latest completed publish is what is read until the next, the table then has one
row, and the other tables stay as they were. -/
theorem policy_migrates_iff (r : TextReaders) (prior : Database) :
    (∀ trace w, Runs policyService (.initial prior) trace w → Migrates r prior trace w) ↔
      Migratable prior :=
  ⟨migratable_of_migrates, fun h _ _ hRuns => h.migrates r hRuns⟩

/-- What a release without a column `id` would have left. -/
def withoutId : Database :=
  { Database.empty with workerPolicy := some ⟨[txt "max_attempts"], [], by decide⟩ }

theorem reading_withoutId_fails :
    ¬ ∀ trace w, Runs policyService (.initial withoutId) trace w →
      Migrates plainReaders withoutId trace w := by
  intro h
  obtain ⟨found, hRead, _⟩ := (h _ _ (runs_connect withoutId)).reads 0 (Finset.mem_singleton_self 0)
  have hFails : readWorkerPolicy plainReaders withoutId.connected =
      .error (operational "no such column: id") := rfl
  rw [hFails] at hRead
  cases hRead

end LlmBus
