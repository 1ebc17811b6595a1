import LlmBus.StoreSteps

/-! # What a failed write leaves behind

None of the store's writes rolls back, so a write is clean only where it cannot fail
once its transaction is open. For each of the four, the exact inputs and store states.
-/

namespace LlmBus

open Foundation Transaction Interaction

/-! ### Statements that succeed -/

theorem insertJob_succeeds_iff {jobId : JobId} {project : Text} {model : Option Text}
    {metadata : Entries} {submittedAt : DateTime} {db : Database} :
    (∃ out, insertJob jobId.text project model metadata submittedAt db = .ok out) ↔
      surrogateFree project = true ∧ ∃ m, model = some m ∧ surrogateFree m = true := by
  simp only [insertJob, bind_eq_ok_iff, bindText_eq_ok_iff, bindOptional_eq_ok_iff,
    surrogateFree_jobId, exists_const, true_and]
  cases model with
  | none =>
    constructor
    · rintro ⟨out, _, _, h⟩
      cases h
    · rintro ⟨_, m, h, _⟩
      cases h
  | some m =>
    simp only [Option.all_some, Option.some.injEq, exists_eq_left']
    constructor
    · rintro ⟨out, hProject, hModel, _⟩
      exact ⟨hProject, hModel⟩
    · rintro ⟨hProject, hModel⟩
      cases hFind : db.jobs.find jobId.text with
      | none => exact ⟨_, hProject, hModel, rfl⟩
      | some row => exact ⟨_, hProject, hModel, rfl⟩

theorem upsertModelPolicy_succeeds_iff {row : ModelPolicy} {db : Database} :
    (∃ out, upsertModelPolicy row db = .ok out) ↔
      surrogateFree row.project = true ∧ surrogateFree row.kind = true ∧
        surrogateFree row.model = true := by
  simp only [upsertModelPolicy, bind_eq_ok_iff, bindText_eq_ok_iff, exists_const]
  constructor
  · rintro ⟨out, hProject, hKind, hModel, _⟩
    exact ⟨hProject, hKind, hModel⟩
  · rintro ⟨hProject, hKind, hModel⟩
    exact ⟨_, hProject, hKind, hModel, rfl⟩

theorem upsertWorkerPolicy_succeeds_iff {values : PolicyValues} {db : Database} :
    (∃ out, upsertWorkerPolicy values db = .ok out) ↔
      (∃ table, db.workerPolicy = some table ∧
        workerPolicyColumns.all (fun column => table.columns.contains column) = true) ∧
      int64 values.maxAttempts = true ∧ values.jobTimeoutS.isNan = false ∧
        values.baseDelayS.isNan = false ∧ values.maxDelayS.isNan = false ∧
          values.retryBudgetS.isNan = false := by
  unfold upsertWorkerPolicy
  cases db.workerPolicy with
  | none =>
    constructor
    · rintro ⟨out, h⟩
      cases h
    · rintro ⟨⟨table, h, _⟩, _⟩
      cases h
  | some table =>
    simp only [Option.some.injEq, exists_eq_left']
    split
    · rename_i hColumns
      simp only [hColumns, true_and, bind_eq_ok_iff, bindInteger_eq_ok_iff, notNull_eq_ok_iff,
        exists_const]
      constructor
      · rintro ⟨out, hAttempts, hTimeout, hBase, hMax, hBudget, _⟩
        exact ⟨hAttempts, hTimeout, hBase, hMax, hBudget⟩
      · rintro ⟨hAttempts, hTimeout, hBase, hMax, hBudget⟩
        exact ⟨_, hAttempts, hTimeout, hBase, hMax, hBudget, rfl⟩
    · rename_i hColumns
      constructor
      · rintro ⟨out, h⟩
        cases h
      · rintro ⟨h, _⟩
        exact absurd h hColumns

/-! ### Repairing the policy table -/

def reportedColumns (db : Database) : Answer :=
  .columns (db.workerPolicy.elim [] (·.columns))

def Database.stale (db : Database) : Bool :=
  isStale (reportedColumns db)

/-- The database once a stale policy table has been dropped and created again. -/
def Database.repaired (db : Database) : Database :=
  if db.stale then { db with workerPolicy := some newPolicyTable } else db

def Database.repairCalls (db : Database) : Nat :=
  if db.stale then 3 else 1

theorem exists_table_of_stale {db : Database} (h : db.stale = true) :
    ∃ table, db.workerPolicy = some table := by
  cases hTable : db.workerPolicy with
  | none =>
    rw [Database.stale, reportedColumns, hTable] at h
    cases h
  | some table => exact ⟨table, rfl⟩

theorem columns_of_not_stale {db : Database} {table : PolicyTable} (h : db.stale = false)
    (hTable : db.workerPolicy = some table) :
    workerPolicyColumns.all (fun column => table.columns.contains column) = true := by
  rw [Database.stale, reportedColumns, hTable] at h
  have hNonempty : table.columns.isEmpty = false := by simpa using table.columns_ne
  simp only [isStale, Option.elim_some, hNonempty, Bool.not_false, Bool.true_and,
    Bool.not_eq_eq_eq_not, Bool.and_eq_true] at h
  exact h.2

theorem repaired_table_iff {db : Database} :
    (∃ table, db.repaired.workerPolicy = some table ∧
        workerPolicyColumns.all (fun column => table.columns.contains column) = true) ↔
      db.workerPolicy ≠ none := by
  unfold Database.repaired
  cases hStale : db.stale with
  | true =>
    obtain ⟨table, hTable⟩ := exists_table_of_stale hStale
    refine iff_of_true ⟨newPolicyTable, rfl, by decide⟩ ?_
    rw [hTable]
    exact nofun
  | false =>
    constructor
    · rintro ⟨table, hTable, _⟩ hNone
      have hSome : db.workerPolicy = some table := hTable
      rw [hNone] at hSome
      cases hSome
    · intro hTable
      obtain ⟨table, hSome⟩ := Option.ne_none_iff_exists'.mp hTable
      exact ⟨table, hSome, columns_of_not_stale hStale hSome⟩

theorem every_inside_execute {α : Type} (statement : Statement) {f : Answer → Session α}
    (h : ∀ a, Every Inside (fun _ => True) (f a)) :
    Every Inside (fun _ => True) ((execute statement).bind f) :=
  ⟨trivial, fun r => by
    cases r with
    | ok a => exact h a
    | error e => trivial⟩

theorem rebuild_inside : Every Inside (fun _ => True) rebuildWorkerPolicyIfStale := by
  apply every_inside_execute _
  intro info
  split
  · exact every_inside_execute _ fun _ => every_inside_execute _ fun _ => trivial
  · trivial

theorem apply_policyTableInfo (db : Database) :
    storeDialect.apply .policyTableInfo db = .ok (reportedColumns db, db) := rfl

theorem run_rebuild_eq_ok_iff (faults : Nat → Option PyError) (d v : Database) (n : Nat)
    {c : Connection Database} {m : Nat} :
    run (answer storeDialect faults) rebuildWorkerPolicyIfStale (⟨d, some v⟩, n) = (.ok (), c, m) ↔
      (∀ i < v.repairCalls, faults (n + i) = none) ∧ c = ⟨d, some v.repaired⟩ ∧
        m = n + v.repairCalls := by
  rw [rebuildWorkerPolicyIfStale, Program.bind_eq, run_execute]
  simp only [openFor_pending, view_pending, apply_policyTableInfo, write_pending]
  unfold Database.repairCalls Database.repaired
  cases h0 : faults n with
  | some e =>
    simp only [Prod.mk.injEq, reduceCtorEq, false_and, false_iff]
    rintro ⟨hNone, _⟩
    have h := hNone 0 (by split <;> decide)
    rw [Nat.add_zero, h0] at h
    cases h
  | none =>
    cases hStale : v.stale with
    | false =>
      have hInfo : isStale (reportedColumns v) = false := hStale
      simp only [hInfo, Bool.false_eq_true, if_false, Program.pure_eq, run_ret, Prod.mk.injEq, true_and]
      constructor
      · rintro ⟨rfl, rfl⟩
        refine ⟨fun i hi => ?_, rfl, rfl⟩
        obtain rfl : i = 0 := by omega
        exact h0
      · rintro ⟨_, rfl, rfl⟩
        exact ⟨rfl, rfl⟩
    | true =>
      have hInfo : isStale (reportedColumns v) = true := hStale
      obtain ⟨table, hTable⟩ := exists_table_of_stale hStale
      have hDrop : storeDialect.apply .dropWorkerPolicy v = .ok (.done, { v with workerPolicy := none }) := by
        simp only [storeDialect, Statement.apply, hTable]
      have hCreate : storeDialect.apply .createWorkerPolicy { v with workerPolicy := none } =
          .ok (.done, { v with workerPolicy := some newPolicyTable }) := rfl
      simp only [hInfo, if_true, Program.bind_eq, run_execute, openFor_pending, view_pending, hDrop,
        write_pending, hCreate, Program.pure_eq, run_ret]
      cases h1 : faults (n + 1) with
      | some e =>
        simp only [Prod.mk.injEq, reduceCtorEq, false_and, false_iff]
        rintro ⟨hNone, _⟩
        rw [hNone 1 (by decide)] at h1
        cases h1
      | none =>
        cases h2 : faults (n + 1 + 1) with
        | some e =>
          simp only [Prod.mk.injEq, reduceCtorEq, false_and, false_iff]
          rintro ⟨hNone, _⟩
          rw [hNone 2 (by decide)] at h2
          cases h2
        | none =>
          simp only [Prod.mk.injEq, true_and]
          constructor
          · rintro ⟨rfl, rfl⟩
            refine ⟨fun i hi => ?_, rfl, rfl⟩
            obtain rfl | rfl | rfl : i = 0 ∨ i = 1 ∨ i = 2 := by omega
            · exact h0
            · exact h1
            · exact h2
          · rintro ⟨_, rfl, rfl⟩
            exact ⟨rfl, rfl⟩

/-! ### Publishing the worker's policy -/

def publishedValues (policy : WorkerPolicy) (budget : Double) (stamped : DateTime) : PolicyValues :=
  ⟨policy.retry.maxAttempts, policy.jobTimeoutS, policy.retry.baseDelayS, policy.retry.maxDelayS,
    budget, stamped⟩

def publishBody (policy : WorkerPolicy) (stamped : DateTime) : Session Answer :=
  rebuildWorkerPolicyIfStale.bind fun _ =>
    (Program.ofExcept (retryBudgetSeconds floatPower policy)).bind fun budget =>
      execute (.upsertWorkerPolicy (publishedValues policy budget stamped))

theorem publishWorkerPolicy_eq_explicit (policy : WorkerPolicy) (stamped : DateTime) :
    publishWorkerPolicy policy stamped = explicit (publishBody policy stamped) := by
  simp only [publishWorkerPolicy, publishBody, explicit, Program.bind_eq, Program.bind_assoc,
    publishedValues]

theorem publishBody_inside (policy : WorkerPolicy) (stamped : DateTime) :
    Every Inside (fun _ => True) (publishBody policy stamped) := by
  refine rebuild_inside.bind fun _ _ => Every.bind (every_ofExcept fun _ _ => trivial) fun b _ => ?_
  rw [← Program.bind_ret (execute _)]
  exact every_inside_execute _ fun _ => trivial

theorem run_execute_upsert (faults : Nat → Option PyError) (d v : Database) (n : Nat)
    (values : PolicyValues) :
    (∃ a c m, run (answer storeDialect faults) (execute (.upsertWorkerPolicy values)) (⟨d, some v⟩, n) =
        (.ok a, c, m) ∧ faults m = none) ↔
      faults n = none ∧ faults (n + 1) = none ∧ ∃ out, upsertWorkerPolicy values v = .ok out := by
  rw [← Program.bind_ret (execute _), run_execute]
  simp only [openFor_pending, view_pending]
  cases h0 : faults n with
  | some e => simp
  | none =>
    have hApply : storeDialect.apply (.upsertWorkerPolicy values) v = upsertWorkerPolicy values v := rfl
    rw [hApply]
    cases upsertWorkerPolicy values v with
    | error e => simp
    | ok out =>
      obtain ⟨a, d'⟩ := out
      simp

structure WithoutNan (policy : WorkerPolicy) : Prop where
  timeout : policy.jobTimeoutS.isNan = false
  base : policy.retry.baseDelayS.isNan = false
  max : policy.retry.maxDelayS.isNan = false

theorem upsert_published_succeeds_iff {policy : WorkerPolicy} (stamped : DateTime) {db : Database} :
    (∃ budget, retryBudgetSeconds floatPower policy = .ok budget ∧
        ∃ out, upsertWorkerPolicy (publishedValues policy budget stamped) db.repaired = .ok out) ↔
      policy.retry.maxAttempts ≤ 1025 ∧ WithoutNan policy ∧ db.workerPolicy ≠ none := by
  simp only [upsertWorkerPolicy_succeeds_iff, repaired_table_iff, publishedValues]
  constructor
  · rintro ⟨budget, hBudget, hTable, _, hTimeout, hBase, hMax, _⟩
    exact ⟨exists_retryBudgetSeconds_iff.mp ⟨budget, hBudget⟩, ⟨hTimeout, hBase, hMax⟩, hTable⟩
  · rintro ⟨hAttempts, hNan, hTable⟩
    obtain ⟨budget, hBudget⟩ := exists_retryBudgetSeconds_iff.mpr hAttempts
    refine ⟨budget, hBudget, hTable, ?_, hNan.timeout, hNan.base, hNan.max, ?_⟩
    · simp only [int64, Bool.and_eq_true, decide_eq_true_eq]
      omega
    · exact Double.isNan_of_nonneg (retryBudgetSeconds_nonneg hNan.timeout hNan.base hNan.max hBudget)

theorem publishWorkerPolicy_leavesNoTrace_iff (faults : Nat → Option PyError) (db : Database)
    (policy : WorkerPolicy) (stamped : DateTime) :
    LeavesNoTrace storeDialect faults (publishWorkerPolicy policy stamped) db ↔
      faults 0 ≠ none ∨ (∀ i < db.repairCalls + 2, faults (1 + i) = none) ∧
        policy.retry.maxAttempts ≤ 1025 ∧ WithoutNan policy ∧ db.workerPolicy ≠ none := by
  rw [publishWorkerPolicy_eq_explicit, explicit_leavesNoTrace_iff (publishBody_inside policy stamped)]
  apply or_congr_right
  rw [← upsert_published_succeeds_iff stamped, publishBody, run_bind]
  rcases hRun : run (answer storeDialect faults) rebuildWorkerPolicyIfStale (⟨db, some db⟩, 1) with
    ⟨outcome, c, m⟩
  cases outcome with
  | error e =>
    simp only [Prod.mk.injEq, reduceCtorEq, false_and, exists_false, false_iff]
    rintro ⟨hFaults, _⟩
    have hOk := (run_rebuild_eq_ok_iff faults db db 1).mpr
      ⟨fun i hi => hFaults i (by omega), rfl, rfl⟩
    rw [hRun] at hOk
    cases hOk
  | ok u =>
    obtain ⟨hFaults, rfl, rfl⟩ := (run_rebuild_eq_ok_iff faults db db 1).mp hRun
    simp only
    cases hBudget : retryBudgetSeconds floatPower policy with
    | error e => simp
    | ok budget =>
      simp only [Program.ofExcept_ok, Program.ret_bind, run_execute_upsert, Except.ok.injEq,
        exists_eq_left']
      constructor
      · rintro ⟨hUpsert, hCommit, hOut⟩
        refine ⟨fun i hi => ?_, hOut⟩
        cases Nat.lt_or_ge i db.repairCalls with
        | inl hLt => exact hFaults i hLt
        | inr hGe =>
          obtain rfl | rfl : i = db.repairCalls ∨ i = db.repairCalls + 1 := by omega
          · exact hUpsert
          · exact hCommit
      · rintro ⟨hAll, hOut⟩
        exact ⟨hAll _ (by omega), hAll (db.repairCalls + 1) (by omega), hOut⟩

/-! ### The four writes -/

inductive StoreWrite where
  | insertPending (job : Job)
  | finalize (result : Result) (completedAt : DateTime)
  | publishWorkerPolicy (policy : WorkerPolicy) (stamped : DateTime)
  | setModelPolicy (project kind model : Text) (updatedAt : DateTime)

/-- An exception out of this write leaves the database as it was and the connection
outside any transaction. -/
def StoreWrite.LeavesNoTrace (faults : Nat → Option PyError) (db : Database) : StoreWrite → Prop
  | .insertPending job => Transaction.LeavesNoTrace storeDialect faults (LlmBus.insertPending job) db
  | .finalize result completedAt =>
    Transaction.LeavesNoTrace storeDialect faults (LlmBus.finalize result completedAt) db
  | .publishWorkerPolicy policy stamped =>
    Transaction.LeavesNoTrace storeDialect faults (LlmBus.publishWorkerPolicy policy stamped) db
  | .setModelPolicy project kind model updatedAt =>
    Transaction.LeavesNoTrace storeDialect faults (LlmBus.setModelPolicy project kind model updatedAt) db

/-- Nothing can fail once the transaction is open. -/
def StoreWrite.Clean (faults : Nat → Option PyError) (db : Database) : StoreWrite → Prop
  | .insertPending job =>
    Value.dumpFailureEntries job.metadata ≠ none ∨ faults 0 = none ∧ faults 1 = none ∧
      surrogateFree job.project = true ∧ ∃ model, job.model = some model ∧ surrogateFree model = true
  | .finalize result _ =>
    faults 0 = none ∧ faults 1 = none ∧ Bindable result ∧
      (Awaited db result.jobId → result.usage.costUsd.isNan = false)
  | .publishWorkerPolicy policy _ =>
    faults 0 ≠ none ∨ (∀ i < db.repairCalls + 2, faults (1 + i) = none) ∧
      policy.retry.maxAttempts ≤ 1025 ∧ WithoutNan policy ∧ db.workerPolicy ≠ none
  | .setModelPolicy project kind model _ =>
    faults 0 = none ∧ faults 1 = none ∧ surrogateFree project = true ∧ surrogateFree kind = true ∧
      surrogateFree model = true

theorem storeWrite_leavesNoTrace_iff (w : StoreWrite) (faults : Nat → Option PyError) (db : Database) :
    w.LeavesNoTrace faults db ↔ w.Clean faults db := by
  cases w with
  | insertPending job =>
    simp only [StoreWrite.LeavesNoTrace, StoreWrite.Clean, insertPending]
    cases hDump : Value.dumpFailureEntries job.metadata with
    | some e =>
      simp only [ne_eq, reduceCtorEq, not_false_eq_true, true_or, iff_true]
      rw [leavesNoTrace_iff]
      exact fun _ _ => rfl
    | none =>
      rw [single_leavesNoTrace_iff rfl]
      simp only [ne_eq, not_true_eq_false, false_or]
      exact and_congr_right fun _ => and_congr_right fun _ => insertJob_succeeds_iff
  | finalize result completedAt =>
    simp only [StoreWrite.LeavesNoTrace, StoreWrite.Clean, finalize]
    rw [single_leavesNoTrace_iff rfl]
    exact and_congr_right fun _ => and_congr_right fun _ => finalizeJob_succeeds_iff
  | publishWorkerPolicy policy stamped =>
    exact publishWorkerPolicy_leavesNoTrace_iff faults db policy stamped
  | setModelPolicy project kind model updatedAt =>
    simp only [StoreWrite.LeavesNoTrace, StoreWrite.Clean, setModelPolicy]
    rw [single_leavesNoTrace_iff rfl]
    exact and_congr_right fun _ => and_congr_right fun _ => upsertModelPolicy_succeeds_iff

/-- One attempt more than a published budget can count. -/
def tooManyAttempts : WorkerPolicy where
  retry :=
    { maxAttempts := 1026
      baseDelayS := .finite 1
      maxDelayS := .finite 60
      maxAttempts_pos := by decide
      base_pos := by decide +kernel
      base_le_max := by decide +kernel }
  jobTimeoutS := .finite 60
  defaultOutputTokens := 1024
  timeout_pos := by decide +kernel

/-- The budget overflows after `BEGIN IMMEDIATE`, and the transaction stays open. -/
theorem publishWorkerPolicy_leaves_trace :
    ¬ (StoreWrite.publishWorkerPolicy tooManyAttempts (.startOf newYear2026)).LeavesNoTrace noFaults .empty := by
  intro h
  rcases (publishWorkerPolicy_leavesNoTrace_iff _ _ _ _).mp h with hBegin | ⟨_, hAttempts, _⟩
  · exact hBegin rfl
  · exact absurd hAttempts (by decide)

end LlmBus
