import LlmBus.Foundation.KeyedTable
import LlmBus.Foundation.Transaction
import LlmBus.Retry

/-! # The results store

Three tables behind one connection. Each write of the store is a session of SQL
statements; what a statement does is given by `storeDialect`, from the binding of its
arguments to the rows it changes.
-/

namespace LlmBus

open Foundation

/-! ### Tables -/

inductive Status where
  | pending
  | ok
  | error
  deriving DecidableEq

def Outcome.status : Outcome → Status
  | .ok => .ok
  | .error => .error

theorem Outcome.status_ne_pending (o : Outcome) : o.status ≠ .pending := by
  cases o <;> decide

/-- One row of `jobs`. The columns `meta`, `submitted_at` and `completed_at` hold texts;
the row keeps what these were written from. -/
structure JobRow where
  jobId : Text
  project : Text
  model : Text
  status : Status
  completion : Option Text
  error : Option Text
  provider : Option Text
  inputTokens : ℤ
  outputTokens : ℤ
  costUsd : Double
  metadata : Entries
  submittedAt : DateTime
  completedAt : Option DateTime

/-- `substr(submitted_at, 1, 10)`, under which the ledger groups the row. -/
def JobRow.day (row : JobRow) : Text :=
  row.submittedAt.isoformat.take 10

theorem JobRow.day_eq (row : JobRow) : row.day = isoDate row.submittedAt.date :=
  DateTime.take_isoformat _

inductive SqlValue where
  | null
  | integer (n : ℤ)
  | real (x : Double)
  | text (s : Text)
  deriving DecidableEq

/-- `worker_policy`, whatever shape an earlier release left it in. -/
structure PolicyTable where
  columns : List Text
  rows : List (List (Text × SqlValue))
  columns_ne : columns ≠ []

structure ModelPolicy where
  project : Text
  kind : Text
  model : Text
  updatedAt : DateTime

def ModelPolicy.key (row : ModelPolicy) : Text × Text :=
  (row.project, row.kind)

structure Database where
  jobs : KeyedTable JobRow.jobId
  workerPolicy : Option PolicyTable
  modelPolicy : KeyedTable ModelPolicy.key

def workerPolicyColumns : List Text :=
  [txt "id", txt "max_attempts", txt "job_timeout_s", txt "base_delay_s", txt "max_delay_s",
    txt "retry_budget_s", txt "updated_at"]

def newPolicyTable : PolicyTable :=
  ⟨workerPolicyColumns, [], by decide⟩

/-- What `connect` leaves in a new file. -/
def Database.empty : Database :=
  ⟨.empty, some newPolicyTable, .empty⟩

/-! ### Binding -/

def bindText (s : Text) : Except PyError Unit :=
  if surrogateFree s then .ok ()
  else .error ⟨.unicodeEncodeError, txt "surrogates not allowed"⟩

def bindOptional : Option Text → Except PyError Unit
  | none => .ok ()
  | some s => bindText s

def int64 (n : ℤ) : Bool :=
  -2 ^ 63 ≤ n && n < 2 ^ 63

theorem int64_zero : int64 0 = true := by
  decide

def bindInteger (n : ℤ) : Except PyError Unit :=
  if int64 n then .ok ()
  else .error (overflow "Python int too large to convert to SQLite INTEGER")

/-- A NaN is bound as NULL. -/
def notNull (column : String) (x : Double) : Except PyError Unit :=
  if x.isNan then .error ⟨.integrityError, txt "NOT NULL constraint failed: " ++ txt column⟩
  else .ok ()

theorem bindText_eq_ok_iff {s : Text} {u : Unit} : bindText s = .ok u ↔ surrogateFree s = true := by
  unfold bindText
  split
  · rename_i h
    simp [h]
  · rename_i h
    simp [h]

theorem bindOptional_eq_ok_iff {s : Option Text} {u : Unit} :
    bindOptional s = .ok u ↔ s.all surrogateFree = true := by
  cases s with
  | none => simp [bindOptional]
  | some t => simp [bindOptional, bindText_eq_ok_iff]

theorem bindInteger_eq_ok_iff {n : ℤ} {u : Unit} : bindInteger n = .ok u ↔ int64 n = true := by
  unfold bindInteger
  split
  · rename_i h
    simp [h]
  · rename_i h
    simp [h]

theorem notNull_eq_ok_iff {column : String} {x : Double} {u : Unit} :
    notNull column x = .ok u ↔ x.isNan = false := by
  unfold notNull
  split
  · rename_i h
    simp [h]
  · rename_i h
    simp [h]

def operational (message : String) : PyError :=
  ⟨.operationalError, txt message⟩

/-! ### Statements -/

structure PolicyValues where
  maxAttempts : Nat
  jobTimeoutS : Double
  baseDelayS : Double
  maxDelayS : Double
  retryBudgetS : Double
  updatedAt : DateTime

def PolicyValues.row (v : PolicyValues) : List (Text × SqlValue) :=
  [(txt "id", .integer 1), (txt "max_attempts", .integer v.maxAttempts),
    (txt "job_timeout_s", .real v.jobTimeoutS), (txt "base_delay_s", .real v.baseDelayS),
    (txt "max_delay_s", .real v.maxDelayS), (txt "retry_budget_s", .real v.retryBudgetS),
    (txt "updated_at", .text v.updatedAt.isoformat)]

inductive Statement where
  | insertJob (jobId project : Text) (model : Option Text) (metadata : Entries)
      (submittedAt : DateTime)
  | finalizeJob (result : Result) (completedAt : DateTime)
  | policyTableInfo
  | dropWorkerPolicy
  | createWorkerPolicy
  | upsertWorkerPolicy (values : PolicyValues)
  | upsertModelPolicy (row : ModelPolicy)

inductive Answer where
  | done
  | rowcount (n : Nat)
  | columns (names : List Text)
  deriving DecidableEq

def pendingRow (jobId project model : Text) (metadata : Entries) (submittedAt : DateTime) : JobRow where
  jobId := jobId
  project := project
  model := model
  status := .pending
  completion := none
  error := none
  provider := none
  inputTokens := 0
  outputTokens := 0
  costUsd := .finite 0
  metadata := metadata
  submittedAt := submittedAt
  completedAt := none

def insertJob (jobId project : Text) (model : Option Text) (metadata : Entries)
    (submittedAt : DateTime) (db : Database) : Except PyError (Answer × Database) := do
  bindText jobId
  bindText project
  bindOptional model
  match model with
  | none => throw ⟨.integrityError, txt "NOT NULL constraint failed: jobs.model"⟩
  | some model =>
    match db.jobs.find jobId with
    | some _ => pure (.rowcount 0, db)
    | none =>
      let row := pendingRow jobId project model metadata submittedAt
      pure (.rowcount 1, { db with jobs := db.jobs.insertNew row })

def JobRow.finalize (result : Result) (completedAt : DateTime) (row : JobRow) : JobRow :=
  { row with
    status := result.status.status
    completion := result.completion
    error := result.error
    provider := result.provider
    inputTokens := result.usage.inputTokens
    outputTokens := result.usage.outputTokens
    costUsd := result.usage.costUsd
    completedAt := some completedAt }

theorem JobRow.jobId_finalize (result : Result) (completedAt : DateTime) (row : JobRow) :
    (row.finalize result completedAt).jobId = row.jobId := rfl

def bindResult (result : Result) : Except PyError Unit := do
  bindOptional result.completion
  bindOptional result.error
  bindOptional result.provider
  bindInteger result.usage.inputTokens
  bindInteger result.usage.outputTokens
  bindText result.jobId.text

theorem surrogateFree_jobId (jobId : JobId) : surrogateFree jobId.text = true :=
  surrogateFree_of_asciiText (Uuid.asciiText_text jobId)

structure Bindable (result : Result) : Prop where
  completion : result.completion.all surrogateFree = true
  error : result.error.all surrogateFree = true
  provider : result.provider.all surrogateFree = true
  inputTokens : int64 result.usage.inputTokens = true
  outputTokens : int64 result.usage.outputTokens = true

theorem bindResult_eq_ok_iff {result : Result} {u : Unit} :
    bindResult result = .ok u ↔ Bindable result := by
  simp only [bindResult, bind_eq_ok_iff, bindOptional_eq_ok_iff, bindInteger_eq_ok_iff,
    bindText_eq_ok_iff, surrogateFree_jobId, exists_const]
  constructor
  · rintro ⟨hCompletion, hError, hProvider, hInput, hOutput, _⟩
    exact ⟨hCompletion, hError, hProvider, hInput, hOutput⟩
  · rintro ⟨hCompletion, hError, hProvider, hInput, hOutput⟩
    exact ⟨hCompletion, hError, hProvider, hInput, hOutput, trivial⟩

def finalizeJob (result : Result) (completedAt : DateTime) (db : Database) :
    Except PyError (Answer × Database) := do
  bindResult result
  match db.jobs.find result.jobId.text with
  | none => pure (.rowcount 0, db)
  | some row =>
    if row.status = .pending then
      notNull "jobs.cost_usd" result.usage.costUsd
      pure (.rowcount 1, { db with
        jobs := db.jobs.update result.jobId.text (JobRow.finalize result completedAt)
          (JobRow.jobId_finalize result completedAt) })
    else pure (.rowcount 0, db)

/-- The single row, pinned to `id = 1`, is overwritten. -/
def upsertPolicyRow (rows : List (List (Text × SqlValue))) (row : List (Text × SqlValue)) :
    List (List (Text × SqlValue)) :=
  if rows.any fun r => r.lookup (txt "id") = some (.integer 1) then
    rows.map fun r => if r.lookup (txt "id") = some (.integer 1) then row else r
  else rows ++ [row]

def upsertWorkerPolicy (values : PolicyValues) (db : Database) : Except PyError (Answer × Database) :=
  match db.workerPolicy with
  | none => throw (operational "no such table: worker_policy")
  | some table => do
    unless workerPolicyColumns.all fun column => table.columns.contains column do
      throw (operational "table worker_policy has no such column")
    bindInteger values.maxAttempts
    notNull "worker_policy.job_timeout_s" values.jobTimeoutS
    notNull "worker_policy.base_delay_s" values.baseDelayS
    notNull "worker_policy.max_delay_s" values.maxDelayS
    notNull "worker_policy.retry_budget_s" values.retryBudgetS
    pure (.rowcount 1, { db with
      workerPolicy := some { table with rows := upsertPolicyRow table.rows values.row } })

def ModelPolicy.replacedBy (old new : ModelPolicy) : ModelPolicy :=
  { old with model := new.model, updatedAt := new.updatedAt }

theorem ModelPolicy.key_replacedBy (old new : ModelPolicy) : (old.replacedBy new).key = old.key := rfl

def upsertModelPolicy (row : ModelPolicy) (db : Database) : Except PyError (Answer × Database) := do
  bindText row.project
  bindText row.kind
  bindText row.model
  pure (.rowcount 1, { db with
    modelPolicy := db.modelPolicy.upsert row ModelPolicy.replacedBy ModelPolicy.key_replacedBy })

def Statement.apply : Statement → Database → Except PyError (Answer × Database)
  | .insertJob jobId project model metadata submittedAt, db =>
    LlmBus.insertJob jobId project model metadata submittedAt db
  | .finalizeJob result completedAt, db => LlmBus.finalizeJob result completedAt db
  | .policyTableInfo, db => .ok (.columns (db.workerPolicy.elim [] (·.columns)), db)
  | .dropWorkerPolicy, db =>
    match db.workerPolicy with
    | none => .error (operational "no such table: worker_policy")
    | some _ => .ok (.done, { db with workerPolicy := none })
  | .createWorkerPolicy, db =>
    .ok (.done, { db with workerPolicy := some (db.workerPolicy.getD newPolicyTable) })
  | .upsertWorkerPolicy values, db => LlmBus.upsertWorkerPolicy values db
  | .upsertModelPolicy row, db => LlmBus.upsertModelPolicy row db

def Statement.isDml : Statement → Bool
  | .insertJob .. | .finalizeJob .. | .upsertWorkerPolicy .. | .upsertModelPolicy .. => true
  | .policyTableInfo | .dropWorkerPolicy | .createWorkerPolicy => false

def storeDialect : Transaction.Dialect Database Statement Answer PyError where
  apply := Statement.apply
  dml := Statement.isDml
  nested := operational "cannot start a transaction within a transaction"

/-! ### The store's operations -/

abbrev Session := Transaction.Session Statement Answer PyError

open Transaction Interaction

/-- `cursor.rowcount == 1` -/
def wroteOne (a : Answer) : Bool :=
  a = .rowcount 1

def insertPending (job : Job) : Session Bool :=
  match Value.dumpFailureEntries job.metadata with
  | some e => .fail e
  | none =>
    single (.insertJob job.jobId.text job.project job.model job.metadata job.submittedAt) wroteOne

def finalize (result : Result) (completedAt : DateTime) : Session Bool :=
  single (.finalizeJob result completedAt) wroteOne

def setModelPolicy (project kind model : Text) (updatedAt : DateTime) : Session Unit :=
  single (.upsertModelPolicy ⟨project, kind, model, updatedAt⟩) fun _ => ()

/-- Whether the reported columns are some, and not the expected set. -/
def isStale (a : Answer) : Bool :=
  match a with
  | .columns names =>
    !names.isEmpty &&
      !(names.all (workerPolicyColumns.contains ·) && workerPolicyColumns.all (names.contains ·))
  | _ => false

def rebuildWorkerPolicyIfStale : Session Unit := do
  let info ← execute .policyTableInfo
  if isStale info then
    let _ ← execute .dropWorkerPolicy
    let _ ← execute .createWorkerPolicy
    pure ()
  else pure ()

def publishWorkerPolicy (policy : WorkerPolicy) (stamped : DateTime) : Session Unit := do
  beginImmediate
  rebuildWorkerPolicyIfStale
  let budget ← Program.ofExcept (retryBudgetSeconds floatPower policy)
  let _ ← execute (.upsertWorkerPolicy ⟨policy.retry.maxAttempts, policy.jobTimeoutS,
    policy.retry.baseDelayS, policy.retry.maxDelayS, budget, stamped⟩)
  commit

/-! ### Reading -/

def Database.get (db : Database) (jobId : Text) : Option JobRow :=
  db.jobs.find jobId

def Database.pendingCount (db : Database) : Nat :=
  db.jobs.count fun row => row.status = .pending

def Database.readModelPolicy (db : Database) (project kind : Text) :
    Except PyError (Option ModelPolicy) := do
  bindText project
  bindText kind
  pure (db.modelPolicy.find (project, kind))

/-- The operation with its commit as one step, on a connection of its own. -/
def Database.perform {α : Type} (db : Database) (session : Session α) : Except PyError α × Database :=
  atomically storeDialect session db

end LlmBus
