import LlmBus.Foundation.IsoFormat
import LlmBus.Foundation.JsonRoundTrip
import LlmBus.Foundation.Replay
import LlmBus.RoundTrip
import LlmBus.StoreSteps

/-! # The texts in the rows

The rows of `jobs` as SQLite holds them: the metadata dumped as JSON, the timestamps in ISO
format. The store on these texts answers as the store on the values does, and no row that it
has written fails to be read. What comes back is what was written, unless a string holds the
two halves of a surrogate pair side by side.
-/

namespace LlmBus

open Foundation JsonText Replay

/-! ### Metadata as JSON -/

mutual

/-- The tree that `json.dumps` writes. An `object` has none; `dumpFailure` raises on it first. -/
def Value.datum : Value → Datum
  | .null => .null
  | .bool b => .bool b
  | .int n => .int n
  | .float x => .float x
  | .str s => .str s
  | .list items => .arr (Value.datumList items)
  | .dict entries => .obj (Value.datumEntries entries)
  | .object _ => .null

def Value.datumList : List Value → List Datum
  | [] => []
  | v :: rest => v.datum :: Value.datumList rest

def Value.datumEntries : Entries → List (Text × Datum)
  | [] => []
  | (k, v) :: rest => (k, v.datum) :: Value.datumEntries rest

end

mutual

/-- The value that `json.loads` makes of a tree. -/
def Value.ofDatum : Datum → Value
  | .null => .null
  | .bool b => .bool b
  | .int n => .int n
  | .float x => .float x
  | .str s => .str s
  | .arr items => .list (Value.ofDatumItems items)
  | .obj members => .dict (dictOf (Value.ofDatumMembers members))

def Value.ofDatumItems : List Datum → List Value
  | [] => []
  | d :: rest => .ofDatum d :: Value.ofDatumItems rest

def Value.ofDatumMembers : List (Text × Datum) → Entries
  | [] => []
  | (k, d) :: rest => (k, .ofDatum d) :: Value.ofDatumMembers rest

end

mutual

/-- What becomes of a value between `json.dumps` and `json.loads`. -/
def Value.joined : Value → Value
  | .str s => .str (JsonText.joined s)
  | .list items => .list (Value.joinedList items)
  | .dict entries => .dict (dictOf (Value.joinedEntries entries))
  | v => v

def Value.joinedList : List Value → List Value
  | [] => []
  | v :: rest => v.joined :: Value.joinedList rest

def Value.joinedEntries : Entries → Entries
  | [] => []
  | (k, v) :: rest => (JsonText.joined k, v.joined) :: Value.joinedEntries rest

end

mutual

/-- Some string or key of the value holds a high surrogate right before a low one. -/
def Value.hasPair : Value → Bool
  | .str s => JsonText.hasPair s
  | .list items => Value.hasPairList items
  | .dict entries => Value.hasPairEntries entries
  | _ => false

def Value.hasPairList : List Value → Bool
  | [] => false
  | v :: rest => v.hasPair || Value.hasPairList rest

def Value.hasPairEntries : Entries → Bool
  | [] => false
  | (k, v) :: rest => JsonText.hasPair k || v.hasPair || Value.hasPairEntries rest

end

mutual

/-- A dict has each of its keys once. -/
def Value.keyed : Value → Bool
  | .list items => Value.keyedList items
  | .dict entries => decide (entries.map Prod.fst).Nodup && Value.keyedEntries entries
  | _ => true

def Value.keyedList : List Value → Bool
  | [] => true
  | v :: rest => v.keyed && Value.keyedList rest

def Value.keyedEntries : Entries → Bool
  | [] => true
  | (_, v) :: rest => v.keyed && Value.keyedEntries rest

end

mutual

/-- No float in it is NaN, which is not equal to what is read back for it. -/
def Value.nanFree : Value → Bool
  | .float x => !x.isNan
  | .list items => Value.nanFreeList items
  | .dict entries => Value.nanFreeEntries entries
  | _ => true

def Value.nanFreeList : List Value → Bool
  | [] => true
  | v :: rest => v.nanFree && Value.nanFreeList rest

def Value.nanFreeEntries : Entries → Bool
  | [] => true
  | (_, v) :: rest => v.nanFree && Value.nanFreeEntries rest

end

section Floats

variable (floatText : Double → Text) (parseFloat : Text → Double)

mutual

/-- `float(repr(x)) == x` for the floats of the value. -/
def Value.FloatsRead : Value → Prop
  | .float x => ∀ q, x = .finite q → FloatReads floatText parseFloat q
  | .list items => Value.FloatsReadList items
  | .dict entries => Value.FloatsReadEntries entries
  | _ => True

def Value.FloatsReadList : List Value → Prop
  | [] => True
  | v :: rest => v.FloatsRead ∧ Value.FloatsReadList rest

def Value.FloatsReadEntries : Entries → Prop
  | [] => True
  | (_, v) :: rest => v.FloatsRead ∧ Value.FloatsReadEntries rest

end

end Floats

/-- `json.dumps` of a dict. -/
def jsonDumps (py : Interpreter) (metadata : Entries) : Except PyError Text :=
  match Value.dumpFailureEntries metadata with
  | some e => .error e
  | none => .ok (dumps py.floatText (.obj (Value.datumEntries metadata)))

/-- `json.loads`; `none` stands for the error that it raises on a text that is no JSON. -/
def jsonLoads (parseFloat : Text → Double) (text : Text) : Option Value :=
  (loads parseFloat text).map Value.ofDatum

section Metadata

variable {floatText : Double → Text} {parseFloat : Text → Double}

theorem or_eq_none_iff {α : Type} {a b : Option α} : a.or b = none ↔ a = none ∧ b = none := by
  cases a <;> simp

theorem Value.dumpFailure_int {n : ℤ} (h : (Value.int n).dumpFailure = none) :
    n.natAbs < 10 ^ Interpreter.maxDigits := by
  by_contra hLarge
  rw [Value.dumpFailure, if_neg hLarge] at h
  cases h

theorem Value.dumpFailure_object (typeName : Text) : (Value.object typeName).dumpFailure ≠ none := by
  rw [Value.dumpFailure]
  exact Option.some_ne_none _

mutual

theorem Value.legible_datum : ∀ v : Value, v.dumpFailure = none → v.FloatsRead floatText parseFloat →
    v.datum.Legible floatText parseFloat
  | .null => fun _ _ => trivial
  | .bool _ => fun _ _ => trivial
  | .int _ => fun h _ => Value.dumpFailure_int h
  | .float _ => fun _ hFloats => hFloats
  | .str _ => fun _ _ => trivial
  | .list items => Value.legible_datumList items
  | .dict entries => Value.legible_datumEntries entries
  | .object _ => fun _ _ => trivial

theorem Value.legible_datumList : ∀ items : List Value, Value.dumpFailureList items = none →
    Value.FloatsReadList floatText parseFloat items →
    Datum.LegibleItems floatText parseFloat (Value.datumList items)
  | [], _, _ => trivial
  | v :: rest, h, hFloats => by
    rw [Value.dumpFailureList, or_eq_none_iff] at h
    exact ⟨Value.legible_datum v h.1 hFloats.1, Value.legible_datumList rest h.2 hFloats.2⟩

theorem Value.legible_datumEntries : ∀ entries : Entries, Value.dumpFailureEntries entries = none →
    Value.FloatsReadEntries floatText parseFloat entries →
    Datum.LegibleMembers floatText parseFloat (Value.datumEntries entries)
  | [], _, _ => trivial
  | (_, v) :: rest, h, hFloats => by
    rw [Value.dumpFailureEntries, or_eq_none_iff] at h
    exact ⟨Value.legible_datum v h.1 hFloats.1, Value.legible_datumEntries rest h.2 hFloats.2⟩

end

mutual

theorem Value.ofDatum_joined_datum : ∀ v : Value, v.dumpFailure = none →
    Value.ofDatum v.datum.joined = v.joined
  | .null => fun _ => rfl
  | .bool _ => fun _ => rfl
  | .int _ => fun _ => rfl
  | .float _ => fun _ => rfl
  | .str _ => fun _ => rfl
  | .list items => fun h => by
    rw [Value.datum, Datum.joined, Value.ofDatum, Value.joined, Value.ofDatum_joined_datumList items h]
  | .dict entries => fun h => by
    rw [Value.datum, Datum.joined, Value.ofDatum, Value.joined,
      Value.ofDatum_joined_datumEntries entries h]
  | .object typeName => fun h => absurd h (Value.dumpFailure_object typeName)

theorem Value.ofDatum_joined_datumList : ∀ items : List Value, Value.dumpFailureList items = none →
    Value.ofDatumItems (Datum.joinedItems (Value.datumList items)) = Value.joinedList items
  | [], _ => rfl
  | v :: rest, h => by
    rw [Value.dumpFailureList, or_eq_none_iff] at h
    rw [Value.datumList, Datum.joinedItems, Value.ofDatumItems, Value.joinedList,
      Value.ofDatum_joined_datum v h.1, Value.ofDatum_joined_datumList rest h.2]

theorem Value.ofDatum_joined_datumEntries : ∀ entries : Entries,
    Value.dumpFailureEntries entries = none →
    Value.ofDatumMembers (Datum.joinedMembers (Value.datumEntries entries)) =
      Value.joinedEntries entries
  | [], _ => rfl
  | (k, v) :: rest, h => by
    rw [Value.dumpFailureEntries, or_eq_none_iff] at h
    rw [Value.datumEntries, Datum.joinedMembers, Value.ofDatumMembers, Value.joinedEntries,
      Value.ofDatum_joined_datum v h.1, Value.ofDatum_joined_datumEntries rest h.2]

end

end Metadata

/-! ### When nothing is joined -/

theorem length_foldl_insertEntry (pairs entries : Entries) :
    (pairs.foldl (fun entries e => insertEntry entries e.1 e.2) entries).length ≤
      entries.length + pairs.length := by
  induction pairs generalizing entries with
  | nil => exact le_rfl
  | cons e rest ih =>
    have hInsert : (insertEntry entries e.1 e.2).length ≤ entries.length + 1 := by
      unfold insertEntry
      split
      · rw [List.length_map]
        exact Nat.le_succ _
      · rw [List.length_append, List.length_singleton]
    have hRest := ih (insertEntry entries e.1 e.2)
    rw [List.foldl_cons, List.length_cons]
    omega

theorem nodup_of_length_foldl {pairs entries : Entries} (hEntries : (entries.map Prod.fst).Nodup)
    (h : (pairs.foldl (fun entries e => insertEntry entries e.1 e.2) entries).length =
      entries.length + pairs.length) : ((entries ++ pairs).map Prod.fst).Nodup := by
  induction pairs generalizing entries with
  | nil => rwa [List.append_nil]
  | cons e rest ih =>
    rw [List.foldl_cons, List.length_cons] at h
    have hBound := length_foldl_insertEntry rest (insertEntry entries e.1 e.2)
    by_cases hMem : e.1 ∈ entries.map Prod.fst
    · have hSame : (insertEntry entries e.1 e.2).length = entries.length := by
        obtain ⟨entry, hEntry, hKey⟩ := List.mem_map.mp hMem
        have hAny : (entries.any fun e' => e'.1 == e.1) = true :=
          List.any_eq_true.mpr ⟨entry, hEntry, beq_iff_eq.mpr hKey⟩
        rw [insertEntry, if_pos hAny, List.length_map]
      omega
    · have hInsert : insertEntry entries e.1 e.2 = entries ++ [e] := by
        rw [insertEntry, any_fst_eq_false hMem]
        rfl
      rw [hInsert] at h
      have hNodup : ((entries ++ [e]).map Prod.fst).Nodup := by
        rw [List.map_append, List.nodup_append]
        refine ⟨hEntries, List.nodup_singleton _, ?_⟩
        rintro k hk k' hk' rfl
        rw [List.map_singleton, List.mem_singleton] at hk'
        exact hMem (hk' ▸ hk)
      have hAll := ih hNodup (by rw [h, List.length_append, List.length_singleton]; omega)
      rwa [List.append_assoc] at hAll

/-- A dict out of pairs keeps them as they are only where no key is repeated. -/
theorem nodup_of_length_dictOf {pairs : Entries} (h : (dictOf pairs).length = pairs.length) :
    (pairs.map Prod.fst).Nodup := by
  have hNil : (([] : Entries).map Prod.fst).Nodup := List.nodup_nil
  exact nodup_of_length_foldl hNil (by rw [List.length_nil, Nat.zero_add]; exact h)

theorem length_joinedEntries (entries : Entries) :
    (Value.joinedEntries entries).length = entries.length := by
  induction entries with
  | nil => rfl
  | cons e rest ih => exact congrArg (· + 1) ih

mutual

/-- Exactly the values without a pair come back as they were. -/
theorem Value.joined_eq_self_iff : ∀ v : Value, v.keyed = true → (v.joined = v ↔ v.hasPair = false)
  | .null, _ => iff_of_true rfl rfl
  | .bool _, _ => iff_of_true rfl rfl
  | .int _, _ => iff_of_true rfl rfl
  | .float _, _ => iff_of_true rfl rfl
  | .object _, _ => iff_of_true rfl rfl
  | .str s, _ => by
    rw [Value.joined, Value.hasPair, Value.str.injEq]
    exact JsonText.joined_eq_self_iff
  | .list items, h => by
    rw [Value.joined, Value.hasPair, Value.list.injEq]
    exact Value.joinedList_eq_self_iff items h
  | .dict entries, h => by
    rw [Value.keyed, Bool.and_eq_true, decide_eq_true_eq] at h
    rw [Value.joined, Value.hasPair, Value.dict.injEq, ← Value.joinedEntries_eq_self_iff entries h.2]
    constructor
    · intro hSame
      have hLength : (dictOf (Value.joinedEntries entries)).length =
          (Value.joinedEntries entries).length := by
        rw [hSame, length_joinedEntries]
      rwa [dictOf_of_nodup (nodup_of_length_dictOf hLength)] at hSame
    · intro hSame
      rw [hSame, dictOf_of_nodup h.1]

theorem Value.joinedList_eq_self_iff : ∀ items : List Value, Value.keyedList items = true →
    (Value.joinedList items = items ↔ Value.hasPairList items = false)
  | [], _ => iff_of_true rfl rfl
  | v :: rest, h => by
    rw [Value.keyedList, Bool.and_eq_true] at h
    rw [Value.joinedList, Value.hasPairList, List.cons.injEq, Bool.or_eq_false_iff,
      Value.joined_eq_self_iff v h.1, Value.joinedList_eq_self_iff rest h.2]

theorem Value.joinedEntries_eq_self_iff : ∀ entries : Entries, Value.keyedEntries entries = true →
    (Value.joinedEntries entries = entries ↔ Value.hasPairEntries entries = false)
  | [], _ => iff_of_true rfl rfl
  | (k, v) :: rest, h => by
    rw [Value.keyedEntries, Bool.and_eq_true] at h
    rw [Value.joinedEntries, Value.hasPairEntries, List.cons.injEq, Prod.mk.injEq,
      Bool.or_eq_false_iff, Bool.or_eq_false_iff, JsonText.joined_eq_self_iff,
      Value.joined_eq_self_iff v h.1, Value.joinedEntries_eq_self_iff rest h.2]

end

/-! ### Rows of texts -/

def Status.text : Status → Text
  | .pending => txt "pending"
  | .ok => txt "ok"
  | .error => txt "error"

theorem Status.text_eq_pending_iff {status : Status} :
    status.text = Status.text .pending ↔ status = .pending := by
  cases status <;> decide

/-- One row of `jobs`, column by column. -/
structure TextRow where
  jobId : Text
  project : Text
  model : Text
  status : Text
  completion : Option Text
  error : Option Text
  provider : Option Text
  inputTokens : ℤ
  outputTokens : ℤ
  costUsd : Double
  metadata : Text
  submittedAt : Text
  completedAt : Option Text

abbrev TextTable := KeyedTable TextRow.jobId

structure StoredJob where
  jobId : Text
  project : Text
  model : Text
  status : Text
  completion : Option Text
  error : Option Text
  provider : Option Text
  usage : Usage
  metadata : Value
  submittedAt : DateTime
  completedAt : Option DateTime

def bindAll : List Text → Except PyError Unit
  | [] => .ok ()
  | s :: rest => do
    bindText s
    bindAll rest

/-- `insert_pending` -/
def insertPendingText (py : Interpreter) (job : Job) (t : TextTable) :
    Except PyError (Bool × TextTable) := do
  let metadata ← jsonDumps py job.metadata
  bindText job.jobId.text
  bindText job.project
  bindOptional job.model
  bindAll [Status.text .pending, metadata, job.submittedAt.isoformat]
  match job.model with
  | none => throw ⟨.integrityError, txt "NOT NULL constraint failed: jobs.model"⟩
  | some model =>
    match t.find job.jobId.text with
    | some _ => pure (false, t)
    | none =>
      pure (true, t.insertNew
        { jobId := job.jobId.text, project := job.project, model := model
          status := Status.text .pending, completion := none, error := none, provider := none
          inputTokens := 0, outputTokens := 0, costUsd := .finite 0, metadata := metadata
          submittedAt := job.submittedAt.isoformat, completedAt := none })

def TextRow.finalize (result : Result) (completedAt : Text) (row : TextRow) : TextRow :=
  { row with
    status := result.status.status.text
    completion := result.completion
    error := result.error
    provider := result.provider
    inputTokens := result.usage.inputTokens
    outputTokens := result.usage.outputTokens
    costUsd := result.usage.costUsd
    completedAt := some completedAt }

theorem TextRow.jobId_finalize (result : Result) (completedAt : Text) (row : TextRow) :
    (row.finalize result completedAt).jobId = row.jobId := rfl

/-- `finalize` -/
def finalizeText (result : Result) (completedAt : DateTime) (t : TextTable) :
    Except PyError (Bool × TextTable) := do
  bindText result.status.status.text
  bindOptional result.completion
  bindOptional result.error
  bindOptional result.provider
  bindInteger result.usage.inputTokens
  bindInteger result.usage.outputTokens
  bindText completedAt.isoformat
  bindText result.jobId.text
  bindText (Status.text .pending)
  match t.find result.jobId.text with
  | none => pure (false, t)
  | some row =>
    if row.status = Status.text .pending then
      notNull "jobs.cost_usd" result.usage.costUsd
      pure (true, t.update result.jobId.text (TextRow.finalize result completedAt.isoformat)
        (TextRow.jobId_finalize result completedAt.isoformat))
    else pure (false, t)

/-- `_row_to_stored_job`; `none` stands for the error of a text that cannot be read. -/
def rowToStoredJob (parseFloat : Text → Double) (row : TextRow) : Option StoredJob := do
  let metadata ← jsonLoads parseFloat row.metadata
  let submittedAt ← IsoFormat.read row.submittedAt
  let completedAt ←
    match row.completedAt with
    | none => some none
    | some completed => if completed = [] then some none else (IsoFormat.read completed).map some
  pure
    { jobId := row.jobId, project := row.project, model := row.model, status := row.status
      completion := row.completion, error := row.error, provider := row.provider
      usage := ⟨row.inputTokens, row.outputTokens, row.costUsd⟩, metadata := metadata
      submittedAt := submittedAt, completedAt := completedAt }

/-- `get`; the outer `none` stands for the error that it raises. -/
def getText (parseFloat : Text → Double) (jobId : Text) (t : TextTable) : Option (Option StoredJob) :=
  match t.find jobId with
  | none => some none
  | some row => (rowToStoredJob parseFloat row).map some

/-! ### The texts show the values -/

section Simulation

variable (py : Interpreter)

/-- The row as the store writes it. -/
def JobRow.written (row : JobRow) : TextRow where
  jobId := row.jobId
  project := row.project
  model := row.model
  status := row.status.text
  completion := row.completion
  error := row.error
  provider := row.provider
  inputTokens := row.inputTokens
  outputTokens := row.outputTokens
  costUsd := row.costUsd
  metadata := dumps py.floatText (.obj (Value.datumEntries row.metadata))
  submittedAt := row.submittedAt.isoformat
  completedAt := row.completedAt.map DateTime.isoformat

theorem JobRow.jobId_written (row : JobRow) : (row.written py).jobId = row.jobId := rfl

def Database.written (db : Database) : TextTable :=
  db.jobs.image (JobRow.jobId_written py)

/-- The two writes of a job's row. -/
inductive RowWrite where
  | insertPending (job : Job)
  | finalize (result : Result) (completedAt : DateTime)

/-- On the values, where each row keeps what its texts were written from. -/
def RowWrite.perform : RowWrite → Database → Except PyError Bool × Database
  | .insertPending job, db => db.perform (LlmBus.insertPending job)
  | .finalize result completedAt, db => db.perform (LlmBus.finalize result completedAt)

def RowWrite.outcomeText : RowWrite → TextTable → Except PyError (Bool × TextTable)
  | .insertPending job, t => insertPendingText py job t
  | .finalize result completedAt, t => finalizeText result completedAt t

/-- On the texts. -/
def RowWrite.performText (w : RowWrite) (t : TextTable) : Except PyError Bool × TextTable :=
  match w.outcomeText py t with
  | .error e => (.error e, t)
  | .ok (answer, t') => (.ok answer, t')

variable {py}

theorem bindText_of_ascii {s : Text} (h : asciiText s = true) : bindText s = .ok () := by
  rw [bindText, surrogateFree_of_asciiText h]
  rfl

theorem bindText_status (status : Status) : bindText status.text = .ok () :=
  bindText_of_ascii (by cases status <;> decide)

theorem bindText_isoformat (t : DateTime) : bindText t.isoformat = .ok () :=
  bindText_of_ascii (IsoFormat.asciiText_isoformat t)

theorem find_written (db : Database) (jobId : Text) :
    (db.written py).find jobId = (db.jobs.find jobId).map (JobRow.written py) :=
  KeyedTable.find_image _ db.jobs jobId

theorem ok_bind {ε α β : Type} (a : α) (f : α → Except ε β) : (Except.ok a >>= f) = f a := rfl

theorem insertPendingText_written {job : Job} (hDump : Value.dumpFailureEntries job.metadata = none)
    (db : Database) :
    insertPendingText py job (db.written py) =
      (insertJob job.jobId.text job.project job.model job.metadata job.submittedAt db).map
        fun out => (wroteOne out.1, out.2.written py) := by
  have hMeta : bindText (dumps py.floatText (.obj (Value.datumEntries job.metadata))) = .ok () :=
    bindText_of_ascii (asciiText_dumps py.floatText_ascii _)
  rw [insertPendingText, jsonDumps, hDump]
  simp only [insertJob, bindAll, bindText_status, ok_bind, hMeta, bindText_isoformat, find_written]
  cases bindText job.jobId.text with
  | error e => rfl
  | ok _ =>
    cases bindText job.project with
    | error e => rfl
    | ok _ =>
      cases bindOptional job.model with
      | error e => rfl
      | ok _ =>
        cases job.model with
        | none => rfl
        | some model =>
          simp only [ok_bind]
          cases hFind : db.jobs.find job.jobId.text with
          | some row => rfl
          | none =>
            have hInsert := KeyedTable.image_insertNew (JobRow.jobId_written py) db.jobs
              (pendingRow job.jobId.text job.project model job.metadata job.submittedAt)
            exact congrArg (fun t => Except.ok (true, t)) hInsert.symm

theorem finalizeText_written (result : Result) (completedAt : DateTime) (db : Database) :
    finalizeText result completedAt (db.written py) =
      (finalizeJob result completedAt db).map fun out => (wroteOne out.1, out.2.written py) := by
  have hJobId : bindText result.jobId.text = .ok () := bindText_of_ascii (Uuid.asciiText_text _)
  simp only [finalizeText, finalizeJob, bindResult, bindText_status, bindText_isoformat, hJobId,
    ok_bind, find_written]
  cases bindOptional result.completion with
  | error e => rfl
  | ok _ =>
  cases bindOptional result.error with
  | error e => rfl
  | ok _ =>
  cases bindOptional result.provider with
  | error e => rfl
  | ok _ =>
  cases bindInteger result.usage.inputTokens with
  | error e => rfl
  | ok _ =>
  cases bindInteger result.usage.outputTokens with
  | error e => rfl
  | ok _ =>
  simp only [ok_bind]
  cases hFind : db.jobs.find result.jobId.text with
  | none => rfl
  | some row =>
    have hStatus : ((row.written py).status = Status.text .pending) ↔ row.status = .pending :=
      Status.text_eq_pending_iff
    simp only [Option.map_some, hStatus]
    by_cases hPending : row.status = .pending
    · simp only [hPending, if_true]
      cases notNull "jobs.cost_usd" result.usage.costUsd with
      | error e => rfl
      | ok _ =>
        have hUpdate := KeyedTable.image_update (JobRow.jobId_written py) db.jobs result.jobId.text
          (JobRow.jobId_finalize result completedAt) (TextRow.jobId_finalize result completedAt.isoformat)
          fun _ => rfl
        exact congrArg (fun t => Except.ok (true, t)) hUpdate.symm
    · simp only [hPending, if_false]
      rfl

/-- One write on the texts is the same write on the values. -/
theorem performText_written (w : RowWrite) (db : Database) :
    w.performText py (db.written py) = ((w.perform db).1, (w.perform db).2.written py) := by
  cases w with
  | insertPending job =>
    rw [RowWrite.performText, RowWrite.outcomeText, RowWrite.perform, Database.perform,
      LlmBus.insertPending]
    cases hDump : Value.dumpFailureEntries job.metadata with
    | some e =>
      rw [insertPendingText, jsonDumps, hDump]
      rfl
    | none =>
      simp only
      rw [insertPendingText_written hDump, Transaction.atomically_single rfl]
      simp only [storeDialect, Statement.apply]
      cases insertJob job.jobId.text job.project job.model job.metadata job.submittedAt db with
      | error e => rfl
      | ok out => rfl
  | finalize result completedAt =>
    rw [RowWrite.performText, RowWrite.outcomeText, RowWrite.perform, Database.perform,
      LlmBus.finalize, finalizeText_written, Transaction.atomically_single rfl]
    simp only [storeDialect, Statement.apply]
    cases finalizeJob result completedAt db with
    | error e => rfl
    | ok out => rfl

theorem simulation_written :
    Simulation (RowWrite.performText py) RowWrite.perform (fun t db => t = db.written py)
      fun _ => True where
  answer w t db _ h := by rw [h, performText_written]
  next w t db _ h := by rw [h, performText_written]

end Simulation

/-! ### Every row can be read -/

section Reading

variable {py : Interpreter} {parseFloat : Text → Double}

/-- The row as it is read back. -/
def JobRow.recovered (row : JobRow) : StoredJob where
  jobId := row.jobId
  project := row.project
  model := row.model
  status := row.status.text
  completion := row.completion
  error := row.error
  provider := row.provider
  usage := ⟨row.inputTokens, row.outputTokens, row.costUsd⟩
  metadata := (Value.dict row.metadata).joined
  submittedAt := row.submittedAt
  completedAt := row.completedAt

/-- Metadata that `json.dumps` has written, and whose floats can be read. -/
structure Recoverable (floatText : Double → Text) (parseFloat : Text → Double) (metadata : Entries) :
    Prop where
  dumped : Value.dumpFailureEntries metadata = none
  floats : Value.FloatsReadEntries floatText parseFloat metadata
  keyed : (Value.dict metadata).keyed = true

theorem jsonLoads_dumps {entries : Entries} (hDump : Value.dumpFailureEntries entries = none)
    (hFloats : Value.FloatsReadEntries py.floatText parseFloat entries) :
    jsonLoads parseFloat (dumps py.floatText (.obj (Value.datumEntries entries))) =
      some (Value.dict entries).joined := by
  have hLegible : (Datum.obj (Value.datumEntries entries)).Legible py.floatText parseFloat :=
    Value.legible_datumEntries entries hDump hFloats
  have hWhole : (Value.dict entries).dumpFailure = none := hDump
  rw [jsonLoads, loads_dumps hLegible, Option.map_some]
  exact congrArg some (Value.ofDatum_joined_datum (.dict entries) hWhole)

theorem isoformat_ne_nil (t : DateTime) : t.isoformat ≠ [] := by
  intro hNil
  have hDay := t.take_isoformat
  have hLength := isoDate_length t.date
  rw [← hDay, hNil] at hLength
  cases hLength

theorem rowToStoredJob_written {row : JobRow}
    (h : Recoverable py.floatText parseFloat row.metadata) :
    rowToStoredJob parseFloat (row.written py) = some row.recovered := by
  rw [rowToStoredJob]
  simp only [JobRow.written, jsonLoads_dumps h.dumped h.floats, IsoFormat.read_isoformat, Option.bind_eq_bind,
    Option.bind_some]
  cases hCompleted : row.completedAt with
  | none =>
    rw [JobRow.recovered, hCompleted]
    rfl
  | some completed =>
    simp only [Option.map_some, if_neg (isoformat_ne_nil completed), IsoFormat.read_isoformat]
    rw [JobRow.recovered, hCompleted]
    rfl

/-- Every row of the table has such metadata. -/
def RowsHold (P : Entries → Prop) (db : Database) : Prop :=
  ∀ jobId row, db.jobs.find jobId = some row → P row.metadata

/-- The metadata that a write brings in. -/
def RowWrite.Brings (P : Entries → Prop) : RowWrite → Prop
  | .insertPending job => Value.dumpFailureEntries job.metadata = none → P job.metadata
  | .finalize .. => True

/-- Metadata that `json.dumps` refuses reaches no table. -/
theorem perform_undumped (db : Database) {job : Job} {e : PyError}
    (hDump : Value.dumpFailureEntries job.metadata = some e) :
    db.perform (LlmBus.insertPending job) = (.error e, db) := by
  rw [Database.perform, LlmBus.insertPending]
  simp only [hDump]
  rfl

theorem dumped_of_inserted {db db' : Database} {job : Job} {answer : Bool}
    (hPerform : db.perform (LlmBus.insertPending job) = (.ok answer, db')) :
    Value.dumpFailureEntries job.metadata = none := by
  cases hDump : Value.dumpFailureEntries job.metadata with
  | none => rfl
  | some e =>
    rw [perform_undumped db hDump] at hPerform
    exact absurd (Prod.mk.inj hPerform).1 (fun hEq => by cases hEq)

theorem RowsHold.insertNew {P : Entries → Prop} {db : Database} {row : JobRow} (hRow : P row.metadata)
    (h : RowsHold P db) : RowsHold P { db with jobs := db.jobs.insertNew row } := by
  intro jobId found hFound
  obtain hBefore | rfl := KeyedTable.mem_insertNew hFound
  · exact h jobId found hBefore
  · exact hRow

theorem RowsHold.update {P : Entries → Prop} {db : Database} {jobId : Text} {f : JobRow → JobRow}
    {hf : ∀ row, (f row).jobId = row.jobId} (hKept : ∀ row, (f row).metadata = row.metadata)
    (h : RowsHold P db) : RowsHold P { db with jobs := db.jobs.update jobId f hf } := by
  intro other found hFound
  obtain ⟨before, hBefore, rfl | rfl⟩ := KeyedTable.mem_update hf hFound
  · exact h other found hBefore
  · rw [hKept]
    exact h other before hBefore

theorem RowsHold.perform {P : Entries → Prop} {w : RowWrite} {db : Database} (hBrings : w.Brings P)
    (h : RowsHold P db) : RowsHold P (w.perform db).2 := by
  cases w with
  | insertPending job =>
    change RowsHold P (db.perform (LlmBus.insertPending job)).2
    obtain ⟨e, hPerform⟩ | ⟨row, _, hPerform⟩ | ⟨model, _, _, hPerform⟩ :=
      perform_insertPending_cases db job
    · rw [congrArg Prod.snd hPerform]
      exact h
    · rw [congrArg Prod.snd hPerform]
      exact h
    · rw [congrArg Prod.snd hPerform]
      exact h.insertNew (hBrings (dumped_of_inserted hPerform))
  | finalize result completedAt =>
    change RowsHold P (db.perform (LlmBus.finalize result completedAt)).2
    obtain ⟨_, e, hPerform⟩ | ⟨_, _, hPerform⟩ | ⟨_, _, hPerform⟩ :=
      perform_finalize_cases db result completedAt
    · rw [congrArg Prod.snd hPerform]
      exact h
    · rw [congrArg Prod.snd hPerform]
      exact h
    · rw [congrArg Prod.snd hPerform]
      exact h.update fun _ => rfl

theorem RowsHold.after {P : Entries → Prop} {writes : List RowWrite} (hBrings : ∀ w ∈ writes, w.Brings P)
    {db : Database} (h : RowsHold P db) : RowsHold P (after RowWrite.perform db writes) := by
  induction writes generalizing db with
  | nil => exact h
  | cons w rest ih =>
    obtain ⟨hFirst, hRest⟩ := List.forall_mem_cons.mp hBrings
    exact ih hRest (h.perform hFirst)

end Reading

/-- The store on texts answers every sequence of writes as the store on values does, and then reads
every job: without raising, and as it was written, but for metadata in whose strings the two halves
of a pair stand side by side. Metadata is made of JSON's own values, NaN left out. -/
theorem stored_texts_round_trip (py : Interpreter) (parseFloat : Text → Double)
    (writes : List RowWrite)
    (hMetadata : ∀ job, .insertPending job ∈ writes →
      Value.FloatsReadEntries py.floatText parseFloat job.metadata ∧
        (Value.dict job.metadata).keyed = true ∧ Value.nanFreeEntries job.metadata = true) :
    let texts := after (RowWrite.performText py) KeyedTable.empty writes
    let values := after RowWrite.perform Database.empty writes
    outcomes (RowWrite.performText py) KeyedTable.empty writes =
        outcomes RowWrite.perform Database.empty writes ∧
      ∀ jobId, getText parseFloat jobId texts = some ((values.get jobId).map JobRow.recovered) ∧
        ∀ row, values.get jobId = some row →
          (row.recovered.metadata = .dict row.metadata ↔ Value.hasPairEntries row.metadata = false) := by
  intro texts values
  have hEmpty : (KeyedTable.empty : TextTable) = Database.empty.written py := rfl
  have hTexts : texts = values.written py :=
    simulation_written.after (fun _ _ => trivial) hEmpty
  have hRows : RowsHold (Recoverable py.floatText parseFloat) values := by
    refine RowsHold.after (fun w hMem => ?_) fun jobId row hRow => ?_
    · cases w with
      | insertPending job =>
        exact fun hDump => ⟨hDump, (hMetadata job hMem).1, (hMetadata job hMem).2.1⟩
      | finalize result completedAt => trivial
    · cases hRow
  refine ⟨simulation_written.outcomes_eq (fun _ _ => trivial) hEmpty, fun jobId => ⟨?_, ?_⟩⟩
  · rw [hTexts, getText, find_written, Database.get]
    cases hFind : values.jobs.find jobId with
    | none => rfl
    | some row =>
      simp only [Option.map_some, rowToStoredJob_written (hRows jobId row hFind)]
  · intro row hRow
    exact Value.joined_eq_self_iff (.dict row.metadata) (hRows jobId row hRow).keyed

/-- A job whose note ends in the two halves of one character. -/
def halvedJob : Job :=
  { plainJob with metadata := [(txt "note", .str [0x68, 0xD83D, 0xDE00]), (txt "tries", .int 3)] }

def halvedWrites : List RowWrite :=
  [.insertPending halvedJob,
    .finalize ⟨⟨0⟩, .error, none, .zero, none, some (txt "refused"), []⟩ (.startOf newYear2026)]

theorem stored_texts_round_trip_halved :
    getText (fun _ => .finite 0) (⟨0⟩ : JobId).text
        (after (RowWrite.performText .ascii) KeyedTable.empty halvedWrites) =
      some (((after RowWrite.perform Database.empty halvedWrites).get (⟨0⟩ : JobId).text).map
        JobRow.recovered) := by
  refine ((stored_texts_round_trip .ascii (fun _ => .finite 0) halvedWrites ?_).2 _).1
  intro job hMem
  have hJob : job = halvedJob := by
    simpa [halvedWrites] using hMem
  rw [hJob]
  exact ⟨⟨trivial, trivial, trivial⟩, by decide, by decide⟩

end LlmBus
