import LlmBus.AtLeastOnce
import LlmBus.Foundation.Polling

/-! # Waiting for a result

The loop of `poll_result`, which `await_result` runs over the client's own store, while the
rest of the bus goes on. A read of the row and a reading of the clock are instants of their
own.
-/

namespace LlmBus

open Foundation Interaction Concurrency JobTable Polling

def JobRow.isTerminal (stored : JobRow) : Bool :=
  stored.status ≠ .pending

/-- The `Literal` that a result requires. -/
def Status.outcome : Status → Option Outcome
  | .pending => none
  | .ok => some .ok
  | .error => some .error

theorem exists_outcome {status : Status} (h : status ≠ .pending) :
    ∃ outcome, status.outcome = some outcome := by
  cases status with
  | pending => exact absurd rfl h
  | ok => exact ⟨.ok, rfl⟩
  | error => exact ⟨.error, rfl⟩

def resultFromStored (py : Interpreter) (stored : JobRow) : Except PyError Result :=
  match Uuid.parse py stored.jobId, stored.status.outcome with
  | some jobId, some status => .ok
    { jobId := jobId
      status := status
      completion := stored.completion
      usage := ⟨stored.inputTokens, stored.outputTokens, stored.costUsd⟩
      provider := stored.provider
      error := stored.error
      metadata := stored.metadata }
  | _, _ => .error ⟨.validationError, txt "validation error for Result"⟩

inductive Polled where
  | returned (result : Result)
  | timedOut (message : Text)
  | raised (e : PyError)

/-- `asyncio.sleep` -/
def pauseOf (delayS : Double) : Pause :=
  match delayS with
  | .nan => .raises
  | .posInf => .never
  | _ => .ends

section Loop

variable {ι : Type} [LinearOrder ι] (py : Interpreter) (store : ι → Database) (clock : ι → ℚ)
  (turns : Turns ι) (jobId : Text) (timeoutS pollIntervalS : Double)

/-- `time.monotonic() + timeout_s` at the start of the call. -/
def pollDeadline : Double :=
  (Double.finite (clock turns.start)).add timeoutS

def readTerminal (i : ι) : Option JobRow :=
  ((store i).get jobId).filter JobRow.isTerminal

def isPast (i : ι) : Bool :=
  (pollDeadline clock turns timeoutS).le (.finite (clock i))

def pollAnswer : Ending JobRow → Polled
  | .found stored =>
    match resultFromStored py stored with
    | .ok result => .returned result
    | .error e => .raised e
  | .late => .timedOut (txt "no terminal result for job " ++ jobId ++ txt " after " ++
      py.floatText timeoutS ++ txt "s")
  | .failed => .raised ⟨.valueError, txt "Invalid delay: NaN (not a number)"⟩

def pollResult (fuel : ℕ) : Option Polled :=
  (poll (readTerminal store jobId) (isPast clock turns timeoutS) (pauseOf pollIntervalS) turns
    fuel 0).map (pollAnswer py jobId timeoutS)

/-- How the call ends. -/
def PollsTo (polled : Polled) : Prop :=
  ∃ fuel, pollResult py store clock turns jobId timeoutS pollIntervalS fuel = some polled

variable {py store clock turns jobId timeoutS pollIntervalS}

theorem pollsTo_iff {polled : Polled} :
    PollsTo py store clock turns jobId timeoutS pollIntervalS polled ↔
      ∃ ending, Ends (readTerminal store jobId) (isPast clock turns timeoutS) (pauseOf pollIntervalS)
        turns ending ∧ pollAnswer py jobId timeoutS ending = polled := by
  simp only [PollsTo, pollResult, Option.map_eq_some_iff, Ends]
  constructor
  · rintro ⟨fuel, ending, hPoll, hAnswer⟩
    exact ⟨ending, ⟨fuel, hPoll⟩, hAnswer⟩
  · rintro ⟨ending, ⟨fuel, hPoll⟩, hAnswer⟩
    exact ⟨fuel, ending, hPoll, hAnswer⟩

theorem PollsTo.unique {polled polled' : Polled}
    (h : PollsTo py store clock turns jobId timeoutS pollIntervalS polled)
    (h' : PollsTo py store clock turns jobId timeoutS pollIntervalS polled') : polled = polled' := by
  obtain ⟨ending, hEnds, rfl⟩ := pollsTo_iff.mp h
  obtain ⟨ending', hEnds', rfl⟩ := pollsTo_iff.mp h'
  rw [hEnds.unique hEnds']

omit [LinearOrder ι] in
theorem readTerminal_eq_some_iff {i : ι} {row : JobRow} :
    readTerminal store jobId i = some row ↔
      (store i).jobs.find jobId = some row ∧ row.status ≠ .pending := by
  simp [readTerminal, Database.get, JobRow.isTerminal, Option.filter_eq_some_iff]

theorem pollAnswer_eq_returned_iff {ending : Ending JobRow} {result : Result} :
    pollAnswer py jobId timeoutS ending = .returned result ↔
      ∃ stored, ending = .found stored ∧ resultFromStored py stored = .ok result := by
  cases ending with
  | found stored =>
    cases hResult : resultFromStored py stored with
    | ok other => simp [pollAnswer, hResult]
    | error e => simp [pollAnswer, hResult]
  | late => simp [pollAnswer]
  | failed => simp [pollAnswer]

theorem pollsTo_returned_iff {result : Result} :
    PollsTo py store clock turns jobId timeoutS pollIntervalS (.returned result) ↔
      ∃ stored, Ends (readTerminal store jobId) (isPast clock turns timeoutS) (pauseOf pollIntervalS)
        turns (.found stored) ∧ resultFromStored py stored = .ok result := by
  simp only [pollsTo_iff, pollAnswer_eq_returned_iff]
  constructor
  · rintro ⟨_, hEnds, stored, rfl, hResult⟩
    exact ⟨stored, hEnds, hResult⟩
  · rintro ⟨stored, hEnds, hResult⟩
    exact ⟨_, hEnds, stored, rfl, hResult⟩

/-- A result comes from a row that was terminal when it was read. -/
theorem PollsTo.terminal_of_returned {result : Result}
    (h : PollsTo py store clock turns jobId timeoutS pollIntervalS (.returned result)) :
    ∃ k row, (store (turns.look k)).jobs.find jobId = some row ∧ row.status ≠ .pending ∧
      resultFromStored py row = .ok result := by
  obtain ⟨row, hEnds, hResult⟩ := pollsTo_returned_iff.mp h
  obtain ⟨k, hReady⟩ := hEnds.look_of_found
  obtain ⟨hRow, hStatus⟩ := readTerminal_eq_some_iff.mp hReady
  exact ⟨k, row, hRow, hStatus, hResult⟩

end Loop

/-! ### The bus meanwhile -/

/-- The bus through time: where it is at each instant has been reached, and is where it goes
on from. -/
structure Timeline (pyd : Pydantic) (py : Interpreter) (power : Power) (ι : Type) [LinearOrder ι] where
  bus : ι → BusConfig pyd py power
  reached : ∀ i, BusConfig.Reaches (.empty pyd py power) (bus i)
  later : ∀ i j, i ≤ j → BusConfig.Reaches (bus i) (bus j)

section Timeline

variable {pyd : Pydantic} {py : Interpreter} {power : Power} {ι : Type} [LinearOrder ι]

def Timeline.store (T : Timeline pyd py power ι) (i : ι) : Database :=
  (T.bus i).state.db

variable (T : Timeline pyd py power ι) {clock : ι → ℚ} {turns : Turns ι} {jobId : Text}
  {timeoutS pollIntervalS : Double}

theorem Timeline.grows {i j : ι} (h : i ≤ j) : Grows (T.store i).jobs (T.store j).jobs :=
  (evolves_of_bus_reaches (T.reached i) (T.later i j h)).jobs

theorem Timeline.find_of_terminal {i j : ι} {row : JobRow} (h : i ≤ j)
    (hRow : (T.store i).jobs.find jobId = some row) (hTerminal : row.status ≠ .pending) :
    (T.store j).jobs.find jobId = some row := by
  obtain ⟨row', hRow', hBecomes⟩ := T.grows h _ row hRow
  rw [hBecomes.terminal hTerminal] at hRow'
  exact hRow'

theorem Timeline.stable_readTerminal : Stable (readTerminal T.store jobId) := by
  intro i j row hLe hReady
  obtain ⟨hRow, hTerminal⟩ := readTerminal_eq_some_iff.mp hReady
  exact readTerminal_eq_some_iff.mpr ⟨T.find_of_terminal hLe hRow hTerminal, hTerminal⟩

/-- Rows are kept under canonical ids only. -/
theorem Timeline.canonical {i : ι} {row : JobRow} (hRow : (T.store i).jobs.find jobId = some row) :
    ∃ u : Uuid, jobId = u.text := by
  obtain ⟨_, job, _, hId⟩ := (sound_of_bus_reaches (T.reached i)).inv.rows.born _ row hRow
  exact ⟨job.jobId, hId.symm⟩

theorem Timeline.eq_text_of_find {i : ι} {row : JobRow} {u : Uuid}
    (hRow : (T.store i).jobs.find jobId = some row) (hParse : Uuid.parse py jobId = some u) :
    jobId = u.text := by
  obtain ⟨v, hId⟩ := T.canonical hRow
  rw [hId, Uuid.parse_text] at hParse
  rw [hId, Option.some.inj hParse]

theorem Timeline.exists_result {i : ι} {row : JobRow}
    (hRow : (T.store i).jobs.find jobId = some row) (hTerminal : row.status ≠ .pending) :
    ∃ result, resultFromStored py row = .ok result := by
  obtain ⟨u, hId⟩ := T.canonical hRow
  have hKey : row.jobId = u.text := (KeyedTable.key_of_find hRow).trans hId
  obtain ⟨status, hStatus⟩ := exists_outcome hTerminal
  simp only [resultFromStored, hKey, Uuid.parse_text, hStatus]
  exact ⟨_, rfl⟩

/-! ### A result that arrived in time -/

/-- The row is terminal at an instant at which the clock is not past the deadline. -/
def ArrivedInTime (store : ι → Database) (clock : ι → ℚ) (turns : Turns ι) (jobId : Text)
    (timeoutS : Double) (row : JobRow) : Prop :=
  ∃ i, (store i).jobs.find jobId = some row ∧ row.status ≠ .pending ∧
    (Double.finite (clock i)).le (pollDeadline clock turns timeoutS) = true

/-- At no turn is the deadline reached by the time the clock is read, where the read before it
missed the result; and the pauses end. -/
def NeverLate (store : ι → Database) (clock : ι → ℚ) (turns : Turns ι) (jobId : Text)
    (timeoutS pollIntervalS : Double) : Prop :=
  pauseOf pollIntervalS = .ends ∧
    ∀ k, ¬ Terminal (store (turns.look k)).jobs jobId →
      isPast clock turns timeoutS (turns.clock k) = false

omit [LinearOrder ι] in
theorem readTerminal_eq_none_iff {store : ι → Database} {i : ι} :
    readTerminal store jobId i = none ↔ ¬ Terminal (store i).jobs jobId := by
  rw [Option.eq_none_iff_forall_ne_some]
  simp only [ne_eq, readTerminal_eq_some_iff, Terminal, not_exists]

/-- A row that is terminal at some instant is what the call returns exactly when the first read
finds it so, or no turn is late. -/
theorem pollsTo_result_iff {i : ι} {row : JobRow} {result : Result}
    (hRow : (T.store i).jobs.find jobId = some row) (hTerminal : row.status ≠ .pending)
    (hResult : resultFromStored py row = .ok result) :
    PollsTo py T.store clock turns jobId timeoutS pollIntervalS (.returned result) ↔
      Terminal (T.store (turns.look 0)).jobs jobId ∨
        NeverLate T.store clock turns jobId timeoutS pollIntervalS := by
  have hReady : readTerminal T.store jobId i = some row :=
    readTerminal_eq_some_iff.mpr ⟨hRow, hTerminal⟩
  have hOnly : ∀ j row', readTerminal T.store jobId j = some row' → row' = row := by
    intro j row' hReady'
    cases le_total i j with
    | inl hLe => exact Option.some.inj (hReady'.symm.trans (T.stable_readTerminal _ _ _ hLe hReady))
    | inr hLe =>
      exact (Option.some.inj (hReady.symm.trans (T.stable_readTerminal _ _ _ hLe hReady'))).symm
  have hFirst : readTerminal T.store jobId (turns.look 0) = some row ↔
      Terminal (T.store (turns.look 0)).jobs jobId := by
    constructor
    · intro h
      exact ⟨row, readTerminal_eq_some_iff.mp h⟩
    · rintro ⟨row', hRow', hTerminal'⟩
      have h := readTerminal_eq_some_iff.mpr ⟨hRow', hTerminal'⟩
      rw [h, hOnly _ _ h]
  rw [NeverLate, ← hFirst]
  simp only [← readTerminal_eq_none_iff]
  refine Iff.trans ?_ (ends_found_iff T.stable_readTerminal hReady)
  rw [pollsTo_returned_iff]
  constructor
  · rintro ⟨stored, hEnds, _⟩
    obtain ⟨k, hLook⟩ := hEnds.look_of_found
    rwa [hOnly _ _ hLook] at hEnds
  · intro hEnds
    exact ⟨row, hEnds, hResult⟩

/-- Whatever arrives in time is returned, and nothing that was not terminal when read, exactly
when nothing arrives in time, or the first read finds it, or no turn is late. -/
theorem pollResult_in_time_iff (clock : ι → ℚ) (turns : Turns ι) (jobId : Text)
    (timeoutS pollIntervalS : Double) :
    ((∀ row, ArrivedInTime T.store clock turns jobId timeoutS row →
        ∃ result, resultFromStored py row = .ok result ∧
          PollsTo py T.store clock turns jobId timeoutS pollIntervalS (.returned result) ∧
            ∀ message, ¬ PollsTo py T.store clock turns jobId timeoutS pollIntervalS (.timedOut message)) ∧
      ∀ result, PollsTo py T.store clock turns jobId timeoutS pollIntervalS (.returned result) →
        ∃ k row, (T.store (turns.look k)).jobs.find jobId = some row ∧ row.status ≠ .pending ∧
          resultFromStored py row = .ok result) ↔
      (∀ row, ¬ ArrivedInTime T.store clock turns jobId timeoutS row) ∨
        Terminal (T.store (turns.look 0)).jobs jobId ∨
          NeverLate T.store clock turns jobId timeoutS pollIntervalS := by
  rw [and_iff_left fun result h => h.terminal_of_returned]
  constructor
  · intro hReturned
    by_cases hNone : ∀ row, ¬ ArrivedInTime T.store clock turns jobId timeoutS row
    · exact .inl hNone
    · obtain ⟨row, hArrived⟩ := not_forall_not.mp hNone
      obtain ⟨result, hResult, hPolls, _⟩ := hReturned row hArrived
      obtain ⟨i, hRow, hTerminal, _⟩ := hArrived
      exact .inr ((pollsTo_result_iff T hRow hTerminal hResult).mp hPolls)
  · rintro (hNone | hFound) row hArrived
    · exact absurd hArrived (hNone row)
    · obtain ⟨i, hRow, hTerminal, _⟩ := hArrived
      obtain ⟨result, hResult⟩ := T.exists_result hRow hTerminal
      have hPolls := (pollsTo_result_iff T hRow hTerminal hResult).mpr hFound
      exact ⟨result, hResult, hPolls, fun message hLate => nomatch hPolls.unique hLate⟩

/-! ### One id, one key -/

/-- The spelling that a job was built with finds its finished row, and one row for all spellings,
exactly when it is the canonical one. -/
theorem pollResult_keyed_iff (clock : ι → ℚ) (turns : Turns ι) (timeoutS pollIntervalS : Double)
    {s : Text} {job : Job} (hAccepted : Uuid.parse py s = some job.jobId) {row : JobRow}
    (hRow : (T.store turns.start).jobs.find job.jobId.text = some row)
    (hTerminal : row.status ≠ .pending) :
    ((∃ result, resultFromStored py row = .ok result ∧
        PollsTo py T.store clock turns s timeoutS pollIntervalS (.returned result)) ∧
      (∀ i, turns.start ≤ i → (T.store i).get s ≠ none) ∧
      ∀ i id row', turns.start ≤ i → (T.store i).get id = some row' →
        Uuid.parse py id = some job.jobId → row' = row) ↔
      s = job.jobId.text := by
  have hStays : ∀ i, turns.start ≤ i → (T.store i).jobs.find job.jobId.text = some row :=
    fun i hLe => T.find_of_terminal hLe hRow hTerminal
  constructor
  · rintro ⟨_, hPresent, _⟩
    obtain ⟨row', hFound⟩ := Option.ne_none_iff_exists'.mp (hPresent turns.start le_rfl)
    exact T.eq_text_of_find hFound hAccepted
  · intro hCanonical
    rw [hCanonical]
    refine ⟨?_, fun i hLe hNone => ?_, fun i id row' hLe hFound hParse => ?_⟩
    · obtain ⟨result, hResult⟩ := T.exists_result hRow hTerminal
      have hFirst : Terminal (T.store (turns.look 0)).jobs job.jobId.text :=
        ⟨row, hStays _ turns.start_le_look, hTerminal⟩
      exact ⟨result, hResult, (pollsTo_result_iff T hRow hTerminal hResult).mpr (.inl hFirst)⟩
    · rw [Database.get, hStays i hLe] at hNone
      cases hNone
    · rw [T.eq_text_of_find hFound hParse, Database.get, hStays i hLe] at hFound
      exact (Option.some.inj hFound).symm

end Timeline

/-! ### A job that finishes while its producer polls -/

def submitActions : List PlainAction :=
  .spawn (.submit plainJob) :: calmSteps 0 2

def deliverActions : List PlainAction :=
  .spawn (.deliver plainDeps anyFresh 0) :: calmSteps 1 7

theorem submitActions_run : (plainRun anything submitActions).isSome = true := by
  decide +kernel

def queued : PlainConfig :=
  (plainRun anything submitActions).get submitActions_run

theorem deliverActions_run : (queued.runActions anything deliverActions).isSome = true := by
  decide +kernel

def finished : PlainConfig :=
  (queued.runActions anything deliverActions).get deliverActions_run

theorem reaches_queued : BusConfig.Reaches (.empty .tree .ascii exactPower) queued :=
  reaches_of_runActions (fun _ _ _ => trivial) (Option.some_get submitActions_run).symm

theorem queued_reaches_finished : BusConfig.Reaches queued finished :=
  reaches_of_runActions (fun _ _ _ => trivial) (Option.some_get deliverActions_run).symm

theorem queued_pending :
    (queued.state.db.jobs.find plainJob.jobId.text).map (·.status) = some .pending := by
  decide +kernel

theorem finished_ok : (finished.state.db.jobs.find plainJob.jobId.text).map (·.status) = some .ok := by
  decide +kernel

/-- The job is finished between the first two instants. -/
def finishing : Timeline .tree .ascii exactPower ℕ where
  bus
    | 0 => queued
    | _ + 1 => finished
  reached
    | 0 => reaches_queued
    | _ + 1 => reaches_queued.trans queued_reaches_finished
  later
    | 0, 0, _ => .refl _
    | 0, _ + 1, _ => queued_reaches_finished
    | _ + 1, _ + 1, _ => .refl _

/-- The clock is read two instants after each look, and the next look follows at once. -/
def slowTurns : Turns ℕ where
  start := 0
  look k := 2 * k
  clock k := 2 * k + 2
  start_le_look := le_rfl
  look_le_clock k := by omega
  clock_le_look k := by omega
  progress i := ⟨i, by omega⟩

def seconds : ℕ → ℚ :=
  fun i => i

theorem deadline_reached : isPast seconds slowTurns (.finite 1) (slowTurns.clock 0) = true := by
  simp [isPast, pollDeadline, slowTurns, seconds]

/-- The row is terminal one second before the clock is read, and the call times out. -/
theorem pollResult_misses_result :
    (∃ row, ArrivedInTime finishing.store seconds slowTurns plainJob.jobId.text (.finite 1) row) ∧
      ∃ message, PollsTo .ascii finishing.store seconds slowTurns plainJob.jobId.text (.finite 1)
        (.finite (1 / 10)) (.timedOut message) := by
  constructor
  · obtain ⟨row, hRow, hOk⟩ := Option.map_eq_some_iff.mp finished_ok
    exact ⟨row, 1, hRow, by simp [hOk], by simp [pollDeadline, slowTurns, seconds]⟩
  · have hMissed : readTerminal finishing.store plainJob.jobId.text (slowTurns.look 0) = none := by
      rw [readTerminal_eq_none_iff]
      rintro ⟨row, hRow, hTerminal⟩
      have hPending := queued_pending
      rw [show queued.state.db.jobs.find plainJob.jobId.text = some row from hRow] at hPending
      exact hTerminal (Option.some.inj hPending)
    exact ⟨_, pollsTo_iff.mpr ⟨.late, ends_iff.mpr ⟨0, nofun, .late hMissed deadline_reached⟩, rfl⟩⟩

/-! ### A finished job under another spelling of its id -/

/-- The id of the job without its hyphens. -/
def bareId : Text :=
  List.replicate 32 0x30

def atEnd : Timeline .tree .ascii exactPower ℕ where
  bus _ := finished
  reached _ := reaches_queued.trans queued_reaches_finished
  later _ _ _ := .refl _

theorem parse_bareId : Uuid.parse .ascii bareId = some plainJob.jobId := by
  decide +kernel

theorem bareId_ne : bareId ≠ plainJob.jobId.text := by
  decide +kernel

theorem pollResult_misses_spelling :
    Uuid.parse .ascii bareId = some plainJob.jobId ∧
      Terminal (atEnd.store 0).jobs plainJob.jobId.text ∧ (atEnd.store 0).get bareId = none ∧
        ∃ message, PollsTo .ascii atEnd.store seconds slowTurns bareId (.finite 1)
          (.finite (1 / 10)) (.timedOut message) := by
  have hAbsent : ∀ i, (atEnd.store i).get bareId = none := by
    intro i
    by_contra hPresent
    obtain ⟨row, hRow⟩ := Option.ne_none_iff_exists'.mp hPresent
    exact bareId_ne (atEnd.eq_text_of_find hRow parse_bareId)
  refine ⟨parse_bareId, ?_, hAbsent 0, ?_⟩
  · obtain ⟨row, hRow, hOk⟩ := Option.map_eq_some_iff.mp finished_ok
    exact ⟨row, hRow, by simp [hOk]⟩
  · have hMissed : readTerminal atEnd.store bareId (slowTurns.look 0) = none := by
      rw [readTerminal, hAbsent]
      rfl
    exact ⟨_, pollsTo_iff.mpr ⟨.late, ends_iff.mpr ⟨0, nofun, .late hMissed deadline_reached⟩, rfl⟩⟩

theorem pollResult_keyed_iff_canonical : ∃ result,
    PollsTo .ascii atEnd.store seconds slowTurns plainJob.jobId.text (.finite 1)
      (.finite (1 / 10)) (.returned result) := by
  obtain ⟨row, hRow, hOk⟩ := Option.map_eq_some_iff.mp finished_ok
  obtain ⟨⟨result, _, hPolls⟩, _⟩ := (pollResult_keyed_iff atEnd seconds slowTurns
    (.finite 1) (.finite (1 / 10)) (Uuid.parse_text .ascii plainJob.jobId) hRow (by simp [hOk])).mpr rfl
  exact ⟨result, hPolls⟩

end LlmBus
