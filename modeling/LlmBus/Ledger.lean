import LlmBus.AtLeastOnce

/-! # The ledger and what was billed

A finished row is grouped under its own day, but priced from the message the worker got. The
two agree where every producer that places a job again dates it so that the price is the same.
-/

namespace LlmBus

open Foundation Interaction Concurrency JobTable

variable {pyd : Pydantic} {py : Interpreter} {power : Power} {c : BusConfig pyd py power}

/-- Every good row costs what its own tokens cost at its own model's rate on its own day, the
day it is grouped under. -/
theorem ledger_as_billed (h : Reaches (Agreeing py) (BusConfig.empty pyd py power) c) :
    ∀ id row, c.state.db.jobs.find id = some row → row.status = .ok →
      row.day = isoDate row.submittedAt.date ∧ Priced py row := by
  have hSound : (conduct pyd py power True).Sound c :=
    sound_of_reaches (h.mono fun _ _ hAgreeing _ => hAgreeing)
  have hInv : Consistent py True c.state.db.jobs c.state.topic c.state.history := hSound.inv
  intro id row hRow hOk
  exact ⟨row.day_eq, hInv.priced trivial id row hRow hOk⟩

/-! ### A job placed again after a failed send -/

def sonnetDeps : WorkerDeps where
  providers := [(anthropic, ⟨anthropic⟩)]
  policy := plainPolicy
  names := by simp

def lastOfAugust : Date :=
  ⟨2026, 8, 31, by decide⟩

/-- A job for the model whose price changes between the two days. -/
def sonnetJob (day : Date) : Job :=
  { plainJob with model := some (txt "claude-sonnet-5"), submittedAt := .startOf day }

def lostSend : (op : BusOp .tree) → op.Reply
  | .sendMessages _ => ⟨false, .error ⟨.brokerError, txt "disconnected"⟩⟩
  | op => calmReply op

/-- The first submit's send fails, the second is sent, and its message delivered. -/
def submittedTwice (first second : Job) : List PlainAction :=
  .spawn (.submit first) :: calmSteps 0 1 ++ .advance 0 lostSend ::
    .spawn (.submit second) :: calmSteps 1 3 ++ .spawn (.deliver sonnetDeps anyFresh 0) :: calmSteps 2 7

/-- No message of anybody else's, and a job placed again has the price of the row's day. -/
def pricedAlike (s : BusState .tree) : BusOp .tree → Bool
  | .place _ => false
  | .insertPending job => (s.db.jobs.find job.jobId.text).all fun row =>
      decide ((priceFor .ascii row.model job.submittedAt.date).toOption =
        (priceFor .ascii row.model row.submittedAt.date).toOption)
  | _ => true

theorem agreeing_of_pricedAlike (s : BusState .tree) (op : BusOp .tree) (h : pricedAlike s op = true) :
    Agreeing .ascii s op := by
  cases op with
  | place payload => cases h
  | insertPending job =>
    intro row hRow _ pricing hPricing
    rw [pricedAlike, hRow, Option.all_some, decide_eq_true_eq, hPricing, Except.toOption] at h
    cases hOwn : priceFor .ascii row.model row.submittedAt.date with
    | error e =>
      rw [hOwn] at h
      cases h
    | ok own =>
      rw [hOwn] at h
      exact congrArg Except.ok (Option.some.inj h).symm
  | _ => trivial

def lastDaysOfAugust : List PlainAction :=
  submittedTwice (sonnetJob lastOfAugust) (sonnetJob ⟨2026, 8, 30, by decide⟩)

theorem lastDaysOfAugust_run : (plainRun pricedAlike lastDaysOfAugust).isSome = true := by
  decide +kernel

def placedTwice : PlainConfig :=
  (plainRun pricedAlike lastDaysOfAugust).get lastDaysOfAugust_run

theorem ledger_as_billed_twice :
    ∃ row, placedTwice.state.db.jobs.find plainJob.jobId.text = some row ∧ row.status = .ok ∧
      row.day = isoDate row.submittedAt.date ∧ Priced .ascii row := by
  have hStatus : (placedTwice.state.db.jobs.find plainJob.jobId.text).map (·.status) = some .ok := by
    decide +kernel
  obtain ⟨row, hRow, hOk⟩ := Option.map_eq_some_iff.mp hStatus
  have hReaches : Reaches (Agreeing .ascii) (BusConfig.empty .tree .ascii exactPower) placedTwice :=
    reaches_of_runActions agreeing_of_pricedAlike (Option.some_get lastDaysOfAugust_run).symm
  exact ⟨row, hRow, hOk, ledger_as_billed hReaches _ row hRow hOk⟩

/-- The second submit is dated a day later, when the price has changed. -/
def retriedActions : List PlainAction :=
  submittedTwice (sonnetJob lastOfAugust) (sonnetJob firstOfSeptember)

/-- The day of the row, what it came to cost, and what that day asks for. -/
def billedAndDue (row : JobRow) : Status × Text × Double × Option ℚ :=
  (row.status, row.day, row.costUsd,
    (costUsd .ascii row.model row.inputTokens row.outputTokens row.submittedAt.date).toOption)

theorem retriedActions_row :
    ((plainRun anything retriedActions).bind fun c =>
        (c.state.db.jobs.find (sonnetJob lastOfAugust).jobId.text).map billedAndDue) =
      some (.ok, isoDate lastOfAugust, .finite (69 / 1000000), some (46 / 1000000)) := by
  decide +kernel

/-- The row of August costs what September asks for. -/
theorem ledger_misprices_retry : ∃ c : PlainConfig,
    BusConfig.Reaches (.empty .tree .ascii exactPower) c ∧
      ∃ id row, c.state.db.jobs.find id = some row ∧ row.status = .ok ∧
        row.day = isoDate lastOfAugust ∧ ¬ Priced .ascii row := by
  obtain ⟨c, hRun, hFound⟩ := Option.bind_eq_some_iff.mp retriedActions_row
  obtain ⟨row, hRow, hValues⟩ := Option.map_eq_some_iff.mp hFound
  simp only [billedAndDue, Prod.mk.injEq] at hValues
  obtain ⟨hOk, hDay, hBilled, hDue⟩ := hValues
  refine ⟨c, reaches_of_runActions (fun _ _ _ => trivial) hRun, _, row, hRow, hOk, hDay, ?_⟩
  rintro ⟨cost, hCost, hSame⟩
  rw [hCost] at hDue
  cases hDue
  rw [hBilled] at hSame
  have hAmount : (69 / 1000000 : ℚ) = 46 / 1000000 := Double.finite.inj hSame
  norm_num at hAmount

end LlmBus
