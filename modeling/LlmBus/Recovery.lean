import LlmBus.AtLeastOnce
import LlmBus.JobRun

/-! # The backlog can always be worked off

Wherever the bus has got to, whatever was lost or half done on the way: one more delivery of
each submitted message, left alone, ends the jobs of all of them. The provider may decline
every call.
-/

namespace LlmBus

open Foundation Interaction Concurrency Discipline JobTable

variable {pyd : Pydantic} {py : Interpreter} {power : Power}

/-! ### A call that is declined -/

def declined : ProviderError :=
  ⟨txt "ValueError", false, none, txt "declined"⟩

/-- The provider declines for good; everything else goes well. -/
def decliningReply : (op : BusOp pyd) → op.Reply
  | .call .. => .error declined
  | op => calmReply op

theorem isRetryable_declined : isRetryable declined = false := by
  decide

section Declined

variable {deps : WorkerDeps} {job : Job} {t : Nat} {s : BusState pyd}

def CanEnd (job : Job) : Prop :=
  ∀ ttl, job.ttlS = some ttl → (deadline job ttl).isSome = true

abbrev declining (pyd : Pydantic) (py : Interpreter) (power : Power) (t : Nat) :=
  (busMachine pyd py power).alone t decliningReply

/-- An attempt that is declined comes to an error that can be stored, and asks the store for
nothing. -/
theorem run_runAttempt_declined (hEnd : CanEnd job) {model : Text} (hModel : job.model = some model)
    {provider : Provider} (hName : surrogateFree provider.name = true) (estimate attempt : Nat)
    (again : Option (Bus pyd Result)) :
    ∃ result, run (declining pyd py power t)
        (runAttempt py power deps job provider estimate attempt again) s = (.ok result, s) ∧
      Bindable result := by
  obtain ⟨expired, hExpired⟩ := exists_isExpired hEnd (.startOf newYear2026)
  have hNow : ∀ s : BusState pyd, declining pyd py power t s .now = (.startOf newYear2026, s) :=
    fun _ => rfl
  rw [runAttempt_eq, run_ask, hNow, hExpired, Program.ofExcept_ok, Program.ret_bind]
  cases expired with
  | true => exact ⟨_, rfl, bindable_expiredResult hName attempt⟩
  | false =>
    rw [if_neg Bool.false_ne_true, run_ask]
    change ∃ result, run (declining pyd py power t) (.ask .now _) s = _ ∧ _
    rw [run_ask, hNow, hExpired, Program.ofExcept_ok, Program.ret_bind, if_neg Bool.false_ne_true,
      callProvider_eq deps job hModel, Program.ask_bind, run_ask, Program.ret_bind]
    change ∃ result, run _ (afterCall py power deps job provider attempt again (.error declined)) s = _ ∧ _
    rw [afterCall_final _ _ _ _ _ _ (by rw [isRetryable_declined]; exact fun h => by cases h.1)]
    exact ⟨_, rfl, bindable_resultError hName (by decide)⟩

variable (py power t)

theorem run_jobResult_declined (deps : WorkerDeps) (hEnd : CanEnd job) :
    ∃ result, run (declining pyd py power t) (jobResult py power deps job) s = (.ok result, s) ∧
      Bindable result := by
  unfold jobResult
  cases hModel : job.model with
  | none => exact ⟨_, rfl, bindable_withoutProvider (by decide)⟩
  | some model =>
    simp only
    cases hRoute : providerFor model with
    | error e =>
      refine ⟨_, rfl, bindable_withoutProvider ?_⟩
      rw [surrogateFree_append, py.surrogateFree_repr]
      decide
    | ok name =>
      have hAscii := surrogateFree_of_asciiText (asciiText_of_providerFor hRoute)
      simp only [runRouted]
      cases hAdapter : deps.adapter name with
      | none =>
        refine ⟨_, rfl, bindable_resultError hAscii ?_⟩
        rw [surrogateFree_append, py.surrogateFree_repr]
        decide
      | some provider =>
        have hName : surrogateFree provider.name = true := by
          rw [WorkerDeps.name_of_adapter hAdapter]
          exact hAscii
        unfold callWithRetry
        cases deps.policy.retry.maxAttempts - 1 with
        | zero => exact run_runAttempt_declined hEnd hModel hName _ 0 none
        | succ retries => exact run_runAttempt_declined hEnd hModel hName _ 0 (some _)

/-! ### A delivery that is left alone -/

/-- The job is at its end, and nothing else of the store or the topic has changed. -/
structure EndsJob (id : Text) (s s' : BusState pyd) : Prop where
  terminal : Terminal s'.db.jobs id
  others : ∀ other, other ≠ id → s'.db.jobs.find other = s.db.jobs.find other
  topic : s'.topic = s.topic

theorem EndsJob.record {id : Text} {s' : BusState pyd} (h : EndsJob id s s') (t : Nat) (mark : Mark) :
    EndsJob id s (s'.record t mark) :=
  ⟨h.terminal, h.others, h.topic⟩

/-- The finalize wins, or somebody else's has. -/
theorem exists_finalize {result : Result} {row : JobRow} (hBindable : Bindable result)
    (hCost : result.usage.costUsd.isNan = false) (hRow : s.db.jobs.find result.jobId.text = some row)
    (completedAt : DateTime) :
    ∃ finalized s', declining pyd py power t s (.finalize result completedAt) = (.ok finalized, s') ∧
      EndsJob result.jobId.text s s' := by
  have hPerform : declining pyd py power t s (.finalize result completedAt) =
      s.write t (.ok true) (finalize result completedAt) fun wrote =>
        if wrote then some (.finalized result.jobId.text) else none := rfl
  rw [hPerform]
  simp only [BusState.write]
  rcases perform_finalize_cases s.db result completedAt with
    ⟨hRefused, _⟩ | ⟨_, hNone, hStep⟩ | ⟨_, ⟨row', hRow', hPending⟩, hStep⟩
  · exact absurd ⟨hBindable, fun _ => hCost⟩ hRefused
  · rw [hStep]
    exact ⟨false, s, rfl, terminal_of_not_awaited hRow hNone, fun _ _ => rfl, rfl⟩
  · rw [hStep]
    have hWon : EndsJob result.jobId.text s { s with db := { s.db with
        jobs := withResult s.db.jobs result.jobId.text result completedAt } } :=
      ⟨(terminal_withResult_iff hRow' hPending).mpr (.inl rfl), fun _ hNe => find_withResult_of_ne hNe,
        rfl⟩
    exact ⟨true, _, rfl, hWon.record t _⟩

theorem run_finalizeAndNotify_declined {result : Result} {row : JobRow} (hBindable : Bindable result)
    (hBilled : Billed py job result) (hRow : s.db.jobs.find job.jobId.text = some row) :
    ∃ s', run (declining pyd py power t) (finalizeAndNotify job result) s = (.ok result, s') ∧
      EndsJob job.jobId.text s s' := by
  have hClock : declining pyd py power t s .storeClock = (.startOf newYear2026, s) := rfl
  rw [← hBilled.jobId] at hRow ⊢
  obtain ⟨finalized, s', hFinalize, hEnds⟩ :=
    exists_finalize py power t hBindable hBilled.isNan hRow (.startOf newYear2026)
  rw [finalizeAndNotify_eq, run_ask, hClock, run_ask, hFinalize, Program.ofExcept_ok, Program.ret_bind]
  cases finalized with
  | false => exact ⟨s', rfl, hEnds⟩
  | true =>
    cases job.callbackUrl with
    | none => exact ⟨s', rfl, hEnds⟩
    | some url => exact ⟨_, rfl, hEnds.record t _⟩

theorem run_deliverMessage_declined (deps : WorkerDeps) {fresh : Fresh} {index : Nat}
    {payload : pyd.Payload} {row : JobRow}
    (hDecode : decodeJob py pyd fresh payload = .ok job) (hEnd : CanEnd job)
    (hRow : s.db.jobs.find job.jobId.text = some row) :
    ∃ s', run (declining pyd py power t) (deliverMessage py power deps fresh index payload) s =
        (.ok (), s') ∧
      EndsJob job.jobId.text s s' := by
  obtain ⟨result, hResult, hBindable⟩ :=
    run_jobResult_declined (s := s) py power t deps hEnd
  have hBilled : Billed py job result := by
    have hEvery := @every_jobResult pyd py power deps job
    have hRun := @run_of_every _ _ _ _ _ _ (declining pyd py power t) (fun _ => True) _ hEvery
      (fun _ _ _ _ => trivial) s trivial
    rw [hResult] at hRun
    exact hRun.2 result rfl
  obtain ⟨s', hFinalize, hEnds⟩ :=
    run_finalizeAndNotify_declined py power t hBindable hBilled hRow
  refine ⟨s'.record t (.committed index), ?_, hEnds.record t _⟩
  simp only [deliverMessage, consumeOne, hDecode, processJob, Program.bind_eq, run_bind, hResult,
    hFinalize]
  rfl

end Declined

/-! ### One message, and all of them -/

/-- Somebody can read the message, and the job's deadline can be computed. -/
def Envelope.CanEnd (py : Interpreter) (envelope : Envelope pyd) : Prop :=
  ∃ fresh job, decodeJob py pyd fresh envelope.payload = .ok job ∧ LlmBus.CanEnd job

/-- The message names the job. -/
def Envelope.Names (py : Interpreter) (envelope : Envelope pyd) (id : Text) : Prop :=
  ∃ fresh job, decodeJob py pyd fresh envelope.payload = .ok job ∧ job.jobId.text = id

/-- Only deliveries by the worker are started, only threads from number `first` on move, and the
provider declines whatever they ask of it. -/
def DeclinedDelivery (deps : WorkerDeps) (first : Nat) (_ : BusConfig pyd py power) :
    Action (busMachine pyd py power) → Prop
  | .spawn (.deliver worker _ _) => worker = deps
  | .spawn _ => False
  | .advance t proposal => first ≤ t ∧ proposal = decliningReply
  | .crash _ => False

variable {deps : WorkerDeps} {c : BusConfig pyd py power}

/-- What the deliveries that are left alone keep: the topic, the threads there were, and the
rows of every job that no message up to here names. -/
structure WorkedOff (deps : WorkerDeps) (c d : BusConfig pyd py power) (count : Nat) : Prop where
  runs : Runs (DeclinedDelivery deps c.fresh) c d
  topic : d.state.topic = c.state.topic
  fresh : c.fresh ≤ d.fresh
  threads : ∀ u < c.fresh, d.threads u = c.threads u
  others : ∀ id, (∀ envelope ∈ c.state.topic.take count, ¬ envelope.Names py id) →
    d.state.db.jobs.find id = c.state.db.jobs.find id
  settled : ∀ envelope ∈ c.state.topic.take count, envelope.submitted = true → envelope.CanEnd py →
    envelope.Settled py d.state.db.jobs

theorem WorkedOff.none (deps : WorkerDeps) (c : BusConfig pyd py power) : WorkedOff deps c c 0 where
  runs := .refl c
  topic := rfl
  fresh := Nat.le_refl _
  threads _ _ := rfl
  others _ _ := rfl
  settled _ hMem := absurd hMem List.not_mem_nil

theorem mem_take_succ {α : Type} {xs : List α} {count : Nat} {x a : α} (hAt : xs[count]? = some a) :
    x ∈ xs.take (count + 1) ↔ x ∈ xs.take count ∨ x = a := by
  rw [List.take_add_one, hAt, List.mem_append, Option.toList_some, List.mem_singleton]

/-- A message that nothing is asked of needs no delivery. -/
theorem WorkedOff.skip {d : BusConfig pyd py power} {count : Nat} {envelope : Envelope pyd}
    (h : WorkedOff deps c d count) (hAt : c.state.topic[count]? = some envelope)
    (hSkip : ¬ (envelope.submitted = true ∧ envelope.CanEnd py)) : WorkedOff deps c d (count + 1) where
  runs := h.runs
  topic := h.topic
  fresh := h.fresh
  threads := h.threads
  others id hNone := h.others id fun other hMem => hNone other ((mem_take_succ hAt).mpr (.inl hMem))
  settled other hMem hSubmitted hCan := by
    rcases (mem_take_succ hAt).mp hMem with hOld | rfl
    · exact h.settled other hOld hSubmitted hCan
    · exact absurd ⟨hSubmitted, hCan⟩ hSkip

/-- One more delivery, and the next message is settled as well. -/
theorem WorkedOff.deliver (hStart : BusConfig.Reaches (.empty pyd py power) c)
    {d : BusConfig pyd py power} {count : Nat} {envelope : Envelope pyd} (h : WorkedOff deps c d count)
    (hAt : c.state.topic[count]? = some envelope) (hSubmitted : envelope.submitted = true)
    (hCan : envelope.CanEnd py) : ∃ e, WorkedOff deps c e (count + 1) := by
  obtain ⟨fresh, job, hDecode, hEnd⟩ := hCan
  have hHere : d.state.topic[count]? = some envelope := h.topic ▸ hAt
  have hReached : BusConfig.Reaches (.empty pyd py power) d := hStart.trans h.runs.reaches
  have hTells := (sound_of_bus_reaches hReached).inv.told.tells envelope
    (List.mem_of_getElem? hHere) hSubmitted
  obtain ⟨row, hRow, _⟩ := hTells.decoded hDecode
  obtain ⟨s', hRun, hEnds⟩ := run_deliverMessage_declined py power d.fresh deps hDecode hEnd hRow
  have hBegin : (busMachine pyd py power).start d.state (.deliver deps fresh count) =
      some (deliverMessage py power deps fresh count envelope.payload) := by
    simp only [hHere, Option.map_some]
  have hSpawn : DeclinedDelivery deps c.fresh d (.spawn (.deliver deps fresh count)) := rfl
  have hAdvance : ∀ e : BusConfig pyd py power,
      DeclinedDelivery deps c.fresh e (.advance d.fresh decliningReply) := fun _ => ⟨h.fresh, rfl⟩
  obtain ⟨e, hLater, rfl, hFresh, _, hThreads⟩ := exists_runs_alone hSpawn hAdvance hBegin hRun
  have hGrows := (evolves_of_bus_reaches hReached hLater.reaches).jobs
  refine ⟨e, h.runs.trans hLater, hEnds.topic.trans h.topic, ?_, fun u hu => ?_, fun id hNone => ?_,
    fun other hMem hOther hCan => ?_⟩
  · rw [hFresh]
    exact Nat.le_succ_of_le h.fresh
  · exact (hThreads u (Nat.ne_of_lt (hu.trans_le h.fresh))).trans (h.threads u hu)
  · have hOther : id ≠ job.jobId.text := fun hSame =>
      hNone envelope ((mem_take_succ hAt).mpr (.inr rfl)) ⟨fresh, job, hDecode, hSame.symm⟩
    refine (hEnds.others id hOther).trans (h.others id fun other hMem => ?_)
    exact hNone other ((mem_take_succ hAt).mpr (.inl hMem))
  · rcases (mem_take_succ hAt).mp hMem with hOld | rfl
    · exact (h.settled other hOld hOther hCan).grows hGrows
    · exact (hTells.grows hGrows).settled_of_terminal hDecode hEnds.terminal

theorem exists_workedOff (hStart : BusConfig.Reaches (.empty pyd py power) c) (deps : WorkerDeps)
    (count : Nat) : ∃ d, WorkedOff deps c d count := by
  induction count with
  | zero => exact ⟨c, .none deps c⟩
  | succ count ih =>
    obtain ⟨d, h⟩ := ih
    cases hAt : c.state.topic[count]? with
    | none =>
      have hAll : c.state.topic.take (count + 1) = c.state.topic.take count := by
        rw [List.take_add_one, hAt, Option.toList_none, List.append_nil]
      exact ⟨d, h.runs, h.topic, h.fresh, h.threads, by rw [hAll]; exact h.others,
        by rw [hAll]; exact h.settled⟩
    | some envelope =>
      by_cases hDue : envelope.submitted = true ∧ envelope.CanEnd py
      · exact h.deliver hStart hAt hDue.1 hDue.2
      · exact ⟨d, h.skip hAt hDue⟩

/-- From every state of the bus, whatever threads are lost or stand still, deliveries by one
worker, whichever it is, all of whose calls are declined, bring every submitted job whose
deadline can be computed to its end, and change no other job. -/
theorem backlog_can_be_worked_off (hStart : BusConfig.Reaches (.empty pyd py power) c)
    (deps : WorkerDeps) :
    ∃ d, Runs (DeclinedDelivery deps c.fresh) c d ∧ d.state.topic = c.state.topic ∧
      (∀ u < c.fresh, d.threads u = c.threads u) ∧
      (∀ id, (∀ envelope ∈ c.state.topic, ¬ envelope.Names py id) →
        d.state.db.jobs.find id = c.state.db.jobs.find id) ∧
      ∀ envelope ∈ c.state.topic, envelope.submitted = true → envelope.CanEnd py →
        ∀ fresh job, decodeJob py pyd fresh envelope.payload = .ok job →
          Terminal d.state.db.jobs job.jobId.text := by
  obtain ⟨d, h⟩ := exists_workedOff hStart deps c.state.topic.length
  have hAll : c.state.topic.take c.state.topic.length = c.state.topic := List.take_length
  refine ⟨d, h.runs, h.topic, h.threads, hAll ▸ h.others, fun envelope hMem hSubmitted hCan => ?_⟩
  exact h.settled envelope (hAll.symm ▸ hMem) hSubmitted hCan hSubmitted

/-- A worker was lost in the middle of its call, and a second submit before its send. -/
def strandActions : List PlainAction :=
  .spawn (.submit calledJob) :: calmSteps 0 2 ++ .spawn (.deliver plainDeps anyFresh 0) ::
    calmSteps 1 3 ++ .crash 1 :: .spawn (.submit calledJob) :: calmSteps 2 1

theorem strandActions_run : (plainRun anything strandActions).isSome = true := by
  decide +kernel

def stranded : PlainConfig :=
  (plainRun anything strandActions).get strandActions_run

theorem reaches_stranded : BusConfig.Reaches (.empty .tree .ascii exactPower) stranded :=
  reaches_of_runActions (fun _ _ _ => trivial) (Option.some_get strandActions_run).symm

theorem backlog_can_be_worked_off_stranded :
    ∃ d, Runs (DeclinedDelivery plainDeps stranded.fresh) stranded d ∧ d.threads 2 = stranded.threads 2 ∧
      Terminal d.state.db.jobs calledJob.jobId.text := by
  obtain ⟨d, hRuns, _, hThreads, _, hSettled⟩ := backlog_can_be_worked_off reaches_stranded plainDeps
  refine ⟨d, hRuns, hThreads 2 (by decide +kernel), ?_⟩
  have hFirst : (stranded.state.topic[0]?.map fun envelope => (envelope.submitted,
      (decodeJob .ascii .tree anyFresh envelope.payload).toOption.map fun job =>
        (job.jobId.text, job.ttlS.isNone))) = some (true, some (calledJob.jobId.text, true)) := by
    decide +kernel
  obtain ⟨envelope, hAt, hBoth⟩ := Option.map_eq_some_iff.mp hFirst
  obtain ⟨hSubmitted, hRead⟩ := Prod.mk.inj hBoth
  obtain ⟨job, hJob, hSame⟩ := Option.map_eq_some_iff.mp hRead
  obtain ⟨hId, hTtl⟩ := Prod.mk.inj hSame
  have hDecode : decodeJob .ascii .tree anyFresh envelope.payload = .ok job := by
    cases hResult : decodeJob .ascii .tree anyFresh envelope.payload with
    | error e =>
      rw [hResult] at hJob
      cases hJob
    | ok job' =>
      rw [hResult] at hJob
      exact congrArg Except.ok (Option.some.inj hJob)
  have hEnd : CanEnd job := by
    intro ttl hSome
    rw [hSome] at hTtl
    cases hTtl
  rw [← hId]
  exact hSettled envelope (List.mem_of_getElem? hAt) hSubmitted ⟨anyFresh, job, hDecode, hEnd⟩ anyFresh
    job hDecode

end LlmBus
