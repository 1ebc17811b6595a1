import LlmBus.Conduct

/-! # Every run of the bus

What holds however producers and workers are interleaved, whatever is submitted or
delivered again, and wherever one of them is lost: the life of a row, and what a submitted
message says of it.
-/

namespace LlmBus

open Foundation Interaction Concurrency Discipline JobTable

variable {pyd : Pydantic} {py : Interpreter} {power : Power} {c d : BusConfig pyd py power}

def BusConfig.Reaches (c d : BusConfig pyd py power) : Prop :=
  Concurrency.Reaches (Always (busMachine pyd py power)) c d

theorem sound_of_bus_reaches (h : BusConfig.Reaches (.empty pyd py power) c) :
    (conduct pyd py power False).Sound c :=
  sound_of_reaches (h.mono fun _ _ _ hBilling => hBilling.elim)

theorem evolves_of_bus_reaches (h : BusConfig.Reaches (.empty pyd py power) c)
    (h' : BusConfig.Reaches c d) : c.state.Evolves d.state :=
  ((sound_of_bus_reaches h).reaches entriesSafe (h'.mono fun _ _ _ hBilling => hBilling.elim)).2

/-! ### The life of a row -/

/-- A thread about to make a callback has won the finalize, and nobody has called back before. -/
theorem callback_follows (hSound : (conduct pyd py power False).Sound c) {t : Nat} {url : Text}
    {result : Result} {k : (BusOp.deliverCallback url result : BusOp pyd).Reply → Bus pyd Unit}
    (hThread : c.threads t = some (.ask (.deliverCallback url result) k)) :
    Terminal c.state.db.jobs result.jobId.text ∧
      c.state.history.count (Mark.callsBackJob result.jobId.text) = 0 := by
  obtain ⟨hKeeps, _⟩ :=
    hSound.safe t _ hThread c.state (Rely.refl t _) hSound.inv nofun (.ok ())
  have hAfter : CallbacksFollow (c.state.history ++ [(t, .calledBack result.jobId.text)]) :=
    hKeeps.inv.callbacks
  constructor
  · have hWon := hAfter.after c.state.history t _ [] rfl _ rfl
    exact (hSound.inv.finalizes.terminal_iff _).mpr ⟨t, hWon⟩
  · have hOnce := hAfter.once result.jobId.text
    rw [Log.count_snoc_of_true (Mark.callsBackJob_iff.mpr rfl)] at hOnce
    omega

/-- Rows only become terminal, once, and keep what the first insert wrote; one finalize of a
job wins and only its delivery calls back, after that; a committed offset of a submitted job
means a terminal row; and the pending rows are the inserts less the finalizes. -/
theorem job_lifecycle (hStart : BusConfig.Reaches (.empty pyd py power) c) (hLater : c.Reaches d) :
    (∀ id row, c.state.db.jobs.find id = some row →
      ∃ row', d.state.db.jobs.find id = some row' ∧ row.Becomes row') ∧
    (∀ t job, (t, Mark.inserted job) ∈ c.state.history →
      ∃ row, d.state.db.jobs.find job.jobId.text = some row ∧ row.From job) ∧
    (∀ id row, d.state.db.jobs.find id = some row →
      ∃ t job, (t, Mark.inserted job) ∈ d.state.history ∧ job.jobId.text = id) ∧
    (∀ id, d.state.history.count (Mark.finalizesJob id) ≤ 1) ∧
    (∀ id, d.state.history.count (Mark.callsBackJob id) ≤ 1) ∧
    (∀ t url result k, d.threads t = some (.ask (.deliverCallback url result) k) →
      Terminal d.state.db.jobs result.jobId.text ∧
        d.state.history.count (Mark.callsBackJob result.jobId.text) = 0) ∧
    (∀ t index envelope fresh job, (t, Mark.committed index) ∈ d.state.history →
      d.state.topic[index]? = some envelope → envelope.submitted = true →
      decodeJob py pyd fresh envelope.payload = .ok job → Terminal d.state.db.jobs job.jobId.text) ∧
    d.state.db.pendingCount + d.state.history.count Mark.finalizes =
      d.state.history.count Mark.inserts := by
  have hSound := sound_of_bus_reaches (hStart.trans hLater)
  have hInv : Consistent py False d.state.db.jobs d.state.topic d.state.history := hSound.inv
  have hEvolves := evolves_of_bus_reaches hStart hLater
  refine ⟨hEvolves.jobs, ?_, hInv.rows.born, hInv.finalizes.once, hInv.callbacks.once,
    fun t url result k hThread => callback_follows hSound hThread, ?_, hInv.finalizes.pending⟩
  · intro t job hMem
    exact hInv.rows.inserted t job (hEvolves.history.subset hMem)
  · intro t index envelope fresh job hMem hAt hSubmitted hDecode
    obtain ⟨handled, hHandled, hSettled⟩ := hInv.committed t index hMem
    rw [hAt] at hHandled
    cases hHandled
    exact hSettled hSubmitted fresh job hDecode

/-! ### A job delivered twice -/

/-- Sends arrive, calls succeed and the clocks stand still. -/
def calmReply : (op : BusOp pyd) → op.Reply
  | .modelPolicy .. => .ok none
  | .insertPending _ => .ok true
  | .get _ => .ok none
  | .finalize .. => .ok true
  | .setModelPolicy .. => .ok ()
  | .publishWorkerPolicy .. => .ok ()
  | .storeClock => .startOf newYear2026
  | .sendMessages _ => ⟨true, .ok ()⟩
  | .place _ => ()
  | .storeOffset _ => .ok ()
  | .now => .startOf newYear2026
  | .acquire .. => .ok ()
  | .call .. => .ok ⟨txt "hi", 3, 4⟩
  | .rand => Draw.zero
  | .sleep _ => .ok ()
  | .deliverCallback .. => .ok ()

abbrev PlainAction := Action (busMachine .tree .ascii exactPower)

abbrev PlainConfig := BusConfig .tree .ascii exactPower

def calmSteps (t n : Nat) : List PlainAction :=
  List.replicate n (.advance t calmReply)

def calledJob : Job :=
  { plainJob with callbackUrl := some (txt "https://demo.test/hook") }

/-- Two deliveries of one message race for the finalize; the first is lost after its callback. -/
def raceActions : List PlainAction :=
  .spawn (.submit calledJob) :: calmSteps 0 2 ++
    .spawn (.deliver plainDeps anyFresh 0) :: .spawn (.deliver plainDeps anyFresh 0) ::
      calmSteps 1 4 ++ calmSteps 2 5 ++ calmSteps 1 3 ++ .crash 1 :: calmSteps 2 2

def plainRun (check : BusState .tree → BusOp .tree → Bool) (actions : List PlainAction) :
    Option PlainConfig :=
  (BusConfig.empty .tree .ascii exactPower).runActions check actions

def anything : BusState .tree → BusOp .tree → Bool :=
  fun _ _ => true

theorem raceActions_run : (plainRun anything raceActions).isSome = true := by
  decide +kernel

def raced : PlainConfig :=
  (plainRun anything raceActions).get raceActions_run

theorem reaches_raced : BusConfig.Reaches (.empty .tree .ascii exactPower) raced :=
  reaches_of_runActions (fun _ _ _ => trivial) (Option.some_get raceActions_run).symm

theorem job_lifecycle_raced :
    (∀ id, raced.state.history.count (Mark.finalizesJob id) ≤ 1) ∧
      (∀ id, raced.state.history.count (Mark.callsBackJob id) ≤ 1) ∧
      raced.state.db.pendingCount + raced.state.history.count Mark.finalizes =
        raced.state.history.count Mark.inserts := by
  obtain ⟨_, _, _, hFinalized, hCalledBack, _, _, hCounts⟩ := job_lifecycle reaches_raced (.refl _)
  exact ⟨hFinalized, hCalledBack, hCounts⟩

/-! ### What a submitted message says -/

/-- The message is a job with a row, of the row's model, and that model has a route; whoever
reads it goes to that route's provider. -/
def OnRecord (py : Interpreter) (jobs : JobTable) (payload : pyd.Payload) : Prop :=
  ∃ job row name, encodeJob pyd job = .ok payload ∧ jobs.find job.jobId.text = some row ∧
    job.model = some row.model ∧ providerFor row.model = .ok name ∧
    ∀ fresh received, decodeJob py pyd fresh payload = .ok received →
      received.jobId = job.jobId ∧ received.model = some row.model ∧
        ∀ power deps, (jobResult py power deps received : Bus pyd Result) =
          runRouted py power deps received name

theorem onRecord_of_tells (hSound : (conduct pyd py power False).Sound c) {envelope : Envelope pyd}
    (hTells : envelope.Tells py False c.state.db.jobs) :
    OnRecord py c.state.db.jobs envelope.payload := by
  obtain ⟨job, hEncode, row, hRow, hModel, _⟩ := hTells
  obtain ⟨name, hRoute⟩ := hSound.inv.rows.routed _ row hRow
  refine ⟨job, row, name, hEncode, hRow, hModel, hRoute, fun fresh received hDecode => ?_⟩
  obtain ⟨hId, hSame, _⟩ := decodeJob_encodeJob_keeps py pyd fresh job hEncode hDecode
  have hReceived : received.model = some row.model := hSame.trans hModel
  exact ⟨hId, hReceived, fun power deps => jobResult_eq_runRouted py power deps received hReceived hRoute⟩

/-- What `submit` is about to send, and what it has sent, is on record. -/
theorem submitted_on_record (h : BusConfig.Reaches (.empty pyd py power) c) :
    (∀ t payload k, c.threads t = some (.ask (.sendMessages payload) k) →
      OnRecord py c.state.db.jobs payload) ∧
    ∀ envelope ∈ c.state.topic, envelope.submitted = true →
      OnRecord py c.state.db.jobs envelope.payload := by
  have hSound := sound_of_bus_reaches h
  constructor
  · intro t payload k hThread
    obtain ⟨hKeeps, _⟩ :=
      hSound.safe t _ hThread c.state (Rely.refl t _) hSound.inv nofun ⟨true, .ok ()⟩
    have hTold : TopicTold py False c.state.db.jobs (c.state.topic ++ [⟨payload, true⟩]) :=
      hKeeps.inv.told
    exact onRecord_of_tells hSound
      (hTold.tells ⟨payload, true⟩ (List.mem_append_right _ (List.mem_singleton_self _)) rfl)
  · intro envelope hMem hSubmitted
    exact onRecord_of_tells hSound (hSound.inv.told.tells envelope hMem hSubmitted)

theorem submitted_on_record_raced : ∃ envelope, raced.state.topic[0]? = some envelope ∧
    OnRecord .ascii raced.state.db.jobs envelope.payload := by
  have hFirst : raced.state.topic[0]?.map (·.submitted) = some true := by decide +kernel
  obtain ⟨envelope, hAt, hSubmitted⟩ := Option.map_eq_some_iff.mp hFirst
  exact ⟨envelope, hAt,
    (submitted_on_record reaches_raced).2 envelope (List.mem_of_getElem? hAt) hSubmitted⟩

end LlmBus
