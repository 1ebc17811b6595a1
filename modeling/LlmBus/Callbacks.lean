import LlmBus.Foundation.Guarded
import LlmBus.Ledger
import LlmBus.Polling

/-! # The two ways a result is told

A callback carries the result that the delivery made from its message; whoever polls gets
what the row says. The row keeps the `meta` of the first insert, so the two can only differ
where a later message of the job has another one.
-/

namespace LlmBus

open Foundation Interaction Concurrency Discipline JobTable Polling

variable {pyd : Pydantic} {py : Interpreter} {power : Power}

/-- Messages come from `submit` only, and every `meta` is a JSON value. -/
def Placed : BusOp pyd → Prop
  | .place _ => False
  | .insertPending job => FiniteDict job.metadata
  | _ => True

/-- A job that asks for a callback and has no finished row has a `meta` that the wire does not
alter, and that of its row where it has one. -/
def Unaltered (s : BusState pyd) : BusOp pyd → Prop
  | .insertPending job => job.callbackUrl ≠ none →
      (∀ row, s.db.jobs.find job.jobId.text = some row → row.status = .pending) →
        keysFree job.metadata = true ∧
          ∀ row, s.db.jobs.find job.jobId.text = some row → job.metadata = row.metadata
  | _ => True

/-- The callback says what the row says, and the row is terminal. -/
def AsStored (py : Interpreter) (s : BusState pyd) : BusOp pyd → Prop
  | .deliverCallback _ result => ∃ row, s.db.jobs.find result.jobId.text = some row ∧
      row.status ≠ .pending ∧ resultFromStored py row = .ok result
  | _ => True

/-! ### What a message says of its row's `meta` -/

/-- The job has a row, and its own `meta` is the row's as far as a callback can show it. -/
def Retold (jobs : JobTable) (job : Job) : Prop :=
  ∃ row, jobs.find job.jobId.text = some row ∧
    (row.status = .pending → job.callbackUrl ≠ none →
      keysFree job.metadata = true ∧ job.metadata = row.metadata)

def Envelope.Retells (jobs : JobTable) (envelope : Envelope pyd) : Prop :=
  ∃ job, encodeJob pyd job = .ok envelope.payload ∧ FiniteDict job.metadata ∧ Retold jobs job

section Retold

variable {jobs jobs' : JobTable} {job job' : Job}

theorem Retold.grows (h : Retold jobs job) (hGrows : Grows jobs jobs') : Retold jobs' job := by
  obtain ⟨row, hRow, hSame⟩ := h
  obtain ⟨row', hRow', hBecomes⟩ := hGrows _ row hRow
  refine ⟨row', hRow', fun hPending hCallback => ?_⟩
  rw [hBecomes.metadata]
  exact hSame (hBecomes.pending hPending) hCallback

theorem Retold.congr (h : Retold jobs job) (hId : job'.jobId = job.jobId)
    (hMeta : job'.metadata = job.metadata) (hCallback : job'.callbackUrl = job.callbackUrl) :
    Retold jobs job' := by
  unfold Retold
  rw [hId, hMeta, hCallback]
  exact h

theorem Envelope.Retells.grows {envelope : Envelope pyd} (h : envelope.Retells jobs)
    (hGrows : Grows jobs jobs') : envelope.Retells jobs' := by
  obtain ⟨sent, hEncode, hMeta, hRetold⟩ := h
  exact ⟨sent, hEncode, hMeta, hRetold.grows hGrows⟩

theorem Envelope.Retells.decoded {envelope : Envelope pyd} (h : envelope.Retells jobs)
    {fresh : Fresh} (hDecode : decodeJob py pyd fresh envelope.payload = .ok job') :
    Retold jobs job' := by
  obtain ⟨sent, hEncode, hMeta, row, hRow, hSame⟩ := h
  have hId := (decodeJob_encodeJob_keeps py pyd fresh sent hEncode hDecode).1
  have hUrl := decodeJob_encodeJob_callbackUrl py pyd fresh sent hEncode hDecode
  refine ⟨row, by rw [hId]; exact hRow, fun hPending hCallback => ?_⟩
  rw [hUrl] at hCallback
  obtain ⟨hKeys, hRowMeta⟩ := hSame hPending hCallback
  rw [decodeJob_encodeJob_metadata py pyd fresh sent hEncode hDecode hMeta hKeys]
  exact ⟨hKeys, hRowMeta⟩

end Retold

/-! ### Storing a result and reading it back -/

theorem Outcome.outcome_status (outcome : Outcome) : outcome.status.outcome = some outcome := by
  cases outcome <;> rfl

/-- A row gives back the result it was finalized with, if that has the row's own `meta`. -/
theorem resultFromStored_finalize {row : JobRow} {result : Result} {completedAt : DateTime}
    (hId : row.jobId = result.jobId.text) (hMeta : result.metadata = row.metadata) :
    resultFromStored py (row.finalize result completedAt) = .ok result := by
  have hParse : Uuid.parse py row.jobId = some result.jobId := by
    rw [hId, Uuid.parse_text]
  simp only [resultFromStored, JobRow.finalize, hParse, result.status.outcome_status, ← hMeta]

theorem metadata_of_resultFromStored {row : JobRow} {result : Result}
    (h : resultFromStored py row = .ok result) : result.metadata = row.metadata := by
  unfold resultFromStored at h
  split at h
  · cases h
    rfl
  · cases h

theorem AsStored.evolves {s s' : BusState pyd} {op : BusOp pyd} (h : AsStored py s op)
    (hEvolves : s.Evolves s') : AsStored py s' op := by
  cases op with
  | deliverCallback url result =>
    obtain ⟨row, hRow, hTerminal, hResult⟩ := h
    obtain ⟨row', hRow', hBecomes⟩ := hEvolves.jobs _ row hRow
    rw [hBecomes.terminal hTerminal] at hRow'
    exact ⟨row, hRow', hTerminal, hResult⟩
  | _ => trivial

/-! ### The discipline -/

def retelling (pyd : Pydantic) (py : Interpreter) (power : Power) :
    Discipline (busMachine pyd py power) fun s op => Placed op ∧ Unaltered s op where
  Own := Unit
  blank := ()
  own _ _ := ()
  inv s := ∀ envelope ∈ s.topic, envelope.Retells s.db.jobs
  evolve := BusState.Evolves
  evolve_refl := .refl
  evolve_trans := .trans

section Steps

variable {t : Nat} {s s' : BusState pyd}

theorem retells_keeps (hInv : (retelling pyd py power).inv s) (hEvolves : s.Evolves s')
    (hTopic : s'.topic = s.topic) : (retelling pyd py power).Keeps t s s' where
  inv := by
    change ∀ envelope ∈ s'.topic, _
    rw [hTopic]
    exact fun envelope hMem => (hInv envelope hMem).grows hEvolves.jobs
  evolve := hEvolves
  own _ _ := rfl

theorem retells_append (hInv : (retelling pyd py power).inv s) {envelope : Envelope pyd}
    (hRetells : envelope.Retells s.db.jobs) :
    (retelling pyd py power).Keeps t s (s.append envelope) where
  inv other hMem := by
    cases List.mem_append.mp hMem with
    | inl hOld => exact hInv other hOld
    | inr hLast =>
      obtain rfl := List.mem_singleton.mp hLast
      exact hRetells
  evolve := evolves_append _
  own _ _ := rfl

theorem retells_write {α : Type} (hInv : (retelling pyd py power).inv s)
    (proposal : Except PyError α) {session : Session α}
    (hJobs : (s.db.perform session).2.jobs = s.db.jobs) :
    (retelling pyd py power).Keeps t s (s.write t proposal session fun _ => none).2 := by
  obtain ⟨db, hSame, hWrite⟩ := exists_write_eq s t proposal hJobs
  rw [hWrite]
  refine retells_keeps hInv (evolves_jobs ?_) rfl
  rw [hSame]
  exact .refl _

end Steps

/-! ### The producer -/

section Producer

variable {t : Nat} {s : BusState pyd} {β : Type} {job : Job}

theorem guarded_sendJob {f : Unit → Bus pyd β} (hMeta : FiniteDict job.metadata)
    (hRetold : Retold s.db.jobs job)
    (hf : ∀ s', (retelling pyd py power).Guarded (AsStored py) t (f ()) s') :
    (retelling pyd py power).Guarded (AsStored py) t ((sendJob job).bind f) s := by
  rw [sendJob_eq, Program.bind_assoc]
  apply guarded_ofExcept_bind
  intro payload hEncode
  apply guarded_ask (fun _ _ _ => trivial)
  intro s' hRely hInv _ sent reply after hPerform
  have hAfter : after = if Sent.placed sent then s'.append ⟨payload, true⟩ else s' :=
    (congrArg Prod.snd hPerform).symm
  refine ⟨?_, guarded_ofExcept_bind fun _ _ => hf _⟩
  cases hPlaced : Sent.placed sent with
  | true =>
    rw [hAfter, hPlaced, if_pos rfl]
    exact retells_append hInv ⟨job, hEncode, hMeta, hRetold.grows hRely.1.jobs⟩
  | false =>
    rw [hPlaced] at hAfter
    exact .of_eq hInv hAfter

/-- Taking over the model of the row leaves the `meta` as the caller has it. -/
theorem guarded_modelAlreadyOnRecord {f : Job → Bus pyd β} (hRetold : Retold s.db.jobs job)
    (hf : ∀ resolved s', resolved.metadata = job.metadata → Retold s'.db.jobs resolved →
      (retelling pyd py power).Guarded (AsStored py) t (f resolved) s') :
    (retelling pyd py power).Guarded (AsStored py) t ((modelAlreadyOnRecord job).bind f) s := by
  rw [modelAlreadyOnRecord_eq]
  apply guarded_ask (fun _ _ _ => trivial)
  intro s' hRely hInv _ proposal reply after hPerform
  have hSame : after = s' := (congrArg Prod.snd hPerform).symm.trans (read_snd s' _ _)
  subst hSame
  have hRetold' : Retold after.db.jobs job := hRetold.grows hRely.1.jobs
  refine ⟨.of_eq hInv rfl, ?_⟩
  beta_reduce
  rw [Program.bind_assoc]
  apply guarded_ofExcept_bind
  intro stored _
  cases stored with
  | none => exact hf _ _ rfl hRetold'
  | some row =>
    by_cases hModel : job.model = some row.model
    · simp only [hModel, if_true, Program.ret_bind]
      exact hf _ _ rfl hRetold'
    · simp only [hModel, if_false, Program.ret_bind]
      exact hf _ _ rfl (hRetold'.congr rfl rfl rfl)

theorem guarded_submit : (retelling pyd py power).Guarded (AsStored py) t
    ((submit py job : Bus pyd JobId).bind fun _ => .ret ()) s := by
  rw [submit_eq, Program.bind_assoc]
  refine guarded_bind_of_every (every_resolveModelName.imp fun op hOp => ?_) fun model _ => ?_
  · refine ⟨quiet_modelPolicy op hOp, fun _ => ?_⟩
    obtain ⟨project, kind, rfl⟩ := hOp
    trivial
  rw [Program.bind_assoc]
  apply guarded_ofExcept_bind
  intro name hRoute
  apply guarded_ask (fun _ _ _ => trivial)
  intro s' _ hInv hAllowed proposal reply after hPerform
  obtain ⟨hMeta, hUnaltered⟩ := hAllowed
  have hSend : ∀ resolved (s' : BusState pyd), resolved.metadata = job.metadata →
      Retold s'.db.jobs resolved → (retelling pyd py power).Guarded (AsStored py) t
        (((sendJob resolved).bind fun _ => .ret resolved.jobId).bind fun _ => .ret () : Bus pyd Unit)
        s' := by
    intro resolved s' hSame hRetold
    rw [Program.bind_assoc]
    refine guarded_sendJob ?_ hRetold fun _ => trivial
    rw [hSame]
    exact hMeta
  rcases perform_insertPending (t := t) (s := s') proposal with
    ⟨e, hReply⟩ | ⟨row, hRow, hReply⟩ | ⟨model', hModel, hNone, hReply⟩
  · cases hReply.symm.trans hPerform
    exact ⟨.of_eq hInv rfl, trivial⟩
  · cases hReply.symm.trans hPerform
    refine ⟨.of_eq hInv rfl, ?_⟩
    beta_reduce
    rw [Program.ofExcept_ok, Program.ret_bind, if_neg Bool.false_ne_true, Program.bind_assoc]
    refine guarded_modelAlreadyOnRecord ⟨row, hRow, fun hPending hCallback => ?_⟩ hSend
    obtain ⟨hKeys, hSame⟩ := hUnaltered hCallback fun other hOther => by
      cases hRow.symm.trans hOther
      exact hPending
    exact ⟨hKeys, hSame row hRow⟩
  · cases hModel
    cases hReply.symm.trans hPerform
    refine ⟨retells_keeps hInv ((evolves_jobs (grows_insertNew hNone)).trans (evolves_record _)) rfl, ?_⟩
    refine hSend _ _ rfl ⟨_, KeyedTable.find_insertNew_self hNone, fun _ hCallback => ⟨?_, rfl⟩⟩
    refine (hUnaltered hCallback fun row hRow => ?_).1
    cases hNone.symm.trans hRow

end Producer

/-! ### The worker -/

section Worker

variable {t : Nat} {s : BusState pyd} {β : Type} {job : Job} {result : Result}

/-- Whoever wins the finalize of a retold job calls back with what it has stored. -/
theorem guarded_finalizeAndNotify {f : Result → Bus pyd β} (hRetold : Retold s.db.jobs job)
    (hMade : Made py job result)
    (hf : ∀ r s', (retelling pyd py power).Guarded (AsStored py) t (f r) s') :
    (retelling pyd py power).Guarded (AsStored py) t ((finalizeAndNotify job result).bind f) s := by
  rw [finalizeAndNotify_eq]
  apply guarded_ask (fun _ _ _ => trivial)
  intro s₁ hRely₁ hInv₁ _ completedAt _ _ hClock
  cases hClock
  refine ⟨.of_eq hInv₁ rfl, guarded_ask (fun _ _ _ => trivial)
    fun s₂ hRely₂ hInv₂ _ proposal reply after hPerform => ?_⟩
  have hRetold₂ : Retold s₂.db.jobs job := hRetold.grows (hRely₁.1.jobs.trans hRely₂.1.jobs)
  have hId : result.jobId.text = job.jobId.text := congrArg Uuid.text hMade.billed.jobId
  rcases perform_finalize (t := t) (s := s₂) proposal with
    ⟨e, hReply⟩ | ⟨hNone, hReply⟩ | ⟨row, hRow, hPending, hReply⟩
  · cases hReply.symm.trans hPerform
    exact ⟨.of_eq hInv₂ rfl, trivial⟩
  · cases hReply.symm.trans hPerform
    exact ⟨.of_eq hInv₂ rfl, hf _ _⟩
  · cases hReply.symm.trans hPerform
    refine ⟨retells_keeps hInv₂
      ((evolves_jobs (grows_withResult hRow hPending)).trans (evolves_record _)) rfl, ?_⟩
    cases hUrl : job.callbackUrl with
    | none => exact hf _ _
    | some url =>
      have hStored : AsStored py ({ s₂ with db := { s₂.db with
          jobs := withResult s₂.db.jobs result.jobId.text result completedAt } }.record t
            (.finalized result.jobId.text)) (.deliverCallback url result : BusOp pyd) := by
        obtain ⟨told, hTold, hSame⟩ := hRetold₂
        rw [← hId, hRow] at hTold
        cases hTold
        have hMeta : result.metadata = row.metadata :=
          hMade.metadata.trans (hSame hPending (by rw [hUrl]; exact Option.some_ne_none url)).2
        exact ⟨_, find_withResult_self hRow, result.status.status_ne_pending,
          resultFromStored_finalize (KeyedTable.key_of_find hRow) hMeta⟩
      refine guarded_ask (fun s₃ hRely₃ _ => hStored.evolves hRely₃.1)
        fun s₃ _ hInv₃ _ reply _ _ hCall => ?_
      cases hCall
      exact ⟨retells_keeps hInv₃ (evolves_record _) rfl, hf _ _⟩

theorem guarded_storeOffset {index : Nat} :
    (retelling pyd py power).Guarded (AsStored py) t (Bus.storeOffset index) s := by
  apply guarded_ask (fun _ _ _ => trivial)
  intro s' _ hInv _ proposal reply _ hPerform
  cases proposal with
  | error e =>
    cases hPerform
    exact ⟨.of_eq hInv rfl, trivial⟩
  | ok _ =>
    cases hPerform
    exact ⟨retells_keeps hInv (evolves_record _) rfl, trivial⟩

theorem guarded_deliverMessage {deps : WorkerDeps} {fresh : Fresh} {index : Nat}
    {envelope : Envelope pyd} (hRetells : envelope.Retells s.db.jobs) :
    (retelling pyd py power).Guarded (AsStored py) t
      (deliverMessage py power deps fresh index envelope.payload) s := by
  unfold deliverMessage consumeOne
  cases hDecode : decodeJob py pyd fresh envelope.payload with
  | error e => exact guarded_storeOffset
  | ok job =>
    simp only [processJob, Program.bind_eq, Program.pure_eq, Program.bind_assoc, Program.ret_bind]
    refine guarded_bind_of_every ((every_jobResult_made py power deps job).imp fun op hOp => ?_)
      fun result hMade => ?_
    · refine ⟨quiet_of_providerSide hOp, fun _ => ?_⟩
      cases op with
      | deliverCallback url result => exact absurd hOp id
      | _ => trivial
    · exact guarded_finalizeAndNotify (hRetells.decoded hDecode) hMade fun _ _ => guarded_storeOffset

end Worker

/-! ### Every run -/

section Runs

variable {t : Nat} {s : BusState pyd}

theorem guarded_ofExcept {β : Type} (r : Except PyError β) :
    (retelling pyd py power).Guarded (AsStored py) t (.ofExcept r) s := by
  cases r <;> trivial

theorem guarded_setModelPolicy (project kind model : Text) :
    (retelling pyd py power).Guarded (AsStored py) t (Bus.setModelPolicy project kind model) s := by
  apply guarded_ask (fun _ _ _ => trivial)
  intro s₁ _ hInv₁ _ updatedAt _ _ hClock
  cases hClock
  refine ⟨.of_eq hInv₁ rfl, fun s₂ _ hInv₂ => ⟨trivial, fun _ proposal => ⟨?_, guarded_ofExcept _⟩⟩⟩
  exact retells_write hInv₂ proposal (perform_setModelPolicy_jobs _ _ _ _ _)

theorem guarded_publishWorkerPolicy (policy : WorkerPolicy) :
    (retelling pyd py power).Guarded (AsStored py) t (Bus.publishWorkerPolicy policy) s := by
  apply guarded_ask (fun _ _ _ => trivial)
  intro s₁ _ hInv₁ _ updatedAt _ _ hClock
  cases hClock
  refine ⟨.of_eq hInv₁ rfl, fun s₂ _ hInv₂ => ⟨trivial, fun _ proposal => ⟨?_, guarded_ofExcept _⟩⟩⟩
  exact retells_write hInv₂ proposal (perform_publishWorkerPolicy_jobs _ _ _)

theorem entriesGuarded : (retelling pyd py power).EntriesGuarded (AsStored py) := by
  intro s entry p t hInv _ hStart
  cases entry with
  | submit job =>
    cases hStart
    exact guarded_submit
  | deliver deps fresh index =>
    obtain ⟨envelope, hAt, rfl⟩ := Option.map_eq_some_iff.mp hStart
    exact guarded_deliverMessage (hInv envelope (List.mem_of_getElem? hAt))
  | setModelPolicy project kind model =>
    cases hStart
    exact guarded_setModelPolicy project kind model
  | publishWorkerPolicy policy =>
    cases hStart
    exact guarded_publishWorkerPolicy policy
  | place payload =>
    cases hStart
    exact guarded_ask (fun _ _ _ => trivial) fun _ _ _ hAllowed _ _ _ _ => absurd hAllowed.1 id

theorem asStored_of_reaches {c : BusConfig pyd py power}
    (h : Reaches (fun s op => Placed op ∧ Unaltered s op) (BusConfig.empty pyd py power) c)
    {op : BusOp pyd} {k : op.Reply → Bus pyd Unit} (hAsks : c.threads t = some (.ask op k)) :
    AsStored py c.state op :=
  guard_of_reaches entriesGuarded (fun _ hMem => absurd hMem List.not_mem_nil) (fun _ => rfl) h hAsks

end Runs

/-! ### Callback and poll -/

section Agreement

variable {ι : Type} [LinearOrder ι] (T : Timeline pyd py power ι) {i : ι} {t : Nat} {url : Text}
  {result : Result} {k : Except PyError Unit → Bus pyd Unit}

/-- While a thread is about to call back, and ever after, the poll for the job returns exactly
what the callback says; and so does every poll of the job that returns at all, whenever it was
started. -/
theorem callbacks_agree
    (h : Reaches (fun s op => Placed op ∧ Unaltered s op) (BusConfig.empty pyd py power) (T.bus i))
    (hAsks : (T.bus i).threads t = some (.ask (.deliverCallback url result) k)) :
    (∀ clock turns timeoutS pollIntervalS, i ≤ turns.start →
      PollsTo py T.store clock turns result.jobId.text timeoutS pollIntervalS (.returned result)) ∧
    ∀ jobId, Uuid.parse py jobId = some result.jobId →
      ∀ clock turns timeoutS pollIntervalS returned,
        PollsTo py T.store clock turns jobId timeoutS pollIntervalS (.returned returned) →
          returned = result := by
  obtain ⟨row, hRow, hTerminal, hResult⟩ : AsStored py (T.bus i).state _ :=
    asStored_of_reaches h hAsks
  constructor
  · intro clock turns timeoutS pollIntervalS hLater
    have hFirst : Terminal (T.store (turns.look 0)).jobs result.jobId.text :=
      ⟨row, T.find_of_terminal (hLater.trans turns.start_le_look) hRow hTerminal, hTerminal⟩
    exact (pollsTo_result_iff T hRow hTerminal hResult).mpr (.inl hFirst)
  · intro jobId hParse clock turns timeoutS pollIntervalS returned hPolls
    obtain ⟨j, row', hRow', hTerminal', hResult'⟩ := hPolls.terminal_of_returned
    rw [T.eq_text_of_find hRow' hParse] at hRow'
    have hSame : row' = row := by
      cases le_total i (turns.look j) with
      | inl hLe => exact Option.some.inj (hRow'.symm.trans (T.find_of_terminal hLe hRow hTerminal))
      | inr hLe => exact Option.some.inj ((T.find_of_terminal hLe hRow' hTerminal').symm.trans hRow)
    rw [hSame, hResult] at hResult'
    exact (Except.ok.inj hResult').symm

end Agreement

/-! ### A callback that was answered, and one that tells another story -/

/-- The bus at a standstill. -/
def Timeline.still (c : BusConfig pyd py power) (h : BusConfig.Reaches (.empty pyd py power) c) :
    Timeline pyd py power ℕ where
  bus _ := c
  reached _ := h
  later _ _ _ := .refl _

/-- What the thread is about to send to the callback URL. -/
def callingBack : Bus .tree Unit → Option Result
  | .ask (.deliverCallback _ result) _ => some result
  | _ => none

theorem callingBack_eq_some {p : Bus .tree Unit} {result : Result} (h : callingBack p = some result) :
    ∃ url k, p = .ask (.deliverCallback url result) k := by
  cases p with
  | ask op k =>
    cases op with
    | deliverCallback url sent =>
      cases h
      exact ⟨url, k, rfl⟩
    | _ => cases h
  | _ => cases h

def placedMeta : BusOp .tree → Bool
  | .place _ => false
  | .insertPending job => (Value.dict job.metadata).finiteJson
  | _ => true

theorem placed_of_placedMeta {op : BusOp .tree} (h : placedMeta op = true) : Placed op := by
  cases op with
  | place payload => cases h
  | insertPending job => exact h
  | _ => trivial

/-- One `meta` that every submit of the run has, and whose comparison is a matter of evaluation. -/
def firstAttempt : Entries :=
  [(txt "attempt", .int 1)]

def isFirstAttempt : Entries → Bool
  | [(k, .int 1)] => k == txt "attempt"
  | _ => false

theorem eq_of_isFirstAttempt {entries : Entries} (h : isFirstAttempt entries = true) :
    entries = firstAttempt := by
  unfold isFirstAttempt at h
  split at h
  · rename_i k
    rw [beq_iff_eq] at h
    rw [h]
    rfl
  · cases h

def sameMeta (s : BusState .tree) : BusOp .tree → Bool
  | .place _ => false
  | .insertPending job => isFirstAttempt job.metadata &&
      (s.db.jobs.find job.jobId.text).all fun row => isFirstAttempt row.metadata
  | _ => true

theorem unaltered_of_sameMeta {s : BusState .tree} {op : BusOp .tree} (h : sameMeta s op = true) :
    Placed op ∧ Unaltered s op := by
  cases op with
  | place payload => cases h
  | insertPending job =>
    rw [sameMeta, Bool.and_eq_true] at h
    have hMeta := eq_of_isFirstAttempt h.1
    have hFinite : FiniteDict job.metadata := by
      rw [hMeta]
      rfl
    refine ⟨hFinite, fun _ _ => ⟨?_, fun row hRow => ?_⟩⟩
    · rw [hMeta]
      rfl
    · rw [hRow] at h
      exact hMeta.trans (eq_of_isFirstAttempt h.2).symm
  | _ => exact ⟨trivial, trivial⟩

def attemptedJob : Job :=
  { calledJob with metadata := firstAttempt }

/-- The send of the first submit fails; the message of the second is delivered up to the callback. -/
def callActions : List PlainAction :=
  .spawn (.submit attemptedJob) :: calmSteps 0 1 ++ .advance 0 lostSend ::
    .spawn (.submit attemptedJob) :: calmSteps 1 3 ++
      .spawn (.deliver plainDeps anyFresh 0) :: calmSteps 2 6

theorem callActions_run : (plainRun sameMeta callActions).isSome = true := by
  decide +kernel

def calling : PlainConfig :=
  (plainRun sameMeta callActions).get callActions_run

theorem reaches_calling : Reaches (fun s op => Placed op ∧ Unaltered s op)
    (BusConfig.empty .tree .ascii exactPower) calling :=
  reaches_of_runActions (fun _ _ hCheck => unaltered_of_sameMeta hCheck)
    (Option.some_get callActions_run).symm

theorem calling_calls : ((calling.threads 2).bind callingBack).map (·.jobId) = some plainJob.jobId := by
  decide +kernel

theorem callbacks_agree_called : ∃ url result k,
    calling.threads 2 = some (.ask (.deliverCallback url result) k) ∧
      PollsTo .ascii (fun _ : ℕ => calling.state.db) seconds slowTurns plainJob.jobId.text (.finite 1)
        (.finite (1 / 10)) (.returned result) := by
  obtain ⟨result, hCalling, hId⟩ := Option.map_eq_some_iff.mp calling_calls
  obtain ⟨p, hThread, hSays⟩ := Option.bind_eq_some_iff.mp hCalling
  obtain ⟨url, k, rfl⟩ := callingBack_eq_some hSays
  have hReaches := reaches_calling
  -- what the run comes to is not to be computed once more
  generalize calling = c at hReaches hThread ⊢
  have hPolls := (callbacks_agree (.still c (hReaches.mono fun _ _ _ => trivial)) (i := 0)
    hReaches hThread).1 seconds slowTurns (.finite 1) (.finite (1 / 10)) le_rfl
  rw [hId] at hPolls
  exact ⟨url, result, k, hThread, hPolls⟩

/-- The same job with another `meta`. -/
def retoldJob : Job :=
  { calledJob with metadata := [(txt "attempt", .int 2)] }

/-- The second submit has its own `meta`. -/
def retoldActions : List PlainAction :=
  .spawn (.submit calledJob) :: calmSteps 0 1 ++ .advance 0 lostSend ::
    .spawn (.submit retoldJob) :: calmSteps 1 3 ++
      .spawn (.deliver plainDeps anyFresh 0) :: calmSteps 2 6

theorem retoldActions_tells :
    ((plainRun (fun _ => placedMeta) retoldActions).bind fun c =>
        ((c.threads 2).bind callingBack).map fun result =>
          (result.metadata.length, (c.state.db.jobs.find result.jobId.text).map fun row =>
            (decide (row.status = .pending), row.metadata.length))) =
      some (1, some (false, 0)) := by
  decide +kernel

/-- A callback with a `meta` that no poll of the job returns. -/
theorem callback_disagrees : ∃ (c : PlainConfig) (h : BusConfig.Reaches (.empty .tree .ascii exactPower) c),
    Reaches (fun _ => Placed) (BusConfig.empty .tree .ascii exactPower) c ∧
      ∃ t url result k returned, c.threads t = some (.ask (.deliverCallback url result) k) ∧
        PollsTo .ascii (Timeline.still c h).store seconds slowTurns result.jobId.text (.finite 1)
          (.finite (1 / 10)) (.returned returned) ∧
        returned.metadata ≠ result.metadata := by
  obtain ⟨c, hRun, hTells⟩ := Option.bind_eq_some_iff.mp retoldActions_tells
  obtain ⟨result, hCalling, hValues⟩ := Option.map_eq_some_iff.mp hTells
  obtain ⟨p, hThread, hSays⟩ := Option.bind_eq_some_iff.mp hCalling
  obtain ⟨url, k, rfl⟩ := callingBack_eq_some hSays
  simp only [Prod.mk.injEq, Option.map_eq_some_iff, decide_eq_false_iff_not] at hValues
  obtain ⟨hSent, row, hRow, hTerminal, hKept⟩ := hValues
  have hPlaced : Reaches (fun _ => Placed) (BusConfig.empty .tree .ascii exactPower) c :=
    reaches_of_runActions (fun _ _ hCheck => placed_of_placedMeta hCheck) hRun
  have hReached : BusConfig.Reaches (.empty .tree .ascii exactPower) c :=
    hPlaced.mono fun _ _ _ => trivial
  obtain ⟨returned, hResult⟩ := (Timeline.still c hReached).exists_result (i := 0) hRow hTerminal
  refine ⟨c, hReached, hPlaced, 2, url, result, k, returned, hThread, ?_, ?_⟩
  · refine (pollsTo_result_iff (Timeline.still c hReached) (i := 0) hRow hTerminal hResult).mpr (.inl ?_)
    exact ⟨row, hRow, hTerminal⟩
  · have hMeta : returned.metadata = row.metadata := metadata_of_resultFromStored hResult
    intro hSame
    rw [← hSame, hMeta, hKept] at hSent
    cases hSent

end LlmBus
