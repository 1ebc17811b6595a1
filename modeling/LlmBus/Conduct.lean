import LlmBus.Consistency

/-! # What producers and workers do to the bus

Each request of a producer or a worker keeps the invariant, moves the shared state forward
only, and adds only to the thread's own events. So does, therefore, every interleaving.
-/

namespace LlmBus

open Foundation Interaction Concurrency Discipline JobTable

variable {pyd : Pydantic} {py : Interpreter} {power : Power} {billing : Prop}

structure BusState.Evolves (s s' : BusState pyd) : Prop where
  jobs : Grows s.db.jobs s'.db.jobs
  topic : s.topic <+: s'.topic
  history : s.history <+: s'.history

theorem BusState.Evolves.refl (s : BusState pyd) : s.Evolves s :=
  ⟨.refl _, List.prefix_refl _, List.prefix_refl _⟩

theorem BusState.Evolves.trans {s s' s'' : BusState pyd} (h : s.Evolves s') (h' : s'.Evolves s'') :
    s.Evolves s'' :=
  ⟨h.jobs.trans h'.jobs, h.topic.trans h'.topic, h.history.trans h'.history⟩

/-- Only `submit` places messages, and a job that is placed again while its row is pending
has, where its date has a price, the row's. -/
def Agreeing (py : Interpreter) (s : BusState pyd) : BusOp pyd → Prop
  | .place _ => False
  | .insertPending job => ∀ row, s.db.jobs.find job.jobId.text = some row → row.status = .pending →
      SamePrice py row job.submittedAt.date
  | _ => True

def conduct (pyd : Pydantic) (py : Interpreter) (power : Power) (billing : Prop) :
    Discipline (busMachine pyd py power) fun s op => billing → Agreeing py s op where
  Own := List Mark
  blank := []
  own t s := Log.own t s.history
  inv s := Consistent py billing s.db.jobs s.topic s.history
  evolve := BusState.Evolves
  evolve_refl := .refl
  evolve_trans := .trans

/-! ### The steps -/

section Steps

variable {t : Nat} {s : BusState pyd}

theorem write_cases {α : Type} (s : BusState pyd) (t : Nat) (proposal : Except PyError α)
    (session : Session α) (mark : α → Option Mark) :
    (∃ e, s.write t proposal session mark = (.error e, s)) ∨
      (∃ e db, s.db.perform session = (.error e, db) ∧
        s.write t proposal session mark = (.error e, { s with db := db })) ∨
      ∃ a db, s.db.perform session = (.ok a, db) ∧
        s.write t proposal session mark = (.ok a, (mark a).elim { s with db := db }
          fun m => { s with db := db }.record t m) := by
  unfold BusState.write
  cases proposal with
  | error e => exact .inl ⟨e, rfl⟩
  | ok _ =>
    rcases hPerform : s.db.perform session with ⟨e | a, db⟩
    · exact .inr (.inl ⟨e, db, rfl, rfl⟩)
    · refine .inr (.inr ⟨a, db, rfl, ?_⟩)
      cases hMark : mark a with
      | none => simp only [hMark, Option.elim]
      | some m => simp only [hMark, Option.elim]

/-- A session that leaves the job rows alone can only have changed other tables. -/
theorem exists_write_eq {α : Type} (s : BusState pyd) (t : Nat) (proposal : Except PyError α)
    {session : Session α} (hJobs : (s.db.perform session).2.jobs = s.db.jobs) :
    ∃ db, db.jobs = s.db.jobs ∧
      (s.write t proposal session fun _ => none).2 = { s with db := db } := by
  rcases write_cases s t proposal session fun _ => none with
    ⟨e, hWrite⟩ | ⟨e, db, hPerform, hWrite⟩ | ⟨a, db, hPerform, hWrite⟩
  · exact ⟨s.db, rfl, congrArg Prod.snd hWrite⟩
  · rw [hPerform] at hJobs
    exact ⟨db, hJobs, congrArg Prod.snd hWrite⟩
  · rw [hPerform] at hJobs
    exact ⟨db, hJobs, congrArg Prod.snd hWrite⟩

theorem perform_insertPending {job : Job} (proposal : Except PyError Bool) :
    (∃ e, BusState.perform t s (.insertPending job) proposal = (.error e, s)) ∨
      (∃ row, s.db.jobs.find job.jobId.text = some row ∧
        BusState.perform t s (.insertPending job) proposal = (.ok false, s)) ∨
      (∃ model, job.model = some model ∧ s.db.jobs.find (job.pendingRow model).jobId = none ∧
        BusState.perform t s (.insertPending job) proposal = (.ok true,
          { s with db := { s.db with jobs := s.db.jobs.insertNew (job.pendingRow model) } }.record t
            (.inserted job))) := by
  have hStore := perform_insertPending_cases s.db job
  unfold BusState.perform
  rcases write_cases s t proposal (insertPending job)
    (fun wrote => if wrote then some (.inserted job) else none) with
    ⟨e, hWrite⟩ | ⟨e, db, hPerform, hWrite⟩ | ⟨a, db, hPerform, hWrite⟩
  · exact .inl ⟨e, hWrite⟩
  · rw [hPerform] at hStore
    rcases hStore with ⟨e', hEq⟩ | ⟨_, _, hEq⟩ | ⟨_, _, _, hEq⟩
    · cases hEq
      exact .inl ⟨e, hWrite⟩
    · cases hEq
    · cases hEq
  · rw [hPerform] at hStore
    rcases hStore with ⟨e', hEq⟩ | ⟨row, hRow, hEq⟩ | ⟨model, hModel, hNone, hEq⟩
    · cases hEq
    · cases hEq
      exact .inr (.inl ⟨row, hRow, hWrite⟩)
    · cases hEq
      exact .inr (.inr ⟨model, hModel, hNone, hWrite⟩)

theorem perform_finalize {result : Result} {completedAt : DateTime} (proposal : Except PyError Bool) :
    (∃ e, BusState.perform t s (.finalize result completedAt) proposal = (.error e, s)) ∨
      (¬ Awaited s.db result.jobId ∧
        BusState.perform t s (.finalize result completedAt) proposal = (.ok false, s)) ∨
      (∃ row, s.db.jobs.find result.jobId.text = some row ∧ row.status = .pending ∧
        BusState.perform t s (.finalize result completedAt) proposal = (.ok true,
          { s with db := { s.db with
            jobs := withResult s.db.jobs result.jobId.text result completedAt } }.record t
              (.finalized result.jobId.text))) := by
  have hStore := perform_finalize_cases s.db result completedAt
  unfold BusState.perform
  rcases write_cases s t proposal (finalize result completedAt)
    (fun wrote => if wrote then some (.finalized result.jobId.text) else none) with
    ⟨e, hWrite⟩ | ⟨e, db, hPerform, hWrite⟩ | ⟨a, db, hPerform, hWrite⟩
  · exact .inl ⟨e, hWrite⟩
  · rw [hPerform] at hStore
    rcases hStore with ⟨_, e', hEq⟩ | ⟨_, _, hEq⟩ | ⟨_, _, hEq⟩
    · cases hEq
      exact .inl ⟨e, hWrite⟩
    · cases hEq
    · cases hEq
  · rw [hPerform] at hStore
    rcases hStore with ⟨_, e', hEq⟩ | ⟨_, hNone, hEq⟩ | ⟨_, ⟨row, hRow, hPending⟩, hEq⟩
    · cases hEq
    · cases hEq
      exact .inr (.inl ⟨hNone, hWrite⟩)
    · cases hEq
      exact .inr (.inr ⟨row, hRow, hPending, hWrite⟩)

theorem evolves_record (mark : Mark) : s.Evolves (s.record t mark) :=
  ⟨.refl _, List.prefix_refl _, List.prefix_append _ _⟩

theorem evolves_append (envelope : Envelope pyd) : s.Evolves (s.append envelope) :=
  ⟨.refl _, List.prefix_append _ _, List.prefix_refl _⟩

theorem evolves_jobs {db : Database} (hGrows : Grows s.db.jobs db.jobs) :
    s.Evolves { s with db := db } :=
  ⟨hGrows, List.prefix_refl _, List.prefix_refl _⟩

theorem keeps_record {s' : BusState pyd} {mark : Mark} (hEvolves : s.Evolves s')
    (hHistory : s'.history = s.history ++ [(t, mark)])
    (hInv : Consistent py billing s'.db.jobs s'.topic (s.history ++ [(t, mark)])) :
    (conduct pyd py power billing).Keeps t s s' where
  inv := by
    change Consistent py billing s'.db.jobs s'.topic s'.history
    rw [hHistory]
    exact hInv
  evolve := hEvolves
  own u hNe := by
    change Log.own u s'.history = Log.own u s.history
    rw [hHistory, Log.own_snoc_of_ne hNe]

theorem keeps_silent {s' : BusState pyd} (hEvolves : s.Evolves s') (hHistory : s'.history = s.history)
    (hInv : Consistent py billing s'.db.jobs s'.topic s.history) :
    (conduct pyd py power billing).Keeps t s s' where
  inv := by
    change Consistent py billing s'.db.jobs s'.topic s'.history
    rw [hHistory]
    exact hInv
  evolve := hEvolves
  own u _ := congrArg (Log.own u) hHistory

theorem keeps_insert (hInv : (conduct pyd py power billing).inv s) {job : Job} {model : Text}
    (hModel : job.model = some model) (hRoute : ∃ name, providerFor model = .ok name)
    (hNone : s.db.jobs.find (job.pendingRow model).jobId = none) :
    (conduct pyd py power billing).Keeps t s
      ({ s with db := { s.db with jobs := s.db.jobs.insertNew (job.pendingRow model) } }.record t
        (.inserted job)) :=
  keeps_record ((evolves_jobs (grows_insertNew hNone)).trans (evolves_record _)) rfl
    (hInv.insert hModel hRoute hNone)

theorem keeps_finalize (hInv : (conduct pyd py power billing).inv s) {result : Result}
    {completedAt : DateTime} {row : JobRow} (hRow : s.db.jobs.find result.jobId.text = some row)
    (hPending : row.status = .pending)
    (hPriced : billing → result.status = .ok → Priced py (row.finalize result completedAt)) :
    (conduct pyd py power billing).Keeps t s
      ({ s with db := { s.db with
          jobs := withResult s.db.jobs result.jobId.text result completedAt } }.record t
        (.finalized result.jobId.text)) :=
  keeps_record ((evolves_jobs (grows_withResult hRow hPending)).trans (evolves_record _)) rfl
    (hInv.finalize hRow hPending hPriced)

theorem keeps_append (hInv : (conduct pyd py power billing).inv s) {envelope : Envelope pyd}
    (hTells : envelope.submitted = true → envelope.Tells py billing s.db.jobs)
    (hSubmitted : billing → envelope.submitted = true) :
    (conduct pyd py power billing).Keeps t s (s.append envelope) :=
  keeps_silent (evolves_append _) rfl (hInv.append hTells hSubmitted)

theorem keeps_callBack (hInv : (conduct pyd py power billing).inv s) {id : Text}
    (hOwn : Log.own t s.history = [.finalized id]) :
    (conduct pyd py power billing).Keeps t s (s.record t (.calledBack id)) :=
  keeps_record (evolves_record _) rfl (hInv.callBack hOwn)

theorem keeps_commit (hInv : (conduct pyd py power billing).inv s) {index : Nat}
    (hHandled : Handled py s.db.jobs s.topic index) :
    (conduct pyd py power billing).Keeps t s (s.record t (.committed index)) :=
  keeps_record (evolves_record _) rfl (hInv.commit hHandled)

theorem keeps_write {α : Type} (hInv : (conduct pyd py power billing).inv s)
    (proposal : Except PyError α) {session : Session α}
    (hJobs : (s.db.perform session).2.jobs = s.db.jobs) :
    (conduct pyd py power billing).Keeps t s (s.write t proposal session fun _ => none).2 := by
  obtain ⟨db, hSame, hWrite⟩ := exists_write_eq s t proposal hJobs
  rw [hWrite]
  refine keeps_silent (evolves_jobs ?_) rfl ?_
  · rw [hSame]
    exact .refl _
  · simp only [hSame]
    exact hInv

end Steps

/-! ### Requests that leave the bus as it is -/

theorem read_snd {α : Type} (s : BusState pyd) (proposal found : Except PyError α) :
    (s.read proposal found).2 = s := by
  cases proposal <;> rfl

theorem quiet_of_providerSide {op : BusOp pyd} (h : ProviderSide op) :
    Quiet (busMachine pyd py power) op := by
  intro t s proposal
  cases op with
  | now => rfl
  | acquire provider tokens => rfl
  | call provider model messages params timeoutS => rfl
  | rand => rfl
  | sleep delayS => rfl
  | _ => exact absurd h id

theorem quiet_modelPolicy (op : BusOp pyd) (h : ∃ project kind, op = .modelPolicy project kind) :
    Quiet (busMachine pyd py power) op := by
  obtain ⟨project, kind, rfl⟩ := h
  exact fun _ s _ => read_snd s _ _

/-! ### The producer -/

section Producer

variable {t : Nat} {s : BusState pyd} {β : Type} {job : Job}

theorem every_resolveModelName :
    Every (fun op : BusOp pyd => ∃ project kind, op = .modelPolicy project kind) (fun _ => True)
      (resolveModelName py job : Bus pyd Text) := by
  unfold resolveModelName
  split
  · trivial
  · refine ⟨⟨_, _, rfl⟩, fun reply => ?_⟩
    refine Every.bind (P := fun _ => True) (every_ofExcept fun _ _ => trivial) fun policy _ => ?_
    exact every_ofExcept fun _ _ => trivial

theorem safe_sendJob {f : Unit → Bus pyd β} (hTold : Told py billing s.db.jobs job)
    (hf : ∀ s', (conduct pyd py power billing).Safe t (f ()) s') :
    (conduct pyd py power billing).Safe t ((sendJob job).bind f) s := by
  rw [sendJob_eq, Program.bind_assoc]
  apply safe_ofExcept_bind
  intro payload hEncode
  apply safe_ask
  intro s' hRely hInv _ sent reply after hPerform
  have hAfter : after = if Sent.placed sent then s'.append ⟨payload, true⟩ else s' :=
    (congrArg Prod.snd hPerform).symm
  refine ⟨?_, safe_ofExcept_bind fun _ _ => hf _⟩
  cases hPlaced : Sent.placed sent with
  | true =>
    rw [hAfter, hPlaced, if_pos rfl]
    exact keeps_append hInv (fun _ => ⟨job, hEncode, hTold.grows hRely.1.jobs⟩) fun _ => rfl
  | false =>
    rw [hPlaced] at hAfter
    exact .of_eq hInv hAfter

/-- The duplicate takes over what its row says; nobody removes or rewrites the row in between. -/
theorem safe_modelAlreadyOnRecord {f : Job → Bus pyd β} {row : JobRow}
    (hRow : s.db.jobs.find job.jobId.text = some row)
    (hPrice : billing → row.status = .pending → SamePrice py row job.submittedAt.date)
    (hf : ∀ resolved s', Told py billing s'.db.jobs resolved →
      (conduct pyd py power billing).Safe t (f resolved) s') :
    (conduct pyd py power billing).Safe t ((modelAlreadyOnRecord job).bind f) s := by
  rw [modelAlreadyOnRecord_eq]
  apply safe_ask
  intro s' hRely hInv _ proposal reply after hPerform
  obtain ⟨row', hRow', hBecomes⟩ := hRely.1.jobs _ row hRow
  have hPrice' : billing → row'.status = .pending → SamePrice py row' job.submittedAt.date :=
    fun hBilling hPending => (hPrice hBilling (hBecomes.pending hPending)).becomes hBecomes
  cases proposal with
  | error e =>
    cases hPerform
    exact ⟨.of_eq hInv rfl, trivial⟩
  | ok stored =>
    have hReply : (Except.ok (some row'), s') = (reply, after) := by
      rw [← hRow']
      exact hPerform
    cases hReply
    refine ⟨.of_eq hInv rfl, ?_⟩
    beta_reduce
    rw [Program.ofExcept_ok, Program.ret_bind]
    by_cases hModel : job.model = some row'.model
    · simp only [hModel, if_true, Program.ret_bind]
      exact hf _ _ ⟨row', hRow', hModel, hPrice'⟩
    · simp only [hModel, if_false, Program.ret_bind]
      exact hf _ _ ⟨row', hRow', rfl, hPrice'⟩

theorem safe_submit : (conduct pyd py power billing).Safe t
    ((submit py job : Bus pyd JobId).bind fun _ => .ret ()) s := by
  rw [submit_eq, Program.bind_assoc]
  apply safe_bind_of_every (every_resolveModelName.imp quiet_modelPolicy)
  intro model _
  rw [Program.bind_assoc]
  apply safe_ofExcept_bind
  intro name hRoute
  have hSend : ∀ resolved (s' : BusState pyd), Told py billing s'.db.jobs resolved →
      (conduct pyd py power billing).Safe t
        (((sendJob resolved).bind fun _ => .ret resolved.jobId).bind fun _ => .ret () : Bus pyd Unit)
        s' := by
    intro resolved s' hTold
    rw [Program.bind_assoc]
    exact safe_sendJob hTold fun _ => trivial
  apply safe_ask
  intro s' hRely hInv hAllowed proposal reply after hPerform
  rcases perform_insertPending (t := t) (s := s') proposal with
    ⟨e, hReply⟩ | ⟨row, hRow, hReply⟩ | ⟨model', hModel, hNone, hReply⟩
  · cases hReply.symm.trans hPerform
    exact ⟨.of_eq hInv rfl, trivial⟩
  · cases hReply.symm.trans hPerform
    refine ⟨.of_eq hInv rfl, ?_⟩
    beta_reduce
    rw [Program.ofExcept_ok, Program.ret_bind, if_neg Bool.false_ne_true, Program.bind_assoc]
    exact safe_modelAlreadyOnRecord hRow (fun hBilling => hAllowed hBilling row hRow) hSend
  · cases hModel
    cases hReply.symm.trans hPerform
    refine ⟨keeps_insert hInv rfl ⟨name, hRoute⟩ hNone, ?_⟩
    exact hSend _ _ ⟨_, KeyedTable.find_insertNew_self hNone, rfl, fun _ _ => .refl _⟩

end Producer

/-! ### The worker -/

section Worker

variable {t : Nat} {s : BusState pyd} {β : Type} {job : Job} {result : Result}

theorem terminal_of_not_awaited {db : Database} {jobId : JobId} {row : JobRow}
    (hRow : db.jobs.find jobId.text = some row) (hNone : ¬ Awaited db jobId) :
    Terminal db.jobs jobId.text :=
  ⟨row, hRow, fun hPending => hNone ⟨row, hRow, hPending⟩⟩

/-- After the finalize the row of a known job is terminal, whether or not this one won. The
callback belongs to the one that did. -/
theorem safe_finalizeAndNotify {known : Prop} {f : Result → Bus pyd β}
    (hKnown : billing → known) (hTold : known → Told py billing s.db.jobs job)
    (hBilled : Billed py job result) (hOwn : Log.own t s.history = [])
    (hf : ∀ r s', s.Evolves s' → (known → Terminal s'.db.jobs job.jobId.text) →
      (conduct pyd py power billing).Safe t (f r) s') :
    (conduct pyd py power billing).Safe t ((finalizeAndNotify job result).bind f) s := by
  rw [finalizeAndNotify_eq]
  apply safe_ask
  intro s₁ hRely₁ hInv₁ _ completedAt _ _ hClock
  cases hClock
  refine ⟨.of_eq hInv₁ rfl, safe_ask fun s₂ hRely₂ hInv₂ _ proposal reply after hPerform => ?_⟩
  have hRely : (conduct pyd py power billing).Rely t s s₂ := hRely₁.trans hRely₂
  have hTold₂ : known → Told py billing s₂.db.jobs job := fun h => (hTold h).grows hRely.1.jobs
  have hId : result.jobId.text = job.jobId.text := congrArg Uuid.text hBilled.jobId
  rcases perform_finalize (t := t) (s := s₂) proposal with
    ⟨e, hReply⟩ | ⟨hNone, hReply⟩ | ⟨row, hRow, hPending, hReply⟩
  · cases hReply.symm.trans hPerform
    exact ⟨.of_eq hInv₂ rfl, trivial⟩
  · cases hReply.symm.trans hPerform
    refine ⟨.of_eq hInv₂ rfl, hf _ _ hRely.1 fun h => ?_⟩
    obtain ⟨row, hRow, _⟩ := hTold₂ h
    rw [hBilled.jobId] at hNone
    exact terminal_of_not_awaited hRow hNone
  · cases hReply.symm.trans hPerform
    have hPriced : billing → result.status = .ok → Priced py (row.finalize result completedAt) :=
      fun hBilling hOk => (hTold₂ (hKnown hBilling)).priced hBilling hBilled (hId ▸ hRow) hPending hOk _
    have hKeeps : (conduct pyd py power billing).Keeps t s₂ _ :=
      keeps_finalize hInv₂ hRow hPending hPriced
    have hTerminal : Terminal (withResult s₂.db.jobs result.jobId.text result completedAt)
        job.jobId.text := (terminal_withResult_iff hRow hPending).mpr (.inl hId.symm)
    refine ⟨hKeeps, ?_⟩
    cases hUrl : job.callbackUrl with
    | none => exact hf _ _ (hRely.1.trans hKeeps.evolve) fun _ => hTerminal
    | some url =>
      apply safe_ask
      intro s₃ hRely₃ hInv₃ _ reply _ _ hCall
      cases hCall
      have hWon : Log.own t s₃.history = [.finalized result.jobId.text] := by
        refine hRely₃.2.trans ?_
        change Log.own t (s₂.history ++ [_]) = _
        have hBefore : Log.own t s₂.history = [] := hRely.2.trans hOwn
        rw [Log.own_snoc_self, hBefore]
        rfl
      have hKeeps₃ : (conduct pyd py power billing).Keeps t s₃ _ := keeps_callBack hInv₃ hWon
      refine ⟨hKeeps₃, hf _ _ ?_ fun _ => hRely₃.1.jobs.terminal hTerminal⟩
      exact (hRely.1.trans hKeeps.evolve).trans (hRely₃.1.trans hKeeps₃.evolve)

theorem safe_storeOffset {index : Nat} (hHandled : Handled py s.db.jobs s.topic index) :
    (conduct pyd py power billing).Safe t (Bus.storeOffset index) s := by
  apply safe_ask
  intro s' hRely hInv _ proposal reply _ hPerform
  cases proposal with
  | error e =>
    cases hPerform
    exact ⟨.of_eq hInv rfl, trivial⟩
  | ok _ =>
    cases hPerform
    exact ⟨keeps_commit hInv (hHandled.grows hRely.1.jobs hRely.1.topic), trivial⟩

theorem safe_deliverMessage {deps : WorkerDeps} {fresh : Fresh} {index : Nat} {envelope : Envelope pyd}
    (hInv : (conduct pyd py power billing).inv s) (hOwn : Log.own t s.history = [])
    (hAt : s.topic[index]? = some envelope) : (conduct pyd py power billing).Safe t
      (deliverMessage py power deps fresh index envelope.payload) s := by
  have hMem : envelope ∈ s.topic := List.mem_of_getElem? hAt
  have hTells := hInv.told.tells envelope hMem
  unfold deliverMessage consumeOne
  cases hDecode : decodeJob py pyd fresh envelope.payload with
  | error e =>
    exact safe_storeOffset ⟨envelope, hAt, fun hSubmitted =>
      (hTells hSubmitted).settled_of_error hDecode hSubmitted⟩
  | ok job =>
    simp only [processJob, Program.bind_eq, Program.pure_eq, Program.bind_assoc, Program.ret_bind]
    refine safe_bind_of_every
      ((every_jobResult py power deps job).imp fun op => quiet_of_providerSide) fun result hBilled => ?_
    refine safe_finalizeAndNotify (fun hBilling => hInv.told.submitted hBilling envelope hMem)
      (fun hSubmitted => (hTells hSubmitted).decoded hDecode) hBilled hOwn fun _ s' hEvolves hTerminal => ?_
    apply safe_storeOffset
    have hLater : s'.topic[index]? = some envelope := by
      obtain ⟨later, hTopic⟩ := hEvolves.topic
      rw [← hTopic, List.getElem?_append_left (List.getElem?_eq_some_iff.mp hAt).1]
      exact hAt
    refine ⟨envelope, hLater, fun hSubmitted => ?_⟩
    exact ((hTells hSubmitted).grows hEvolves.jobs).settled_of_terminal hDecode (hTerminal hSubmitted)
      hSubmitted

end Worker

/-! ### Every thread -/

theorem safe_ofExcept {t : Nat} {s : BusState pyd} {β : Type} (r : Except PyError β) :
    (conduct pyd py power billing).Safe t (.ofExcept r) s := by
  cases r <;> trivial

theorem safe_setModelPolicy {t : Nat} {s : BusState pyd} (project kind model : Text) :
    (conduct pyd py power billing).Safe t (Bus.setModelPolicy project kind model) s := by
  apply safe_ask
  intro s₁ _ hInv₁ _ updatedAt _ _ hClock
  cases hClock
  refine ⟨.of_eq hInv₁ rfl, fun s₂ _ hInv₂ _ proposal => ⟨?_, safe_ofExcept _⟩⟩
  exact keeps_write hInv₂ proposal (perform_setModelPolicy_jobs _ _ _ _ _)

theorem safe_publishWorkerPolicy {t : Nat} {s : BusState pyd} (policy : WorkerPolicy) :
    (conduct pyd py power billing).Safe t (Bus.publishWorkerPolicy policy) s := by
  apply safe_ask
  intro s₁ _ hInv₁ _ updatedAt _ _ hClock
  cases hClock
  refine ⟨.of_eq hInv₁ rfl, fun s₂ _ hInv₂ _ proposal => ⟨?_, safe_ofExcept _⟩⟩
  exact keeps_write hInv₂ proposal (perform_publishWorkerPolicy_jobs _ _ _)

theorem entriesSafe : (conduct pyd py power billing).EntriesSafe := by
  intro s entry p t hInv hOwn hStart
  cases entry with
  | submit job =>
    cases hStart
    exact safe_submit
  | deliver deps fresh index =>
    obtain ⟨envelope, hAt, rfl⟩ := Option.map_eq_some_iff.mp hStart
    exact safe_deliverMessage hInv hOwn hAt
  | setModelPolicy project kind model =>
    cases hStart
    exact safe_setModelPolicy project kind model
  | publishWorkerPolicy policy =>
    cases hStart
    exact safe_publishWorkerPolicy policy
  | place payload =>
    cases hStart
    apply safe_ask
    intro s' _ hInv' hAllowed _ _ _ hPerform
    cases hPerform
    exact ⟨keeps_append hInv' nofun fun hBilling => absurd (hAllowed hBilling) id, trivial⟩

theorem sound_empty : (conduct pyd py power billing).Sound (BusConfig.empty pyd py power) :=
  sound_initial Consistent.empty fun _ => rfl

theorem sound_of_reaches {c : BusConfig pyd py power}
    (h : Reaches (fun s op => billing → Agreeing py s op) (BusConfig.empty pyd py power) c) :
    (conduct pyd py power billing).Sound c :=
  (sound_empty.reaches entriesSafe h).1

end LlmBus
