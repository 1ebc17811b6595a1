import LlmBus.Lifecycle

/-! # Rows, topic and log together

The invariant of the whole bus, and the discipline under which every producer and worker
keeps it. `billing` switches on what only holds of producers that agree about the price of a
job they place more than once.
-/

namespace LlmBus

open Foundation Interaction Concurrency JobTable

/-! ### What a message says of its row -/

/-- Where the date has a price for the row's model, it is the price on the row's own date. -/
def SamePrice (py : Interpreter) (row : JobRow) (date : Date) : Prop :=
  ∀ pricing, priceFor py row.model date = .ok pricing →
    priceFor py row.model row.submittedAt.date = .ok pricing

/-- The job has a row, and names its model. -/
def Told (py : Interpreter) (billing : Prop) (jobs : JobTable) (job : Job) : Prop :=
  ∃ row, jobs.find job.jobId.text = some row ∧ job.model = some row.model ∧
    (billing → row.status = .pending → SamePrice py row job.submittedAt.date)

/-- The cost is that of the row's own tokens, at its own model's rate on its own date. -/
def Priced (py : Interpreter) (row : JobRow) : Prop :=
  ∃ cost, costUsd py row.model row.inputTokens row.outputTokens row.submittedAt.date = .ok cost ∧
    row.costUsd = .finite cost

variable {pyd : Pydantic} {py : Interpreter} {billing : Prop}

/-- The message is a job of which all that is true. -/
def Envelope.Tells (py : Interpreter) (billing : Prop) (jobs : JobTable) (envelope : Envelope pyd) :
    Prop :=
  ∃ job, encodeJob pyd job = .ok envelope.payload ∧ Told py billing jobs job

/-- If `submit` put the message there and the worker can read it, its row is terminal. -/
def Envelope.Settled (py : Interpreter) (jobs : JobTable) (envelope : Envelope pyd) : Prop :=
  envelope.submitted = true →
    ∀ fresh job, decodeJob py pyd fresh envelope.payload = .ok job → Terminal jobs job.jobId.text

theorem SamePrice.refl (row : JobRow) : SamePrice py row row.submittedAt.date :=
  fun _ h => h

theorem SamePrice.becomes {row row' : JobRow} {date : Date} (h : SamePrice py row date)
    (hBecomes : row.Becomes row') : SamePrice py row' date := by
  unfold SamePrice
  rw [hBecomes.model, hBecomes.submittedAt]
  exact h

section Grow

variable {jobs jobs' : JobTable} {job job' : Job}

theorem Told.grows (h : Told py billing jobs job) (hGrows : Grows jobs jobs') :
    Told py billing jobs' job := by
  obtain ⟨row, hRow, hModel, hPrice⟩ := h
  obtain ⟨row', hRow', hBecomes⟩ := hGrows _ row hRow
  refine ⟨row', hRow', by rw [hBecomes.model]; exact hModel, fun hBilling hPending => ?_⟩
  exact (hPrice hBilling (hBecomes.pending hPending)).becomes hBecomes

theorem Told.congr (h : Told py billing jobs job) (hId : job'.jobId = job.jobId)
    (hModel : job'.model = job.model) (hDate : job'.submittedAt.date = job.submittedAt.date) :
    Told py billing jobs job' := by
  unfold Told
  rw [hId, hModel, hDate]
  exact h

theorem Envelope.Tells.grows {envelope : Envelope pyd} (h : envelope.Tells py billing jobs)
    (hGrows : Grows jobs jobs') : envelope.Tells py billing jobs' := by
  obtain ⟨sent, hEncode, hTold⟩ := h
  exact ⟨sent, hEncode, hTold.grows hGrows⟩

theorem Envelope.Settled.grows {envelope : Envelope pyd} (h : envelope.Settled py jobs)
    (hGrows : Grows jobs jobs') : envelope.Settled py jobs' :=
  fun hSubmitted fresh job hDecode => hGrows.terminal (h hSubmitted fresh job hDecode)

theorem Envelope.Tells.decoded {envelope : Envelope pyd} (h : envelope.Tells py billing jobs)
    {fresh : Fresh} (hDecode : decodeJob py pyd fresh envelope.payload = .ok job') :
    Told py billing jobs job' := by
  obtain ⟨sent, hEncode, hTold⟩ := h
  obtain ⟨hId, hModel, hDate⟩ := decodeJob_encodeJob_keeps py pyd fresh sent hEncode hDecode
  exact hTold.congr hId hModel hDate

/-- One reading of the message speaks for all of them. -/
theorem Envelope.Tells.settled_of_terminal {envelope : Envelope pyd}
    (h : envelope.Tells py billing jobs) {fresh : Fresh}
    (hDecode : decodeJob py pyd fresh envelope.payload = .ok job')
    (hTerminal : Terminal jobs job'.jobId.text) : envelope.Settled py jobs := by
  intro _ fresh' job'' hDecode'
  obtain ⟨sent, hEncode, _⟩ := h
  have hId := (decodeJob_encodeJob_keeps py pyd fresh sent hEncode hDecode).1
  have hId' := (decodeJob_encodeJob_keeps py pyd fresh' sent hEncode hDecode').1
  rw [hId', ← hId]
  exact hTerminal

theorem Envelope.Tells.settled_of_error {envelope : Envelope pyd}
    (h : envelope.Tells py billing jobs) {fresh : Fresh} {e : PyError}
    (hDecode : decodeJob py pyd fresh envelope.payload = .error e) : envelope.Settled py jobs := by
  intro _ fresh' job'' hDecode'
  obtain ⟨sent, hEncode, _⟩ := h
  rw [decodeJob_encodeJob_fresh py pyd fresh' sent hEncode fresh, hDecode] at hDecode'
  cases hDecode'

theorem Told.priced {result : Result} {row : JobRow} (h : Told py billing jobs job)
    (hBilling : billing) (hBilled : Billed py job result)
    (hRow : jobs.find job.jobId.text = some row) (hPending : row.status = .pending)
    (hOk : result.status = .ok) (completedAt : DateTime) : Priced py (row.finalize result completedAt) := by
  obtain ⟨_, hFound, hModel, hPrice⟩ := h
  rw [hRow] at hFound
  cases hFound
  obtain ⟨model, cost, hJob, hCost, hFinite⟩ := hBilled.ok hOk
  rw [hModel] at hJob
  cases hJob
  obtain ⟨hInput, hOutput, pricing, hPricing, hAmount⟩ := costUsd_eq_ok_iff.mp hCost
  exact ⟨cost, costUsd_eq_ok_iff.mpr
    ⟨hInput, hOutput, pricing, hPrice hBilling hPending pricing hPricing, hAmount⟩, hFinite⟩

end Grow

/-! ### The invariant -/

structure TopicTold (py : Interpreter) (billing : Prop) (jobs : JobTable) (topic : List (Envelope pyd)) :
    Prop where
  tells : ∀ envelope ∈ topic, envelope.submitted = true → envelope.Tells py billing jobs
  submitted : billing → ∀ envelope ∈ topic, envelope.submitted = true

def Handled (py : Interpreter) (jobs : JobTable) (topic : List (Envelope pyd)) (index : Nat) : Prop :=
  ∃ envelope, topic[index]? = some envelope ∧ envelope.Settled py jobs

structure Consistent (py : Interpreter) (billing : Prop) (jobs : JobTable)
    (topic : List (Envelope pyd)) (history : Log Mark) : Prop where
  rows : RowsKept jobs history
  finalizes : FinalizesCounted jobs history
  callbacks : CallbacksFollow history
  told : TopicTold py billing jobs topic
  committed : ∀ t index, (t, Mark.committed index) ∈ history → Handled py jobs topic index
  priced : billing → ∀ id row, jobs.find id = some row → row.status = .ok → Priced py row

section Moves

variable {jobs jobs' : JobTable} {topic topic' : List (Envelope pyd)} {history : Log Mark}
  {t index : Nat} {mark : Mark}

theorem Handled.grows (h : Handled py jobs topic index) (hJobs : Grows jobs jobs')
    (hTopic : topic <+: topic') : Handled py jobs' topic' index := by
  obtain ⟨envelope, hAt, hSettled⟩ := h
  obtain ⟨later, rfl⟩ := hTopic
  refine ⟨envelope, ?_, hSettled.grows hJobs⟩
  rw [List.getElem?_append_left (List.getElem?_eq_some_iff.mp hAt).1]
  exact hAt

theorem TopicTold.grows (h : TopicTold py billing jobs topic) (hJobs : Grows jobs jobs') :
    TopicTold py billing jobs' topic where
  tells envelope hMem hSubmitted := (h.tells envelope hMem hSubmitted).grows hJobs
  submitted := h.submitted

theorem TopicTold.snoc (h : TopicTold py billing jobs topic) {envelope : Envelope pyd}
    (hTells : envelope.submitted = true → envelope.Tells py billing jobs)
    (hSubmitted : billing → envelope.submitted = true) :
    TopicTold py billing jobs (topic ++ [envelope]) where
  tells other hMem hOther := by
    cases List.mem_append.mp hMem with
    | inl hOld => exact h.tells other hOld hOther
    | inr hLast =>
      obtain rfl := List.mem_singleton.mp hLast
      exact hTells hOther
  submitted hBilling other hMem := by
    cases List.mem_append.mp hMem with
    | inl hOld => exact h.submitted hBilling other hOld
    | inr hLast =>
      obtain rfl := List.mem_singleton.mp hLast
      exact hSubmitted hBilling

theorem mem_snoc_committed (hMem : (t, Mark.committed index) ∈ history ++ [(u, mark)]) :
    (t, Mark.committed index) ∈ history ∨ mark = .committed index := by
  cases List.mem_append.mp hMem with
  | inl hOld => exact .inl hOld
  | inr hLast =>
    cases List.mem_singleton.mp hLast
    exact .inr rfl

theorem Consistent.empty : Consistent py billing .empty ([] : List (Envelope pyd)) [] := by
  have hNoRow : ∀ id row, (KeyedTable.empty : JobTable).find id ≠ some row := by
    intro id row hRow
    rw [KeyedTable.find_empty] at hRow
    cases hRow
  have hNoMark : ∀ t mark, (t, mark) ∉ ([] : Log Mark) := fun _ _ => List.not_mem_nil
  refine ⟨⟨?_, ?_, ?_⟩, ⟨fun _ => Nat.zero_le _, fun id => ?_, rfl⟩,
    ⟨Log.eachAfter_nil, fun _ => Nat.zero_le _⟩, ⟨?_, ?_⟩, ?_, ?_⟩
  · exact fun t job hMem => absurd hMem (hNoMark t _)
  · exact fun id row hRow => absurd hRow (hNoRow id row)
  · exact fun id row hRow => absurd hRow (hNoRow id row)
  · exact iff_of_false (fun ⟨row, hRow, _⟩ => hNoRow id row hRow) fun ⟨t, hMem⟩ => hNoMark t _ hMem
  · exact fun envelope hMem => absurd hMem List.not_mem_nil
  · exact fun _ envelope hMem => absurd hMem List.not_mem_nil
  · exact fun t index hMem => absurd hMem (hNoMark t _)
  · exact fun _ id row hRow => absurd hRow (hNoRow id row)

theorem Consistent.insert (h : Consistent py billing jobs topic history) {job : Job} {model : Text}
    (hModel : job.model = some model) (hRoute : ∃ name, providerFor model = .ok name)
    (hNone : jobs.find (job.pendingRow model).jobId = none) :
    Consistent py billing (jobs.insertNew (job.pendingRow model)) topic
      (history ++ [(t, .inserted job)]) where
  rows := h.rows.insert hModel hRoute hNone
  finalizes := h.finalizes.insert hNone rfl
  callbacks := h.callbacks.snoc rfl
  told := h.told.grows (grows_insertNew hNone)
  committed u index hMem := by
    cases mem_snoc_committed hMem with
    | inl hOld =>
      exact (h.committed u index hOld).grows (grows_insertNew hNone) (List.prefix_refl _)
    | inr hLast => cases hLast
  priced hBilling id row hRow hOk := by
    rcases find_insertNew_cases hNone hRow with ⟨_, rfl⟩ | hOld
    · cases hOk
    · exact h.priced hBilling id row hOld hOk

theorem Consistent.finalize (h : Consistent py billing jobs topic history) {k : Text}
    {result : Result} {completedAt : DateTime} {awaited : JobRow} (hRow : jobs.find k = some awaited)
    (hPending : awaited.status = .pending)
    (hPriced : billing → result.status = .ok → Priced py (awaited.finalize result completedAt)) :
    Consistent py billing (withResult jobs k result completedAt) topic
      (history ++ [(t, .finalized k)]) where
  rows := (h.rows.finalize hRow hPending).snoc rfl
  finalizes := h.finalizes.finalize hRow hPending
  callbacks := h.callbacks.snoc rfl
  told := h.told.grows (grows_withResult hRow hPending)
  committed u index hMem := by
    cases mem_snoc_committed hMem with
    | inl hOld =>
      exact (h.committed u index hOld).grows (grows_withResult hRow hPending) (List.prefix_refl _)
    | inr hLast => cases hLast
  priced hBilling id row hFound hOk := by
    rcases find_withResult_cases hRow hFound with ⟨_, rfl⟩ | ⟨_, hOld⟩
    · apply hPriced hBilling
      cases hStatus : result.status with
      | ok => rfl
      | error =>
        rw [JobRow.finalize, hStatus] at hOk
        cases hOk
    · exact h.priced hBilling id row hOld hOk

theorem Consistent.append (h : Consistent py billing jobs topic history) {envelope : Envelope pyd}
    (hTells : envelope.submitted = true → envelope.Tells py billing jobs)
    (hSubmitted : billing → envelope.submitted = true) :
    Consistent py billing jobs (topic ++ [envelope]) history where
  rows := h.rows
  finalizes := h.finalizes
  callbacks := h.callbacks
  told := h.told.snoc hTells hSubmitted
  committed u index hMem := (h.committed u index hMem).grows (.refl jobs) (List.prefix_append _ _)
  priced := h.priced

theorem Consistent.callBack (h : Consistent py billing jobs topic history) {id : Text}
    (hOwn : history.own t = [.finalized id]) :
    Consistent py billing jobs topic (history ++ [(t, .calledBack id)]) where
  rows := h.rows.snoc rfl
  finalizes := h.finalizes.snoc rfl rfl
  callbacks := h.callbacks.callBack h.finalizes hOwn
  told := h.told
  committed u index hMem := by
    cases mem_snoc_committed hMem with
    | inl hOld => exact h.committed u index hOld
    | inr hLast => cases hLast
  priced := h.priced

theorem Consistent.commit (h : Consistent py billing jobs topic history)
    (hHandled : Handled py jobs topic index) :
    Consistent py billing jobs topic (history ++ [(t, .committed index)]) where
  rows := h.rows.snoc rfl
  finalizes := h.finalizes.snoc rfl rfl
  callbacks := h.callbacks.snoc rfl
  told := h.told
  committed u other hMem := by
    cases mem_snoc_committed hMem with
    | inl hOld => exact h.committed u other hOld
    | inr hLast =>
      cases hLast
      exact hHandled
  priced := h.priced

end Moves

end LlmBus
