import LlmBus.Network

/-! # The life of a job

What may become of the rows, of the topic and of the log of events, and the invariant that
ties the three together. Each kind of change is shown to keep it.
-/

namespace LlmBus

open Foundation

abbrev JobTable := KeyedTable JobRow.jobId

/-! ### Rows -/

/-- What may become of a row: a pending one may become terminal, a terminal one nothing. -/
structure JobRow.Becomes (row row' : JobRow) : Prop where
  project : row'.project = row.project
  model : row'.model = row.model
  metadata : row'.metadata = row.metadata
  submittedAt : row'.submittedAt = row.submittedAt
  terminal : row.status ≠ .pending → row' = row

/-- The row that the first insert of a job leaves. -/
structure JobRow.From (row : JobRow) (job : Job) : Prop where
  project : row.project = job.project
  model : job.model = some row.model
  metadata : row.metadata = job.metadata
  submittedAt : row.submittedAt = job.submittedAt

theorem JobRow.Becomes.refl (row : JobRow) : row.Becomes row :=
  ⟨rfl, rfl, rfl, rfl, fun _ => rfl⟩

theorem JobRow.Becomes.trans {a b c : JobRow} (h : a.Becomes b) (h' : b.Becomes c) : a.Becomes c where
  project := h'.project.trans h.project
  model := h'.model.trans h.model
  metadata := h'.metadata.trans h.metadata
  submittedAt := h'.submittedAt.trans h.submittedAt
  terminal ha := by
    have hb := h.terminal ha
    have hc := h'.terminal (hb ▸ ha)
    exact hc.trans hb

theorem JobRow.becomes_finalize {row : JobRow} (hPending : row.status = .pending) (result : Result)
    (completedAt : DateTime) : row.Becomes (row.finalize result completedAt) :=
  ⟨rfl, rfl, rfl, rfl, fun h => absurd hPending h⟩

theorem JobRow.Becomes.pending {row row' : JobRow} (h : row.Becomes row')
    (hPending : row'.status = .pending) : row.status = .pending := by
  by_contra hTerminal
  rw [h.terminal hTerminal] at hPending
  exact hTerminal hPending

theorem JobRow.From.becomes {row row' : JobRow} {job : Job} (h : row.From job) (h' : row.Becomes row') :
    row'.From job where
  project := h'.project.trans h.project
  model := by rw [h.model, h'.model]
  metadata := h'.metadata.trans h.metadata
  submittedAt := h'.submittedAt.trans h.submittedAt

/-! ### Tables -/

namespace JobTable

variable {jobs jobs' : JobTable} {job : Job} {id : Text}

def Terminal (jobs : JobTable) (id : Text) : Prop :=
  ∃ row, jobs.find id = some row ∧ row.status ≠ .pending

/-- Every row is still there, and is what it may have become. -/
def Grows (jobs jobs' : JobTable) : Prop :=
  ∀ id row, jobs.find id = some row → ∃ row', jobs'.find id = some row' ∧ row.Becomes row'

theorem Grows.refl (jobs : JobTable) : Grows jobs jobs :=
  fun _ row h => ⟨row, h, .refl row⟩

theorem Grows.trans {a b c : JobTable} (h : Grows a b) (h' : Grows b c) : Grows a c := by
  intro id row hRow
  obtain ⟨row', hRow', hBecomes⟩ := h id row hRow
  obtain ⟨row'', hRow'', hBecomes'⟩ := h' id row' hRow'
  exact ⟨row'', hRow'', hBecomes.trans hBecomes'⟩

theorem Grows.terminal (h : Grows jobs jobs') (hTerminal : Terminal jobs id) : Terminal jobs' id := by
  obtain ⟨row, hRow, hStatus⟩ := hTerminal
  obtain ⟨row', hRow', hBecomes⟩ := h id row hRow
  refine ⟨row', hRow', ?_⟩
  rw [hBecomes.terminal hStatus]
  exact hStatus

/-- What a finalize that finds its row pending does. -/
def withResult (jobs : JobTable) (k : Text) (result : Result) (completedAt : DateTime) : JobTable :=
  jobs.update k (JobRow.finalize result completedAt) (JobRow.jobId_finalize result completedAt)

section Pending

variable {new : JobRow} (hNone : jobs.find new.jobId = none)
include hNone

theorem grows_insertNew : Grows jobs (jobs.insertNew new) := by
  intro id row hRow
  have hNe : id ≠ new.jobId := by
    rintro rfl
    rw [hNone] at hRow
    cases hRow
  exact ⟨row, (KeyedTable.find_insertNew_of_ne hNe).trans hRow, .refl row⟩

theorem find_insertNew_cases {row : JobRow} (h : (jobs.insertNew new).find id = some row) :
    (id = new.jobId ∧ row = new) ∨ jobs.find id = some row := by
  by_cases hId : id = new.jobId
  · subst hId
    rw [KeyedTable.find_insertNew_self hNone] at h
    exact .inl ⟨rfl, (Option.some.inj h).symm⟩
  · exact .inr ((KeyedTable.find_insertNew_of_ne hId).symm.trans h)

variable (hPending : new.status = .pending)
include hPending

theorem terminal_insertNew_iff : Terminal (jobs.insertNew new) id ↔ Terminal jobs id := by
  constructor
  · rintro ⟨row, hRow, hStatus⟩
    rcases find_insertNew_cases hNone hRow with ⟨_, rfl⟩ | hOld
    · exact absurd hPending hStatus
    · exact ⟨row, hOld, hStatus⟩
  · exact (grows_insertNew hNone).terminal

theorem count_insertNew :
    (jobs.insertNew new).count (fun row => row.status = .pending) =
      jobs.count (fun row => row.status = .pending) + 1 := by
  rw [KeyedTable.insertNew_of_none hNone, KeyedTable.count_append, hPending]
  rfl

end Pending

section Result

variable {k : Text} {result : Result} {completedAt : DateTime} {awaited : JobRow}
  (hRow : jobs.find k = some awaited)

include hRow in
theorem find_withResult_self :
    (withResult jobs k result completedAt).find k =
      some (awaited.finalize result completedAt) := by
  unfold withResult
  rw [KeyedTable.find_update_self, hRow]
  rfl

theorem find_withResult_of_ne (hNe : id ≠ k) :
    (withResult jobs k result completedAt).find id = jobs.find id :=
  KeyedTable.find_update_of_ne _ hNe

include hRow in
theorem find_withResult_cases {row : JobRow}
    (h : (withResult jobs k result completedAt).find id = some row) :
    (id = k ∧ row = awaited.finalize result completedAt) ∨
      (id ≠ k ∧ jobs.find id = some row) := by
  by_cases hId : id = k
  · subst hId
    rw [find_withResult_self hRow] at h
    exact .inl ⟨rfl, (Option.some.inj h).symm⟩
  · exact .inr ⟨hId, (find_withResult_of_ne hId).symm.trans h⟩

variable (hPending : awaited.status = .pending)
include hRow hPending

theorem grows_withResult : Grows jobs (withResult jobs k result completedAt) := by
  intro id row hFound
  by_cases hId : id = k
  · subst hId
    rw [hRow] at hFound
    cases hFound
    exact ⟨_, find_withResult_self hRow, JobRow.becomes_finalize hPending result completedAt⟩
  · exact ⟨row, (find_withResult_of_ne hId).trans hFound, .refl row⟩

theorem terminal_withResult_iff :
    Terminal (withResult jobs k result completedAt) id ↔ id = k ∨ Terminal jobs id := by
  constructor
  · rintro ⟨row, hFound, hStatus⟩
    rcases find_withResult_cases hRow hFound with ⟨rfl, _⟩ | ⟨_, hOld⟩
    · exact .inl rfl
    · exact .inr ⟨row, hOld, hStatus⟩
  · rintro (rfl | hTerminal)
    · exact ⟨_, find_withResult_self hRow, result.status.status_ne_pending⟩
    · exact (grows_withResult hRow hPending).terminal hTerminal

omit hPending in
theorem not_terminal_of_pending (hPending : awaited.status = .pending) :
    ¬ Terminal jobs k := by
  rintro ⟨row, hFound, hStatus⟩
  rw [hRow] at hFound
  cases hFound
  exact hStatus hPending

theorem count_withResult :
    (withResult jobs k result completedAt).count (fun row => row.status = .pending) + 1 =
      jobs.count (fun row => row.status = .pending) := by
  have hCount := KeyedTable.count_update hRow (JobRow.jobId_finalize result completedAt)
    (fun row => row.status = .pending)
  have hAfter : decide ((awaited.finalize result completedAt).status = .pending) = false :=
    decide_eq_false result.status.status_ne_pending
  simp only [hPending, decide_true, if_true, hAfter, Bool.false_eq_true, if_false, Nat.add_zero] at hCount
  exact hCount

end Result

end JobTable

open JobTable

/-! ### Events -/

namespace Mark

def inserts : Mark → Bool
  | .inserted _ => true
  | _ => false

def finalizes : Mark → Bool
  | .finalized _ => true
  | _ => false

def callsBack : Mark → Bool
  | .calledBack _ => true
  | _ => false

def finalizesJob (id : Text) : Mark → Bool
  | .finalized jobId => jobId = id
  | _ => false

def callsBackJob (id : Text) : Mark → Bool
  | .calledBack jobId => jobId = id
  | _ => false

theorem finalizesJob_iff {id : Text} {mark : Mark} :
    mark.finalizesJob id = true ↔ mark = .finalized id := by
  cases mark <;> simp [finalizesJob]

theorem callsBackJob_iff {id : Text} {mark : Mark} :
    mark.callsBackJob id = true ↔ mark = .calledBack id := by
  cases mark <;> simp [callsBackJob]

theorem finalizesJob_of_not {mark : Mark} (h : mark.finalizes = false) (id : Text) :
    mark.finalizesJob id = false := by
  cases mark with
  | finalized jobId => cases h
  | _ => rfl

theorem callsBackJob_of_not {mark : Mark} (h : mark.callsBack = false) (id : Text) :
    mark.callsBackJob id = false := by
  cases mark with
  | calledBack jobId => cases h
  | _ => rfl

end Mark

/-! ### Rows and the inserts they come from -/

def Job.pendingRow (job : Job) (model : Text) : JobRow :=
  LlmBus.pendingRow job.jobId.text job.project model job.metadata job.submittedAt

theorem Job.from_pendingRow {job : Job} {model : Text} (hModel : job.model = some model) :
    (job.pendingRow model).From job :=
  ⟨rfl, hModel, rfl, rfl⟩

structure RowsKept (jobs : JobTable) (history : Log Mark) : Prop where
  inserted : ∀ t job, (t, Mark.inserted job) ∈ history →
    ∃ row, jobs.find job.jobId.text = some row ∧ row.From job
  born : ∀ id row, jobs.find id = some row →
    ∃ t job, (t, Mark.inserted job) ∈ history ∧ job.jobId.text = id
  routed : ∀ id row, jobs.find id = some row → ∃ name, providerFor row.model = .ok name

section Moves

variable {jobs : JobTable} {history : Log Mark} {t : Nat} {mark : Mark}

theorem RowsKept.snoc (h : RowsKept jobs history) (hMark : mark.inserts = false) :
    RowsKept jobs (history ++ [(t, mark)]) where
  inserted u job hMem := by
    cases List.mem_append.mp hMem with
    | inl hOld => exact h.inserted u job hOld
    | inr hLast =>
      cases List.mem_singleton.mp hLast
      cases hMark
  born id row hRow := by
    obtain ⟨u, job, hMem, hId⟩ := h.born id row hRow
    exact ⟨u, job, List.mem_append_left _ hMem, hId⟩
  routed := h.routed

theorem RowsKept.insert (h : RowsKept jobs history) {job : Job} {model : Text}
    (hModel : job.model = some model) (hRoute : ∃ name, providerFor model = .ok name)
    (hNone : jobs.find (job.pendingRow model).jobId = none) :
    RowsKept (jobs.insertNew (job.pendingRow model)) (history ++ [(t, .inserted job)]) where
  inserted u other hMem := by
    cases List.mem_append.mp hMem with
    | inl hOld =>
      obtain ⟨row, hRow, hFrom⟩ := h.inserted u other hOld
      obtain ⟨row', hRow', hBecomes⟩ := grows_insertNew hNone _ row hRow
      exact ⟨row', hRow', hFrom.becomes hBecomes⟩
    | inr hLast =>
      cases List.mem_singleton.mp hLast
      exact ⟨_, KeyedTable.find_insertNew_self hNone, job.from_pendingRow hModel⟩
  born id row hRow := by
    rcases find_insertNew_cases hNone hRow with ⟨hId, _⟩ | hOld
    · exact ⟨t, job, List.mem_append_right _ (List.mem_singleton_self _), hId.symm⟩
    · obtain ⟨u, other, hMem, hId⟩ := h.born id row hOld
      exact ⟨u, other, List.mem_append_left _ hMem, hId⟩
  routed id row hRow := by
    rcases find_insertNew_cases hNone hRow with ⟨_, rfl⟩ | hOld
    · exact hRoute
    · exact h.routed id row hOld

theorem RowsKept.finalize (h : RowsKept jobs history) {k : Text} {result : Result}
    {completedAt : DateTime} {awaited : JobRow} (hRow : jobs.find k = some awaited)
    (hPending : awaited.status = .pending) :
    RowsKept (withResult jobs k result completedAt) history where
  inserted u job hMem := by
    obtain ⟨row, hFound, hFrom⟩ := h.inserted u job hMem
    have hGrows : Grows jobs (withResult jobs k result completedAt) := grows_withResult hRow hPending
    obtain ⟨row', hFound', hBecomes⟩ := hGrows _ row hFound
    exact ⟨row', hFound', hFrom.becomes hBecomes⟩
  born id row hFound := by
    rcases find_withResult_cases hRow hFound with ⟨rfl, _⟩ | ⟨_, hOld⟩
    · exact h.born _ awaited hRow
    · exact h.born id row hOld
  routed id row hFound := by
    rcases find_withResult_cases hRow hFound with ⟨_, rfl⟩ | ⟨_, hOld⟩
    · exact h.routed k awaited hRow
    · exact h.routed id row hOld

/-! ### Finalizes, and how many rows are pending -/

structure FinalizesCounted (jobs : JobTable) (history : Log Mark) : Prop where
  once : ∀ id, history.count (Mark.finalizesJob id) ≤ 1
  terminal_iff : ∀ id, Terminal jobs id ↔ ∃ t, (t, Mark.finalized id) ∈ history
  pending : jobs.count (fun row => row.status = .pending) + history.count Mark.finalizes =
    history.count Mark.inserts

theorem mem_snoc_finalized_iff (hMark : mark.finalizes = false) {id : Text} :
    (∃ u, (u, Mark.finalized id) ∈ history ++ [(t, mark)]) ↔ ∃ u, (u, Mark.finalized id) ∈ history := by
  apply exists_congr
  intro u
  rw [List.mem_append, List.mem_singleton]
  apply or_iff_left
  intro hLast
  cases hLast
  cases hMark

theorem FinalizesCounted.snoc (h : FinalizesCounted jobs history) (hInserts : mark.inserts = false)
    (hFinalizes : mark.finalizes = false) : FinalizesCounted jobs (history ++ [(t, mark)]) where
  once id := by
    rw [Log.count_snoc_of_false (Mark.finalizesJob_of_not hFinalizes id)]
    exact h.once id
  terminal_iff id := (h.terminal_iff id).trans (mem_snoc_finalized_iff hFinalizes).symm
  pending := by
    rw [Log.count_snoc_of_false hInserts, Log.count_snoc_of_false hFinalizes]
    exact h.pending

theorem FinalizesCounted.insert (h : FinalizesCounted jobs history) {job : Job} {new : JobRow}
    (hNone : jobs.find new.jobId = none) (hPending : new.status = .pending) :
    FinalizesCounted (jobs.insertNew new) (history ++ [(t, .inserted job)]) where
  once id := by
    rw [Log.count_snoc_of_false (Mark.finalizesJob_of_not rfl id)]
    exact h.once id
  terminal_iff id :=
    (terminal_insertNew_iff hNone hPending).trans
      ((h.terminal_iff id).trans (mem_snoc_finalized_iff rfl).symm)
  pending := by
    have hPendingCount := count_insertNew hNone hPending
    have hOld := h.pending
    rw [Log.count_snoc_of_true (p := Mark.inserts) rfl, Log.count_snoc_of_false (p := Mark.finalizes) rfl]
    omega

theorem FinalizesCounted.not_mem (h : FinalizesCounted jobs history) {id : Text} {row : JobRow}
    (hRow : jobs.find id = some row) (hPending : row.status = .pending) :
    history.count (Mark.finalizesJob id) = 0 := by
  apply Log.count_eq_zero_iff.mpr
  intro u m hMem
  by_contra hFinalizes
  rw [Bool.not_eq_false, Mark.finalizesJob_iff] at hFinalizes
  subst hFinalizes
  exact not_terminal_of_pending hRow hPending ((h.terminal_iff id).mpr ⟨u, hMem⟩)

theorem FinalizesCounted.finalize (h : FinalizesCounted jobs history) {k : Text} {result : Result}
    {completedAt : DateTime} {awaited : JobRow} (hRow : jobs.find k = some awaited)
    (hPending : awaited.status = .pending) :
    FinalizesCounted (withResult jobs k result completedAt) (history ++ [(t, .finalized k)]) where
  once id := by
    by_cases hId : k = id
    · subst hId
      have hBefore := h.not_mem hRow hPending
      rw [Log.count_snoc_of_true (Mark.finalizesJob_iff.mpr rfl)]
      omega
    · have hOther : (Mark.finalized k).finalizesJob id = false := decide_eq_false hId
      rw [Log.count_snoc_of_false hOther]
      exact h.once id
  terminal_iff id := by
    rw [terminal_withResult_iff hRow hPending, h.terminal_iff id]
    constructor
    · rintro (rfl | ⟨u, hMem⟩)
      · exact ⟨t, List.mem_append_right _ (List.mem_singleton_self _)⟩
      · exact ⟨u, List.mem_append_left _ hMem⟩
    · rintro ⟨u, hMem⟩
      cases List.mem_append.mp hMem with
      | inl hOld => exact .inr ⟨u, hOld⟩
      | inr hLast =>
        cases List.mem_singleton.mp hLast
        exact .inl rfl
  pending := by
    have hPendingCount : (withResult jobs k result completedAt).count
        (fun row => row.status = .pending) + 1 = jobs.count (fun row => row.status = .pending) :=
      count_withResult hRow hPending
    have hOld := h.pending
    rw [Log.count_snoc_of_false (p := Mark.inserts) rfl, Log.count_snoc_of_true (p := Mark.finalizes) rfl]
    omega

/-! ### Callbacks -/

structure CallbacksFollow (history : Log Mark) : Prop where
  /-- A callback is attempted by the delivery whose finalize won. -/
  after : history.EachAfter fun pre t m => ∀ id, m = .calledBack id → (t, Mark.finalized id) ∈ pre
  once : ∀ id, history.count (Mark.callsBackJob id) ≤ 1

theorem CallbacksFollow.snoc (h : CallbacksFollow history) (hMark : mark.callsBack = false) :
    CallbacksFollow (history ++ [(t, mark)]) where
  after := by
    apply Log.eachAfter_snoc h.after
    intro id hCall
    subst hCall
    cases hMark
  once id := by
    rw [Log.count_snoc_of_false (Mark.callsBackJob_of_not hMark id)]
    exact h.once id

theorem CallbacksFollow.mem_finalized (h : CallbacksFollow history) {u : Nat} {id : Text}
    (hMem : (u, Mark.calledBack id) ∈ history) : (u, Mark.finalized id) ∈ history := by
  obtain ⟨pre, post, rfl⟩ := List.append_of_mem hMem
  exact List.mem_append_left _ (h.after pre u _ post rfl id rfl)

/-- A thread that has done nothing but win the finalize makes the first callback. -/
theorem CallbacksFollow.count_eq_zero (h : CallbacksFollow history)
    (hCounted : FinalizesCounted jobs history) {id : Text}
    (hOwn : history.own t = [.finalized id]) : history.count (Mark.callsBackJob id) = 0 := by
  apply Log.count_eq_zero_iff.mpr
  intro u m hMem
  by_contra hCalls
  rw [Bool.not_eq_false, Mark.callsBackJob_iff] at hCalls
  subst hCalls
  have hWon : (t, Mark.finalized id) ∈ history := Log.mem_own_iff.mp (hOwn ▸ List.mem_singleton_self _)
  have hSame : u = t := Log.party_eq_of_count_le_one (hCounted.once id) (h.mem_finalized hMem) hWon
    (Mark.finalizesJob_iff.mpr rfl) (Mark.finalizesJob_iff.mpr rfl)
  subst hSame
  have hAmong : Mark.calledBack id ∈ history.own u := Log.mem_own_iff.mpr hMem
  rw [hOwn, List.mem_singleton] at hAmong
  cases hAmong

theorem CallbacksFollow.callBack (h : CallbacksFollow history) (hCounted : FinalizesCounted jobs history)
    {id : Text} (hOwn : history.own t = [.finalized id]) :
    CallbacksFollow (history ++ [(t, .calledBack id)]) where
  after := by
    apply Log.eachAfter_snoc h.after
    intro other hCall
    cases hCall
    exact Log.mem_own_iff.mp (hOwn ▸ List.mem_singleton_self _)
  once other := by
    by_cases hId : id = other
    · subst hId
      have hBefore := h.count_eq_zero hCounted hOwn
      rw [Log.count_snoc_of_true (Mark.callsBackJob_iff.mpr rfl)]
      omega
    · have hOther : (Mark.calledBack id).callsBackJob other = false := decide_eq_false hId
      rw [Log.count_snoc_of_false hOther]
      exact h.once other

end Moves

end LlmBus
