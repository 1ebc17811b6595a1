import LlmBus.Store

/-! # The store's operations as single steps

Seen from outside, an operation with its commit is one step: what it can return, and what
it then did to the three tables.
-/

namespace LlmBus

open Foundation Transaction Interaction

variable {db : Database}

/-! ### `insert_pending` -/

theorem insertJob_eq_ok {jobId : JobId} {project : Text} {model : Option Text} {metadata : Entries}
    {submittedAt : DateTime} {out : Answer × Database}
    (h : insertJob jobId.text project model metadata submittedAt db = .ok out) :
    ∃ m, model = some m ∧
      match db.jobs.find jobId.text with
      | some _ => out = (.rowcount 0, db)
      | none => out = (.rowcount 1,
          { db with jobs := db.jobs.insertNew (pendingRow jobId.text project m metadata submittedAt) }) := by
  simp only [insertJob, bind_eq_ok_iff] at h
  obtain ⟨_, _, _, _, _, _, h⟩ := h
  cases model with
  | none => cases h
  | some m =>
    refine ⟨m, rfl, ?_⟩
    cases hFind : db.jobs.find jobId.text with
    | none =>
      simp only [hFind] at h
      cases h
      rfl
    | some row =>
      simp only [hFind] at h
      cases h
      rfl

theorem perform_insertPending_cases (db : Database) (job : Job) :
    (∃ e, db.perform (insertPending job) = (.error e, db)) ∨
      (∃ row, db.jobs.find job.jobId.text = some row ∧
        db.perform (insertPending job) = (.ok false, db)) ∨
      (∃ model, job.model = some model ∧ db.jobs.find job.jobId.text = none ∧
        db.perform (insertPending job) = (.ok true, { db with
          jobs := db.jobs.insertNew
            (pendingRow job.jobId.text job.project model job.metadata job.submittedAt) })) := by
  unfold Database.perform insertPending
  cases Value.dumpFailureEntries job.metadata with
  | some e => exact .inl ⟨e, rfl⟩
  | none =>
    simp only
    rw [atomically_single rfl]
    simp only [storeDialect, Statement.apply]
    cases hApply : insertJob job.jobId.text job.project job.model job.metadata job.submittedAt db with
    | error e => exact .inl ⟨e, rfl⟩
    | ok out =>
      obtain ⟨model, hModel, hOut⟩ := insertJob_eq_ok hApply
      cases hFind : db.jobs.find job.jobId.text with
      | some row =>
        rw [hFind] at hOut
        cases hOut
        exact .inr (.inl ⟨row, rfl, rfl⟩)
      | none =>
        rw [hFind] at hOut
        cases hOut
        exact .inr (.inr ⟨model, hModel, rfl, rfl⟩)

/-! ### `finalize` -/

/-- The row it would change waits for it. -/
def Awaited (db : Database) (jobId : JobId) : Prop :=
  ∃ row, db.jobs.find jobId.text = some row ∧ row.status = .pending

theorem finalizeJob_eq_ok_iff {result : Result} {completedAt : DateTime} {out : Answer × Database} :
    finalizeJob result completedAt db = .ok out ↔ Bindable result ∧
      ((Awaited db result.jobId ∧ result.usage.costUsd.isNan = false ∧ out = (.rowcount 1, { db with
          jobs := db.jobs.update result.jobId.text (JobRow.finalize result completedAt)
            (JobRow.jobId_finalize result completedAt) })) ∨
        (¬ Awaited db result.jobId ∧ out = (.rowcount 0, db))) := by
  simp only [finalizeJob, bind_eq_ok_iff, bindResult_eq_ok_iff, exists_const]
  apply and_congr_right
  intro _
  cases hFind : db.jobs.find result.jobId.text with
  | none =>
    have hAbsent : ¬ Awaited db result.jobId := by
      rintro ⟨row, hRow, _⟩
      rw [hFind] at hRow
      cases hRow
    simp only [hAbsent, false_and, not_false_eq_true, true_and, false_or]
    exact ⟨fun h => (Except.ok.inj h).symm, fun h => congrArg Except.ok h.symm⟩
  | some row =>
    simp only
    split
    · rename_i hPending
      have hAwaited : Awaited db result.jobId := ⟨row, hFind, hPending⟩
      simp only [hAwaited, true_and, not_true_eq_false, false_and, or_false, bind_eq_ok_iff,
        notNull_eq_ok_iff, exists_const]
      exact and_congr_right fun _ =>
        ⟨fun h => (Except.ok.inj h).symm, fun h => congrArg Except.ok h.symm⟩
    · rename_i hTerminal
      have hSettled : ¬ Awaited db result.jobId := by
        rintro ⟨row', hRow, hPending⟩
        rw [hFind] at hRow
        cases hRow
        exact hTerminal hPending
      simp only [hSettled, false_and, not_false_eq_true, true_and, false_or]
      exact ⟨fun h => (Except.ok.inj h).symm, fun h => congrArg Except.ok h.symm⟩

theorem finalizeJob_succeeds_iff {result : Result} {completedAt : DateTime} :
    (∃ out, finalizeJob result completedAt db = .ok out) ↔
      Bindable result ∧ (Awaited db result.jobId → result.usage.costUsd.isNan = false) := by
  simp only [finalizeJob_eq_ok_iff, exists_and_left]
  apply and_congr_right
  intro _
  by_cases hAwaited : Awaited db result.jobId
  · simp only [hAwaited, true_and, not_true_eq_false, false_and, or_false, exists_and_left,
      exists_eq, and_true, forall_const]
  · simp only [hAwaited, false_and, not_false_eq_true, true_and, false_or, exists_eq,
      false_implies]

/-- It fails on values it cannot hold, finds no row waiting, or makes the waiting row
terminal. -/
theorem perform_finalize_cases (db : Database) (result : Result) (completedAt : DateTime) :
    (¬ (Bindable result ∧ (Awaited db result.jobId → result.usage.costUsd.isNan = false)) ∧
        ∃ e, db.perform (finalize result completedAt) = (.error e, db)) ∨
      (Bindable result ∧ ¬ Awaited db result.jobId ∧
        db.perform (finalize result completedAt) = (.ok false, db)) ∨
      (Bindable result ∧ Awaited db result.jobId ∧
        db.perform (finalize result completedAt) = (.ok true, { db with
          jobs := db.jobs.update result.jobId.text (JobRow.finalize result completedAt)
            (JobRow.jobId_finalize result completedAt) })) := by
  unfold Database.perform finalize
  rw [atomically_single rfl]
  simp only [storeDialect, Statement.apply]
  cases hApply : finalizeJob result completedAt db with
  | error e =>
    refine .inl ⟨?_, e, rfl⟩
    intro hHeld
    obtain ⟨out, hOk⟩ := finalizeJob_succeeds_iff.mpr hHeld
    rw [hApply] at hOk
    cases hOk
  | ok out =>
    obtain ⟨hBindable, ⟨hAwaited, _, rfl⟩ | ⟨hNone, rfl⟩⟩ := finalizeJob_eq_ok_iff.mp hApply
    · exact .inr (.inr ⟨hBindable, hAwaited, rfl⟩)
    · exact .inr (.inl ⟨hBindable, hNone, rfl⟩)

/-! ### The two policy tables -/

theorem perform_setModelPolicy_cases (db : Database) (project kind model : Text)
    (updatedAt : DateTime) :
    (∃ e, db.perform (setModelPolicy project kind model updatedAt) = (.error e, db)) ∨
      db.perform (setModelPolicy project kind model updatedAt) = (.ok (), { db with
        modelPolicy := db.modelPolicy.upsert ⟨project, kind, model, updatedAt⟩
          ModelPolicy.replacedBy ModelPolicy.key_replacedBy }) := by
  unfold Database.perform setModelPolicy
  rw [atomically_single rfl]
  simp only [storeDialect, Statement.apply]
  cases hApply : upsertModelPolicy ⟨project, kind, model, updatedAt⟩ db with
  | error e => exact .inl ⟨e, rfl⟩
  | ok out =>
    simp only [upsertModelPolicy, bind_eq_ok_iff] at hApply
    obtain ⟨_, _, _, _, _, _, hOut⟩ := hApply
    cases hOut
    exact .inr rfl

theorem perform_setModelPolicy_jobs (db : Database) (project kind model : Text)
    (updatedAt : DateTime) :
    (db.perform (setModelPolicy project kind model updatedAt)).2.jobs = db.jobs := by
  rcases perform_setModelPolicy_cases db project kind model updatedAt with ⟨e, h⟩ | h
  · rw [h]
  · rw [h]

section Publish

variable {γ : Type} {part : Database → γ}
  (hPart : ∀ (db : Database) (table : Option PolicyTable), part { db with workerPolicy := table } = part db)
include hPart

theorem frames_upsertWorkerPolicy (values : PolicyValues) :
    Frames storeDialect part (.execute (.upsertWorkerPolicy values)) := by
  intro d a d' h
  simp only [storeDialect, Statement.apply, upsertWorkerPolicy] at h
  split at h
  · cases h
  · split at h
    · simp only [bind_eq_ok_iff] at h
      obtain ⟨_, _, _, _, _, _, _, _, _, _, h⟩ := h
      cases h
      exact hPart d _
    · cases h

omit hPart in
theorem every_execute {statement : Statement} (h : Frames storeDialect part (.execute statement)) :
    Every (Frames storeDialect part) (fun _ => True) (execute statement : Session Answer) :=
  ⟨h, fun _ => every_ofExcept fun _ _ => trivial⟩

theorem every_rebuildWorkerPolicyIfStale :
    Every (Frames storeDialect part) (fun _ => True) rebuildWorkerPolicyIfStale := by
  have hInfo : Frames storeDialect part (.execute .policyTableInfo) := by
    intro d a d' h
    cases h
    rfl
  have hDrop : Frames storeDialect part (.execute .dropWorkerPolicy) := by
    intro d a d' h
    simp only [storeDialect, Statement.apply] at h
    split at h
    · cases h
    · cases h
      exact hPart d _
  have hCreate : Frames storeDialect part (.execute .createWorkerPolicy) := by
    intro d a d' h
    cases h
    exact hPart d _
  refine (every_execute hInfo).bind fun info _ => ?_
  split
  · exact (every_execute hDrop).bind fun _ _ => (every_execute hCreate).bind fun _ _ => trivial
  · trivial

/-- Publishing the worker's policy, the repair of its table included, stays in that table. -/
theorem perform_publishWorkerPolicy_keeps (db : Database) (policy : WorkerPolicy) (updatedAt : DateTime) :
    part (db.perform (publishWorkerPolicy policy updatedAt)).2 = part db := by
  apply atomically_frames
  refine Every.bind (P := fun _ => True) ⟨trivial, fun _ => every_ofExcept fun _ _ => trivial⟩ fun _ _ => ?_
  apply (every_rebuildWorkerPolicyIfStale hPart).bind
  intro _ _
  refine Every.bind (every_ofExcept (P := fun _ => True) fun _ _ => trivial) fun budget _ => ?_
  refine (every_execute (frames_upsertWorkerPolicy hPart _)).bind fun _ _ => ?_
  exact ⟨trivial, fun _ => every_ofExcept fun _ _ => trivial⟩

end Publish

theorem perform_publishWorkerPolicy_jobs (db : Database) (policy : WorkerPolicy)
    (updatedAt : DateTime) :
    (db.perform (publishWorkerPolicy policy updatedAt)).2.jobs = db.jobs :=
  @perform_publishWorkerPolicy_keeps _ Database.jobs (fun _ _ => rfl) db policy updatedAt

end LlmBus
