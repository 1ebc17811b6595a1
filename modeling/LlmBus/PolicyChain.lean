import LlmBus.Foundation.LastWrite
import LlmBus.Framing
import LlmBus.Refusal
import LlmBus.Wiring

/-! # From the form to the job

Where policies are written through the page only, a job that names no model runs on what the
last admitted form said for its project and kind, and that model is always one that the bus
can route.
-/

namespace LlmBus

open Foundation Interaction

/-- What is done to the store, policies being set through the page alone. -/
inductive StoreUse where
  | page (h : Handler) (r : Request)
  | insertPending (job : Job)
  | finalize (result : Result) (completedAt : DateTime)
  | publishWorkerPolicy (policy : WorkerPolicy) (stamped : DateTime)

def Database.use (db : Database) : StoreUse → Database
  | .page h r => (h.handle db r).2
  | .insertPending job => (db.perform (LlmBus.insertPending job)).2
  | .finalize result completedAt => (db.perform (LlmBus.finalize result completedAt)).2
  | .publishWorkerPolicy policy stamped => (db.perform (LlmBus.publishWorkerPolicy policy stamped)).2

/-- The use is an admitted form, and the store takes what it says. -/
def StoreUse.Sets : StoreUse → Text × Text → Text → Prop
  | .page h r, key, model => WriteAdmitted h r key.1 key.2 model ∧ h.storeFault = none ∧
      surrogateFree key.1 = true ∧ surrogateFree key.2 = true ∧ surrogateFree model = true
  | _, _, _ => False

def Database.modelFor (db : Database) (key : Text × Text) : Option Text :=
  (db.modelPolicy.find key).map (·.model)

/-! ### What one use does -/

section Steps

variable {db : Database}

theorem modelPolicy_insertPending (db : Database) (job : Job) :
    (db.perform (insertPending job)).2.modelPolicy = db.modelPolicy := by
  rcases perform_insertPending_cases db job with ⟨e, h⟩ | ⟨row, _, h⟩ | ⟨model, _, _, h⟩
  all_goals rw [h]

theorem modelPolicy_finalize (db : Database) (result : Result) (completedAt : DateTime) :
    (db.perform (finalize result completedAt)).2.modelPolicy = db.modelPolicy := by
  rcases perform_finalize_cases db result completedAt with ⟨_, e, h⟩ | ⟨_, _, h⟩ | ⟨_, _, h⟩
  all_goals rw [h]

theorem modelPolicy_publishWorkerPolicy (db : Database) (policy : WorkerPolicy) (stamped : DateTime) :
    (db.perform (publishWorkerPolicy policy stamped)).2.modelPolicy = db.modelPolicy :=
  @perform_publishWorkerPolicy_keeps _ Database.modelPolicy (fun _ _ => rfl) db policy stamped

theorem modelFor_page_of_sets {h : Handler} {r : Request} {key : Text × Text} {model : Text}
    (hSets : (StoreUse.page h r).Sets key model) : (h.handle db r).2.modelFor key = some model := by
  obtain ⟨hAdmitted, hTaken⟩ := hSets
  rcases h.handle_gated db r with ⟨project, kind, model', hAdmitted', hAfter⟩ | ⟨hNone, _⟩
  · obtain ⟨hProject, hKind, rfl⟩ := h.writeAdmitted_unique hAdmitted hAdmitted'
    have hDone := (@Handler.writePolicy_eq_ok_iff h db key.1 key.2 model).mpr hTaken
    rw [hAfter, ← hProject, ← hKind, Database.modelFor, (h.writePolicy_sets hDone).1]
    rfl
  · exact absurd hAdmitted (hNone _ _ _)

theorem modelFor_page_of_keeps {h : Handler} {r : Request} {key : Text × Text}
    (hKeeps : ∀ model, ¬ (StoreUse.page h r).Sets key model) :
    (h.handle db r).2.modelFor key = db.modelFor key := by
  rcases h.handle_gated db r with ⟨project, kind, model, hAdmitted, hAfter⟩ | ⟨_, hSame | hSame⟩
  · rw [hAfter]
    by_cases hDone : (h.writePolicy db project kind model).1 = .ok ()
    · have hOther : key ≠ (project, kind) := by
        rintro rfl
        exact hKeeps model ⟨hAdmitted, Handler.writePolicy_eq_ok_iff h |>.mp hDone⟩
      rw [Database.modelFor, (h.writePolicy_sets hDone).2 key hOther]
      rfl
    · rw [Database.modelFor, (h.writePolicy_keeps db project kind model).2.2 hDone]
      rfl
  · rw [hSame]
  · rw [hSame]
    rfl

theorem modelFor_congr {db' : Database} (h : db'.modelPolicy = db.modelPolicy) (key : Text × Text) :
    db'.modelFor key = db.modelFor key := by
  rw [Database.modelFor, h]
  rfl

theorem register_modelFor : Register Database.use Database.modelFor StoreUse.Sets where
  writes {use key model} db hSets := by
    cases use with
    | page h r => exact modelFor_page_of_sets hSets
    | _ => exact absurd hSets id
  keeps {use key} db hKeeps := by
    cases use with
    | page h r => exact modelFor_page_of_keeps hKeeps
    | insertPending job => exact modelFor_congr (modelPolicy_insertPending db job) key
    | finalize result completedAt => exact modelFor_congr (modelPolicy_finalize db result completedAt) key
    | publishWorkerPolicy policy stamped =>
      exact modelFor_congr (modelPolicy_publishWorkerPolicy db policy stamped) key

end Steps

/-- The store after all of that. -/
def usedStore (uses : List StoreUse) : Database :=
  uses.foldl Database.use .empty

/-- The model of the last form for the pair that the store took. -/
def InForce (uses : List StoreUse) (project kind model : Text) : Prop :=
  LastWrite StoreUse.Sets uses (project, kind) model

theorem modelFor_usedStore (uses : List StoreUse) (project kind model : Text) :
    (usedStore uses).modelFor (project, kind) = some model ↔ InForce uses project kind model :=
  register_modelFor.held_iff rfl uses

/-- A name that the page can set a policy for. -/
def Trimmed (name : Text) : Prop :=
  name ≠ [] ∧ strip name = name

theorem trimmed_of_strip {raw name : Text} (hStrip : strip raw = name) (hNonblank : name ≠ []) :
    Trimmed name := by
  subst hStrip
  exact ⟨hNonblank, stripBy_stripBy isSpace raw⟩

section InForce

variable {uses : List StoreUse} {project kind model : Text} (h : InForce uses project kind model)
include h

theorem InForce.admitted : ∃ handler r, WriteAdmitted handler r project kind model ∧
    surrogateFree project = true ∧ surrogateFree kind = true := by
  obtain ⟨_, use, _, _, hSets, _⟩ := h
  cases use with
  | page handler r => exact ⟨handler, r, hSets.1, hSets.2.2.1, hSets.2.2.2.1⟩
  | _ => exact absurd hSets id

theorem InForce.exists_providerFor : ∃ name, providerFor model = .ok name := by
  obtain ⟨handler, r, hAdmitted, _⟩ := h.admitted
  have hRegistered := hAdmitted.model_registered
  rw [exists_providerFor_iff, ← mem_capabilities_iff, ← isSome_lookup_iff]
  exact hRegistered

theorem InForce.trimmed : Trimmed project ∧ Trimmed kind := by
  obtain ⟨handler, r, hAdmitted, _⟩ := h.admitted
  obtain ⟨_, _, _, _, hProject, hKind, _⟩ := hAdmitted.body
  exact ⟨trimmed_of_strip hProject hAdmitted.project_nonblank,
    trimmed_of_strip hKind hAdmitted.kind_nonblank⟩

end InForce

/-! ### What a submit makes of it -/

section Submit

variable {pyd : Pydantic} {py : Interpreter} {reply : (op : BusOp pyd) → op.Reply} {s : BusState pyd}
  {job : Job} {uses : List StoreUse}

theorem resolves_iff (hStore : s.db = usedStore uses) (hOpen : job.model = none) {model : Text} :
    Resolves reply s job model ↔
      (∃ found, reply (.modelPolicy job.project job.kind) = .ok found) ∧
        InForce uses job.project job.kind model := by
  have hFound : InForce uses job.project job.kind model ↔
      ∃ policy, s.db.modelPolicy.find (job.project, job.kind) = some policy ∧ policy.model = model := by
    rw [← modelFor_usedStore, ← hStore, Database.modelFor, Option.map_eq_some_iff]
  unfold Resolves
  rw [hOpen]
  constructor
  · rintro (hOwn | ⟨_, hRead, _, _, hPolicy⟩)
    · cases hOwn
    · exact ⟨hRead, hFound.mpr hPolicy⟩
  · rintro ⟨hRead, hInForce⟩
    obtain ⟨_, _, _, hProject, hKind⟩ := hInForce.admitted
    exact .inr ⟨rfl, hRead, hProject, hKind, hFound.mp hInForce⟩

theorem run_sendAndReturn (asked : List (BusOp pyd)) :
    run (producerAnswer reply) (sendAndReturn job) (s, asked) =
      match encodeJob pyd job with
      | .error e => (.error e, s, asked)
      | .ok payload => ((reply (.sendMessages payload)).outcome.map fun _ => job.jobId,
          if (reply (.sendMessages payload)).placed then s.append ⟨payload, true⟩ else s,
          asked ++ [.sendMessages payload]) := by
  rw [sendAndReturn, sendJob_eq, Program.bind_assoc, run_bind, run_ofExcept]
  cases encodeJob pyd job with
  | error e => rfl
  | ok payload =>
    simp only [Program.ask_bind, run_ask, producerAnswer_eq, run_bind, run_ofExcept, BusState.perform]
    cases (reply (.sendMessages payload)).outcome with
    | error e => rfl
    | ok u => rfl

theorem db_sendAndReturn (asked : List (BusOp pyd)) :
    (run (producerAnswer reply) (sendAndReturn job) (s, asked)).2.1.db = s.db := by
  rw [run_sendAndReturn]
  cases encodeJob pyd job with
  | error e => rfl
  | ok payload =>
    simp only
    split <;> rfl

/-- A row that was not there before the submit is the job's own, with its model. -/
theorem row_of_insertAndSend (asked : List (BusOp pyd)) (hNew : s.db.jobs.find job.jobId.text = none)
    {row : JobRow} (hRow : (run (producerAnswer reply) (insertAndSend job) (s, asked)).2.1.db.jobs.find
      job.jobId.text = some row) : ∃ model, job.model = some model ∧ row = job.pendingRow model := by
  rw [insertAndSend, run_ask, producerAnswer_eq] at hRow
  rcases @perform_insertPending pyd 0 s job (reply (.insertPending job)) with
    ⟨e, hPerform⟩ | ⟨held, hHeld, _⟩ | ⟨model, hModel, hNone, hPerform⟩
  · rw [hPerform] at hRow
    cases hNew.symm.trans hRow
  · rw [hNew] at hHeld
    cases hHeld
  · rw [hPerform] at hRow
    simp only [Program.ofExcept_ok, Program.ret_bind, if_true, db_sendAndReturn] at hRow
    have hSelf := KeyedTable.find_insertNew_self hNone
    refine ⟨model, hModel, Option.some.inj (hRow.symm.trans hSelf)⟩

/-- What a submit needs beside its model to get through. -/
structure GoesThrough (reply : (op : BusOp pyd) → op.Reply) (s : BusState pyd) (job : Job) : Prop where
  stored : ∃ inserted, reply (.insertPending job) = .ok inserted
  dumped : Value.dumpFailureEntries job.metadata = none
  encodable : Encodable pyd job
  new : s.db.jobs.find job.jobId.text = none
  sent : ∀ payload, reply (.sendMessages payload) = ⟨true, .ok ()⟩

theorem run_insertAndSend {model : Text} (hModel : job.model = some model)
    (h : GoesThrough reply s job) (asked : List (BusOp pyd)) :
    ∃ payload, encodeJob pyd job = .ok payload ∧
      (run (producerAnswer reply) (insertAndSend job) (s, asked)).1 = .ok job.jobId ∧
      (run (producerAnswer reply) (insertAndSend job) (s, asked)).2.1.db.jobs.find job.jobId.text =
        some (job.pendingRow model) ∧
      (run (producerAnswer reply) (insertAndSend job) (s, asked)).2.1.topic =
        s.topic ++ [⟨payload, true⟩] := by
  obtain ⟨payload, hEncode⟩ := (exists_encodeJob_iff pyd job).mpr h.encodable
  refine ⟨payload, hEncode, ?_⟩
  rw [insertAndSend, run_ask, producerAnswer_eq]
  rcases @perform_insertPending pyd 0 s job (reply (.insertPending job)) with
    ⟨e, hPerform⟩ | ⟨held, hHeld, _⟩ | ⟨model', hModel', hNone, hPerform⟩
  · have hText := h.encodable.text
    simp only [Job.valuesFree, hModel, Option.all_some, Bool.and_eq_true] at hText
    obtain ⟨⟨⟨⟨⟨⟨hProject, _⟩, hName⟩, _⟩, _⟩, _⟩, _⟩ := hText
    obtain ⟨inserted, after, hOk⟩ := (perform_insertPending_succeeds_iff (s := s) _).mpr
      ⟨h.stored, h.dumped, hProject, model, hModel, hName⟩
    rw [hOk] at hPerform
    cases hPerform
  · rw [h.new] at hHeld
    cases hHeld
  · obtain rfl : model' = model := Option.some.inj (hModel'.symm.trans hModel)
    rw [hPerform]
    simp only [Program.ofExcept_ok, Program.ret_bind, if_true, run_sendAndReturn, hEncode, h.sent]
    exact ⟨rfl, KeyedTable.find_insertNew_self hNone, rfl⟩

/-- Nothing is in force for the pair: the submit raises before it writes anything. -/
theorem submitRun_of_none (hStore : s.db = usedStore uses) (hOpen : job.model = none)
    (hNone : ∀ model, ¬ InForce uses job.project job.kind model) :
    (∃ e, (submitRun py reply s job).1 = .error e) ∧ (submitRun py reply s job).2.1 = s ∧
      ∀ payload, BusOp.sendMessages payload ∉ (submitRun py reply s job).2.2 := by
  obtain ⟨asked, hAsked, ⟨e, hRun, _⟩ | ⟨model, hResolves, _⟩⟩ := @submitRun_cases pyd py reply s job
  · rw [hRun]
    exact ⟨⟨e, rfl⟩, rfl, hAsked⟩
  · exact absurd ((resolves_iff hStore hOpen).mp hResolves).2 (hNone model)

/-- A job that names no model gets the one in force for its project and kind, which always has
a route and whose names are never blank or padded; where none is in force the submit raises
with nothing written; and no row it adds has any other model. -/
theorem job_runs_on_last_form (py : Interpreter) (reply : (op : BusOp pyd) → op.Reply)
    (hStore : s.db = usedStore uses) (hOpen : job.model = none) :
    (∀ model, InForce uses job.project job.kind model → (∃ name, providerFor model = .ok name) ∧
        Trimmed job.project ∧ Trimmed job.kind) ∧
      ((∀ model, ¬ InForce uses job.project job.kind model) →
        (∃ e, (submitRun py reply s job).1 = .error e) ∧ (submitRun py reply s job).2.1 = s ∧
          ∀ payload, BusOp.sendMessages payload ∉ (submitRun py reply s job).2.2) ∧
      (∀ row, s.db.jobs.find job.jobId.text = none →
        (submitRun py reply s job).2.1.db.jobs.find job.jobId.text = some row →
          InForce uses job.project job.kind row.model ∧ row = job.pendingRow row.model) ∧
      ∀ model, InForce uses job.project job.kind model →
        (∃ found, reply (.modelPolicy job.project job.kind) = .ok found) →
        GoesThrough reply s (job.withModel model) →
          ∃ payload, encodeJob pyd (job.withModel model) = .ok payload ∧
            (submitRun py reply s job).1 = .ok job.jobId ∧
            (submitRun py reply s job).2.1.db.jobs.find job.jobId.text = some (job.pendingRow model) ∧
            (submitRun py reply s job).2.1.topic = s.topic ++ [⟨payload, true⟩] := by
  refine ⟨fun model h => ⟨h.exists_providerFor, h.trimmed⟩, submitRun_of_none hStore hOpen,
    fun row hNew hRow => ?_, fun model hInForce hRead hThrough => ?_⟩
  · obtain ⟨asked, _, ⟨e, hRun, _⟩ | ⟨model, hResolves, _, hRun⟩⟩ := @submitRun_cases pyd py reply s job
    · rw [hRun, hNew] at hRow
      cases hRow
    · rw [hRun] at hRow
      obtain ⟨model', hModel, rfl⟩ := @row_of_insertAndSend pyd reply s (job.withModel model) asked hNew row hRow
      cases hModel
      exact ⟨((resolves_iff hStore hOpen).mp hResolves).2, rfl⟩
  · have hResolved := (resolves_iff hStore hOpen).mpr ⟨hRead, hInForce⟩
    obtain ⟨asked, _, ⟨e, _, hRefused⟩ | ⟨model', hResolves, _, hRun⟩⟩ :=
      @submitRun_cases pyd py reply s job
    · exact absurd hInForce.exists_providerFor (hRefused model hResolved)
    · obtain rfl := hResolved.unique hResolves
      rw [hRun]
      exact run_insertAndSend rfl hThrough asked

end Submit

/-- The form that sets a model for the project `demo` and its kind `chat`. -/
def demoForm : StoreUse :=
  .page ⟨.ascii, some (txt "s"), .startOf newYear2026, none⟩ ⟨txt "POST", txt "/policy",
    [(txt "authorization", txt "Basic OnM="), (txt "Content-Length", txt "35")],
    Http.toLatin1 (txt "project=demo&kind=+chat&model=gpt-5")⟩

def openJob : Job :=
  { plainJob with jobId := ⟨1⟩, model := none }

theorem job_runs_on_last_form_demo :
    let s : BusState .tree := ⟨usedStore [demoForm, .insertPending plainJob], [], []⟩
    (submitRun .ascii calmReply s openJob).1 = .ok openJob.jobId ∧
      (submitRun .ascii calmReply s openJob).2.1.db.jobs.find openJob.jobId.text =
        some (openJob.pendingRow (txt "gpt-5")) := by
  intro s
  have hInForce : InForce [demoForm, .insertPending plainJob] (txt "demo") (txt "chat") (txt "gpt-5") :=
    (modelFor_usedStore _ _ _ _).mp (by decide +kernel)
  have hNew : s.db.jobs.find openJob.jobId.text = none := by
    cases hFound : s.db.jobs.find openJob.jobId.text with
    | none => rfl
    | some row =>
      have hEmpty : (s.db.jobs.find openJob.jobId.text).isNone = true := by decide +kernel
      rw [hFound] at hEmpty
      cases hEmpty
  have hThrough : GoesThrough calmReply s (openJob.withModel (txt "gpt-5")) :=
    ⟨⟨true, rfl⟩, rfl, ⟨rfl, rfl, by decide, by decide⟩, hNew, fun _ => rfl⟩
  obtain ⟨payload, _, hId, hRow, _⟩ :=
    (@job_runs_on_last_form .tree s openJob _ .ascii calmReply rfl rfl).2.2.2 (txt "gpt-5")
      hInForce ⟨none, rfl⟩ hThrough
  exact ⟨hId, hRow⟩

end LlmBus
