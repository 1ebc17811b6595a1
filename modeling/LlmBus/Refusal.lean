import LlmBus.AtLeastOnce
import LlmBus.StoreFailures

/-! # A submit that is refused

`submit` inserts the row before it writes the message, and the store's encoder and the
wire's refuse different jobs. What a submit that raises leaves behind is settled by which
of the two refuses it.
-/

namespace LlmBus

open Foundation Interaction

/-! ### What the wire's encoder takes -/

mutual

/-- Nothing inside that JSON has no form for. -/
def Value.hasJson : Value → Bool
  | .list items => Value.hasJsonList items
  | .dict entries => Value.hasJsonEntries entries
  | .object _ => false
  | _ => true

def Value.hasJsonList : List Value → Bool
  | [] => true
  | v :: rest => v.hasJson && Value.hasJsonList rest

def Value.hasJsonEntries : Entries → Bool
  | [] => true
  | (_, v) :: rest => v.hasJson && Value.hasJsonEntries rest

end

mutual

theorem Value.isSome_toJson : ∀ v : Value, v.toJson.isSome = v.hasJson
  | .null => rfl
  | .bool _ => rfl
  | .int _ => rfl
  | .float _ => rfl
  | .str _ => rfl
  | .list items => by
    rw [Value.toJson, Option.isSome_map, Value.isSome_toJsonList items, Value.hasJson]
  | .dict entries => by
    rw [Value.toJson, Option.isSome_map, Value.isSome_toJsonEntries entries, Value.hasJson]
  | .object _ => rfl

theorem Value.isSome_toJsonList : ∀ items : List Value,
    (Value.toJsonList items).isSome = Value.hasJsonList items
  | [] => rfl
  | v :: rest => by
    rw [Value.hasJsonList, ← Value.isSome_toJson v, ← Value.isSome_toJsonList rest, Value.toJsonList]
    cases v.toJson with
    | none => rfl
    | some j =>
      cases Value.toJsonList rest with
      | none => rfl
      | some js => rfl

theorem Value.isSome_toJsonEntries : ∀ entries : Entries,
    (Value.toJsonEntries entries).isSome = Value.hasJsonEntries entries
  | [] => rfl
  | (k, v) :: rest => by
    rw [Value.hasJsonEntries, ← Value.isSome_toJson v, ← Value.isSome_toJsonEntries rest,
      Value.toJsonEntries]
    cases v.toJson with
    | none => rfl
    | some j =>
      cases Value.toJsonEntries rest with
      | none => rfl
      | some js => rfl

end

theorem isSome_dictJson (pyd : Pydantic) (entries : Entries) :
    (dictJson pyd entries).isSome = Value.hasJsonEntries entries := by
  rw [dictJson, Option.isSome_map, Value.isSome_toJsonEntries]

def JobParams.hasJson (params : JobParams) : Bool :=
  params.responseFormat.all fun format => Value.hasJsonEntries format.jsonSchema

theorem JobParams.isSome_toJson (pyd : Pydantic) (params : JobParams) :
    (params.toJson pyd).isSome = params.hasJson := by
  rw [JobParams.toJson, JobParams.hasJson]
  cases params.responseFormat with
  | none => rfl
  | some format =>
    simp only [Option.isSome_map, ResponseFormat.toJson, isSome_dictJson, Option.all_some]

theorem Job.isSome_toJson (pyd : Pydantic) (job : Job) :
    (job.toJson pyd).isSome = (job.params.hasJson && Value.hasJsonEntries job.metadata) := by
  rw [← JobParams.isSome_toJson pyd, ← isSome_dictJson pyd, Job.toJson]
  cases job.params.toJson pyd with
  | none => rfl
  | some params =>
    cases dictJson pyd job.metadata with
    | none => rfl
    | some metadata => rfl

/-- A job whose free-form values all have a JSON form, nested no deeper than the library writes,
and whose strings are valid Unicode, the keys of its free-form dicts apart. -/
structure Encodable (pyd : Pydantic) (job : Job) : Prop where
  schema : job.params.hasJson = true
  metadata : Value.hasJsonEntries job.metadata = true
  text : job.valuesFree = true
  nesting : job.writable pyd = true

theorem exists_encodeJob_iff (pyd : Pydantic) (job : Job) :
    (∃ payload, encodeJob pyd job = .ok payload) ↔ Encodable pyd job := by
  have hSome := Job.isSome_toJson pyd job
  cases hJson : job.toJson pyd with
  | none =>
    rw [hJson] at hSome
    refine iff_of_false ?_ fun h => ?_
    · rw [encodeJob, hJson]
      rintro ⟨_, hPayload⟩
      cases hPayload
    · rw [h.schema, h.metadata] at hSome
      cases hSome
  | some json =>
    rw [hJson, Option.isSome_some, eq_comm, Bool.and_eq_true] at hSome
    rw [exists_encodeJob_iff_of_toJson pyd job hJson]
    constructor
    · rintro ⟨hText, hNesting⟩
      exact ⟨hSome.1, hSome.2, hText, hNesting⟩
    · exact fun h => ⟨h.text, h.nesting⟩

/-! ### One submit on its own -/

section Submit

variable {pyd : Pydantic} (py : Interpreter) (reply : (op : BusOp pyd) → op.Reply)
  (s : BusState pyd) (job : Job)

/-- The store and the topic answer; the requests fail where `reply` says so. -/
def producerAnswer : BusState pyd × List (BusOp pyd) → (op : BusOp pyd) →
    op.Reply × BusState pyd × List (BusOp pyd) :=
  recorded (I := busInterface pyd) fun s op => s.perform 0 op (reply op)

/-- A submit with what it has asked for. -/
def submitRun : Except PyError JobId × BusState pyd × List (BusOp pyd) :=
  run (producerAnswer reply) (submit py job) (s, [])

/-- A submit that raises leaves neither row nor message, or it is the broker's send that failed. -/
def LeavesNothing (out : Except PyError JobId × BusState pyd × List (BusOp pyd)) : Prop :=
  ∀ e, out.1 = .error e → (out.2.1.db = s.db ∧ out.2.1.topic = s.topic) ∨
    ∃ payload, BusOp.sendMessages payload ∈ out.2.2 ∧ (reply (.sendMessages payload)).outcome = .error e

/-- The model that the job names or else the policy table gives it. -/
def Resolves (model : Text) : Prop :=
  job.model = some model ∨
    job.model = none ∧ (∃ found, reply (.modelPolicy job.project job.kind) = .ok found) ∧
      surrogateFree job.project = true ∧ surrogateFree job.kind = true ∧
        ∃ policy, s.db.modelPolicy.find (job.project, job.kind) = some policy ∧ policy.model = model

/-- The submit gets past its insert. -/
structure Accepted (model : Text) : Prop where
  resolved : Resolves reply s job model
  routed : ∃ name, providerFor model = .ok name
  stored : ∃ inserted, reply (.insertPending (job.withModel model)) = .ok inserted
  dumped : Value.dumpFailureEntries job.metadata = none
  project : surrogateFree job.project = true
  model : surrogateFree model = true

def resolvedModel : Except PyError Text :=
  match job.model with
  | some model => .ok model
  | none =>
    (s.read (reply (.modelPolicy job.project job.kind)) (s.db.readModelPolicy job.project job.kind)).1 >>=
      fun policy => resolveModel py job (policy.map (·.model))

variable {py reply s job}

theorem resolvedModel_eq_ok_iff {model : Text} :
    resolvedModel py reply s job = .ok model ↔ Resolves reply s job model := by
  unfold resolvedModel Resolves
  cases hModel : job.model with
  | some own => simp
  | none =>
    cases hReply : reply (.modelPolicy job.project job.kind) with
    | error e => simp [BusState.read, bind, Except.bind]
    | ok found =>
      simp only [BusState.read, bind_eq_ok_iff, Database.readModelPolicy, bindText_eq_ok_iff, pure,
        Except.pure, Except.ok.injEq, exists_const, reduceCtorEq, false_or, true_and,
        resolveModel, hModel]
      constructor
      · rintro ⟨policy, ⟨hProject, hKind, hPolicy⟩, hModel'⟩
        cases hFound : s.db.modelPolicy.find (job.project, job.kind) with
        | none =>
          rw [← hPolicy, hFound] at hModel'
          cases hModel'
        | some row =>
          rw [← hPolicy, hFound] at hModel'
          exact ⟨⟨found, rfl⟩, hProject, hKind, row, rfl, Except.ok.inj hModel'⟩
      · rintro ⟨_, hProject, hKind, row, hFound, rfl⟩
        exact ⟨some row, ⟨hProject, hKind, hFound⟩, rfl⟩

theorem producerAnswer_eq (asked : List (BusOp pyd)) (op : BusOp pyd) :
    producerAnswer reply (s, asked) op =
      ((s.perform 0 op (reply op)).1, (s.perform 0 op (reply op)).2, asked ++ [op]) := rfl

/-- What resolves the model asks for no send and leaves everything as it is. -/
theorem run_resolveModelName :
    ∃ asked, (∀ payload, BusOp.sendMessages payload ∉ asked) ∧
      run (producerAnswer reply) (resolveModelName py job) (s, []) =
        (resolvedModel py reply s job, s, asked) := by
  unfold resolveModelName resolvedModel
  cases hModel : job.model with
  | some own => exact ⟨[], fun _ => List.not_mem_nil, rfl⟩
  | none =>
    have hStill : (s.perform 0 (.modelPolicy job.project job.kind)
        (reply (.modelPolicy job.project job.kind))).2 = s := read_snd _ _ _
    refine ⟨[.modelPolicy job.project job.kind], fun _ hMem => ?_, ?_⟩
    · cases List.mem_singleton.mp hMem
    · simp only [Bus.modelPolicy, Program.bind_eq, Program.ask_bind, run_ask, producerAnswer_eq, hStill,
        run_bind, run_ofExcept]
      rw [BusState.perform]
      cases (s.read (reply (.modelPolicy job.project job.kind))
        (s.db.readModelPolicy job.project job.kind)).1 with
      | error e => rfl
      | ok policy => rfl

/-- What writes and sends the message leaves everything as it is up to the send. -/
theorem run_sendJob (asked : List (BusOp pyd)) :
    (∃ e, encodeJob pyd job = .error e ∧
      run (producerAnswer reply) (sendJob job) (s, asked) = (.error e, s, asked)) ∨
    ∃ payload after, encodeJob pyd job = .ok payload ∧
      run (producerAnswer reply) (sendJob job) (s, asked) =
        ((reply (.sendMessages payload)).outcome, after, asked ++ [.sendMessages payload]) := by
  rw [sendJob_eq, run_bind, run_ofExcept]
  cases hEncode : encodeJob pyd job with
  | error e => exact .inl ⟨e, rfl, rfl⟩
  | ok payload =>
    refine .inr ⟨payload, (s.perform 0 (.sendMessages payload) (reply (.sendMessages payload))).2, rfl, ?_⟩
    simp only [run_ask, producerAnswer_eq, run_ofExcept]
    rfl

theorem insertPending_succeeds_iff (db : Database) (job : Job) :
    (∃ inserted after, db.perform (insertPending job) = (.ok inserted, after)) ↔
      Value.dumpFailureEntries job.metadata = none ∧ surrogateFree job.project = true ∧
        ∃ model, job.model = some model ∧ surrogateFree model = true := by
  unfold Database.perform insertPending
  cases hDump : Value.dumpFailureEntries job.metadata with
  | some e =>
    refine iff_of_false ?_ nofun
    rintro ⟨inserted, after, hPerform⟩
    cases hPerform
  | none =>
    simp only [true_and]
    rw [Transaction.atomically_single rfl, ← insertJob_succeeds_iff]
    simp only [storeDialect, Statement.apply]
    constructor
    · rintro ⟨inserted, after, hPerform⟩
      split at hPerform
      · cases hPerform
      · rename_i out hApply
        exact ⟨_, hApply⟩
    · rintro ⟨out, hApply⟩
      rw [hApply]
      exact ⟨_, _, rfl⟩

theorem perform_insertPending_succeeds_iff {job : Job} (proposal : Except PyError Bool) :
    (∃ inserted after, s.perform 0 (.insertPending job) proposal = (.ok inserted, after)) ↔
      (∃ inserted, proposal = .ok inserted) ∧ Value.dumpFailureEntries job.metadata = none ∧
        surrogateFree job.project = true ∧ ∃ model, job.model = some model ∧ surrogateFree model = true := by
  rw [← insertPending_succeeds_iff s.db]
  cases proposal with
  | error e =>
    refine iff_of_false ?_ ?_
    · rintro ⟨inserted, after, hPerform⟩
      cases hPerform
    · rintro ⟨⟨inserted, hProposal⟩, _⟩
      cases hProposal
  | ok proposed =>
    simp only [BusState.perform, BusState.write, Except.ok.injEq, exists_eq', true_and]
    cases hPerform : s.db.perform (insertPending job) with
    | mk outcome db =>
      cases outcome with
      | error e => simp
      | ok inserted =>
        cases inserted with
        | false => simp
        | true => simp

/-! ### From the send backwards -/

def sendAndReturn (job : Job) : Bus pyd JobId :=
  (sendJob job).bind fun _ => .ret job.jobId

theorem leavesNothing_of_still {e : PyError} {asked : List (BusOp pyd)} :
    LeavesNothing reply s (.error e, s, asked) :=
  fun _ _ => .inl ⟨rfl, rfl⟩

theorem leavesNothing_sendAndReturn {s' : BusState pyd} {asked : List (BusOp pyd)}
    (h : s' = s ∨ Encodable pyd job) :
    LeavesNothing reply s (run (producerAnswer reply) (sendAndReturn job) (s', asked)) := by
  rw [sendAndReturn, run_bind]
  rcases @run_sendJob pyd reply s' job asked with
    ⟨e, hEncode, hRun⟩ | ⟨payload, after, hEncode, hRun⟩
  · rw [hRun]
    rcases h with rfl | hEncodable
    · exact leavesNothing_of_still
    · obtain ⟨payload, hPayload⟩ := (exists_encodeJob_iff pyd job).mpr hEncodable
      rw [hPayload] at hEncode
      cases hEncode
  · rw [hRun]
    cases hSent : (reply (.sendMessages payload)).outcome with
    | ok _ => exact fun _ hError => nomatch hError
    | error e =>
      intro e' hError
      cases hError
      exact .inr ⟨payload, List.mem_append_right _ (List.mem_singleton_self _), hSent⟩

theorem not_leavesNothing_sendAndReturn {s' : BusState pyd} {asked : List (BusOp pyd)}
    (hRow : s'.db ≠ s.db) (hAsked : ∀ payload, BusOp.sendMessages payload ∉ asked)
    (h : ¬ Encodable pyd job) :
    ¬ LeavesNothing reply s (run (producerAnswer reply) (sendAndReturn job) (s', asked)) := by
  rw [sendAndReturn, run_bind]
  rcases @run_sendJob pyd reply s' job asked with
    ⟨e, hEncode, hRun⟩ | ⟨payload, after, hEncode, hRun⟩
  · rw [hRun]
    intro hLeaves
    rcases hLeaves e rfl with ⟨hSame, _⟩ | ⟨payload, hMem, _⟩
    · exact hRow hSame
    · exact hAsked payload hMem
  · exact absurd ((exists_encodeJob_iff pyd job).mp ⟨payload, hEncode⟩) h

theorem leavesNothing_onRecord {asked : List (BusOp pyd)} :
    LeavesNothing reply s
      (run (producerAnswer reply) ((modelAlreadyOnRecord job).bind sendAndReturn) (s, asked)) := by
  have hStill : (s.perform 0 (.get job.jobId) (reply (.get job.jobId))).2 = s := read_snd _ _ _
  rw [modelAlreadyOnRecord_eq]
  simp only [Program.ask_bind, run_ask, producerAnswer_eq, hStill]
  cases (s.perform 0 (.get job.jobId) (reply (.get job.jobId))).1 with
  | error e => exact leavesNothing_of_still
  | ok stored =>
    simp only [Program.ofExcept_ok, Program.ret_bind]
    cases stored with
    | none => exact leavesNothing_sendAndReturn (.inl rfl)
    | some row =>
      by_cases hModel : job.model = some row.model
      · simp only [hModel, if_true, Program.ret_bind]
        exact leavesNothing_sendAndReturn (.inl rfl)
      · simp only [hModel, if_false, Program.ret_bind]
        exact leavesNothing_sendAndReturn (.inl rfl)

/-- The part of a submit after its checks. -/
def insertAndSend (job : Job) : Bus pyd JobId :=
  .ask (.insertPending job) fun reply => (Program.ofExcept reply).bind fun inserted =>
    (if inserted then .ret job else modelAlreadyOnRecord job).bind sendAndReturn

theorem leavesNothing_insertAndSend_iff {asked : List (BusOp pyd)}
    (hAsked : ∀ payload, BusOp.sendMessages payload ∉ asked) :
    LeavesNothing reply s (run (producerAnswer reply) (insertAndSend job) (s, asked)) ↔
      ((∃ inserted after, s.perform 0 (.insertPending job) (reply (.insertPending job)) =
          (.ok inserted, after)) → s.db.jobs.find job.jobId.text = none → Encodable pyd job) := by
  simp only [insertAndSend, run_ask, producerAnswer_eq]
  rcases @perform_insertPending pyd 0 s job (reply (.insertPending job)) with
    ⟨e, hPerform⟩ | ⟨row, hRow, hPerform⟩ | ⟨model, hModel, hNone, hPerform⟩
  · rw [hPerform]
    apply iff_of_true leavesNothing_of_still
    rintro ⟨inserted, after, hOk⟩
    cases hOk
  · rw [hPerform]
    apply iff_of_true leavesNothing_onRecord
    intro _ hNone
    rw [hNone] at hRow
    cases hRow
  · rw [hPerform]
    simp only [Program.ofExcept_ok, Program.ret_bind, if_true]
    constructor
    · intro hLeaves _ _
      by_contra hNot
      refine not_leavesNothing_sendAndReturn (fun hSame => ?_) (fun payload hMem => ?_) hNot hLeaves
      · have hJobs : s.db.jobs.insertNew (job.pendingRow model) = s.db.jobs := congrArg Database.jobs hSame
        have hFound := KeyedTable.find_insertNew_self hNone
        rw [hJobs, hNone] at hFound
        cases hFound
      · cases List.mem_append.mp hMem with
        | inl hOld => exact hAsked payload hOld
        | inr hLast => cases List.mem_singleton.mp hLast
    · intro hEncodable
      exact leavesNothing_sendAndReturn (.inr (hEncodable ⟨_, _, rfl⟩ hNone))

/-- No send comes before the insert, and the insert only where both checks pass. -/
theorem submitRun_cases : ∃ asked, (∀ payload, BusOp.sendMessages payload ∉ asked) ∧
    ((∃ e, submitRun py reply s job = (.error e, s, asked) ∧
        ∀ model, Resolves reply s job model → ¬ ∃ name, providerFor model = .ok name) ∨
      ∃ model, Resolves reply s job model ∧ (∃ name, providerFor model = .ok name) ∧
        submitRun py reply s job =
          run (producerAnswer reply) (insertAndSend (job.withModel model)) (s, asked)) := by
  obtain ⟨asked, hAsked, hRun⟩ := @run_resolveModelName pyd py reply s job
  refine ⟨asked, hAsked, ?_⟩
  rw [submitRun, submit_eq, run_bind, hRun]
  cases hModel : resolvedModel py reply s job with
  | error e =>
    refine .inl ⟨e, rfl, fun model hResolves => ?_⟩
    rw [resolvedModel_eq_ok_iff.mpr hResolves] at hModel
    cases hModel
  | ok model =>
    have hResolves := resolvedModel_eq_ok_iff.mp hModel
    cases hRoute : providerFor model with
    | error e =>
      refine .inl ⟨e, ?_, fun other hOther => ?_⟩
      · simp only [hRoute, Program.ofExcept_error, Program.fail_bind, run_fail]
      · rw [resolvedModel_eq_ok_iff.mpr hOther] at hModel
        cases hModel
        rintro ⟨name, hName⟩
        rw [hRoute] at hName
        cases hName
    | ok name =>
      refine .inr ⟨model, hResolves, ⟨name, hRoute⟩, ?_⟩
      simp only [hRoute, Program.ofExcept_ok, Program.ret_bind]
      rfl

theorem Resolves.unique {model model' : Text} (h : Resolves reply s job model)
    (h' : Resolves reply s job model') : model = model' :=
  Except.ok.inj ((@resolvedModel_eq_ok_iff pyd .ascii reply s job model).mpr h |>.symm.trans
    (resolvedModel_eq_ok_iff.mpr h'))

/-- A submit that raises leaves nothing behind, unless its send failed, exactly when whatever
passes its checks and has no row yet can be written for the wire. -/
theorem submit_leavesNothing_iff (py : Interpreter) (reply : (op : BusOp pyd) → op.Reply)
    (s : BusState pyd) (job : Job) :
    LeavesNothing reply s (submitRun py reply s job) ↔
      ∀ model, Accepted reply s job model → s.db.jobs.find job.jobId.text = none →
        Encodable pyd (job.withModel model) := by
  obtain ⟨asked, hAsked, ⟨e, hRun, hRefused⟩ | ⟨model, hResolves, hRoute, hRun⟩⟩ :=
    @submitRun_cases pyd py reply s job
  · rw [hRun]
    exact iff_of_true leavesNothing_of_still fun model hAccepted =>
      absurd hAccepted.routed (hRefused model hAccepted.resolved)
  · rw [hRun, leavesNothing_insertAndSend_iff hAsked, perform_insertPending_succeeds_iff]
    constructor
    · intro hEncodable other hAccepted
      obtain rfl := hAccepted.resolved.unique hResolves
      exact hEncodable ⟨hAccepted.stored, hAccepted.dumped, hAccepted.project, other, rfl, hAccepted.model⟩
    · rintro hEncodable ⟨hStored, hDumped, hProject, other, hOther, hModel⟩
      obtain rfl := Option.some.inj hOther
      exact hEncodable model ⟨hResolves, hRoute, hStored, hDumped, hProject, hModel⟩

end Submit

/-! ### A row without a message -/

/-- The store does not keep the messages, so it takes one that the wire refuses. -/
def unsendableJob : Job :=
  { plainJob with messages := [⟨.user, [0xD800]⟩] }

theorem submit_strands_row :
    (∃ e, (submitRun .ascii calmReply (.empty : BusState .tree) unsendableJob).1 = .error e) ∧
      (submitRun .ascii calmReply (.empty : BusState .tree) unsendableJob).2.1.db.pendingCount = 1 ∧
        ¬ LeavesNothing calmReply (.empty : BusState .tree)
          (submitRun .ascii calmReply .empty unsendableJob) := by
  have hRaised : (submitRun .ascii calmReply (.empty : BusState .tree) unsendableJob).1.toBool = false := by
    decide +kernel
  have hRun : submitRun .ascii calmReply (.empty : BusState .tree) unsendableJob =
      run (producerAnswer calmReply) (insertAndSend unsendableJob) (.empty, []) := by
    rfl
  refine ⟨?_, by decide +kernel, fun hLeaves => ?_⟩
  · cases hOut : (submitRun .ascii calmReply (.empty : BusState .tree) unsendableJob).1 with
    | error e => exact ⟨e, rfl⟩
    | ok jobId =>
      rw [hOut] at hRaised
      cases hRaised
  · rw [hRun, leavesNothing_insertAndSend_iff fun _ => List.not_mem_nil,
      perform_insertPending_succeeds_iff] at hLeaves
    have hText := (hLeaves ⟨⟨true, rfl⟩, rfl, by decide, txt "gpt-5", rfl, by decide⟩ rfl).text
    revert hText
    decide

end LlmBus
