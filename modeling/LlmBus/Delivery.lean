import LlmBus.Processing

/-! # Placing a job and taking one

What a producer does to put a job on the bus, what a worker does with one message, and
the two other writers of the store.
-/

namespace LlmBus

open Foundation Interaction

variable {pyd : Pydantic} (py : Interpreter)

/-! ### The producer -/

def resolveModelName (job : Job) : Bus pyd Text :=
  match job.model with
  | some model => pure model
  | none => do
    let policy ← Bus.modelPolicy job.project job.kind
    Program.ofExcept (resolveModel py job (policy.map (·.model)))

def modelAlreadyOnRecord (job : Job) : Bus pyd Job := do
  let stored ← Bus.get job.jobId
  match stored with
  | none => pure job
  | some row => if job.model = some row.model then pure job else pure (job.withModel row.model)

def sendJob (job : Job) : Bus pyd Unit := do
  let payload ← Program.ofExcept (encodeJob pyd job)
  Bus.sendMessages payload

def submit (job : Job) : Bus pyd JobId := do
  let model ← resolveModelName py job
  let _ ← Program.ofExcept (providerFor model)
  let inserted ← Bus.insertPending (job.withModel model)
  let resolved ← (if inserted then pure (job.withModel model)
    else modelAlreadyOnRecord (job.withModel model))
  sendJob resolved
  pure resolved.jobId

/-! ### The worker -/

/-- `_consume_one`: a message that does not parse is dropped. `fresh` is what the defaults of
the contract would fill in. -/
def consumeOne (power : Power) (deps : WorkerDeps) (fresh : Fresh) (payload : pyd.Payload) :
    Bus pyd Unit :=
  match decodeJob py pyd fresh payload with
  | .error _ => pure ()
  | .ok job => do
    let _ ← processJob py power deps job
    pure ()

/-- The handler of one message and, once it has returned, the commit of its offset. -/
def deliverMessage (power : Power) (deps : WorkerDeps) (fresh : Fresh) (index : Nat)
    (payload : pyd.Payload) : Bus pyd Unit := do
  consumeOne py power deps fresh payload
  Bus.storeOffset index

/-! ### The effects of a submit, in order -/

theorem submit_eq (job : Job) :
    (submit py job : Bus pyd JobId) =
      (resolveModelName py job).bind fun model =>
        (Program.ofExcept (providerFor model)).bind fun _ =>
          .ask (.insertPending (job.withModel model)) fun reply =>
            (Program.ofExcept reply).bind fun inserted =>
              (if inserted then .ret (job.withModel model)
                else modelAlreadyOnRecord (job.withModel model)).bind fun resolved =>
                (sendJob resolved).bind fun _ => .ret resolved.jobId := rfl

theorem modelAlreadyOnRecord_eq (job : Job) :
    (modelAlreadyOnRecord job : Bus pyd Job) =
      .ask (.get job.jobId) fun reply => (Program.ofExcept reply).bind fun stored =>
        match stored with
        | none => .ret job
        | some row =>
          if job.model = some row.model then .ret job else .ret (job.withModel row.model) := rfl

theorem sendJob_eq (job : Job) :
    (sendJob job : Bus pyd Unit) =
      (Program.ofExcept (encodeJob pyd job)).bind fun payload =>
        (.ask (.sendMessages payload) fun sent => .ofExcept (Sent.outcome sent) : Bus pyd Unit) := rfl

end LlmBus
