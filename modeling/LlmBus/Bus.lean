import LlmBus.Foundation.Interaction
import LlmBus.Providers
import LlmBus.Store
import LlmBus.Wire

/-! # What the bus asks of its surroundings

Producers and workers are interaction programs over one interface: the operations of the
store, the topic, the provider adapters, and the effects that are injected into them. An
operation that can raise is answered with the exception.
-/

namespace LlmBus

open Foundation Interaction

/-- `random.random()`. -/
structure Draw where
  value : ℚ
  nonneg : 0 ≤ value
  lt_one : value < 1

def Draw.zero : Draw :=
  ⟨0, le_rfl, by norm_num⟩

inductive BusOp (pyd : Pydantic) where
  | modelPolicy (project kind : Text)
  | insertPending (job : Job)
  | get (jobId : JobId)
  | finalize (result : Result) (completedAt : DateTime)
  | setModelPolicy (project kind model : Text) (updatedAt : DateTime)
  | publishWorkerPolicy (policy : WorkerPolicy) (updatedAt : DateTime)
  /-- `datetime.now` inside the store, which stamps its rows with it. -/
  | storeClock
  | sendMessages (payload : pyd.Payload)
  /-- A message put on the topic by anything but `BusClient.submit`. -/
  | place (payload : pyd.Payload)
  | storeOffset (index : Nat)
  | now
  | acquire (provider : Text) (tokens : Nat)
  | call (provider model : Text) (messages : List Message) (params : JobParams) (timeoutS : Double)
  | rand
  | sleep (delayS : Double)
  | deliverCallback (url : Text) (result : Result)

/-- A send can fail after the message has reached the topic; the sender sees the outcome only. -/
structure Sent where
  placed : Bool
  outcome : Except PyError Unit

abbrev BusOp.Reply {pyd : Pydantic} : BusOp pyd → Type
  | .modelPolicy .. => Except PyError (Option ModelPolicy)
  | .insertPending _ => Except PyError Bool
  | .get _ => Except PyError (Option JobRow)
  | .finalize .. => Except PyError Bool
  | .setModelPolicy .. => Except PyError Unit
  | .publishWorkerPolicy .. => Except PyError Unit
  | .storeClock => DateTime
  | .sendMessages _ => Sent
  | .place _ => Unit
  | .storeOffset _ => Except PyError Unit
  | .now => DateTime
  | .acquire .. => Except PyError Unit
  | .call .. => Except ProviderError ProviderResult
  | .rand => Draw
  | .sleep _ => Except PyError Unit
  | .deliverCallback .. => Except PyError Unit

abbrev busInterface (pyd : Pydantic) : Interface where
  Op := BusOp pyd
  Reply := BusOp.Reply

abbrev Bus (pyd : Pydantic) := Program (busInterface pyd) PyError

namespace Bus

variable {pyd : Pydantic}

def modelPolicy (project kind : Text) : Bus pyd (Option ModelPolicy) :=
  .ask (.modelPolicy project kind) .ofExcept

def insertPending (job : Job) : Bus pyd Bool :=
  .ask (.insertPending job) .ofExcept

def get (jobId : JobId) : Bus pyd (Option JobRow) :=
  .ask (.get jobId) .ofExcept

/-- `Store.finalize`, which reads its own clock first. -/
def finalize (result : Result) : Bus pyd Bool :=
  .ask .storeClock fun completedAt => .ask (.finalize result completedAt) .ofExcept

def setModelPolicy (project kind model : Text) : Bus pyd Unit :=
  .ask .storeClock fun updatedAt => .ask (.setModelPolicy project kind model updatedAt) .ofExcept

def publishWorkerPolicy (policy : WorkerPolicy) : Bus pyd Unit :=
  .ask .storeClock fun updatedAt => .ask (.publishWorkerPolicy policy updatedAt) .ofExcept

def sendMessages (payload : pyd.Payload) : Bus pyd Unit :=
  .ask (.sendMessages payload) fun sent : Sent => .ofExcept sent.outcome

def storeOffset (index : Nat) : Bus pyd Unit :=
  .ask (.storeOffset index) .ofExcept

def now : Bus pyd DateTime :=
  .ask .now .ret

def acquire (provider : Text) (tokens : Nat) : Bus pyd Unit :=
  .ask (.acquire provider tokens) .ofExcept

/-- A failing call is not raised: every caller of it is inside a `try`. -/
def call (provider model : Text) (messages : List Message) (params : JobParams) (timeoutS : Double) :
    Bus pyd (Except ProviderError ProviderResult) :=
  .ask (.call provider model messages params timeoutS) .ret

def rand : Bus pyd Draw :=
  .ask .rand .ret

def sleep (delayS : Double) : Bus pyd Unit :=
  .ask (.sleep delayS) .ofExcept

end Bus

end LlmBus
