import LlmBus.Foundation.Concurrency
import LlmBus.Foundation.Log
import LlmBus.Delivery
import LlmBus.RoundTrip
import LlmBus.StoreSteps

/-! # The bus as a whole

Any number of producers and workers, policy edits and foreign messages, over one store and
one topic. Each request of a thread is one step; what the store and the topic do not decide
themselves is proposed by the schedule, and a thread can be lost between any two steps. A
message can be delivered at any time and any number of times.
-/

namespace LlmBus

open Foundation Interaction Concurrency

/-- A message on the topic, and whether `BusClient.submit` put it there. -/
structure Envelope (pyd : Pydantic) where
  payload : pyd.Payload
  submitted : Bool

/-- What is kept of a thread's past. -/
inductive Mark where
  | inserted (job : Job)
  | finalized (jobId : Text)
  | calledBack (jobId : Text)
  | committed (index : Nat)

structure BusState (pyd : Pydantic) where
  db : Database
  topic : List (Envelope pyd)
  history : Log Mark

inductive BusEntry (pyd : Pydantic) where
  | submit (job : Job)
  | deliver (deps : WorkerDeps) (fresh : Fresh) (index : Nat)
  | setModelPolicy (project kind model : Text)
  | publishWorkerPolicy (policy : WorkerPolicy)
  | place (payload : pyd.Payload)

variable {pyd : Pydantic}

namespace BusState

def empty : BusState pyd :=
  ⟨.empty, [], []⟩

def record (s : BusState pyd) (t : Nat) (mark : Mark) : BusState pyd :=
  { s with history := s.history ++ [(t, mark)] }

def append (s : BusState pyd) (envelope : Envelope pyd) : BusState pyd :=
  { s with topic := s.topic ++ [envelope] }

def read {α : Type} (s : BusState pyd) (proposal found : Except PyError α) :
    Except PyError α × BusState pyd :=
  match proposal with
  | .error e => (.error e, s)
  | .ok _ => (found, s)

/-- A write of the store, which the schedule can make fail. -/
def write {α : Type} (s : BusState pyd) (t : Nat) (proposal : Except PyError α)
    (session : Session α) (mark : α → Option Mark) : Except PyError α × BusState pyd :=
  match proposal with
  | .error e => (.error e, s)
  | .ok _ =>
    match s.db.perform session with
    | (.error e, db) => (.error e, { s with db := db })
    | (.ok a, db) =>
      match mark a with
      | none => (.ok a, { s with db := db })
      | some m => (.ok a, { s with db := db }.record t m)

def perform (t : Nat) (s : BusState pyd) : (op : BusOp pyd) → op.Reply → op.Reply × BusState pyd
  | .modelPolicy project kind, proposal => s.read proposal (s.db.readModelPolicy project kind)
  | .insertPending job, proposal =>
    s.write t proposal (LlmBus.insertPending job) fun wrote => if wrote then some (.inserted job) else none
  | .get jobId, proposal => s.read proposal (.ok (s.db.get jobId.text))
  | .finalize result completedAt, proposal =>
    s.write t proposal (LlmBus.finalize result completedAt) fun wrote =>
      if wrote then some (.finalized result.jobId.text) else none
  | .setModelPolicy project kind model updatedAt, proposal =>
    s.write t proposal (LlmBus.setModelPolicy project kind model updatedAt) fun _ => none
  | .publishWorkerPolicy policy updatedAt, proposal =>
    s.write t proposal (LlmBus.publishWorkerPolicy policy updatedAt) fun _ => none
  | .storeClock, reading => (reading, s)
  | .sendMessages payload, sent =>
    (sent, if Sent.placed sent then s.append ⟨payload, true⟩ else s)
  | .place payload, _ => ((), s.append ⟨payload, false⟩)
  | .storeOffset _, .error e => (.error e, s)
  | .storeOffset index, .ok _ => (.ok (), s.record t (.committed index))
  | .now, reading => (reading, s)
  | .acquire .., reply => (reply, s)
  | .call .., outcome => (outcome, s)
  | .rand, draw => (draw, s)
  | .sleep _, reply => (reply, s)
  | .deliverCallback _ result, reply => (reply, s.record t (.calledBack result.jobId.text))

end BusState

abbrev busMachine (pyd : Pydantic) (py : Interpreter) (power : Power) :
    Machine (busInterface pyd) PyError Unit where
  State := BusState pyd
  Entry := BusEntry pyd
  start s
    | .submit job => some ((submit py job).bind fun _ => .ret ())
    | .deliver deps fresh index => s.topic[index]?.map fun envelope =>
      deliverMessage py power deps fresh index envelope.payload
    | .setModelPolicy project kind model => some (Bus.setModelPolicy project kind model)
    | .publishWorkerPolicy policy => some (Bus.publishWorkerPolicy policy)
    | .place payload => some (.ask (.place payload) fun _ => .ret ())
  perform := BusState.perform

abbrev BusConfig (pyd : Pydantic) (py : Interpreter) (power : Power) :=
  Config (busMachine pyd py power)

def BusConfig.empty (pyd : Pydantic) (py : Interpreter) (power : Power) : BusConfig pyd py power :=
  Config.initial BusState.empty

end LlmBus
