import LlmBus.Foundation.Hosts
import LlmBus.BrokerConnect
import LlmBus.ConnectionString
import LlmBus.Connections
import LlmBus.PolicyMigration
import LlmBus.Topology
import LlmBus.Wiring

/-! # The boot of a worker, and its end

`run_worker` from its first line to its last, beside other processes on the store and the
broker. Whatever raises on the way, it is followed what the worker has made sure of before it
consumes, and what it leaves open.
-/

namespace LlmBus

open Foundation Interaction Transaction Isolation

/-- A topology with the group that its workers join. -/
structure WorkerTopology extends Topology where
  consumerGroup : Text

inductive WorkerFailure where
  | config (e : ConfigError)
  | raised (e : PyError)

/-- Clients of the broker go by their numbers. -/
inductive WorkerOp where
  | openHttp (timeoutS : Double)
  | closeHttp
  | connection (op : ConnectionOp)
  | storeClock
  | sql (request : Transaction.Request Statement)
  | makeClient (connectionString : Text)
  | connect (client : Nat)
  | rand
  | sleep (delayS : Double)
  | broker (client : Nat) (op : BrokerOp)
  | buildProviders (config : Config)
  /-- The reading of the clock that the limiter starts at. -/
  | monotonic
  | joinGroup (client : Nat) (topology : WorkerTopology)
  /-- `consume_messages`, with what `deps` is made of. -/
  | consume (client : Nat) (config : Config) (limiter : RateLimiter) (policy : WorkerPolicy)

abbrev WorkerOp.Reply : WorkerOp → Type
  | .openHttp _ => Except PyError Unit
  | .closeHttp => Except PyError Unit
  | .connection (.closeFile _) => Except PyError Unit
  | .connection op => op.Reply
  | .storeClock => DateTime
  | .sql request => (Transaction.sql Statement Answer PyError).Reply request
  | .makeClient _ => Except PyError Nat
  | .connect _ => Except PyError Unit
  | .rand => Draw
  | .sleep _ => Except PyError Unit
  | .broker _ op => Except PyError op.Reply
  | .buildProviders _ => Except PyError Unit
  | .monotonic => ℚ
  | .joinGroup .. => Except PyError Unit
  | .consume .. => Except PyError Unit

abbrev workerInterface : Interface where
  Op := WorkerOp
  Reply := WorkerOp.Reply

abbrev Boot := Program workerInterface WorkerFailure

namespace Boot

def raising {α : Type} (x : Except PyError α) : Boot α :=
  .ofExcept (x.mapError .raised)

/-- The store's own requests; its connection can fail to close. -/
def onStore : (op : ConnectionOp) → Boot op.Reply
  | .mkdir => .ask (.connection .mkdir) .ret
  | .openFile => .ask (.connection .openFile) .ret
  | .setUp db statement => .ask (.connection (.setUp db statement)) .ret
  | .remembered => .ask (.connection .remembered) .ret
  | .remember db => .ask (.connection (.remember db)) .ret
  | .closeFile db => .ask (.connection (.closeFile db)) raising
  | .brokerConnect => .ask (.connection .brokerConnect) .ret
  | .topology => .ask (.connection .topology) .ret

def connectStore (path : StorePath) : Boot Unit :=
  (storeConnect path).carry onStore .raised

def onConnection (request : Transaction.Request Statement) :
    Boot ((Transaction.sql Statement Answer PyError).Reply request) :=
  .ask (.sql request) .ret

def publish (policy : WorkerPolicy) : Boot Unit :=
  .ask .storeClock fun stamped => (publishWorkerPolicy policy stamped).carry onConnection .raised

def onHandshake (config : Config) : (op : HandshakeOp Nat) → Boot (HandshakeOp.Reply Nat PyError op)
  | .makeClient =>
    (raising (iggyConnectionString config.iggyAddress config.iggyUsername config.iggyPassword)).bind
      fun connectionString => .ask (.makeClient connectionString) .ret
  | .connect client => .ask (.connect client) .ret
  | .rand => .ask .rand .ret
  | .sleep delayS => .ask (.sleep delayS) .ret

def handshakeFailure : ConnectFailure PyError → WorkerFailure
  | .raised e => .raised e
  | .arithmetic e => .raised e

def connectBroker (power : Power) (config : Config) (connectPolicy : RetryPolicy) : Boot Nat :=
  (LlmBus.connectBroker power connectPolicy : Handshake Nat PyError Nat).carry (onHandshake config)
    handshakeFailure

def onBroker (client : Nat) (op : BrokerOp) : Boot op.Reply :=
  .ask (.broker client op) raising

def ensureTopology (client : Nat) (topology : Topology) : Boot Unit :=
  (LlmBus.ensureTopology topology).carry (onBroker client) .raised

/-- What `run_worker` does between `try` and `finally`. -/
def serve (power : Power) (topology : WorkerTopology) (config : Config) (policy : WorkerPolicy)
    (connectPolicy : RetryPolicy) : Boot Unit := do
  connectStore ⟨config.dbPath = txt ":memory:"⟩
  publish policy
  let client ← connectBroker power config connectPolicy
  ensureTopology client topology.toTopology
  .ask (.buildProviders config) raising
  let start ← .ask .monotonic .ret
  let limiter ← raising (RateLimiter.build config.rateLimits start)
  .ask (.joinGroup client topology) raising
  .ask (.consume client config limiter policy) raising

end Boot

/-- What the worker holds, what it shares with others, and what has been refused it. -/
structure WorkerHost where
  http : Bool
  connections : Connections
  link : Connection Database
  broker : Broker
  connected : List Nat
  refused : List WorkerOp

namespace WorkerHost

def start (db : Database) (broker : Broker) : WorkerHost :=
  ⟨false, .start, idle db, broker, [], []⟩

def refuse (w : WorkerHost) (op : WorkerOp) : WorkerHost :=
  { w with refused := op :: w.refused }

def Tries {α : Type} (w : WorkerHost) (op : WorkerOp) (done : α → WorkerHost → Prop) :
    Except PyError α → WorkerHost → Prop
  | .ok a, w' => done a w'
  | .error _, w' => w' = w.refuse op

/-- What can come of one request. -/
def Performs (w : WorkerHost) : (op : WorkerOp) → op.Reply → WorkerHost → Prop
  | .openHttp timeoutS => w.Tries (.openHttp timeoutS) fun (_ : Unit) w' => w' = { w with http := true }
  | .closeHttp => w.Tries .closeHttp fun (_ : Unit) w' => w' = { w with http := false }
  | .connection .mkdir => w.Tries (.connection .mkdir) fun (_ : Unit) w' => w' = w
  | .connection .openFile => w.Tries (.connection .openFile) fun db w' =>
      db = w.connections.fresh ∧ w' = { w with
        connections := w.connections.add
        link := idle w.link.committed }
  | .connection (.setUp db statement) => w.Tries (.connection (.setUp db statement)) fun (_ : Unit) w' =>
      w' = if statement = .schema then { w with link := idle w.link.committed.connected } else w
  | .connection .remembered => fun db w' => db = w.connections.remembered ∧ w' = w
  | .connection (.remember db) => fun _ w' =>
      w' = { w with connections := { w.connections with remembered := db } }
  | .connection (.closeFile db) => w.Tries (.connection (.closeFile db)) fun (_ : Unit) w' => w' = { w with
        connections := { w.connections with opened := w.connections.opened.erase db }
        link := idle w.link.committed }
  | .connection .brokerConnect => w.Tries (.connection .brokerConnect) fun (_ : Unit) w' => w' = w
  | .connection .topology => w.Tries (.connection .topology) fun (_ : Unit) w' => w' = w
  | .storeClock => fun _ w' => w' = w
  | .sql request => fun reply w' => ∃ fault, reply = (callOnce storeDialect fault w.link request).1 ∧
      w' = { w with link := (callOnce storeDialect fault w.link request).2 }
  | .makeClient string => w.Tries (.makeClient string) fun (_ : Nat) w' => w' = w
  | .connect client => w.Tries (.connect client) fun (_ : Unit) w' =>
      w' = { w with connected := client :: w.connected }
  | .rand => fun _ w' => w' = w
  | .sleep delayS => w.Tries (.sleep delayS) fun (_ : Unit) w' => w' = w
  | .broker client op => w.Tries (.broker client op) fun reply w' =>
      reply = (w.broker.perform op).1 ∧ w' = { w with broker := (w.broker.perform op).2 }
  | .buildProviders config => w.Tries (.buildProviders config) fun (_ : Unit) w' => w' = w
  | .monotonic => fun _ w' => w' = w
  | .joinGroup client topology => w.Tries (.joinGroup client topology) fun (_ : Unit) w' => w' = w
  -- Jobs are processed meanwhile, on the store and through the client.
  | .consume client config limiter policy => fun reply w' => ∃ link broker,
      Tries { w with link := link, broker := broker } (.consume client config limiter policy)
        (fun (_ : Unit) w'' => w'' = { w with link := link, broker := broker }) reply w'

/-- What other processes can do between two requests: producers connect to the store, add rows and
read, the cost page sets model policies, and anybody creates streams and topics. There is no second
worker to publish a policy. -/
structure Meanwhile (w v : WorkerHost) : Prop where
  http : v.http = w.http
  connections : v.connections = w.connections
  connected : v.connected = w.connected
  refused : v.refused = w.refused
  pending : v.link.pending = w.link.pending
  locked : w.link.pending ≠ none → v.link.committed = w.link.committed
  policy : v.link.committed.workerPolicy = w.link.committed.workerPolicy ∨
    v.link.committed.workerPolicy = w.link.committed.connected.workerPolicy
  topics : ∀ stream name found, w.broker.topic stream name = some found →
    v.broker.topic stream name = some found

end WorkerHost

def workerHost : Host workerInterface WorkerHost :=
  fun w op reply w' => ∃ v, w.Meanwhile v ∧ v.Performs op reply w'

/-! ### What a request leaves alone -/

namespace WorkerOp

/-- It has to do with what the worker must close. -/
def holding : WorkerOp → Bool
  | .openHttp _ | .closeHttp | .connection _ => true
  | _ => false

def onDatabase : WorkerOp → Bool
  | .sql _ | .consume .. => true
  | _ => false

def closes : WorkerOp → Bool
  | .closeHttp | .connection (.closeFile _) => true
  | _ => false

/-- A connection stays open where this is refused. -/
def strands : WorkerOp → Bool
  | .connection (.setUp ..) | .connection (.closeFile _) => true
  | _ => false

end WorkerOp

namespace WorkerHost

variable {w v w' : WorkerHost} {op : WorkerOp} {reply : op.Reply}

theorem Tries.cases {α : Type} {done : α → WorkerHost → Prop} {x : Except PyError α}
    (h : w.Tries op done x w') : (∃ a, x = .ok a ∧ done a w') ∨ (∃ e, x = .error e) ∧ w' = w.refuse op := by
  cases x with
  | ok a => exact .inl ⟨a, rfl, h⟩
  | error e => exact .inr ⟨⟨e, rfl⟩, h⟩

theorem Tries.same {α : Type} {x : Except PyError α} (h : w.Tries op (fun (_ : α) t => t = w) x w') :
    w' = w ∨ w' = w.refuse op := by
  rcases h.cases with ⟨_, _, hSame⟩ | ⟨_, hRefused⟩
  · exact .inl hSame
  · exact .inr hRefused

theorem Performs.frame (h : v.Performs op reply w') (hOp : op.holding = false) :
    w'.http = v.http ∧ w'.connections = v.connections ∧ ∀ o ∈ w'.refused, o = op ∨ o ∈ v.refused := by
  have hRefuse : ∀ u : WorkerHost, ∀ o ∈ (u.refuse op).refused, o = op ∨ o ∈ u.refused :=
    fun u o hMem => List.mem_cons.mp hMem
  cases op with
  | openHttp _ => cases hOp
  | closeHttp => cases hOp
  | connection _ => cases hOp
  | storeClock | rand | monotonic =>
    rw [show w' = v from h]
    exact ⟨rfl, rfl, fun _ => .inr⟩
  | sql request =>
    obtain ⟨_, _, rfl⟩ := h
    exact ⟨rfl, rfl, fun _ => .inr⟩
  | makeClient _ | sleep _ | buildProviders _ | joinGroup _ _ =>
    rcases Tries.same h with rfl | rfl
    · exact ⟨rfl, rfl, fun _ => .inr⟩
    · exact ⟨rfl, rfl, hRefuse _⟩
  | connect client =>
    rcases Tries.cases h with ⟨_, _, rfl⟩ | ⟨_, rfl⟩
    · exact ⟨rfl, rfl, fun _ => .inr⟩
    · exact ⟨rfl, rfl, hRefuse _⟩
  | broker client op =>
    rcases Tries.cases h with ⟨_, _, _, rfl⟩ | ⟨_, rfl⟩
    · exact ⟨rfl, rfl, fun _ => .inr⟩
    · exact ⟨rfl, rfl, hRefuse _⟩
  | consume client config limiter policy =>
    obtain ⟨link, broker, hTries⟩ := h
    rcases hTries.cases with ⟨_, _, rfl⟩ | ⟨_, rfl⟩
    · exact ⟨rfl, rfl, fun _ => .inr⟩
    · exact ⟨rfl, rfl, hRefuse _⟩

theorem Performs.far (h : v.Performs op reply w') (hOp : op.holding = false)
    (hFar : op.onDatabase = false) :
    w'.link = v.link ∧ (∀ client ∈ v.connected, client ∈ w'.connected) ∧
      ∀ stream name found, v.broker.topic stream name = some found →
        w'.broker.topic stream name = some found := by
  cases op with
  | openHttp _ => cases hOp
  | closeHttp => cases hOp
  | connection _ => cases hOp
  | sql _ => cases hFar
  | consume _ _ _ _ => cases hFar
  | storeClock | rand | monotonic =>
    rw [show w' = v from h]
    exact ⟨rfl, fun _ => id, fun _ _ _ => id⟩
  | makeClient _ | sleep _ | buildProviders _ | joinGroup _ _ =>
    rcases Tries.same h with rfl | rfl
    · exact ⟨rfl, fun _ => id, fun _ _ _ => id⟩
    · exact ⟨rfl, fun _ => id, fun _ _ _ => id⟩
  | connect client =>
    rcases Tries.cases h with ⟨_, _, rfl⟩ | ⟨_, rfl⟩
    · exact ⟨rfl, fun _ => List.mem_cons_of_mem _, fun _ _ _ => id⟩
    · exact ⟨rfl, fun _ => id, fun _ _ _ => id⟩
  | broker client op =>
    rcases Tries.cases h with ⟨_, _, _, rfl⟩ | ⟨_, rfl⟩
    · exact ⟨rfl, fun _ => id, fun _ _ _ => Broker.topic_perform⟩
    · exact ⟨rfl, fun _ => id, fun _ _ _ => id⟩

end WorkerHost

/-! ### Where the worker stands -/

/-- The store is connected, and both ways to let go of what is held are still to come. -/
structure Held (db : Nat) (w : WorkerHost) : Prop where
  http : w.http = true
  opened : w.connections.opened = [db]
  remembered : w.connections.remembered = some db
  refused : ∀ op ∈ w.refused, op.closes = false ∧ op.strands = false

/-- The store is not connected; a connection is open where its set-up was refused. -/
structure Unheld (w : WorkerHost) : Prop where
  http : w.http = true
  remembered : w.connections.remembered = none
  idle : w.link.pending = none
  refused : ∀ op ∈ w.refused, op.closes = false
  opened : w.connections.opened ≠ [] ↔ ∃ op ∈ w.refused, op.strands = true

/-- On the way to a connected store: what is open is not remembered yet. -/
structure Opened (db : Nat) (created : Bool) (w : WorkerHost) : Prop where
  http : w.http = true
  opened : w.connections.opened = [db]
  remembered : w.connections.remembered = none
  idle : w.link.pending = none
  refused : w.refused = []
  table : ∃ table, (if created then w.link.committed else w.link.committed.connected).workerPolicy =
    some table ∧ Replaceable table

/-- The policy that stands in the store is the worker's. -/
def Stands (policy : WorkerPolicy) (w : WorkerHost) : Prop :=
  w.link.pending = none ∧ ∃ stamped, Posted w.link.committed (policy, stamped) w.link.committed

/-- Producers read the worker's policy, with the budget it comes to. -/
def Published (texts : TextReaders) (policy : WorkerPolicy) (w : WorkerHost) : Prop :=
  ∃ budget stamped, retryBudgetSeconds floatPower policy = .ok budget ∧
    readWorkerPolicy texts w.link.committed = .ok (some (publishedValues policy budget stamped).published)

theorem Posted.at {prior db db' : Database} {x : Publication} (h : Posted prior x db)
    (hPolicy : db'.workerPolicy = db.workerPolicy) : Posted db' x db' := by
  obtain ⟨budget, table, hBudget, hTable, hColumns, hRows⟩ := h.row
  exact ⟨rfl, rfl, budget, table, hBudget, hPolicy.trans hTable, hColumns, hRows⟩

section Stand

variable {db : Nat} {policy : WorkerPolicy} {topology : Topology} {texts : TextReaders}
  {w v w' : WorkerHost} {op : WorkerOp} {reply : op.Reply}

theorem Stands.published (h : Stands policy w) : Published texts policy w := by
  obtain ⟨_, stamped, hPosted⟩ := h
  obtain ⟨budget, hBudget, hRead⟩ := hPosted.read (r := texts)
  exact ⟨budget, stamped, hBudget, hRead⟩

theorem Stands.meanwhile (h : Stands policy w) (hMean : w.Meanwhile v) : Stands policy v := by
  obtain ⟨hIdle, stamped, hPosted⟩ := h
  obtain ⟨_, table, _, hTable, _⟩ := hPosted.row
  refine ⟨hMean.pending.trans hIdle, stamped, hPosted.at ?_⟩
  rcases hMean.policy with hSame | hConnected
  · exact hSame
  · rw [hConnected, connected_of_some hTable]

theorem Stands.far (h : Stands policy w) (hStep : workerHost w op reply w')
    (hOp : op.holding = false) (hFar : op.onDatabase = false) : Stands policy w' := by
  obtain ⟨v, hMean, hPerforms⟩ := hStep
  have hLater := h.meanwhile hMean
  rw [Stands, (hPerforms.far hOp hFar).1]
  exact hLater

theorem Held.step (h : Held db w) (hStep : workerHost w op reply w') (hOp : op.holding = false) :
    Held db w' := by
  obtain ⟨v, hMean, hPerforms⟩ := hStep
  obtain ⟨hHttp, hConnections, hRefused⟩ := hPerforms.frame hOp
  refine ⟨?_, ?_, ?_, fun o hMem => ?_⟩
  · rw [hHttp, hMean.http, h.http]
  · rw [hConnections, hMean.connections, h.opened]
  · rw [hConnections, hMean.connections, h.remembered]
  · cases hRefused o hMem with
    | inl hSame =>
      subst hSame
      cases o with
      | openHttp _ => cases hOp
      | closeHttp => cases hOp
      | connection _ => cases hOp
      | _ => exact ⟨rfl, rfl⟩
    | inr hBefore => exact h.refused o (hMean.refused ▸ hBefore)

end Stand

/-! ### Each part of the boot -/

section Parts

variable {texts : TextReaders} {topology : WorkerTopology} {config : Config} {policy : WorkerPolicy}
  {α : Type} {db : Nat} {w v : WorkerHost}

theorem WorkerHost.Meanwhile.workerPolicy_connected (h : w.Meanwhile v) :
    v.link.committed.connected.workerPolicy = w.link.committed.connected.workerPolicy := by
  rcases h.policy with hSame | hConnected
  · simp only [Database.connected, hSame]
  · simp only [Database.connected, hConnected, Option.getD_some]

theorem Opened.meanwhile {created : Bool} (h : Opened db created w) (hMean : w.Meanwhile v) :
    Opened db created v := by
  obtain ⟨table, hTable, hReplaceable⟩ := h.table
  refine ⟨?_, ?_, ?_, ?_, ?_, table, ?_, hReplaceable⟩
  · rw [hMean.http, h.http]
  · rw [hMean.connections, h.opened]
  · rw [hMean.connections, h.remembered]
  · rw [hMean.pending, h.idle]
  · rw [hMean.refused, h.refused]
  · cases created with
    | true =>
      rw [if_pos rfl] at hTable
      rcases hMean.policy with hSame | hConnected
      · exact hSame.trans hTable
      · rw [connected_of_some hTable] at hConnected
        exact hConnected.trans hTable
    | false => exact hMean.workerPolicy_connected.trans hTable

/-- The store is connected, with a table that the worker's policy can go into. -/
structure Connected (db : Nat) (w : WorkerHost) : Prop where
  held : Held db w
  idle : w.link.pending = none
  table : ∃ table, w.link.committed.workerPolicy = some table ∧ Replaceable table

/-- Nothing has been opened or refused yet but the HTTP client. -/
structure Bare (w : WorkerHost) : Prop where
  http : w.http = true
  connections : w.connections = .start
  idle : w.link.pending = none
  refused : w.refused = []
  table : ∃ table, w.link.committed.connected.workerPolicy = some table ∧ Replaceable table

theorem Bare.meanwhile (h : Bare w) (hMean : w.Meanwhile v) : Bare v := by
  obtain ⟨table, hTable, hReplaceable⟩ := h.table
  refine ⟨?_, ?_, ?_, ?_, table, ?_, hReplaceable⟩
  · rw [hMean.http, h.http]
  · rw [hMean.connections, h.connections]
  · rw [hMean.pending, h.idle]
  · rw [hMean.refused, h.refused]
  · exact hMean.workerPolicy_connected.trans hTable

theorem Bare.refuse (h : Bare w) {op : WorkerOp} (hCloses : op.closes = false)
    (hStrands : op.strands = false) : Unheld (w.refuse op) := by
  refine ⟨h.http, ?_, h.idle, ?_, ?_⟩
  · rw [WorkerHost.refuse, h.connections]
    rfl
  · rw [WorkerHost.refuse, h.refused]
    simp [hCloses]
  · rw [WorkerHost.refuse, h.connections, h.refused]
    simp [Connections.start, hStrands]

theorem Connected.table_meanwhile (h : Connected db w) (hMean : w.Meanwhile v) :
    ∃ table, v.link.committed.workerPolicy = some table ∧ Replaceable table := by
  obtain ⟨table, hTable, hReplaceable⟩ := h.table
  refine ⟨table, ?_, hReplaceable⟩
  rcases hMean.policy with hSame | hConnected
  · exact hSame.trans hTable
  · rw [connected_of_some hTable] at hConnected
    exact hConnected.trans hTable

theorem Connected.far {op : WorkerOp} {reply : op.Reply} {w' : WorkerHost} (h : Connected db w)
    (hStep : workerHost w op reply w') (hOp : op.holding = false) (hFar : op.onDatabase = false) :
    Connected db w' := by
  have hHeld := h.held.step hStep hOp
  obtain ⟨v, hMean, hPerforms⟩ := hStep
  have hLink := (hPerforms.far hOp hFar).1
  refine ⟨hHeld, ?_, ?_⟩
  · rw [hLink, hMean.pending, h.idle]
  · rw [hLink]
    exact h.table_meanwhile hMean

/-- The policy is published, and nothing the worker does from here on touches the store. -/
structure Serving (db : Nat) (policy : WorkerPolicy) (w : WorkerHost) : Prop where
  held : Held db w
  stands : Stands policy w

theorem Serving.far {op : WorkerOp} {reply : op.Reply} {w' : WorkerHost} (h : Serving db policy w)
    (hStep : workerHost w op reply w') (hOp : op.holding = false) (hFar : op.onDatabase = false) :
    Serving db policy w' :=
  ⟨h.held.step hStep hOp, h.stands.far hStep hOp hFar⟩

theorem Unheld.meanwhile (h : Unheld w) (hMean : w.Meanwhile v) : Unheld v := by
  refine ⟨?_, ?_, ?_, ?_, ?_⟩
  · rw [hMean.http, h.http]
  · rw [hMean.connections, h.remembered]
  · rw [hMean.pending, h.idle]
  · rw [hMean.refused]
    exact h.refused
  · rw [hMean.connections, hMean.refused]
    exact h.opened

theorem Held.meanwhile (h : Held db w) (hMean : w.Meanwhile v) : Held db v := by
  refine ⟨?_, ?_, ?_, ?_⟩
  · rw [hMean.http, h.http]
  · rw [hMean.connections, h.opened]
  · rw [hMean.connections, h.remembered]
  · rw [hMean.refused]
    exact h.refused

theorem Held.closed {u : WorkerHost} (h : Held db w)
    (hLater : WorkerHost.Meanwhile { w with
      connections := { w.connections with opened := w.connections.opened.erase db }
      link := idle w.link.committed } u) :
    Unheld { u with connections := { u.connections with remembered := none } } := by
  have hNone : ¬ ∃ op ∈ u.refused, op.strands = true := by
    rintro ⟨op, hMem, hStrands⟩
    rw [hLater.refused] at hMem
    rw [(h.refused op hMem).2] at hStrands
    cases hStrands
  refine ⟨hLater.http.trans h.http, rfl, hLater.pending, fun op hMem => ?_, ?_⟩
  · exact (h.refused op (hLater.refused ▸ hMem)).1
  · refine iff_of_false (fun hOpened => hOpened ?_) hNone
    change u.connections.opened = []
    rw [hLater.connections]
    simp [h.opened]

end Parts

/-- Nobody interferes, and every request is granted. -/
def WorkerHost.granted (w : WorkerHost) : (op : WorkerOp) → op.Reply × WorkerHost
  | .openHttp _ => (.ok (), { w with http := true })
  | .closeHttp => (.ok (), { w with http := false })
  | .connection .mkdir => (.ok (), w)
  | .connection .openFile => (.ok w.connections.fresh, { w with
      connections := w.connections.add
      link := idle w.link.committed })
  | .connection (.setUp _ statement) =>
    (.ok (), if statement = .schema then { w with link := idle w.link.committed.connected } else w)
  | .connection .remembered => (w.connections.remembered, w)
  | .connection (.remember db) => ((), { w with connections := { w.connections with remembered := db } })
  | .connection (.closeFile db) => (.ok (), { w with
      connections := { w.connections with opened := w.connections.opened.erase db }
      link := idle w.link.committed })
  | .connection .brokerConnect => (.ok (), w)
  | .connection .topology => (.ok (), w)
  | .storeClock => (.startOf newYear2026, w)
  | .sql request =>
    ((callOnce storeDialect none w.link request).1,
      { w with link := (callOnce storeDialect none w.link request).2 })
  | .makeClient _ => (.ok 0, w)
  | .connect client => (.ok (), { w with connected := client :: w.connected })
  | .rand => (.zero, w)
  | .sleep _ => (.ok (), w)
  | .broker _ op => (.ok (w.broker.perform op).1, { w with broker := (w.broker.perform op).2 })
  | .buildProviders _ => (.ok (), w)
  | .monotonic => (0, w)
  | .joinGroup .. => (.ok (), w)
  | .consume .. => (.ok (), w)

theorem WorkerHost.Meanwhile.refl (w : WorkerHost) : w.Meanwhile w where
  http := rfl
  connections := rfl
  connected := rfl
  refused := rfl
  pending := rfl
  locked _ := rfl
  policy := .inl rfl
  topics _ _ _ h := h

end LlmBus
