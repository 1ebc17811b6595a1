import LlmBus.Foundation.Concurrency
import LlmBus.Foundation.KeyedTable
import LlmBus.Schema

/-! # Creating the topology

Every worker and every producer that connects checks for the stream and the topic and
creates what it misses. Any number of them run over one broker; each request is one step.
-/

namespace LlmBus

open Foundation Interaction Concurrency

/-! ### The broker -/

structure TopicDetails where
  name : Text
  partitions : Nat
  deriving DecidableEq

structure StreamDetails where
  name : Text
  topics : KeyedTable TopicDetails.name

abbrev Broker := KeyedTable StreamDetails.name

def StreamDetails.withTopic (topic : TopicDetails) (stream : StreamDetails) : StreamDetails :=
  { stream with topics := stream.topics.insertNew topic }

theorem StreamDetails.name_withTopic (topic : TopicDetails) (stream : StreamDetails) :
    (stream.withTopic topic).name = stream.name := rfl

inductive BrokerOp where
  | getStream (stream : Text)
  | createStream (stream : Text)
  | getTopic (stream topic : Text)
  | createTopic (stream topic : Text) (partitions : Nat)
  deriving DecidableEq

abbrev BrokerOp.Reply : BrokerOp → Type
  | .getStream _ => Option StreamDetails
  | .createStream _ => Except PyError Unit
  | .getTopic .. => Option TopicDetails
  | .createTopic .. => Except PyError Unit

abbrev brokerInterface : Interface where
  Op := BrokerOp
  Reply := BrokerOp.Reply

abbrev Client := Program brokerInterface PyError

def alreadyExists (name : Text) : PyError :=
  ⟨.brokerError, name ++ txt " already exists"⟩

def notFound (name : Text) : PyError :=
  ⟨.brokerError, name ++ txt " not found"⟩

namespace Broker

def topic (b : Broker) (stream name : Text) : Option TopicDetails :=
  (b.find stream).bind fun details => details.topics.find name

def addTopic (b : Broker) (stream : Text) (topic : TopicDetails) : Broker :=
  b.update stream (StreamDetails.withTopic topic) (StreamDetails.name_withTopic topic)

def perform (b : Broker) : (op : BrokerOp) → op.Reply × Broker
  | .getStream stream => (b.find stream, b)
  | .createStream stream =>
    match b.find stream with
    | some _ => (.error (alreadyExists stream), b)
    | none => (.ok (), b.insertNew ⟨stream, .empty⟩)
  | .getTopic stream topic => (b.topic stream topic, b)
  | .createTopic stream topic partitions =>
    match b.find stream with
    | none => (.error (notFound stream), b)
    | some details =>
      match details.topics.find topic with
      | some _ => (.error (alreadyExists topic), b)
      | none => (.ok (), b.addTopic stream ⟨topic, partitions⟩)

end Broker

/-! ### The clients -/

structure Topology where
  stream : Text
  topic : Text
  partitions : Nat

def DEFAULT_TOPOLOGY : Topology :=
  ⟨txt "llmbus", txt "llm-jobs", 1⟩

def createStream (topology : Topology) : Client Unit :=
  .ask (.createStream topology.stream) .ofExcept

def createTopic (topology : Topology) : Client Unit :=
  .ask (.createTopic topology.stream topology.topic topology.partitions) .ofExcept

def ensureTopic (topology : Topology) : Client Unit :=
  .ask (.getTopic topology.stream topology.topic) fun found : Option TopicDetails =>
    if found.isNone then createTopic topology else pure ()

def ensureTopology (topology : Topology) : Client Unit :=
  .ask (.getStream topology.stream) fun found : Option StreamDetails => do
    if found.isNone then createStream topology
    ensureTopic topology

/-- A client can run `ensure_topology` at any time and any number of times. -/
abbrev topologyMachine (topology : Topology) : Machine brokerInterface PyError Unit where
  State := Broker
  Entry := Unit
  start _ _ := some (ensureTopology topology)
  perform _ b op _ := b.perform op

abbrev TopologyConfig (topology : Topology) := Config (topologyMachine topology)

/-! ### What one request does to the broker -/

namespace Broker

variable {b : Broker} {stream name : Text}

theorem topic_of_find {details : StreamDetails} (h : b.find stream = some details) :
    b.topic stream name = details.topics.find name := by
  rw [topic, h]
  rfl

theorem find_addTopic_self {details : StreamDetails} {added : TopicDetails}
    (h : b.find stream = some details) :
    (b.addTopic stream added).find stream = some (details.withTopic added) := by
  rw [addTopic, KeyedTable.find_update_self, h]
  rfl

theorem find_addTopic_of_ne {other : Text} {added : TopicDetails} (h : other ≠ stream) :
    (b.addTopic stream added).find other = b.find other :=
  KeyedTable.find_update_of_ne _ h

theorem topic_addTopic_self {details : StreamDetails} {added : TopicDetails}
    (hStream : b.find stream = some details) (hTopic : details.topics.find added.name = none) :
    (b.addTopic stream added).topic stream added.name = some added := by
  rw [topic_of_find (find_addTopic_self hStream), StreamDetails.withTopic,
    KeyedTable.find_insertNew_self hTopic]

/-- What a request can do: nothing, add a stream that is not there, or a topic that is not. -/
theorem perform_cases (b : Broker) (op : BrokerOp) :
    (b.perform op).2 = b ∨
      (∃ stream, op = .createStream stream ∧ b.find stream = none ∧
        (b.perform op).2 = b.insertNew ⟨stream, .empty⟩) ∨
      ∃ stream name partitions details, op = .createTopic stream name partitions ∧
        b.find stream = some details ∧ details.topics.find name = none ∧
          (b.perform op).2 = b.addTopic stream ⟨name, partitions⟩ := by
  cases op with
  | getStream stream => exact .inl rfl
  | getTopic stream name => exact .inl rfl
  | createStream stream =>
    cases hFind : b.find stream with
    | some details => exact .inl (by simp only [perform, hFind])
    | none => exact .inr (.inl ⟨stream, rfl, hFind, by simp only [perform, hFind]⟩)
  | createTopic stream name partitions =>
    cases hFind : b.find stream with
    | none => exact .inl (by simp only [perform, hFind])
    | some details =>
      cases hTopic : details.topics.find name with
      | some found => exact .inl (by simp only [perform, hFind, hTopic])
      | none =>
        exact .inr (.inr ⟨stream, name, partitions, details, rfl, hFind, hTopic, by
          simp only [perform, hFind, hTopic]⟩)

/-- Streams and topics stay. -/
theorem topic_perform {op : BrokerOp} {found : TopicDetails} (h : b.topic stream name = some found) :
    (b.perform op).2.topic stream name = some found := by
  obtain ⟨details, hStream, hTopic⟩ := Option.bind_eq_some_iff.mp h
  rcases perform_cases b op with hSame | ⟨new, _, hNone, hNew⟩ | ⟨s, n, p, old, _, hOld, hNone, hNew⟩
  · rw [hSame, h]
  · have hNe : stream ≠ new := by
      rintro rfl
      rw [hNone] at hStream
      cases hStream
    rw [hNew, topic, KeyedTable.find_insertNew_of_ne hNe]
    exact h
  · rw [hNew]
    by_cases hSame : stream = s
    · subst hSame
      rw [hOld] at hStream
      cases hStream
      have hNe : name ≠ n := by
        rintro rfl
        rw [hNone] at hTopic
        cases hTopic
      rw [topic_of_find (find_addTopic_self hOld), StreamDetails.withTopic,
        KeyedTable.find_insertNew_of_ne hNe, hTopic]
    · rw [topic, find_addTopic_of_ne hSame]
      exact h

theorem isSome_find_perform {op : BrokerOp} (h : (b.find stream).isSome = true) :
    ((b.perform op).2.find stream).isSome = true := by
  rcases perform_cases b op with hSame | ⟨new, _, hNone, hNew⟩ | ⟨s, n, p, old, _, hOld, _, hNew⟩
  · rw [hSame, h]
  · have hNe : stream ≠ new := by
      rintro rfl
      rw [hNone] at h
      cases h
    rw [hNew, KeyedTable.find_insertNew_of_ne hNe, h]
  · rw [hNew]
    by_cases hSame : stream = s
    · subst hSame
      rw [find_addTopic_self hOld]
      rfl
    · rw [find_addTopic_of_ne hSame, h]

theorem find_perform_of_ne {op : BrokerOp} (h : b.find stream = none) (hOp : op ≠ .createStream stream) :
    (b.perform op).2.find stream = none := by
  rcases perform_cases b op with hSame | ⟨new, rfl, _, hNew⟩ | ⟨s, n, p, old, rfl, hOld, _, hNew⟩
  · rw [hSame, h]
  · have hNe : stream ≠ new := fun hEq => hOp (congrArg _ hEq.symm)
    rw [hNew, KeyedTable.find_insertNew_of_ne hNe, h]
  · have hNe : stream ≠ s := by
      rintro rfl
      rw [hOld] at h
      cases h
    rw [hNew, find_addTopic_of_ne hNe, h]

theorem topic_perform_of_ne {op : BrokerOp} (h : b.topic stream name = none)
    (hOp : ∀ partitions, op ≠ .createTopic stream name partitions) :
    (b.perform op).2.topic stream name = none := by
  rcases perform_cases b op with hSame | ⟨new, rfl, hNone, hNew⟩ | ⟨s, n, p, old, rfl, hOld, _, hNew⟩
  · rw [hSame, h]
  · rw [hNew]
    by_cases hSame : stream = new
    · subst hSame
      exact topic_of_find (KeyedTable.find_insertNew_self hNone)
    · rw [topic, KeyedTable.find_insertNew_of_ne hSame]
      exact h
  · rw [hNew]
    by_cases hSame : stream = s
    · subst hSame
      have hNe : name ≠ n := fun hEq => hOp p (by rw [hEq])
      rw [topic_of_find (find_addTopic_self hOld), StreamDetails.withTopic,
        KeyedTable.find_insertNew_of_ne hNe, ← topic_of_find hOld, h]
    · rw [topic, find_addTopic_of_ne hSame]
      exact h

end Broker

/-! ### Where a client stands -/

/-- What a client has seen, and that it is still so. -/
inductive Standing (topology : Topology) (b : Broker) : Client Unit → Prop where
  | starting : Standing topology b (ensureTopology topology)
  | streamMissing (h : b.find topology.stream = none) :
      Standing topology b ((createStream topology).bind fun _ => ensureTopic topology)
  | streamThere (h : (b.find topology.stream).isSome = true) :
      Standing topology b (ensureTopic topology)
  | topicMissing (hStream : (b.find topology.stream).isSome = true)
      (h : b.topic topology.stream topology.topic = none) :
      Standing topology b (createTopic topology)
  | done {found : TopicDetails} (h : b.topic topology.stream topology.topic = some found) :
      Standing topology b (.ret ())

def BrokerOp.creates : BrokerOp → Bool
  | .createStream _ | .createTopic .. => true
  | _ => false

/-- No client creates a name while another one stands between its own check, which found the
name missing, and its own create of it. -/
def Undisturbed {topology : Topology} (c : TopologyConfig topology) : Action (topologyMachine topology) → Prop
  | .advance t _ => ∀ op k, c.threads t = some (.ask op k) → op.creates = true →
      ∀ u k', u ≠ t → c.threads u ≠ some (.ask op k')
  | _ => True

section Clients

variable {topology : Topology} {b : Broker}

theorem Standing.own {op : BrokerOp} {k : op.Reply → Client Unit}
    (h : Standing topology b (.ask op k)) :
    Standing topology (b.perform op).2 (k (b.perform op).1) := by
  generalize hp : (Program.ask op k : Client Unit) = p at h
  cases h with
  | starting =>
    cases hp
    cases hFind : b.find topology.stream with
    | none =>
      simp only [Broker.perform, hFind]
      exact .streamMissing hFind
    | some details =>
      simp only [Broker.perform, hFind]
      exact .streamThere (by rw [hFind]; rfl)
  | streamMissing hNone =>
    cases hp
    have hNew := KeyedTable.find_insertNew_self (r := (⟨topology.stream, .empty⟩ : StreamDetails)) hNone
    simp only [Broker.perform, hNone]
    exact .streamThere (Option.isSome_iff_exists.mpr ⟨_, hNew⟩)
  | streamThere hStream =>
    cases hp
    cases hTopic : b.topic topology.stream topology.topic with
    | none =>
      simp only [Broker.perform, hTopic]
      exact .topicMissing hStream hTopic
    | some found =>
      simp only [Broker.perform, hTopic]
      exact .done hTopic
  | topicMissing hStream hNone =>
    cases hp
    obtain ⟨details, hFind⟩ := Option.isSome_iff_exists.mp hStream
    rw [Broker.topic_of_find hFind] at hNone
    simp only [Broker.perform, hFind, hNone]
    exact .done (Broker.topic_addTopic_self hFind hNone)
  | done => cases hp

/-- A client stays on its feet through another one's request, where that is not the create it
is about to make itself. -/
theorem Standing.other {p : Client Unit} {op : BrokerOp} (h : Standing topology b p)
    (hStream : op = .createStream topology.stream →
      p ≠ ((createStream topology).bind fun _ => ensureTopic topology))
    (hTopic : ∀ partitions, op = .createTopic topology.stream topology.topic partitions →
      p ≠ createTopic topology) :
    Standing topology (b.perform op).2 p := by
  cases h with
  | starting => exact .starting
  | streamMissing hNone =>
    exact .streamMissing (Broker.find_perform_of_ne hNone fun hOp => hStream hOp rfl)
  | streamThere hThere => exact .streamThere (Broker.isSome_find_perform hThere)
  | topicMissing hThere hNone =>
    refine .topicMissing (Broker.isSome_find_perform hThere) ?_
    exact Broker.topic_perform_of_ne hNone fun partitions hOp => hTopic partitions hOp rfl
  | done hFound => exact .done (Broker.topic_perform hFound)

theorem Standing.not_fail {e : PyError} : ¬ Standing topology b (.fail e) := by
  intro h
  generalize hp : (Program.fail e : Client Unit) = p at h
  cases h with
  | _ => cases hp

theorem Standing.of_ret {u : Unit} (h : Standing topology b (.ret u)) :
    ∃ found, b.topic topology.stream topology.topic = some found := by
  generalize hp : (Program.ret u : Client Unit) = p at h
  cases h with
  | done hFound => exact ⟨_, hFound⟩
  | _ => cases hp

theorem Standing.partitions_eq {stream name : Text} {partitions : Nat}
    {k : Except PyError Unit → Client Unit}
    (h : Standing topology b (.ask (.createTopic stream name partitions) k)) :
    partitions = topology.partitions := by
  generalize hp : (Program.ask (.createTopic stream name partitions) k : Client Unit) = p at h
  cases h with
  | topicMissing _ _ =>
    cases hp
    rfl
  | _ => cases hp

theorem endsWithin_ofExcept {n : Nat} (r : Except PyError Unit) :
    EndsWithin n (Program.ofExcept r : Client Unit) := by
  cases r <;> cases n <;> trivial

theorem endsWithin_createTopic {n : Nat} : EndsWithin (n + 1) (createTopic topology) :=
  fun r => endsWithin_ofExcept r

theorem endsWithin_ensureTopic {n : Nat} : EndsWithin (n + 2) (ensureTopic topology) := by
  rintro (_ | found)
  · exact endsWithin_createTopic
  · trivial

theorem endsWithin_createStream {n : Nat} :
    EndsWithin (n + 3) ((createStream topology).bind fun _ => ensureTopic topology) := by
  rintro (e | _)
  · trivial
  · exact endsWithin_ensureTopic

theorem endsWithin_ensureTopology : EndsWithin 4 (ensureTopology topology) := by
  rintro (_ | details)
  · exact endsWithin_createStream
  · exact endsWithin_ensureTopic

theorem Standing.endsWithin {p : Client Unit} (h : Standing topology b p) : EndsWithin 4 p := by
  cases h with
  | starting => exact endsWithin_ensureTopology
  | streamMissing _ => exact endsWithin_createStream
  | streamThere _ => exact endsWithin_ensureTopic
  | topicMissing _ _ => exact endsWithin_createTopic
  | done _ => trivial

theorem standing_of_runs {c d : TopologyConfig topology} (h : Runs Undisturbed c d)
    (hc : c.All (Standing topology)) : d.All (Standing topology) := by
  refine h.all ?_ ?_ ?_ hc
  · rintro s entry p hStart
    cases hStart
    exact .starting
  · intro c t proposal op k hAll _ hAsk
    exact (hAll t _ hAsk).own
  · intro c t u proposal op k p hAll hOk hAsk hNe hThread
    refine (hAll u p hThread).other ?_ ?_
    · rintro rfl rfl
      exact hOk _ k hAsk rfl u _ hNe hThread
    · rintro partitions rfl rfl
      obtain rfl := (hAll t _ hAsk).partitions_eq
      exact hOk _ k hAsk rfl u _ hNe hThread

theorem topic_of_runs {c d : TopologyConfig topology} (h : Runs (Freely _) c d) {stream name : Text}
    {found : TopicDetails} (hc : c.state.topic stream name = some found) :
    d.state.topic stream name = some found :=
  h.state (J := fun b => Broker.topic b stream name = some found)
    (fun _ _ _ _ hFound => Broker.topic_perform hFound) hc

/-- One stream of the name, and in it one topic of the name. -/
def Ensured (topology : Topology) (b : Broker) : Prop :=
  b.count (fun details => details.name = topology.stream) = 1 ∧
    ∀ details, b.find topology.stream = some details →
      details.topics.count (fun found => found.name = topology.topic) = 1

theorem ensured_of_topic {found : TopicDetails}
    (h : b.topic topology.stream topology.topic = some found) : Ensured topology b := by
  obtain ⟨details, hStream, hTopic⟩ := Option.bind_eq_some_iff.mp h
  refine ⟨KeyedTable.count_key hStream, fun other hOther => ?_⟩
  rw [hStream] at hOther
  cases hOther
  exact KeyedTable.count_key hTopic

/-- Where no client is disturbed between a check and its create, no client raises, each has at
most four requests to make, and from the first one done there is one stream and one topic. -/
theorem topology_ensured (b : Broker) {c : TopologyConfig topology}
    (h : Runs Undisturbed (.initial b) c) :
    (∀ t p, c.threads t = some p → (∀ e, p ≠ .fail e) ∧ EndsWithin 4 p) ∧
      ∀ t u d, c.threads t = some (.ret u) → Runs (Freely _) c d → Ensured topology d.state := by
  have hAll := standing_of_runs h (Config.all_initial (M := topologyMachine topology) b)
  refine ⟨fun t p hThread => ?_, fun t u d hThread hLater => ?_⟩
  · refine ⟨fun e hFail => ?_, (hAll t p hThread).endsWithin⟩
    exact Standing.not_fail (hFail ▸ hAll t p hThread)
  · obtain ⟨found, hFound⟩ := (hAll t _ hThread).of_ret
    exact ensured_of_topic (topic_of_runs hLater hFound)

end Clients

/-! ### Two clients at once, and three in turn -/

abbrev DefaultConfig := TopologyConfig DEFAULT_TOPOLOGY

def brokerReply : (op : BrokerOp) → op.Reply
  | .getStream _ => none
  | .createStream _ => .ok ()
  | .getTopic .. => none
  | .createTopic .. => .ok ()

def advanceBy (t n : Nat) : List (Action (topologyMachine DEFAULT_TOPOLOGY)) :=
  List.replicate n (.advance t brokerReply)

/-- Both clients find the stream missing before either creates it. -/
def racingActions : List (Action (topologyMachine DEFAULT_TOPOLOGY)) :=
  .spawn () :: .spawn () :: advanceBy 0 1 ++ advanceBy 1 1 ++ advanceBy 0 1 ++ advanceBy 1 1

def DefaultConfig.empty : DefaultConfig :=
  Config.initial (M := topologyMachine DEFAULT_TOPOLOGY) (KeyedTable.empty : Broker)

def topologyRun (actions : List (Action (topologyMachine DEFAULT_TOPOLOGY))) : Option DefaultConfig :=
  DefaultConfig.empty.runActions (fun _ _ => true) actions

theorem racing_client_raises : ∃ c : DefaultConfig, Runs (Freely _) DefaultConfig.empty c ∧
    c.threads 1 = some (.fail (alreadyExists (txt "llmbus"))) := by
  have hRun : (topologyRun racingActions).isSome = true := rfl
  refine ⟨(topologyRun racingActions).get hRun, ?_, rfl⟩
  have hReaches : Reaches (Always _) DefaultConfig.empty ((topologyRun racingActions).get hRun) :=
    reaches_of_runActions (fun _ _ _ => trivial) (Option.some_get hRun).symm
  exact hReaches.runs

/-- No other client is about to make the same create. -/
def undisturbed (c : DefaultConfig) : Action (topologyMachine DEFAULT_TOPOLOGY) → Bool
  | .advance t _ =>
    match c.threads t with
    | some (.ask op _) => !op.creates || (List.range c.fresh).all fun u => u == t ||
        match c.threads u with
        | some (.ask other _) => other != op
        | _ => true
    | _ => true
  | _ => true

theorem undisturbed_sound (c : DefaultConfig) (a : Action (topologyMachine DEFAULT_TOPOLOGY))
    (hNumbered : c.Numbered) (h : undisturbed c a = true) : Undisturbed c a := by
  cases a with
  | advance t proposal =>
    intro op k hThread hCreates u k' hNe hOther
    simp only [undisturbed, hThread, hCreates, Bool.not_true, Bool.false_or, List.all_eq_true,
      List.mem_range] at h
    have hFresh : u < c.fresh := by
      by_contra hNot
      cases (hNumbered u (by omega)).symm.trans hOther
    have hSays := h u hFresh
    simp [hOther, hNe] at hSays
  | spawn entry => trivial
  | crash t => trivial

/-- Three clients: the first creates the stream and is lost between its check for the topic and
its create; the second, which has come in between, creates it; the third is the first one's rerun. -/
def takingTurns : List (Action (topologyMachine DEFAULT_TOPOLOGY)) :=
  .spawn () :: .spawn () :: advanceBy 0 2 ++ advanceBy 1 1 ++ advanceBy 0 1 ++ .crash 0 ::
    advanceBy 1 1 ++ .spawn () :: advanceBy 2 1 ++ advanceBy 1 1 ++ advanceBy 2 1

theorem topology_ensured_taking_turns : ∃ c : DefaultConfig,
    DefaultConfig.empty.runChecked undisturbed takingTurns = some c ∧ c.threads 0 = none ∧
      c.threads 1 = some (.ret ()) ∧ c.threads 2 = some (.ret ()) ∧ Ensured DEFAULT_TOPOLOGY c.state := by
  have hRun : (DefaultConfig.empty.runChecked undisturbed takingTurns).isSome = true := rfl
  have hRuns : Runs Undisturbed DefaultConfig.empty
      ((DefaultConfig.empty.runChecked undisturbed takingTurns).get hRun) :=
    runs_of_runChecked undisturbed_sound (Config.numbered_initial _) (Option.some_get hRun).symm
  exact ⟨_, (Option.some_get hRun).symm, rfl, rfl, rfl,
    (topology_ensured _ hRuns).2 1 () _ rfl (.refl _)⟩

end LlmBus
