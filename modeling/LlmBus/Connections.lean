import LlmBus.Foundation.Interaction
import LlmBus.Schema

/-! # Opening and closing the store

A `Store` remembers one connection, and a `BusClient` has one `Store`. Any step of a
connect can raise; what is open then, and what is remembered, is followed through every
sequence of calls.
-/

namespace LlmBus

open Foundation Interaction

/-- What is executed on a connection before it is remembered. -/
inductive Setup where
  | journalMode
  | busyTimeout
  | schema
  | commit
  deriving DecidableEq

inductive ConnectionOp where
  | mkdir
  | openFile
  | setUp (db : Nat) (statement : Setup)
  /-- `self._db` -/
  | remembered
  | remember (db : Option Nat)
  | closeFile (db : Nat)
  | brokerConnect
  | topology

abbrev ConnectionOp.Reply : ConnectionOp → Type
  | .mkdir => Except PyError Unit
  | .openFile => Except PyError Nat
  | .setUp .. => Except PyError Unit
  | .remembered => Option Nat
  | .remember _ => Unit
  | .closeFile _ => Unit
  | .brokerConnect => Except PyError Unit
  | .topology => Except PyError Unit

abbrev connectionInterface : Interface where
  Op := ConnectionOp
  Reply := ConnectionOp.Reply

abbrev Opening := Program connectionInterface PyError

/-- A store in memory has no directory. -/
structure StorePath where
  inMemory : Bool

def Opening.setUp (db : Nat) (statement : Setup) : Opening Unit :=
  .ask (.setUp db statement) .ofExcept

def Opening.openFile : Opening Nat :=
  .ask .openFile .ofExcept

def Opening.remember (db : Option Nat) : Opening Unit :=
  .ask (.remember db) .ret

def storeConnect (path : StorePath) : Opening Unit := do
  if !path.inMemory then .ask .mkdir .ofExcept
  let db ← Opening.openFile
  Opening.setUp db .journalMode
  Opening.setUp db .busyTimeout
  Opening.setUp db .schema
  Opening.setUp db .commit
  Opening.remember (some db)

def storeClose : Opening Unit :=
  .ask .remembered fun db : Option Nat =>
    match db with
    | none => pure ()
    | some db => .ask (.closeFile db) fun _ => Opening.remember none

def clientConnect (path : StorePath) : Opening Unit := do
  storeConnect path
  (.ask .brokerConnect .ofExcept : Opening Unit)
  .ask .topology .ofExcept

inductive Owner where
  | store
  | busClient
  deriving DecidableEq

def Owner.connect (path : StorePath) : Owner → Opening Unit
  | .store => storeConnect path
  | .busClient => clientConnect path

/-- `enter` and `exit` are those of `async with`; one calls `connect`, the other `close`. -/
inductive Call where
  | connect
  | close
  | enter
  | exit
  deriving DecidableEq

def Call.program (owner : Owner) (path : StorePath) : Call → Opening Unit
  | .connect | .enter => owner.connect path
  | .close | .exit => storeClose

/-! ### What is open -/

/-- The connections that the object has opened and not closed, the one it remembers, and the
most that have been open at any time. -/
structure Connections where
  opened : List Nat
  remembered : Option Nat
  fresh : Nat
  peak : Nat
  deriving DecidableEq

def Connections.start : Connections :=
  ⟨[], none, 0, 0⟩

/-- What raises, and where. -/
structure Faults where
  mkdir : Option PyError
  openFile : Option PyError
  setUp : Setup → Option PyError
  brokerConnect : Option PyError
  topology : Option PyError

def raising {α : Type} (fault : Option PyError) (a : α) : Except PyError α :=
  fault.elim (.ok a) .error

def Connections.add (w : Connections) : Connections :=
  { w with
    opened := w.fresh :: w.opened
    fresh := w.fresh + 1
    peak := max w.peak (w.opened.length + 1) }

def Connections.answer (faults : Faults) (w : Connections) :
    (op : ConnectionOp) → op.Reply × Connections
  | .mkdir => (raising faults.mkdir (), w)
  | .openFile =>
    match faults.openFile with
    | some e => (.error e, w)
    | none => (.ok w.fresh, w.add)
  | .setUp _ statement => (raising (faults.setUp statement) (), w)
  | .remembered => (w.remembered, w)
  | .remember db => ((), { w with remembered := db })
  | .closeFile db => ((), { w with opened := w.opened.erase db })
  | .brokerConnect => (raising faults.brokerConnect (), w)
  | .topology => (raising faults.topology (), w)

/-- One call, with what goes wrong in it. -/
structure Occasion where
  call : Call
  faults : Faults

def Occasion.run (owner : Owner) (path : StorePath) (o : Occasion) (w : Connections) :
    Except PyError Unit × Connections :=
  Interaction.run (Connections.answer o.faults) (o.call.program owner path) w

/-- Every sequence of calls, each of which is admitted where it is made. -/
inductive Calls (ok : Connections → Occasion → Prop) (owner : Owner) (path : StorePath) :
    Connections → Prop where
  | start : Calls ok owner path .start
  | call {w : Connections} (o : Occasion) (h : Calls ok owner path w) (hOk : ok w o) :
      Calls ok owner path (o.run owner path w).2

/-! ### One connect -/

def Faults.OpensFile (path : StorePath) (faults : Faults) : Prop :=
  (path.inMemory = false → faults.mkdir = none) ∧ faults.openFile = none

section Connect

variable {path : StorePath} {faults : Faults} {w : Connections}

theorem run_storeConnect_refused (h : ¬ faults.OpensFile path) :
    ∃ e, run (Connections.answer faults) (storeConnect path) w = (.error e, w) := by
  unfold storeConnect
  cases hMemory : path.inMemory with
  | true =>
    cases hOpen : faults.openFile with
    | none => exact absurd ⟨by simp [hMemory], hOpen⟩ h
    | some e =>
      refine ⟨e, ?_⟩
      simp [Opening.openFile, Connections.answer, hOpen]
  | false =>
    cases hMkdir : faults.mkdir with
    | some e =>
      refine ⟨e, ?_⟩
      simp [Connections.answer, raising, hMkdir]
    | none =>
      cases hOpen : faults.openFile with
      | none => exact absurd ⟨fun _ => hMkdir, hOpen⟩ h
      | some e =>
        refine ⟨e, ?_⟩
        simp [Opening.openFile, Connections.answer, raising, hMkdir, hOpen]

theorem run_storeConnect (h : faults.OpensFile path) (hSetUp : ∀ statement, faults.setUp statement = none) :
    run (Connections.answer faults) (storeConnect path) w =
      (.ok (), { w.add with remembered := some w.fresh }) := by
  unfold storeConnect
  cases hMemory : path.inMemory with
  | true =>
    simp [Opening.openFile, Opening.setUp, Opening.remember, Connections.answer, raising, h.2, hSetUp]
  | false =>
    simp [Opening.openFile, Opening.setUp, Opening.remember, Connections.answer, raising, h.1 hMemory,
      h.2, hSetUp]

theorem run_clientConnect :
    run (Connections.answer faults) (clientConnect path) w =
      match run (Connections.answer faults) (storeConnect path) w with
      | (.ok _, w') => (raising (faults.brokerConnect.or faults.topology) (), w')
      | (.error e, w') => (.error e, w') := by
  unfold clientConnect
  rw [Program.bind_eq, run_bind]
  cases run (Connections.answer faults) (storeConnect path) w with
  | mk outcome w' =>
    cases outcome with
    | error e => rfl
    | ok _ =>
      cases hBroker : faults.brokerConnect with
      | some e => simp [Connections.answer, raising, hBroker]
      | none =>
        cases hTopology : faults.topology with
        | some e => simp [Connections.answer, raising, hBroker, hTopology]
        | none => simp [Connections.answer, raising, hBroker, hTopology]

theorem run_storeClose : run (Connections.answer faults) storeClose w =
    (.ok (), { w with opened := w.remembered.elim w.opened w.opened.erase, remembered := none }) := by
  unfold storeClose
  cases hRemembered : w.remembered with
  | none =>
    obtain ⟨opened, remembered, fresh, peak⟩ := w
    cases hRemembered
    rfl
  | some db => simp [Opening.remember, Connections.answer, hRemembered]

end Connect

/-! ### Every sequence of calls -/

/-- The call would open a connection. -/
def Occasion.Opens (path : StorePath) (o : Occasion) : Prop :=
  (o.call = .connect ∨ o.call = .enter) ∧ o.faults.OpensFile path

/-- Nothing is opened, or entered, while a connection is remembered; nothing fails between the
opening of the file and the moment it is remembered; and a client that has entered its store gets
as far as its broker's topology. -/
structure Careful (owner : Owner) (path : StorePath) (w : Connections) (o : Occasion) : Prop where
  notConnected : o.Opens path ∨ o.call = .enter → w.remembered = none
  setUp : o.Opens path → ∀ statement, o.faults.setUp statement = none
  broker : o.Opens path → owner = .busClient → o.call = .enter →
    o.faults.brokerConnect = none ∧ o.faults.topology = none

/-- What is open is what is remembered. -/
structure Tidy (w : Connections) : Prop where
  opened : w.opened = w.remembered.toList
  peak : w.peak ≤ 1

section Calls

variable {owner : Owner} {path : StorePath} {w : Connections} {o : Occasion}

theorem Tidy.start : Tidy .start :=
  ⟨rfl, Nat.zero_le 1⟩

theorem Tidy.add (h : Tidy w) (hNone : w.remembered = none) :
    Tidy { w.add with remembered := some w.fresh } := by
  have hNothing : w.opened = [] := by rw [h.opened, hNone]; rfl
  refine ⟨?_, ?_⟩
  · rw [Connections.add, hNothing]
    rfl
  · have hPeak := h.peak
    simp only [Connections.add, hNothing, List.length_nil]
    omega

theorem Tidy.closed (h : Tidy w) :
    Tidy { w with opened := w.remembered.elim w.opened w.opened.erase, remembered := none } ∧
      w.remembered.elim w.opened w.opened.erase = [] := by
  have hNothing : w.remembered.elim w.opened w.opened.erase = [] := by
    cases hRemembered : w.remembered with
    | none => simp [h.opened, hRemembered]
    | some db => simp [h.opened, hRemembered]
  exact ⟨⟨by rw [hNothing]; rfl, h.peak⟩, hNothing⟩

/-- A connect is refused before anything is open, or leaves one connection, remembered; it can
then fail only on a client's way to its broker. -/
theorem run_connect_cases (hConnects : o.call = .connect ∨ o.call = .enter)
    (hCareful : Careful owner path w o) :
    (∃ e, o.run owner path w = (.error e, w)) ∨
      w.remembered = none ∧
        ∃ outcome, o.run owner path w = (outcome, { w.add with remembered := some w.fresh }) ∧
          (o.call = .enter → outcome = .ok ()) := by
  have hProgram : o.call.program owner path = owner.connect path := by
    cases hConnects with
    | inl hCall =>
      rw [hCall]
      rfl
    | inr hCall =>
      rw [hCall]
      rfl
  rw [Occasion.run, hProgram]
  by_cases hOpens : o.faults.OpensFile path
  · have hRemembered := hCareful.notConnected (.inl ⟨hConnects, hOpens⟩)
    have hStore := run_storeConnect (w := w) hOpens (hCareful.setUp ⟨hConnects, hOpens⟩)
    refine .inr ⟨hRemembered, ?_⟩
    cases owner with
    | store => exact ⟨_, hStore, fun _ => rfl⟩
    | busClient =>
      rw [Owner.connect, run_clientConnect, hStore]
      refine ⟨_, rfl, fun hEnter => ?_⟩
      obtain ⟨hBroker, hTopology⟩ := hCareful.broker ⟨hConnects, hOpens⟩ rfl hEnter
      rw [hBroker, hTopology]
      rfl
  · obtain ⟨e, hStore⟩ := run_storeConnect_refused (w := w) hOpens
    refine .inl ⟨e, ?_⟩
    cases owner with
    | store => exact hStore
    | busClient => rw [Owner.connect, run_clientConnect, hStore]

theorem run_close (hCloses : o.call = .close ∨ o.call = .exit) :
    o.run owner path w = (.ok (), { w with
      opened := w.remembered.elim w.opened w.opened.erase
      remembered := none }) := by
  cases hCloses with
  | inl hCall =>
    rw [Occasion.run, hCall]
    exact run_storeClose
  | inr hCall =>
    rw [Occasion.run, hCall]
    exact run_storeClose

theorem Call.connects_or_closes (call : Call) :
    (call = .connect ∨ call = .enter) ∨ call = .close ∨ call = .exit := by
  cases call <;> simp

theorem Tidy.call (h : Tidy w) (hCareful : Careful owner path w o) : Tidy (o.run owner path w).2 := by
  cases o.call.connects_or_closes with
  | inl hConnects =>
    rcases run_connect_cases hConnects hCareful with ⟨e, hRun⟩ | ⟨hNone, outcome, hRun, _⟩
    · rw [hRun]
      exact h
    · rw [hRun]
      exact h.add hNone
  | inr hCloses =>
    rw [run_close hCloses]
    exact h.closed.1

theorem Calls.tidy (h : Calls (Careful owner path) owner path w) : Tidy w := by
  induction h with
  | start => exact .start
  | call o _ hOk ih => exact ih.call hOk

/-- With care no two connections are ever open, none is after a close, and none after an enter
that raised. -/
theorem connections_kept (h : Calls (Careful owner path) owner path w) :
    w.peak ≤ 1 ∧ ∀ o, Careful owner path w o →
      (o.call = .close ∨ o.call = .exit → (o.run owner path w).2.opened = []) ∧
        ∀ e, o.call = .enter → (o.run owner path w).1 = .error e →
          (o.run owner path w).2.opened = [] := by
  have hTidy := h.tidy
  refine ⟨hTidy.peak, fun o hCareful => ⟨fun hCloses => ?_, fun e hEnter hRaised => ?_⟩⟩
  · rw [run_close hCloses]
    exact hTidy.closed.2
  · rcases run_connect_cases (.inr hEnter) hCareful with ⟨_, hRun⟩ | ⟨_, outcome, hRun, hOk⟩
    · rw [hRun, hTidy.opened, hCareful.notConnected (.inr hEnter)]
      rfl
    · rw [hRun, hOk hEnter] at hRaised
      cases hRaised

end Calls

/-! ### Calls that go well, and three that do not -/

def noFault : Faults :=
  ⟨none, none, fun _ => none, none, none⟩

def locked : PyError :=
  ⟨.operationalError, txt "database is locked"⟩

def unreachable : PyError :=
  ⟨.brokerError, txt "connection refused"⟩

def onDisk : StorePath :=
  ⟨false⟩

theorem careful_noFault {owner : Owner} {path : StorePath} {w : Connections} {call : Call}
    (h : w.remembered = none ∨ call = .close ∨ call = .exit) : Careful owner path w ⟨call, noFault⟩ where
  notConnected hConnects := by
    rcases h with hNone | rfl | rfl
    · exact hNone
    · rcases hConnects with ⟨hCall | hCall, _⟩ | hCall
      · cases hCall
      · cases hCall
      · cases hCall
    · rcases hConnects with ⟨hCall | hCall, _⟩ | hCall
      · cases hCall
      · cases hCall
      · cases hCall
  setUp _ _ := rfl
  broker _ _ _ := ⟨rfl, rfl⟩

/-- The file cannot be opened. -/
def noFile : Faults :=
  { noFault with openFile := some ⟨.operationalError, txt "unable to open database file"⟩ }

theorem careful_noFile {owner : Owner} {path : StorePath} {w : Connections} {call : Call}
    (h : w.remembered = none) : Careful owner path w ⟨call, noFile⟩ where
  notConnected _ := h
  setUp _ _ := rfl
  broker _ _ _ := ⟨rfl, rfl⟩

/-- A client that is refused the file, connects, closes and comes back in a block. -/
def returning : List Occasion :=
  [⟨.connect, noFile⟩, ⟨.connect, noFault⟩, ⟨.close, noFault⟩, ⟨.enter, noFault⟩]

def Connections.after (owner : Owner) (path : StorePath) : List Occasion → Connections → Connections
  | [], w => w
  | o :: rest, w => Connections.after owner path rest (o.run owner path w).2

/-- The block has the second connection open and closes it; an enter that is refused the file
after that raises and leaves nothing open. -/
theorem connections_kept_returning :
    let w := Connections.after .busClient onDisk returning .start
    let left := (⟨.exit, noFault⟩ : Occasion).run .busClient onDisk w
    let again := (⟨.enter, noFile⟩ : Occasion).run .busClient onDisk left.2
    w.opened = [1] ∧ left.2.opened = [] ∧ (∃ e, again.1 = .error e) ∧ again.2.opened = [] ∧
      again.2.peak ≤ 1 := by
  intro w left again
  have hRefused : Calls (Careful .busClient onDisk) .busClient onDisk
      ((⟨.connect, noFile⟩ : Occasion).run .busClient onDisk .start).2 :=
    .call _ .start (careful_noFile rfl)
  have hConnected := hRefused.call ⟨.connect, noFault⟩ (careful_noFault (.inl rfl))
  have hClosed := hConnected.call ⟨.close, noFault⟩ (careful_noFault (.inr (.inl rfl)))
  have hEntered : Calls (Careful .busClient onDisk) .busClient onDisk w :=
    hClosed.call ⟨.enter, noFault⟩ (careful_noFault (.inl rfl))
  have hLeft : Calls (Careful .busClient onDisk) .busClient onDisk left.2 :=
    hEntered.call ⟨.exit, noFault⟩ (careful_noFault (.inr (.inr rfl)))
  have hAgain : Calls (Careful .busClient onDisk) .busClient onDisk again.2 :=
    hLeft.call ⟨.enter, noFile⟩ (careful_noFile rfl)
  have hRaised : again.1 = .error ⟨.operationalError, txt "unable to open database file"⟩ := rfl
  refine ⟨rfl, ?_, ⟨_, hRaised⟩, ?_, (connections_kept hAgain).1⟩
  · exact ((connections_kept hEntered).2 ⟨.exit, noFault⟩ (careful_noFault (.inr (.inr rfl)))).1 (.inr rfl)
  · exact ((connections_kept hLeft).2 ⟨.enter, noFile⟩ (careful_noFile rfl)).2 _ rfl hRaised

/-- Two connects leave two connections, of which a close closes one; a store whose schema fails
and a client whose broker is away leave one that nobody remembers or nobody will close. -/
theorem connections_leak :
    ((⟨.connect, noFault⟩ : Occasion).run .store onDisk
        ((⟨.connect, noFault⟩ : Occasion).run .store onDisk .start).2).2.peak = 2 ∧
      ((⟨.close, noFault⟩ : Occasion).run .store onDisk
        ((⟨.connect, noFault⟩ : Occasion).run .store onDisk
          ((⟨.connect, noFault⟩ : Occasion).run .store onDisk .start).2).2).2.opened = [0] ∧
      (⟨.enter, { noFault with setUp := fun _ => some locked }⟩ : Occasion).run .store onDisk .start =
        (.error locked, ⟨[0], none, 1, 1⟩) ∧
      (⟨.enter, { noFault with brokerConnect := some unreachable }⟩ : Occasion).run .busClient onDisk
        .start = (.error unreachable, ⟨[0], some 0, 1, 1⟩) := by
  refine ⟨rfl, rfl, rfl, rfl⟩

end LlmBus
