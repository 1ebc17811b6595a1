import LlmBus.Bus

/-! # Connecting to the broker

The loop of `connect_broker` and everything it does to its surroundings: a fresh client for
each attempt, one connect on it, and a pause after each failure but the last.
-/

namespace LlmBus

open Foundation Interaction

/-- What the loop asks for. Building a client and sleeping can raise as well, and nothing
catches that. -/
inductive HandshakeOp (Client : Type) where
  | makeClient
  | connect (client : Client)
  | rand
  | sleep (delayS : Double)

abbrev HandshakeOp.Reply (Client Exn : Type) : HandshakeOp Client → Type
  | .makeClient => Except Exn Client
  | .connect _ => Except Exn Unit
  | .rand => Draw
  | .sleep _ => Except Exn Unit

abbrev handshakeInterface (Client Exn : Type) : Interface where
  Op := HandshakeOp Client
  Reply := HandshakeOp.Reply Client Exn

/-- What ends the loop: an exception of its surroundings, or one of the delay's arithmetic. -/
inductive ConnectFailure (Exn : Type) where
  | raised (exc : Exn)
  | arithmetic (e : PyError)

abbrev Handshake (Client Exn : Type) := Program (handshakeInterface Client Exn) (ConnectFailure Exn)

section Loop

variable {Client Exn : Type}

def orRaise {α : Type} : Except Exn α → Handshake Client Exn α
  | .ok a => .ret a
  | .error exc => .fail (.raised exc)

def orOverflow : Except PyError Double → Handshake Client Exn Double
  | .ok delay => .ret delay
  | .error e => .fail (.arithmetic e)

/-- The loop of `connect_broker` from attempt number `attempt` on. -/
def connectFrom (power : Power) (policy : RetryPolicy) (attempt : Nat) : Handshake Client Exn Client :=
  .ask .makeClient fun made => (orRaise made).bind fun client =>
    .ask (.connect client) fun outcome =>
      match outcome with
      | .ok _ => .ret client
      | .error exc =>
        if policy.maxAttempts ≤ attempt + 1 then .fail (.raised exc)
        else
          .ask .rand fun draw : Draw =>
            (orOverflow (backoffDelay power attempt policy draw.value)).bind fun delay =>
              .ask (.sleep delay) fun slept => (orRaise slept).bind fun _ =>
                connectFrom power policy (attempt + 1)
termination_by policy.maxAttempts - attempt

def connectBroker (power : Power) (policy : RetryPolicy) : Handshake Client Exn Client :=
  connectFrom power policy 0

end Loop

/-! ### One broker, seen from the loop -/

/-- How each connect attempt ends, and what each draw gives. -/
structure Weather (Exn : Type) where
  outcome : ℕ → Except Exn Unit
  draw : ℕ → Draw

abbrev HandshakeEvent (Exn : Type) := Event (handshakeInterface ℕ Exn)

/-- Counters for what was asked for, and all of it in order. A client goes by its number. -/
structure HandshakeRecord (Exn : Type) where
  built : ℕ
  connects : ℕ
  draws : ℕ
  log : List (HandshakeEvent Exn)

def HandshakeRecord.start {Exn : Type} : HandshakeRecord Exn := ⟨0, 0, 0, []⟩

namespace Weather

variable {Exn : Type} (w : Weather Exn)

def answer (r : HandshakeRecord Exn) :
    (op : HandshakeOp ℕ) → HandshakeOp.Reply ℕ Exn op × HandshakeRecord Exn
  | .makeClient =>
    (.ok r.built, { r with built := r.built + 1, log := r.log ++ [⟨.makeClient, .ok r.built⟩] })
  | .connect client =>
    (w.outcome r.connects,
      { r with connects := r.connects + 1, log := r.log ++ [⟨.connect client, w.outcome r.connects⟩] })
  | .rand => (w.draw r.draws, { r with draws := r.draws + 1, log := r.log ++ [⟨.rand, w.draw r.draws⟩] })
  | .sleep delayS => (.ok (), { r with log := r.log ++ [⟨.sleep delayS, .ok ()⟩] })

def run (power : Power) (policy : RetryPolicy) :
    Except (ConnectFailure Exn) ℕ × HandshakeRecord Exn :=
  Interaction.run w.answer (connectBroker power policy) .start

/-- One attempt: client number `i` is built and connected. -/
def attempt (i : ℕ) : List (HandshakeEvent Exn) :=
  [⟨.makeClient, .ok i⟩, ⟨.connect i, w.outcome i⟩]

/-- An attempt and the pause that follows its failure. -/
def retried (delays : ℕ → Double) (i : ℕ) : List (HandshakeEvent Exn) :=
  w.attempt i ++ [⟨.rand, w.draw i⟩, ⟨.sleep (delays i), .ok ()⟩]

def history (delays : ℕ → Double) (k : ℕ) : List (HandshakeEvent Exn) :=
  (List.range k).flatMap (w.retried delays)

/-- The record at the start of attempt number `k`. -/
def before (delays : ℕ → Double) (k : ℕ) : HandshakeRecord Exn :=
  ⟨k, k, k, w.history delays k⟩

theorem history_succ (delays : ℕ → Double) (k : ℕ) :
    w.history delays (k + 1) = w.history delays k ++ w.retried delays k := by
  rw [history, List.range_succ, List.flatMap_append, List.flatMap_singleton, history]

variable {w} {policy : RetryPolicy} {delays : ℕ → Double} {k : ℕ} {power : Power}

theorem run_connected (h : w.outcome k = .ok ()) :
    Interaction.run w.answer (connectFrom power policy k) (w.before delays k) =
      (.ok k, ⟨k + 1, k + 1, k, w.history delays k ++ w.attempt k⟩) := by
  rw [connectFrom]
  simp only [run_ask, answer, before, orRaise, Program.ret_bind, h, run_ret, attempt,
    List.append_assoc, List.singleton_append]

theorem run_exhausted {exc : Exn} (h : w.outcome k = .error exc) (hLast : policy.maxAttempts ≤ k + 1) :
    Interaction.run w.answer (connectFrom power policy k) (w.before delays k) =
      (.error (.raised exc), ⟨k + 1, k + 1, k, w.history delays k ++ w.attempt k⟩) := by
  rw [connectFrom]
  simp only [run_ask, answer, before, orRaise, Program.ret_bind, h, if_pos hLast, run_fail, attempt,
    List.append_assoc, List.singleton_append]

theorem run_retried {exc : Exn} (h : w.outcome k = .error exc) (hLeft : k + 1 < policy.maxAttempts)
    (hDelay : backoffDelay power k policy (w.draw k).value = .ok (delays k)) :
    Interaction.run w.answer (connectFrom power policy k) (w.before delays k) =
      Interaction.run w.answer (connectFrom power policy (k + 1)) (w.before delays (k + 1)) := by
  rw [connectFrom]
  simp only [run_ask, answer, before, orRaise, Program.ret_bind, h, if_neg (not_le.mpr hLeft),
    hDelay, orOverflow, history_succ, retried, attempt, List.append_assoc, List.cons_append,
    List.nil_append]

/-- As long as every attempt fails, the loop comes to the next one. -/
theorem run_eq_of_failed
    (hDelay : ∀ i < k, backoffDelay power i policy (w.draw i).value = .ok (delays i))
    (hLeft : k < policy.maxAttempts) (hFailed : ∀ i < k, ∃ exc, w.outcome i = .error exc) :
    w.run power policy =
      Interaction.run w.answer (connectFrom power policy k) (w.before delays k) := by
  induction k with
  | zero => rfl
  | succ k ih =>
    obtain ⟨exc, hOutcome⟩ := hFailed k k.lt_succ_self
    calc
      w.run power policy
          = Interaction.run w.answer (connectFrom power policy k) (w.before delays k) :=
        ih (fun i hI => hDelay i (hI.trans k.lt_succ_self)) (k.lt_succ_self.trans hLeft)
          fun i hI => hFailed i (hI.trans k.lt_succ_self)
      _ = Interaction.run w.answer (connectFrom power policy (k + 1)) (w.before delays (k + 1)) :=
        run_retried hOutcome hLeft (hDelay k k.lt_succ_self)

/-! ### How a run ends -/

/-- The run comes to attempt number `k`, and that attempt settles it. -/
structure EndsAt (w : Weather Exn) (power : Power) (policy : RetryPolicy) (delays : ℕ → Double)
    (k : ℕ) : Prop where
  lt : k < policy.maxAttempts
  failed : ∀ i < k, ∃ exc, w.outcome i = .error exc
  settled : w.outcome k = .ok () ∨ k + 1 = policy.maxAttempts
  result : (w.run power policy).1 = match w.outcome k with
    | .ok _ => .ok k
    | .error exc => .error (.raised exc)
  log : (w.run power policy).2.log = w.history delays k ++ w.attempt k

theorem endsAt (hDelay : ∀ i < k, backoffDelay power i policy (w.draw i).value = .ok (delays i))
    (hLt : k < policy.maxAttempts) (hFailed : ∀ i < k, ∃ exc, w.outcome i = .error exc)
    (hSettled : w.outcome k = .ok () ∨ k + 1 = policy.maxAttempts) :
    EndsAt w power policy delays k := by
  have hRun := run_eq_of_failed hDelay hLt hFailed
  cases hOutcome : w.outcome k with
  | ok u =>
    rw [run_connected hOutcome] at hRun
    exact ⟨hLt, hFailed, hSettled, by rw [hRun, hOutcome], by rw [hRun]⟩
  | error exc =>
    have hLast : k + 1 = policy.maxAttempts := by
      cases hSettled with
      | inl h =>
        rw [hOutcome] at h
        cases h
      | inr h => exact h
    rw [run_exhausted hOutcome hLast.ge] at hRun
    exact ⟨hLt, hFailed, hSettled, by rw [hRun, hOutcome], by rw [hRun]⟩

/-- Some attempt settles the run: the first good one, or the last there is. -/
theorem exists_settled (w : Weather Exn) (policy : RetryPolicy) :
    ∃ k < policy.maxAttempts, (∀ i < k, ∃ exc, w.outcome i = .error exc) ∧
      (w.outcome k = .ok () ∨ k + 1 = policy.maxAttempts) := by
  classical
  have hPositive := policy.maxAttempts_pos
  have hSome : ∃ k, w.outcome k = .ok () ∨ k + 1 = policy.maxAttempts :=
    ⟨policy.maxAttempts - 1, .inr (by omega)⟩
  have hLe : Nat.find hSome ≤ policy.maxAttempts - 1 := Nat.find_min' hSome (.inr (by omega))
  refine ⟨Nat.find hSome, by omega, fun i hI => ?_, Nat.find_spec hSome⟩
  cases hOutcome : w.outcome i with
  | ok u => exact absurd (.inl hOutcome) (Nat.find_min hSome hI)
  | error exc => exact ⟨exc, rfl⟩

/-! ### No client is used twice -/

def connected : HandshakeEvent Exn → Option ℕ
  | ⟨.connect client, _⟩ => some client
  | _ => none

theorem connected_history (w : Weather Exn) (delays : ℕ → Double) (k : ℕ) :
    (w.history delays k ++ w.attempt k).filterMap connected = List.range (k + 1) := by
  have hHistory : ∀ k, (w.history delays k).filterMap connected = List.range k := by
    intro k
    induction k with
    | zero => rfl
    | succ k ih => rw [history_succ, List.filterMap_append, ih, List.range_succ]; rfl
  rw [List.filterMap_append, hHistory, List.range_succ]
  rfl

theorem outcome_of_mem {client : ℕ} {r : Except Exn Unit}
    (h : (⟨.connect client, r⟩ : HandshakeEvent Exn) ∈ w.history delays k ++ w.attempt k) :
    w.outcome client = r := by
  have hAttempt : ∀ i, (⟨.connect client, r⟩ : HandshakeEvent Exn) ∈ w.attempt i →
      w.outcome client = r := by
    intro i hMem
    simp only [attempt, List.mem_cons, Event.mk.injEq, reduceCtorEq, false_and, List.not_mem_nil,
      or_false, false_or, HandshakeOp.connect.injEq] at hMem
    obtain ⟨rfl, hEq⟩ := hMem
    exact (eq_of_heq hEq).symm
  cases List.mem_append.mp h with
  | inl hHistory =>
    obtain ⟨i, _, hMem⟩ := List.mem_flatMap.mp hHistory
    cases List.mem_append.mp hMem with
    | inl hMem => exact hAttempt i hMem
    | inr hMem => simp at hMem
  | inr hLast => exact hAttempt k hLast

theorem EndsAt.connect_once (h : EndsAt w power policy delays k) {pre post : List (HandshakeEvent Exn)}
    {client : ℕ} {r : Except Exn Unit}
    (hLog : (w.run power policy).2.log = pre ++ ⟨.connect client, r⟩ :: post) :
    ∀ again, ⟨.connect client, again⟩ ∉ post := by
  intro again hMem
  have hConnects := connected_history w delays k
  rw [← h.log, hLog, List.filterMap_append, List.filterMap_cons_some
    (f := connected) (b := client) rfl] at hConnects
  have hNodup : (client :: post.filterMap connected).Nodup :=
    (hConnects ▸ List.nodup_range).of_append_right
  exact (List.nodup_cons.mp hNodup).1 (List.mem_filterMap.mpr ⟨_, hMem, rfl⟩)

/-- With exact delays the log of a run is known from the outcomes: to the first good attempt, or
to the last one there is. A client whose connect raised is neither used again nor returned. -/
theorem connectBroker_effects (w : Weather Exn) (policy : RetryPolicy) :
    ∃ delays : ℕ → Double,
      (∀ i, backoffDelay exactPower i policy (w.draw i).value = .ok (delays i)) ∧
      (∀ k < policy.maxAttempts, (∀ i < k, ∃ exc, w.outcome i = .error exc) →
        w.outcome k = .ok () →
          (w.run exactPower policy).1 = .ok k ∧
          (w.run exactPower policy).2.log = w.history delays k ++ w.attempt k) ∧
      ((∀ i < policy.maxAttempts, ∃ exc, w.outcome i = .error exc) →
        ∃ exc, w.outcome (policy.maxAttempts - 1) = .error exc ∧
          (w.run exactPower policy).1 = .error (.raised exc) ∧
          (w.run exactPower policy).2.log =
            w.history delays (policy.maxAttempts - 1) ++ w.attempt (policy.maxAttempts - 1)) ∧
      ∀ pre post client exc,
        (w.run exactPower policy).2.log = pre ++ ⟨.connect client, .error exc⟩ :: post →
          (w.run exactPower policy).1 ≠ .ok client ∧ ∀ again, ⟨.connect client, again⟩ ∉ post := by
  choose delays hDelays using fun i => exists_backoffDelay_exactPower i policy (w.draw i).value
  refine ⟨delays, hDelays, ?_, ?_, ?_⟩
  · intro k hLt hFailed hGood
    have h := endsAt (fun i _ => hDelays i) hLt hFailed (.inl hGood)
    exact ⟨by rw [h.result, hGood], h.log⟩
  · intro hFailed
    have hPositive := policy.maxAttempts_pos
    obtain ⟨exc, hLast⟩ := hFailed (policy.maxAttempts - 1) (by omega)
    have h := endsAt (fun i _ => hDelays i) (by omega) (fun i hI => hFailed i (by omega))
      (.inr (by omega : policy.maxAttempts - 1 + 1 = policy.maxAttempts))
    exact ⟨exc, hLast, by rw [h.result, hLast], h.log⟩
  · intro pre post client exc hLog
    obtain ⟨k, hLt, hFailed, hSettled⟩ := exists_settled w policy
    have h := endsAt (fun i _ => hDelays i) hLt hFailed hSettled
    refine ⟨fun hReturned => ?_, h.connect_once hLog⟩
    have hMem : (⟨.connect client, .error exc⟩ : HandshakeEvent Exn) ∈ w.history delays k ++ w.attempt k := by
      rw [← h.log, hLog]
      exact List.mem_append_right _ List.mem_cons_self
    have hRaised := outcome_of_mem hMem
    rw [h.result] at hReturned
    cases hOutcome : w.outcome k with
    | ok u =>
      rw [hOutcome] at hReturned
      cases hReturned
      rw [hOutcome] at hRaised
      cases hRaised
    | error exc =>
      rw [hOutcome] at hReturned
      cases hReturned

end Weather

end LlmBus
