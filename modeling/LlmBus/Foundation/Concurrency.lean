import Mathlib.Logic.Function.Basic
import LlmBus.Foundation.Interaction

/-! # Interleaved programs and a rely-guarantee rule

Any number of programs share one state. At each step one of them has its next
request performed, a new one starts, or one is lost. Whatever the machine does not
decide itself (a clock, a network, a random draw) is proposed by the schedule.

A `Discipline` names an invariant, an order in which the shared state may only move
forward, and for each thread the part of the state that nobody else touches. A
program is `Safe` when each of its requests keeps all three, knowing only that the
state may have moved forward in between.
-/

namespace Foundation.Concurrency

open Interaction

structure Machine (I : Interface) (ε α : Type) where
  State : Type
  Entry : Type
  start : State → Entry → Option (Program I ε α)
  perform : Nat → State → (op : I.Op) → I.Reply op → I.Reply op × State

variable {I : Interface} {ε α β : Type} {M : Machine I ε α}

structure Config (M : Machine I ε α) where
  state : M.State
  threads : Nat → Option (Program I ε α)
  fresh : Nat

inductive Action (M : Machine I ε α) where
  | spawn (entry : M.Entry)
  | advance (thread : Nat) (proposal : (op : I.Op) → I.Reply op)
  | crash (thread : Nat)

def Config.initial (s : M.State) : Config M :=
  ⟨s, fun _ => none, 0⟩

def Config.put (c : Config M) (t : Nat) (p : Option (Program I ε α)) (s : M.State) : Config M :=
  { c with state := s, threads := Function.update c.threads t p }

@[simp] theorem Config.put_state (c : Config M) (t : Nat) (p : Option (Program I ε α))
    (s : M.State) : (c.put t p s).state = s := rfl

@[simp] theorem Config.put_fresh (c : Config M) (t : Nat) (p : Option (Program I ε α))
    (s : M.State) : (c.put t p s).fresh = c.fresh := rfl

@[simp] theorem Config.put_threads_self (c : Config M) (t : Nat) (p : Option (Program I ε α))
    (s : M.State) : (c.put t p s).threads t = p := Function.update_self ..

theorem Config.put_threads_of_ne (c : Config M) {t u : Nat} (h : u ≠ t)
    (p : Option (Program I ε α)) (s : M.State) : (c.put t p s).threads u = c.threads u :=
  Function.update_of_ne h ..

/-- A new thread, under a number no thread has had before. -/
def Config.add (c : Config M) (p : Program I ε α) : Config M :=
  ⟨c.state, Function.update c.threads c.fresh (some p), c.fresh + 1⟩

@[simp] theorem Config.add_threads_self (c : Config M) (p : Program I ε α) :
    (c.add p).threads c.fresh = some p := Function.update_self ..

theorem Config.add_threads_of_ne (c : Config M) (p : Program I ε α) {u : Nat} (h : u ≠ c.fresh) :
    (c.add p).threads u = c.threads u := Function.update_of_ne h ..

def Config.step (c : Config M) : Action M → Option (Config M)
  | .spawn entry => (M.start c.state entry).map c.add
  | .advance t proposal =>
    match c.threads t with
    | some (.ask op k) =>
      let out := M.perform t c.state op (proposal op)
      some (c.put t (some (k out.1)) out.2)
    | _ => none
  | .crash t => (c.threads t).map fun _ => c.put t none c.state

/-- The request an action would perform, if it performs one, meets `allowed`. -/
def Admits (allowed : M.State → I.Op → Prop) (c : Config M) : Action M → Prop
  | .advance t _ => ∀ op k, c.threads t = some (.ask op k) → allowed c.state op
  | _ => True

inductive Reaches (allowed : M.State → I.Op → Prop) : Config M → Config M → Prop where
  | refl (c : Config M) : Reaches allowed c c
  | tail {c d e : Config M} (a : Action M) (h : Reaches allowed c d) (hAdmits : Admits allowed d a)
      (hStep : d.step a = some e) : Reaches allowed c e

def Always (M : Machine I ε α) : M.State → I.Op → Prop :=
  fun _ _ => True

def admitted (check : M.State → I.Op → Bool) (c : Config M) : Action M → Bool
  | .advance t _ =>
    match c.threads t with
    | some (.ask op _) => check c.state op
    | _ => true
  | _ => true

/-- Runs a schedule, as long as every request passes the check. -/
def Config.runActions (check : M.State → I.Op → Bool) (c : Config M) : List (Action M) → Option (Config M)
  | [] => some c
  | a :: rest => if admitted check c a then (c.step a).bind fun d => d.runActions check rest else none

theorem Reaches.trans {allowed : M.State → I.Op → Prop} {c d e : Config M}
    (h : Reaches allowed c d) (h' : Reaches allowed d e) : Reaches allowed c e := by
  induction h' with
  | refl => exact h
  | tail a _ hAdmits hStep ih => exact .tail a ih hAdmits hStep

theorem Reaches.mono {allowed allowed' : M.State → I.Op → Prop}
    (hAllowed : ∀ s op, allowed s op → allowed' s op) {c d : Config M} (h : Reaches allowed c d) :
    Reaches allowed' c d := by
  induction h with
  | refl => exact .refl _
  | tail a _ hAdmits hStep ih =>
    refine .tail a ih ?_ hStep
    cases a with
    | spawn entry => trivial
    | advance t proposal => exact fun op k hThread => hAllowed _ _ (hAdmits op k hThread)
    | crash t => trivial

theorem reaches_of_runActions {allowed : M.State → I.Op → Prop} {check : M.State → I.Op → Bool}
    (hCheck : ∀ s op, check s op = true → allowed s op) {c d : Config M} {actions : List (Action M)}
    (h : c.runActions check actions = some d) : Reaches allowed c d := by
  induction actions generalizing c with
  | nil =>
    cases h
    exact .refl _
  | cons a rest ih =>
    rw [Config.runActions] at h
    split at h
    · rename_i hAdmitted
      obtain ⟨e, hStep, hRest⟩ := Option.bind_eq_some_iff.mp h
      refine Reaches.trans (.tail a (.refl c) ?_ hStep) (ih hRest)
      cases a with
      | spawn entry => trivial
      | advance t proposal =>
        intro op k hThread
        simp only [admitted, hThread] at hAdmitted
        exact hCheck _ _ hAdmitted
      | crash t => trivial
    · cases h

/-! ### Runs under a condition on whole configurations -/

theorem Config.step_cases {c d : Config M} {a : Action M} (h : c.step a = some d) :
    (∃ entry p, a = .spawn entry ∧ M.start c.state entry = some p ∧ d = c.add p) ∨
      (∃ t proposal op k, a = .advance t proposal ∧ c.threads t = some (.ask op k) ∧
        d = c.put t (some (k (M.perform t c.state op (proposal op)).1))
          (M.perform t c.state op (proposal op)).2) ∨
      ∃ t p, a = .crash t ∧ c.threads t = some p ∧ d = c.put t none c.state := by
  cases a with
  | spawn entry =>
    obtain ⟨p, hp, rfl⟩ := Option.map_eq_some_iff.mp h
    exact .inl ⟨entry, p, rfl, hp, rfl⟩
  | advance t proposal =>
    simp only [Config.step] at h
    split at h
    · rename_i op k hThread
      cases h
      exact .inr (.inl ⟨t, proposal, op, k, rfl, hThread, rfl⟩)
    · cases h
  | crash t =>
    obtain ⟨p, hp, rfl⟩ := Option.map_eq_some_iff.mp h
    exact .inr (.inr ⟨t, p, rfl, hp, rfl⟩)

inductive Runs (ok : Config M → Action M → Prop) : Config M → Config M → Prop where
  | refl (c : Config M) : Runs ok c c
  | tail {c d e : Config M} (a : Action M) (h : Runs ok c d) (hOk : ok d a)
      (hStep : d.step a = some e) : Runs ok c e

def Freely (M : Machine I ε α) : Config M → Action M → Prop :=
  fun _ _ => True

theorem Runs.free {ok : Config M → Action M → Prop} {c d : Config M} (h : Runs ok c d) :
    Runs (Freely M) c d := by
  induction h with
  | refl => exact .refl _
  | tail a _ _ hStep ih => exact .tail a ih trivial hStep

theorem Reaches.runs {allowed : M.State → I.Op → Prop} {c d : Config M} (h : Reaches allowed c d) :
    Runs (Freely M) c d := by
  induction h with
  | refl => exact .refl _
  | tail a _ _ hStep ih => exact .tail a ih trivial hStep

theorem Runs.trans {ok : Config M → Action M → Prop} {c d e : Config M} (h : Runs ok c d)
    (h' : Runs ok d e) : Runs ok c e := by
  induction h' with
  | refl => exact h
  | tail a _ hOk hStep ih => exact .tail a ih hOk hStep

theorem Runs.reaches {ok : Config M → Action M → Prop} {c d : Config M} (h : Runs ok c d) :
    Reaches (Always M) c d := by
  induction h with
  | refl => exact .refl _
  | tail a _ _ hStep ih =>
    refine .tail a ih ?_ hStep
    cases a with
    | spawn entry => trivial
    | advance t proposal => exact fun _ _ _ => trivial
    | crash t => trivial

/-! ### One thread alone -/

@[simp] theorem Config.put_put (c : Config M) (t : Nat) (p q : Option (Program I ε α)) (s s' : M.State) :
    (c.put t p s).put t q s' = c.put t q s' := by
  simp only [Config.put, Function.update_idem]

theorem Config.put_self {c : Config M} {t : Nat} {p : Program I ε α} (h : c.threads t = some p) :
    c.put t (some p) c.state = c := by
  rw [Config.put, ← h, Function.update_eq_self]

/-- Each request performed with what the schedule proposes for it. -/
def Machine.alone (M : Machine I ε α) (t : Nat) (proposal : (op : I.Op) → I.Reply op) (s : M.State)
    (op : I.Op) : I.Reply op × M.State :=
  M.perform t s op (proposal op)

section Alone

variable {ok : Config M → Action M → Prop} {proposal : (op : I.Op) → I.Reply op} {outcome : Except ε α}
  {c : Config M} {p : Program I ε α} {s : M.State}

/-- A thread that nobody interrupts comes to its end. -/
theorem runs_alone {t : Nat} (hOk : ∀ d, ok d (.advance t proposal)) (h : c.threads t = some p)
    (hRun : run (M.alone t proposal) p c.state = (outcome, s)) :
    Runs ok c (c.put t (some (.ofExcept outcome)) s) := by
  induction p generalizing c with
  | ret a =>
    cases hRun
    rw [Program.ofExcept_ok, Config.put_self h]
    exact .refl c
  | fail e =>
    cases hRun
    rw [Program.ofExcept_error, Config.put_self h]
    exact .refl c
  | ask op k ih =>
    have hStep : c.step (.advance t proposal) =
        some (c.put t (some (k (M.perform t c.state op (proposal op)).1))
          (M.perform t c.state op (proposal op)).2) := by
      simp only [Config.step, h]
    have hFirst : Runs ok c _ := .tail (.advance t proposal) (.refl c) (hOk c) hStep
    have hRest := ih _ (c.put_threads_self t _ _) hRun
    rw [Config.put_put] at hRest
    exact hFirst.trans hRest

/-- A new thread can be brought to its end before anybody else moves. -/
theorem exists_runs_alone {entry : M.Entry} (hSpawn : ok c (.spawn entry))
    (hOk : ∀ d, ok d (.advance c.fresh proposal)) (hStart : M.start c.state entry = some p)
    (hRun : run (M.alone c.fresh proposal) p c.state = (outcome, s)) :
    ∃ d, Runs ok c d ∧ d.state = s ∧ d.fresh = c.fresh + 1 ∧
      d.threads c.fresh = some (.ofExcept outcome) ∧ ∀ u, u ≠ c.fresh → d.threads u = c.threads u := by
  have hStep : c.step (.spawn entry) = some (c.add p) := by
    rw [Config.step, hStart, Option.map_some]
  have hBegun : Runs ok c (c.add p) := .tail (.spawn entry) (.refl c) hSpawn hStep
  have hAlone := runs_alone hOk (c.add_threads_self p) hRun
  refine ⟨_, hBegun.trans hAlone, rfl, rfl, Config.put_threads_self .., fun u hu => ?_⟩
  rw [Config.put_threads_of_ne _ hu, Config.add_threads_of_ne _ _ hu]

end Alone

/-! ### Schedules -/

/-- No thread has a number that was not given out yet. -/
def Config.Numbered (c : Config M) : Prop :=
  ∀ u, c.fresh ≤ u → c.threads u = none

theorem Config.numbered_initial (s : M.State) : (Config.initial s : Config M).Numbered :=
  fun _ _ => rfl

theorem Config.Numbered.step {c d : Config M} {a : Action M} (h : c.Numbered) (hStep : c.step a = some d) :
    d.Numbered := by
  intro u hFresh
  rcases Config.step_cases hStep with
    ⟨_, p, _, _, rfl⟩ | ⟨t, _, _, _, _, hThread, rfl⟩ | ⟨t, _, _, hThread, rfl⟩
  · have hNew : c.fresh + 1 ≤ u := hFresh
    rw [c.add_threads_of_ne p (by omega), h u (by omega)]
  · rw [Config.put_fresh] at hFresh
    have hNe : u ≠ t := by
      rintro rfl
      cases (h u hFresh).symm.trans hThread
    rw [c.put_threads_of_ne hNe, h u hFresh]
  · rw [Config.put_fresh] at hFresh
    have hNe : u ≠ t := by
      rintro rfl
      cases (h u hFresh).symm.trans hThread
    rw [c.put_threads_of_ne hNe, h u hFresh]

/-- Runs a schedule, as long as every action passes a check of the whole configuration. -/
def Config.runChecked (check : Config M → Action M → Bool) (c : Config M) :
    List (Action M) → Option (Config M)
  | [] => some c
  | a :: rest => if check c a then (c.step a).bind fun d => d.runChecked check rest else none

theorem runs_of_runChecked {ok : Config M → Action M → Prop} {check : Config M → Action M → Bool}
    (hCheck : ∀ c a, c.Numbered → check c a = true → ok c a) {c d : Config M} {actions : List (Action M)}
    (hNumbered : c.Numbered) (h : c.runChecked check actions = some d) : Runs ok c d := by
  induction actions generalizing c with
  | nil =>
    cases h
    exact .refl _
  | cons a rest ih =>
    rw [Config.runChecked] at h
    split at h
    · rename_i hChecked
      obtain ⟨e, hStep, hRest⟩ := Option.bind_eq_some_iff.mp h
      exact Runs.trans (.tail a (.refl c) (hCheck c a hNumbered hChecked) hStep)
        (ih (hNumbered.step hStep) hRest)
    · cases h

/-! ### What threads stand on -/

/-- What every thread stands on, given the shared state. -/
def Config.All (S : M.State → Program I ε α → Prop) (c : Config M) : Prop :=
  ∀ t p, c.threads t = some p → S c.state p

theorem Config.all_initial {S : M.State → Program I ε α → Prop} (s : M.State) :
    (Config.initial s : Config M).All S := by
  intro t p h
  cases h

/-- A thread's own request has to leave the thread on its feet, and so has everybody else's. -/
theorem Runs.all {ok : Config M → Action M → Prop} {S : M.State → Program I ε α → Prop}
    (hEntry : ∀ s entry p, M.start s entry = some p → S s p)
    (hOwn : ∀ c t proposal op k, c.All S → ok c (.advance t proposal) → c.threads t = some (.ask op k) →
      S (M.perform t c.state op (proposal op)).2 (k (M.perform t c.state op (proposal op)).1))
    (hOther : ∀ c t u proposal op k p, c.All S → ok c (.advance t proposal) →
      c.threads t = some (.ask op k) → u ≠ t → c.threads u = some p →
      S (M.perform t c.state op (proposal op)).2 p)
    {c d : Config M} (h : Runs ok c d) (hc : c.All S) : d.All S := by
  induction h with
  | refl => exact hc
  | @tail d e a _ hOk hStep ih =>
    intro u p hThread
    rcases Config.step_cases hStep with
      ⟨entry, q, _, hStart, rfl⟩ | ⟨t, proposal, op, k, rfl, hAsk, rfl⟩ | ⟨t, q, _, hThere, rfl⟩
    · by_cases hu : u = d.fresh
      · subst hu
        rw [Config.add_threads_self] at hThread
        cases hThread
        exact hEntry _ entry _ hStart
      · rw [Config.add_threads_of_ne d q hu] at hThread
        exact ih u p hThread
    · by_cases hu : u = t
      · subst hu
        rw [Config.put_threads_self] at hThread
        cases hThread
        exact hOwn d u proposal op k ih hOk hAsk
      · rw [Config.put_threads_of_ne d hu] at hThread
        exact hOther d t u proposal op k p ih hOk hAsk hu hThread
    · by_cases hu : u = t
      · subst hu
        rw [Config.put_threads_self] at hThread
        cases hThread
      · rw [Config.put_threads_of_ne d hu] at hThread
        exact ih u p hThread

/-- What each request keeps of the shared state, a run keeps. -/
theorem Runs.state {ok : Config M → Action M → Prop} {J : M.State → Prop}
    (hPerform : ∀ t s op proposal, J s → J (M.perform t s op proposal).2) {c d : Config M}
    (h : Runs ok c d) (hc : J c.state) : J d.state := by
  induction h with
  | refl => exact hc
  | tail a _ _ hStep ih =>
    rcases Config.step_cases hStep with ⟨_, _, _, _, rfl⟩ | ⟨t, _, op, _, rfl, _, rfl⟩ | ⟨_, _, _, _, rfl⟩
    · exact ih
    · exact hPerform t _ op _ ih
    · exact ih

structure Discipline (M : Machine I ε α) (allowed : M.State → I.Op → Prop) where
  Own : Type
  blank : Own
  own : Nat → M.State → Own
  inv : M.State → Prop
  evolve : M.State → M.State → Prop
  evolve_refl : ∀ s, evolve s s
  evolve_trans : ∀ {s t u}, evolve s t → evolve t u → evolve s u

namespace Discipline

variable {allowed : M.State → I.Op → Prop} (D : Discipline M allowed)

def Rely (t : Nat) (s s' : M.State) : Prop :=
  D.evolve s s' ∧ D.own t s' = D.own t s

/-- What performing one request must establish for the state and for the others. -/
structure Keeps (t : Nat) (s s' : M.State) : Prop where
  inv : D.inv s'
  evolve : D.evolve s s'
  own : ∀ u, u ≠ t → D.own u s' = D.own u s

def Safe (t : Nat) : Program I ε β → M.State → Prop
  | .ret _, _ => True
  | .fail _, _ => True
  | .ask op k, s => ∀ s', D.Rely t s s' → D.inv s' → allowed s' op → ∀ proposal,
      D.Keeps t s' (M.perform t s' op proposal).2 ∧
        Safe t (k (M.perform t s' op proposal).1) (M.perform t s' op proposal).2

variable {D}

theorem Rely.refl (t : Nat) (s : M.State) : D.Rely t s s :=
  ⟨D.evolve_refl s, rfl⟩

theorem Rely.trans {t : Nat} {s s' s'' : M.State} (h : D.Rely t s s') (h' : D.Rely t s' s'') :
    D.Rely t s s'' :=
  ⟨D.evolve_trans h.1 h'.1, h'.2.trans h.2⟩

theorem Keeps.rely {t u : Nat} {s s' : M.State} (h : D.Keeps t s s') (hu : u ≠ t) :
    D.Rely u s s' :=
  ⟨h.evolve, h.own u hu⟩

theorem Keeps.of_eq {t : Nat} {s s' : M.State} (hInv : D.inv s) (h : s' = s) : D.Keeps t s s' := by
  subst h
  exact ⟨hInv, D.evolve_refl _, fun _ _ => rfl⟩

theorem Safe.stable {t : Nat} {p : Program I ε β} {s s' : M.State} (h : D.Safe t p s)
    (hRely : D.Rely t s s') : D.Safe t p s' := by
  cases p with
  | ret b => trivial
  | fail e => trivial
  | ask op k => exact fun s'' h'' => h s'' (hRely.trans h'')

/-- A request that leaves the state alone, whatever it is answered. -/
def Quiet (M : Machine I ε α) (op : I.Op) : Prop :=
  ∀ t s proposal, (M.perform t s op proposal).2 = s

theorem safe_ask {t : Nat} {op : I.Op} {k : I.Reply op → Program I ε β} {s : M.State}
    (h : ∀ s', D.Rely t s s' → D.inv s' → allowed s' op → ∀ proposal r s'',
      M.perform t s' op proposal = (r, s'') → D.Keeps t s' s'' ∧ D.Safe t (k r) s'') :
    D.Safe t (.ask op k) s :=
  fun s' hRely hInv hAllowed proposal => h s' hRely hInv hAllowed proposal _ _ rfl

/-- A stretch of requests that leave the state alone is safe as soon as what follows it is. -/
theorem safe_bind_of_every {t : Nat} {P : β → Prop} {γ : Type} {p : Program I ε β}
    {f : β → Program I ε γ} {s : M.State} (h : Every (Quiet M) P p)
    (hf : ∀ b, P b → D.Safe t (f b) s) : D.Safe t (p.bind f) s := by
  induction p generalizing s with
  | ret b => exact hf b h
  | fail e => trivial
  | ask op k ih =>
    intro s' hRely hInv _ proposal
    rw [h.1 t s' proposal]
    exact ⟨Keeps.of_eq hInv rfl, ih _ (h.2 _) fun b hb => (hf b hb).stable hRely⟩

theorem safe_ofExcept_bind {t : Nat} {γ : Type} {r : Except ε β} {f : β → Program I ε γ} {s : M.State}
    (hf : ∀ b, r = .ok b → D.Safe t (f b) s) : D.Safe t ((Program.ofExcept r).bind f) s := by
  cases r with
  | ok b => exact hf b rfl
  | error e => trivial

structure Sound (D : Discipline M allowed) (c : Config M) : Prop where
  inv : D.inv c.state
  blank : ∀ t, c.fresh ≤ t → D.own t c.state = D.blank
  none : ∀ t, c.fresh ≤ t → c.threads t = none
  safe : ∀ t p, c.threads t = some p → D.Safe t p c.state

/-- What a new thread needs: it starts safe wherever the invariant holds. -/
def EntriesSafe (D : Discipline M allowed) : Prop :=
  ∀ s entry p t, D.inv s → D.own t s = D.blank → M.start s entry = some p → D.Safe t p s

theorem sound_initial {s : M.State} (hInv : D.inv s) (hBlank : ∀ t, D.own t s = D.blank) :
    D.Sound (Config.initial s) where
  inv := hInv
  blank t _ := hBlank t
  none _ _ := rfl
  safe t p h := by cases h

theorem Sound.put {c : Config M} (hc : D.Sound c) {t : Nat} (ht : t < c.fresh)
    {p : Option (Program I ε α)} {s : M.State} (hKeeps : D.Keeps t c.state s)
    (hp : ∀ q, p = some q → D.Safe t q s) : D.Sound (c.put t p s) where
  inv := hKeeps.inv
  blank u hu := by
    simp only [Config.put_fresh] at hu
    rw [Config.put_state, hKeeps.own u (by omega)]
    exact hc.blank u hu
  none u hu := by
    simp only [Config.put_fresh] at hu
    rw [Config.put_threads_of_ne c (by omega)]
    exact hc.none u hu
  safe u q hq := by
    by_cases hu : u = t
    · subst hu
      rw [Config.put_threads_self] at hq
      exact hp q hq
    · rw [Config.put_threads_of_ne c hu] at hq
      exact (hc.safe u q hq).stable (hKeeps.rely hu)

theorem Sound.lt_fresh {c : Config M} (hc : D.Sound c) {t : Nat} {p : Program I ε α}
    (h : c.threads t = some p) : t < c.fresh := by
  by_contra hNew
  rw [hc.none t (Nat.le_of_not_lt hNew)] at h
  cases h

theorem Sound.add (hEntries : D.EntriesSafe) {c : Config M} (hc : D.Sound c) {entry : M.Entry}
    {p : Program I ε α} (hp : M.start c.state entry = some p) : D.Sound (c.add p) where
  inv := hc.inv
  blank t ht := hc.blank t (Nat.le_of_succ_le ht)
  none t ht := by
    rw [Config.add_threads_of_ne c p (Nat.ne_of_gt (Nat.lt_of_succ_le ht))]
    exact hc.none t (Nat.le_of_succ_le ht)
  safe t q hq := by
    by_cases ht : t = c.fresh
    · subst ht
      rw [Config.add_threads_self] at hq
      cases hq
      exact hEntries _ entry p _ hc.inv (hc.blank _ (Nat.le_refl _)) hp
    · rw [Config.add_threads_of_ne c p ht] at hq
      exact hc.safe t q hq

theorem Sound.step (hEntries : D.EntriesSafe) {c d : Config M} (hc : D.Sound c) {a : Action M}
    (hAdmits : Admits allowed c a) (hStep : c.step a = some d) :
    D.Sound d ∧ D.evolve c.state d.state := by
  cases a with
  | spawn entry =>
    obtain ⟨p, hp, rfl⟩ := Option.map_eq_some_iff.mp hStep
    exact ⟨hc.add hEntries hp, D.evolve_refl _⟩
  | advance t proposal =>
    simp only [Config.step] at hStep
    split at hStep
    · rename_i op k hThread
      cases hStep
      obtain ⟨hKeeps, hNext⟩ :=
        hc.safe t _ hThread c.state (Rely.refl t _) hc.inv (hAdmits op k hThread) (proposal op)
      refine ⟨hc.put (hc.lt_fresh hThread) hKeeps ?_, hKeeps.evolve⟩
      intro q hq
      cases hq
      exact hNext
    · cases hStep
  | crash t =>
    obtain ⟨p, hp, rfl⟩ := Option.map_eq_some_iff.mp hStep
    exact ⟨hc.put (hc.lt_fresh hp) (Keeps.of_eq hc.inv rfl) nofun, D.evolve_refl _⟩

/-- The rule: a discipline whose entries are safe holds in every configuration
reached, and the shared state has only moved forward. -/
theorem Sound.reaches (hEntries : D.EntriesSafe) {c d : Config M} (hc : D.Sound c)
    (h : Reaches allowed c d) : D.Sound d ∧ D.evolve c.state d.state := by
  induction h with
  | refl => exact ⟨hc, D.evolve_refl _⟩
  | tail a _ hAdmits hStep ih =>
    obtain ⟨hd, hEvolve⟩ := ih
    obtain ⟨he, hLast⟩ := hd.step hEntries hAdmits hStep
    exact ⟨he, D.evolve_trans hEvolve hLast⟩

end Discipline

end Foundation.Concurrency
