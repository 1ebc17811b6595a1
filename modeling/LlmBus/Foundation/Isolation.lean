import Mathlib.Data.Finset.Erase
import Mathlib.Data.Finset.Insert
import LlmBus.Foundation.Transaction

/-! # One writer beside its readers

A database that one connection writes to and any number only read. The writer's sessions
go call by call, and each call may fail; everybody else sees the committed state, which
opening a connection may itself change. `Delivers` says what one session can commit, and
from that alone follows what every run can leave for the readers.
-/

namespace Foundation.Isolation

open Interaction Transaction

structure Service (D S A ε τ : Type) where
  dialect : Dialect D S A ε
  /-- What opening a connection leaves committed. -/
  opened : D → D
  session : τ → Session S A ε Unit

variable {D S A ε τ : Type}

structure Writer (D S A ε τ : Type) where
  pending : Option D
  current : Option (τ × Session S A ε Unit)

structure World (D S A ε τ : Type) where
  committed : D
  writer : Option (Writer D S A ε τ)
  readers : Finset Nat

def World.initial (d : D) : World D S A ε τ :=
  ⟨d, none, ∅⟩

/-- One call on a connection, with the exception it meets on the way, if any. -/
def callOnce (L : Dialect D S A ε) (fault : Option ε) (c : Connection D) (op : (sql S A ε).Op) :
    (sql S A ε).Reply op × Connection D :=
  let out := answer L (fun _ => fault) (c, 0) op
  (out.1, out.2.1)

inductive Action (ε τ : Type) where
  /-- The writer connects. -/
  | join
  | start (x : τ)
  | call (fault : Option ε)
  | finish (x : τ)
  | raised (e : ε)
  /-- The writer closes its connection or is lost with it; what is pending is rolled back. -/
  | leave
  | connect (reader : Nat)
  | disconnect (reader : Nat)

/-- No transaction of the writer keeps others from writing. -/
def World.unlocked (w : World D S A ε τ) : Bool :=
  w.writer.all fun writer => writer.pending.isNone

inductive Step (V : Service D S A ε τ) :
    World D S A ε τ → Action ε τ → World D S A ε τ → Prop where
  | join {w} (h : w.writer = none) :
    Step V w .join { w with committed := V.opened w.committed, writer := some ⟨none, none⟩ }
  | start {w pending} (x : τ) (h : w.writer = some ⟨pending, none⟩) :
    Step V w (.start x) { w with writer := some ⟨pending, some (x, V.session x)⟩ }
  | call {w pending x op k} (fault : Option ε) (h : w.writer = some ⟨pending, some (x, .ask op k)⟩) :
    Step V w (.call fault) { w with
      committed := (callOnce V.dialect fault ⟨w.committed, pending⟩ op).2.committed
      writer := some ⟨(callOnce V.dialect fault ⟨w.committed, pending⟩ op).2.pending,
        some (x, k (callOnce V.dialect fault ⟨w.committed, pending⟩ op).1)⟩ }
  | finish {w pending x} (h : w.writer = some ⟨pending, some (x, .ret ())⟩) :
    Step V w (.finish x) { w with writer := some ⟨pending, none⟩ }
  | raised {w pending x e} (h : w.writer = some ⟨pending, some (x, .fail e)⟩) :
    Step V w (.raised e) { w with writer := some ⟨pending, none⟩ }
  | leave {w} : Step V w .leave { w with writer := none }
  /-- A connection that has something to create waits for the writer's transaction. -/
  | connect {w} (reader : Nat) (h : w.unlocked = true ∨ V.opened w.committed = w.committed) :
    Step V w (.connect reader)
      { w with committed := V.opened w.committed, readers := insert reader w.readers }
  | disconnect {w} (reader : Nat) :
    Step V w (.disconnect reader) { w with readers := w.readers.erase reader }

inductive Runs (V : Service D S A ε τ) :
    World D S A ε τ → List (Action ε τ) → World D S A ε τ → Prop where
  | nil (w) : Runs V w [] w
  | snoc {w trace v a u} (h : Runs V w trace v) (hStep : Step V v a u) : Runs V w (trace ++ [a]) u

def Action.standing (last : Option τ) : Action ε τ → Option τ
  | .start _ => none
  | .finish x => some x
  | _ => last

/-- The session that completed last, where none has been started since. -/
def standing (trace : List (Action ε τ)) : Option τ :=
  trace.foldl Action.standing none

theorem standing_snoc (trace : List (Action ε τ)) (a : Action ε τ) :
    standing (trace ++ [a]) = a.standing (standing trace) := by
  rw [standing, List.foldl_append]
  rfl

/-! ### What one session can commit -/

def Delivers (L : Dialect D S A ε) (Q : D → Prop) : Session S A ε Unit → Connection D → Prop
  | .ret _, c => Q c.committed
  | .fail _, _ => True
  | .ask op k, c => ∀ fault,
    ((callOnce L fault c op).2.committed = c.committed ∨ Q (callOnce L fault c op).2.committed) ∧
      Delivers L Q (k (callOnce L fault c op).1) (callOnce L fault c op).2

section Delivers

variable {L : Dialect D S A ε} {Q : D → Prop} {d v : D}

theorem delivers_beginImmediate {f : Unit → Session S A ε Unit} (h : Delivers L Q (f ()) ⟨d, some d⟩) :
    Delivers L Q (beginImmediate.bind f) (idle d) := by
  intro fault
  cases fault with
  | some e => exact ⟨.inl rfl, trivial⟩
  | none => exact ⟨.inl rfl, h⟩

/-- Nothing more is committed where a transaction is still open. -/
theorem delivers_nested {f : Unit → Session S A ε Unit} :
    Delivers L Q (beginImmediate.bind f) ⟨d, some v⟩ :=
  fun _ => ⟨.inl rfl, trivial⟩

theorem callOnce_execute_fault (c : Connection D) (statement : S) (e : ε) :
    callOnce L (some e) c (.execute statement) = (.error e, c.openFor (L.dml statement)) := rfl

theorem callOnce_execute_error {statement : S} {e : ε} (h : L.apply statement v = .error e) :
    callOnce L none ⟨d, some v⟩ (.execute statement) = (.error e, ⟨d, some v⟩) := by
  simp only [callOnce, answer, openFor_pending, view_pending, h]

theorem callOnce_execute_ok {statement : S} {a : A} {v' : D} (h : L.apply statement v = .ok (a, v')) :
    callOnce L none ⟨d, some v⟩ (.execute statement) = (.ok a, ⟨d, some v'⟩) := by
  simp only [callOnce, answer, openFor_pending, view_pending, h, write_pending]

theorem delivers_execute {statement : S} {f : A → Session S A ε Unit}
    (h : ∀ a v', L.apply statement v = .ok (a, v') → Delivers L Q (f a) ⟨d, some v'⟩) :
    Delivers L Q ((execute statement).bind f) ⟨d, some v⟩ := by
  intro fault
  cases fault with
  | some e =>
    rw [callOnce_execute_fault, openFor_pending]
    exact ⟨.inl rfl, trivial⟩
  | none =>
    cases hApply : L.apply statement v with
    | error e =>
      rw [callOnce_execute_error hApply]
      exact ⟨.inl rfl, trivial⟩
    | ok out =>
      rw [callOnce_execute_ok hApply]
      exact ⟨.inl rfl, h out.1 out.2 hApply⟩

theorem delivers_commit (h : Q v) : Delivers L Q commit ⟨d, some v⟩ := by
  intro fault
  cases fault with
  | some e => exact ⟨.inl rfl, trivial⟩
  | none => exact ⟨.inr h, h⟩

theorem delivers_ofExcept {β : Type} {x : Except ε β} {f : β → Session S A ε Unit} {c : Connection D}
    (h : ∀ b, x = .ok b → Delivers L Q (f b) c) : Delivers L Q ((Program.ofExcept x).bind f) c := by
  cases x with
  | error e => trivial
  | ok b => exact h b rfl

end Delivers

/-! ### What a run leaves for the readers -/

section Runs

variable {V : Service D S A ε τ} {d₀ : D} {Post : τ → D → Prop}

/-- What the sessions owe: from a database that opening leaves alone, a session commits
nothing or what it stands for, and that is again such a database. -/
structure Sound (V : Service D S A ε τ) (d₀ : D) (Post : τ → D → Prop) : Prop where
  idem : V.opened (V.opened d₀) = V.opened d₀
  kept : ∀ x d, Post x d → V.opened d = d
  delivers : ∀ x d pending, (d = V.opened d₀ ∨ ∃ y, Post y d) →
    Delivers V.dialect (Post x) (V.session x) ⟨d, pending⟩

structure Consistent (V : Service D S A ε τ) (d₀ : D) (Post : τ → D → Prop)
    (trace : List (Action ε τ)) (w : World D S A ε τ) : Prop where
  offered : w.committed = d₀ ∨ w.committed = V.opened d₀ ∨
    ∃ x, .start x ∈ trace ∧ Post x w.committed
  opened : w.writer.isSome = true ∨ w.readers.Nonempty → V.opened w.committed = w.committed
  current : ∀ pending x p, w.writer = some ⟨pending, some (x, p)⟩ →
    .start x ∈ trace ∧ Delivers V.dialect (Post x) p ⟨w.committed, pending⟩
  latest : ∀ x, standing trace = some x →
    Post x w.committed ∧ ∀ writer, w.writer = some writer → writer.current = none
  completed : (∃ x, .finish x ∈ trace) → ∃ x, Post x w.committed

theorem consistent_initial : Consistent V d₀ Post [] (World.initial d₀) where
  offered := .inl rfl
  opened h := by simp [World.initial] at h
  current _ _ _ h := by cases h
  latest _ h := by cases h
  completed h := by simp at h

variable {trace : List (Action ε τ)} {w w' : World D S A ε τ} {a : Action ε τ}

theorem Consistent.opened_or_posted (h : Consistent V d₀ Post trace w)
    (hOpened : V.opened w.committed = w.committed) :
    w.committed = V.opened d₀ ∨ ∃ y, Post y w.committed := by
  rcases h.offered with hFirst | hSecond | ⟨y, _, hPost⟩
  · rw [hFirst] at hOpened ⊢
    exact .inl hOpened.symm
  · exact .inl hSecond
  · exact .inr ⟨y, hPost⟩

theorem Consistent.open (hSound : Sound V d₀ Post) (h : Consistent V d₀ Post trace w) :
    V.opened (V.opened w.committed) = V.opened w.committed ∧
      (V.opened w.committed = V.opened d₀ ∨ V.opened w.committed = w.committed) := by
  rcases h.offered with hFirst | hSecond | ⟨y, _, hPost⟩
  · rw [hFirst]
    exact ⟨hSound.idem, .inl rfl⟩
  · rw [hSecond, hSound.idem]
    exact ⟨hSound.idem, .inl rfl⟩
  · rw [hSound.kept y _ hPost]
    exact ⟨hSound.kept y _ hPost, .inr rfl⟩

theorem Consistent.completed_open (hSound : Sound V d₀ Post) (h : Consistent V d₀ Post trace w)
    (hFinish : ∃ x, .finish x ∈ trace) : ∃ x, Post x (V.opened w.committed) := by
  obtain ⟨x, hPost⟩ := h.completed hFinish
  rw [hSound.kept x _ hPost]
  exact ⟨x, hPost⟩

theorem offered_snoc {d : D} (h : d = d₀ ∨ d = V.opened d₀ ∨ ∃ x, .start x ∈ trace ∧ Post x d) :
    d = d₀ ∨ d = V.opened d₀ ∨ ∃ x, .start x ∈ trace ++ [a] ∧ Post x d := by
  rcases h with hFirst | hSecond | ⟨x, hMem, hPost⟩
  · exact .inl hFirst
  · exact .inr (.inl hSecond)
  · exact .inr (.inr ⟨x, List.mem_append_left _ hMem, hPost⟩)

theorem exists_finish_snoc (ha : ∀ x, a ≠ .finish x) (h : ∃ x, .finish x ∈ trace ++ [a]) :
    ∃ x : τ, .finish x ∈ trace := by
  obtain ⟨x, hMem⟩ := h
  cases List.mem_append.mp hMem with
  | inl hOld => exact ⟨x, hOld⟩
  | inr hNew => exact absurd (List.mem_singleton.mp hNew).symm (ha x)

/-- Opening a connection, the writer's or a reader's. -/
theorem Consistent.opening (hSound : Sound V d₀ Post) (h : Consistent V d₀ Post trace w)
    (hStanding : standing (trace ++ [a]) = standing trace) (ha : ∀ x, a ≠ .finish x)
    (hCommitted : w'.committed = V.opened w.committed)
    (hWriter : w'.writer = w.writer ∨ w'.writer = some ⟨none, none⟩) :
    Consistent V d₀ Post (trace ++ [a]) w' where
  offered := by
    rw [hCommitted]
    cases (h.open hSound).2 with
    | inl hFirst => exact .inr (.inl hFirst)
    | inr hSame =>
      rw [hSame]
      exact offered_snoc h.offered
  opened _ := by
    rw [hCommitted]
    exact (h.open hSound).1
  current := by
    intro pending x p hCurrent
    cases hWriter with
    | inl hSame =>
      rw [hSame] at hCurrent
      have hOpened := h.opened (.inl (by rw [hCurrent]; rfl))
      obtain ⟨hMem, hDelivers⟩ := h.current pending x p hCurrent
      rw [hCommitted, hOpened]
      exact ⟨List.mem_append_left _ hMem, hDelivers⟩
    | inr hNew =>
      rw [hNew] at hCurrent
      cases hCurrent
  latest := by
    intro x hx
    rw [hStanding] at hx
    obtain ⟨hPost, hIdle⟩ := h.latest x hx
    rw [hCommitted, hSound.kept x _ hPost]
    refine ⟨hPost, fun writer hw => ?_⟩
    cases hWriter with
    | inl hSame => exact hIdle writer (hSame ▸ hw)
    | inr hNew =>
      rw [hNew] at hw
      cases hw
      rfl
  completed hFinish := by
    rw [hCommitted]
    exact h.completed_open hSound (exists_finish_snoc ha hFinish)

theorem Consistent.standing_ne (h : Consistent V d₀ Post trace w) {pending : Option D}
    {current : τ × Session S A ε Unit} (hWriter : w.writer = some ⟨pending, some current⟩) (y : τ) :
    standing trace ≠ some y := by
  intro hy
  have hIdle := (h.latest y hy).2 _ hWriter
  cases hIdle

theorem Consistent.opened_of_writer (h : Consistent V d₀ Post trace w)
    {writer : Writer D S A ε τ} (hWriter : w.writer = some writer) :
    V.opened w.committed = w.committed :=
  h.opened (.inl (by rw [hWriter]; rfl))

/-- A step that commits nothing and completes no session. -/
theorem Consistent.committing_nothing (h : Consistent V d₀ Post trace w) (ha : ∀ x, a ≠ .finish x)
    (hCommitted : w'.committed = w.committed)
    (hOpened : w'.writer.isSome = true ∨ w'.readers.Nonempty → V.opened w.committed = w.committed)
    (hCurrent : ∀ pending x p, w'.writer = some ⟨pending, some (x, p)⟩ →
      .start x ∈ trace ++ [a] ∧ Delivers V.dialect (Post x) p ⟨w.committed, pending⟩)
    (hLatest : ∀ x, standing (trace ++ [a]) = some x →
      standing trace = some x ∧ ∀ writer, w'.writer = some writer → writer.current = none) :
    Consistent V d₀ Post (trace ++ [a]) w' where
  offered := by
    rw [hCommitted]
    exact offered_snoc h.offered
  opened hOpen := by
    rw [hCommitted]
    exact hOpened hOpen
  current := by
    rw [hCommitted]
    exact hCurrent
  latest := by
    intro x hx
    obtain ⟨hBefore, hIdle⟩ := hLatest x hx
    rw [hCommitted]
    exact ⟨(h.latest x hBefore).1, hIdle⟩
  completed hFinish := by
    rw [hCommitted]
    exact h.completed (exists_finish_snoc ha hFinish)

/-- One call of the session under way: it commits nothing, or what the session stands for. -/
theorem Consistent.calling {fault : Option ε} (hSound : Sound V d₀ Post)
    (h : Consistent V d₀ Post trace w)
    (hStep : Step V w (.call fault) w') : Consistent V d₀ Post (trace ++ [.call fault]) w' := by
  cases hStep with
  | @call pending x op k fault hWriter =>
    obtain ⟨hMem, hDelivers⟩ := h.current pending x _ hWriter
    obtain ⟨hCommit, hRest⟩ := hDelivers fault
    refine ⟨?_, fun _ => ?_, ?_, ?_, ?_⟩
    · cases hCommit with
      | inl hSame =>
        rw [hSame]
        exact offered_snoc h.offered
      | inr hPost => exact .inr (.inr ⟨x, List.mem_append_left _ hMem, hPost⟩)
    · cases hCommit with
      | inl hSame =>
        rw [hSame]
        exact h.opened_of_writer hWriter
      | inr hPost => exact hSound.kept x _ hPost
    · rintro pending' y p hCurrent
      cases hCurrent
      exact ⟨List.mem_append_left _ hMem, hRest⟩
    · intro y hy
      rw [standing_snoc] at hy
      exact absurd hy (h.standing_ne hWriter y)
    · intro hFinish
      cases hCommit with
      | inl hSame =>
        rw [hSame]
        exact h.completed (exists_finish_snoc (by simp) hFinish)
      | inr hPost => exact ⟨x, hPost⟩

theorem Consistent.step (hSound : Sound V d₀ Post) (h : Consistent V d₀ Post trace w)
    (hStep : Step V w a w') : Consistent V d₀ Post (trace ++ [a]) w' := by
  cases hStep with
  | join hNone => exact h.opening hSound (standing_snoc ..) (by simp) rfl (.inr rfl)
  | connect reader hFree => exact h.opening hSound (standing_snoc ..) (by simp) rfl (.inl rfl)
  | @start pending x hWriter =>
    have hOpened := h.opened_of_writer hWriter
    refine h.committing_nothing (by simp) rfl (fun _ => hOpened) ?_ ?_
    · rintro pending' y p hCurrent
      cases hCurrent
      exact ⟨by simp, hSound.delivers x _ pending (h.opened_or_posted hOpened)⟩
    · intro y hy
      rw [standing_snoc] at hy
      cases hy
  | @call pending x op k fault hWriter => exact h.calling hSound (.call fault hWriter)
  | @finish pending x hWriter =>
    obtain ⟨hMem, hPost⟩ := h.current pending x _ hWriter
    refine ⟨offered_snoc h.offered, fun _ => h.opened_of_writer hWriter, ?_, ?_, fun _ => ⟨x, hPost⟩⟩
    · rintro pending' y p hCurrent
      cases hCurrent
    · intro y hy
      rw [standing_snoc] at hy
      cases hy
      refine ⟨hPost, fun writer hw => ?_⟩
      cases hw
      rfl
  | @raised pending x e hWriter =>
    refine h.committing_nothing (by simp) rfl (fun _ => h.opened_of_writer hWriter) ?_ ?_
    · rintro pending' y p hCurrent
      cases hCurrent
    · intro y hy
      rw [standing_snoc] at hy
      exact absurd hy (h.standing_ne hWriter y)
  | leave =>
    refine h.committing_nothing (by simp) rfl ?_ ?_ ?_
    · exact fun hOpen => h.opened (hOpen.imp_left fun hWriter => by cases hWriter)
    · rintro pending' y p hCurrent
      cases hCurrent
    · intro y hy
      rw [standing_snoc] at hy
      refine ⟨hy, fun writer hw => ?_⟩
      cases hw
  | disconnect reader =>
    refine h.committing_nothing (by simp) rfl ?_ ?_ ?_
    · exact fun hOpen => h.opened (hOpen.imp_right fun hReader => hReader.mono (Finset.erase_subset ..))
    · intro pending y p hCurrent
      obtain ⟨hMem, hDelivers⟩ := h.current pending y p hCurrent
      exact ⟨List.mem_append_left _ hMem, hDelivers⟩
    · intro y hy
      rw [standing_snoc] at hy
      exact ⟨hy, (h.latest y hy).2⟩

/-- What the sessions deliver one by one, every run keeps, in whatever order its steps come. -/
theorem Runs.consistent (hSound : Sound V d₀ Post) (h : Runs V (World.initial d₀) trace w) :
    Consistent V d₀ Post trace w := by
  induction h with
  | nil => exact consistent_initial
  | snoc _ hStep ih => exact ih.step hSound hStep

/-! ### Sessions that meet no exception -/

theorem Runs.append {w v u : World D S A ε τ} {trace trace' : List (Action ε τ)}
    (h : Runs V w trace v) (h' : Runs V v trace' u) : Runs V w (trace ++ trace') u := by
  induction h' with
  | nil =>
    rw [List.append_nil]
    exact h
  | snoc _ hStep ih =>
    rw [← List.append_assoc]
    exact ih.snoc hStep

theorem answer_noFaults (L : Dialect D S A ε) (c : Connection D) (n : Nat) (op : (sql S A ε).Op) :
    answer L noFaults (c, n) op = ((callOnce L none c op).1, (callOnce L none c op).2, n + 1) := by
  cases op with
  | beginImmediate => cases hPending : c.pending <;> simp [callOnce, answer, noFaults, hPending]
  | commit => rfl
  | execute statement =>
    simp only [callOnce, answer, noFaults]
    cases L.apply statement (c.openFor (L.dml statement)).view <;> rfl

theorem Runs.calls {p : Session S A ε Unit} {c c' : Connection D} {n m : Nat} {x : τ}
    (h : run (answer V.dialect noFaults) p (c, n) = (.ok (), c', m)) (hCommitted : w.committed = c.committed)
    (hWriter : w.writer = some ⟨c.pending, some (x, p)⟩) :
    ∃ calls, Runs V w calls { w with
      committed := c'.committed
      writer := some ⟨c'.pending, some (x, .ret ())⟩ } := by
  induction p generalizing c n w with
  | ret a =>
    cases h
    refine ⟨[], ?_⟩
    rw [← hCommitted, ← hWriter]
    exact .nil w
  | fail e => cases h
  | ask op k ih =>
    rw [run_ask, answer_noFaults] at h
    obtain ⟨calls, hCalls⟩ := ih _ h (w := { w with
      committed := (callOnce V.dialect none ⟨w.committed, c.pending⟩ op).2.committed
      writer := some ⟨(callOnce V.dialect none ⟨w.committed, c.pending⟩ op).2.pending,
        some (x, k (callOnce V.dialect none ⟨w.committed, c.pending⟩ op).1)⟩ })
      (by rw [hCommitted]) (by rw [hCommitted])
    exact ⟨_, ((Runs.nil w).snoc (.call none hWriter)).append hCalls⟩

/-- A session that succeeds alone is completed by some run, which leaves what it left. -/
theorem exists_completed {x : τ} {c : Connection D} {m : Nat}
    (h : run (answer V.dialect noFaults) (V.session x) (idle (V.opened d₀), 0) = (.ok (), c, m)) :
    ∃ trace w, Runs V (World.initial d₀) trace w ∧ w.committed = c.committed ∧
      standing trace = some x ∧ .finish x ∈ trace := by
  have hStarted := ((Runs.nil (V := V) (World.initial d₀)).snoc (.join rfl)).snoc (.start x rfl)
  obtain ⟨calls, hCalls⟩ :=
    Runs.calls (w := ⟨V.opened d₀, some ⟨none, some (x, V.session x)⟩, ∅⟩) h rfl rfl
  refine ⟨_, _, (hStarted.append hCalls).snoc (.finish rfl), rfl, ?_, by simp⟩
  rw [standing_snoc]
  rfl

end Runs

end Foundation.Isolation
