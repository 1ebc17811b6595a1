import LlmBus.Foundation.Interaction

/-! # Statements and transactions on one connection

A data-changing statement opens a transaction by itself, an explicit begin opens one
up front, and nothing but a commit closes it: a statement that fails, or a computation
in between that raises, leaves the transaction open with the work done so far.
-/

namespace Foundation.Transaction

open Interaction

inductive Request (S : Type) where
  | beginImmediate
  | execute (statement : S)
  | commit

abbrev sql (S A ε : Type) : Interface where
  Op := Request S
  Reply
    | .execute _ => Except ε A
    | .beginImmediate => Except ε Unit
    | .commit => Except ε Unit

structure Dialect (D S A ε : Type) where
  /-- Binding and running one statement; a statement that fails changes nothing. -/
  apply : S → D → Except ε (A × D)
  /-- Whether the statement opens a transaction implicitly. -/
  dml : S → Bool
  /-- What a begin inside an open transaction raises. -/
  nested : ε

variable {D S A ε α β : Type}

structure Connection (D : Type) where
  committed : D
  pending : Option D

def idle (d : D) : Connection D :=
  ⟨d, none⟩

def Connection.view (c : Connection D) : D :=
  c.pending.getD c.committed

def Connection.write (c : Connection D) (d : D) : Connection D :=
  match c.pending with
  | none => { c with committed := d }
  | some _ => { c with pending := some d }

def Connection.openFor (c : Connection D) (dml : Bool) : Connection D :=
  if dml then { c with pending := some c.view } else c

/-- `faults n` is the exception the surroundings raise at the `n`-th call, a lock that
never came free or a full disk; `none` where the call goes through to the database. -/
def answer (L : Dialect D S A ε) (faults : Nat → Option ε) (s : Connection D × Nat) :
    (op : (sql S A ε).Op) → (sql S A ε).Reply op × (Connection D × Nat)
  | .beginImmediate =>
    match s.1.pending, faults s.2 with
    | some _, _ => (.error L.nested, s.1, s.2 + 1)
    | none, some e => (.error e, s.1, s.2 + 1)
    | none, none => (.ok (), s.1.openFor true, s.2 + 1)
  | .execute statement =>
    let c := s.1.openFor (L.dml statement)
    match faults s.2 with
    | some e => (.error e, c, s.2 + 1)
    | none =>
      match L.apply statement c.view with
      | .error e => (.error e, c, s.2 + 1)
      | .ok (a, d) => (.ok a, c.write d, s.2 + 1)
  | .commit =>
    match faults s.2 with
    | some e => (.error e, s.1, s.2 + 1)
    | none => (.ok (), idle s.1.view, s.2 + 1)

abbrev Session (S A ε α : Type) :=
  Program (sql S A ε) ε α

def beginImmediate : Session S A ε Unit :=
  .ask (I := sql S A ε) .beginImmediate Program.ofExcept

def execute (statement : S) : Session S A ε A :=
  .ask (I := sql S A ε) (.execute statement) Program.ofExcept

def commit : Session S A ε Unit :=
  .ask (I := sql S A ε) .commit Program.ofExcept

def noFaults : Nat → Option ε :=
  fun _ => none

/-- The operation on a connection of its own, seen from outside: what it returns and
what it left committed. -/
def atomically (L : Dialect D S A ε) (p : Session S A ε α) (d : D) : Except ε α × D :=
  let out := run (answer L noFaults) p (idle d, 0)
  (out.1, out.2.1.committed)

/-- An operation that ends in an exception leaves the committed state unchanged and no
transaction open, and nothing done later on the connection commits any part of it. -/
def LeavesNoTrace (L : Dialect D S A ε) (faults : Nat → Option ε) (p : Session S A ε α) (d : D) :
    Prop :=
  ∀ e, (run (answer L faults) p (idle d, 0)).1 = .error e →
    let after := (run (answer L faults) p (idle d, 0)).2.1
    after.committed = d ∧ after.pending = none ∧
      ∀ (β : Type) (later : Session S A ε β),
        (run (answer L noFaults) later (after, 0)).2.1.committed = (atomically L later d).2

theorem eq_idle_iff (c : Connection D) (d : D) :
    c = idle d ↔ c.committed = d ∧ c.pending = none := by
  obtain ⟨committed, pending⟩ := c
  simp [idle]

section Laws

variable (L : Dialect D S A ε) (faults : Nat → Option ε)

theorem leavesNoTrace_iff (p : Session S A ε α) (d : D) :
    LeavesNoTrace L faults p d ↔
      ∀ e, (run (answer L faults) p (idle d, 0)).1 = .error e →
        (run (answer L faults) p (idle d, 0)).2.1 = idle d := by
  constructor
  · intro h e he
    obtain ⟨hCommitted, hPending, _⟩ := h e he
    exact (eq_idle_iff _ d).mpr ⟨hCommitted, hPending⟩
  · intro h e he
    simp only [h e he]
    exact ⟨rfl, rfl, fun _ _ => rfl⟩

@[simp] theorem view_pending (d v : D) : Connection.view ⟨d, some v⟩ = v := rfl

@[simp] theorem openFor_idle (d : D) : (idle d).openFor true = ⟨d, some d⟩ := rfl

@[simp] theorem openFor_pending (d v : D) (b : Bool) :
    Connection.openFor ⟨d, some v⟩ b = ⟨d, some v⟩ := by
  cases b <;> rfl

@[simp] theorem write_pending (d v w : D) : Connection.write ⟨d, some v⟩ w = ⟨d, some w⟩ := rfl

@[simp] theorem pending_idle (d : D) : (idle d).pending = none := rfl

theorem pending_ne_idle (d v w : D) : (⟨d, some v⟩ : Connection D) ≠ idle w := by
  intro h
  cases congrArg Connection.pending h

@[simp] theorem run_beginImmediate (d : D) (n : Nat) (f : Unit → Session S A ε β) :
    run (answer L faults) (beginImmediate.bind f) (idle d, n) =
      match faults n with
      | some e => (.error e, idle d, n + 1)
      | none => run (answer L faults) (f ()) (⟨d, some d⟩, n + 1) := by
  change run (answer L faults) ((Program.ofExcept (answer L faults (idle d, n) .beginImmediate).1).bind f)
    (answer L faults (idle d, n) .beginImmediate).2 = _
  simp only [answer, pending_idle]
  cases faults n <;> rfl

@[simp] theorem run_execute (statement : S) (c : Connection D) (n : Nat)
    (f : A → Session S A ε β) :
    run (answer L faults) ((execute statement).bind f) (c, n) =
      match faults n with
      | some e => (.error e, c.openFor (L.dml statement), n + 1)
      | none =>
        match L.apply statement (c.openFor (L.dml statement)).view with
        | .error e => (.error e, c.openFor (L.dml statement), n + 1)
        | .ok (a, d) =>
          run (answer L faults) (f a) ((c.openFor (L.dml statement)).write d, n + 1) := by
  change run (answer L faults) ((Program.ofExcept (answer L faults (c, n) (.execute statement)).1).bind f)
    (answer L faults (c, n) (.execute statement)).2 = _
  simp only [answer]
  cases faults n with
  | some e => rfl
  | none => cases L.apply statement (c.openFor (L.dml statement)).view <;> rfl

@[simp] theorem run_commit (c : Connection D) (n : Nat) (f : Unit → Session S A ε β) :
    run (answer L faults) (commit.bind f) (c, n) =
      match faults n with
      | some e => (.error e, c, n + 1)
      | none => run (answer L faults) (f ()) (idle c.view, n + 1) := by
  change run (answer L faults) ((Program.ofExcept (answer L faults (c, n) .commit).1).bind f)
    (answer L faults (c, n) .commit).2 = _
  simp only [answer]
  cases faults n <;> rfl

end Laws

/-! ### One data-changing statement and its commit -/

section Single

variable {L : Dialect D S A ε} {statement : S}

/-- `execute` of one statement that opens its own transaction, then `commit`. -/
def single (statement : S) (f : A → α) : Session S A ε α :=
  (execute statement).bind fun a => commit.bind fun _ => .ret (f a)

theorem atomically_single (hDml : L.dml statement = true) (f : A → α) (d : D) :
    atomically L (single statement f) d =
      match L.apply statement d with
      | .error e => (.error e, d)
      | .ok (a, d') => (.ok (f a), d') := by
  simp only [atomically, single, run_execute, noFaults, hDml, openFor_idle, view_pending]
  cases L.apply statement d with
  | error e => rfl
  | ok out => rfl

/-- Such an operation is clean exactly where nothing after its implicit begin can fail. -/
theorem single_leavesNoTrace_iff (hDml : L.dml statement = true) (f : A → α)
    (faults : Nat → Option ε) (d : D) :
    LeavesNoTrace L faults (single statement f) d ↔
      faults 0 = none ∧ faults 1 = none ∧ ∃ out, L.apply statement d = .ok out := by
  rw [leavesNoTrace_iff]
  simp only [single, run_execute, hDml, openFor_idle, view_pending]
  cases h0 : faults 0 with
  | some e =>
    simp only [reduceCtorEq, false_and, iff_false]
    exact fun h => pending_ne_idle d d d (h e rfl)
  | none =>
    cases hApply : L.apply statement d with
    | error e =>
      simp only [reduceCtorEq, exists_false, and_false, iff_false]
      exact fun h => pending_ne_idle d d d (h e rfl)
    | ok out =>
      obtain ⟨a, d'⟩ := out
      simp only [write_pending, run_commit]
      cases h1 : faults 1 with
      | some e =>
        simp only [reduceCtorEq, false_and, and_false, iff_false]
        exact fun h => pending_ne_idle d d' d (h e rfl)
      | none =>
        simp only [true_and, Except.ok.injEq, exists_eq', iff_true]
        intro e he
        cases he

end Single

/-! ### What no statement of an operation touches -/

section Frame

variable {γ : Type} {L : Dialect D S A ε} {part : D → γ}

def Frames (L : Dialect D S A ε) (part : D → γ) : Request S → Prop
  | .execute statement => ∀ d a d', L.apply statement d = .ok (a, d') → part d' = part d
  | _ => True

theorem atomically_frames {p : Session S A ε α} (h : Every (Frames L part) (fun _ => True) p) (d : D) :
    part (atomically L p d).2 = part d := by
  let inv (s : Connection D × Nat) : Prop := part s.1.committed = part d ∧ part s.1.view = part d
  have hAnswer : ∀ op s, Frames L part op → inv s → inv (answer L noFaults s op).2 := by
    rintro op ⟨⟨committed, pending⟩, n⟩ hOp ⟨hCommitted, hView⟩
    cases op with
    | beginImmediate =>
      cases pending with
      | none => exact ⟨hCommitted, hView⟩
      | some v => exact ⟨hCommitted, hView⟩
    | commit => exact ⟨hView, hView⟩
    | execute statement =>
      have hOpen : inv (Connection.openFor ⟨committed, pending⟩ (L.dml statement), n) := by
        cases L.dml statement with
        | false => exact ⟨hCommitted, hView⟩
        | true => exact ⟨hCommitted, hView⟩
      simp only [answer, noFaults]
      cases hApply : L.apply statement
          (Connection.openFor ⟨committed, pending⟩ (L.dml statement)).view with
      | error e => exact hOpen
      | ok out =>
        have hKept := (hOp _ _ _ hApply).trans hOpen.2
        rcases hAfter : Connection.openFor ⟨committed, pending⟩ (L.dml statement) with ⟨c, v⟩
        rw [hAfter] at hOpen
        cases v with
        | none => exact ⟨hKept, hKept⟩
        | some v => exact ⟨hOpen.1, hKept⟩
  exact (run_of_every h hAnswer ⟨rfl, rfl⟩).1.1

end Frame

/-! ### A transaction begun up front -/

section Explicit

variable {L : Dialect D S A ε}

def Inside : Request S → Prop
  | .execute _ => True
  | _ => False

/-- Inside an open transaction the committed state stays put and the transaction open,
whatever fails. -/
theorem run_stays_open (faults : Nat → Option ε) {p : Session S A ε α}
    (h : Every Inside (fun _ => True) p) (d v : D) (n : Nat) :
    ∃ w, (run (answer L faults) p (⟨d, some v⟩, n)).2.1 = ⟨d, some w⟩ := by
  induction p generalizing v n with
  | ret a => exact ⟨v, rfl⟩
  | fail e => exact ⟨v, rfl⟩
  | ask op k ih =>
    cases op with
    | beginImmediate => exact absurd h.1 id
    | commit => exact absurd h.1 id
    | execute statement =>
      have hAfter : ∃ r w, answer L faults (⟨d, some v⟩, n) (.execute statement) =
          (r, ⟨d, some w⟩, n + 1) := by
        simp only [answer, openFor_pending, view_pending]
        cases faults n with
        | some e => exact ⟨_, v, rfl⟩
        | none =>
          cases L.apply statement v with
          | error e => exact ⟨_, v, rfl⟩
          | ok out => exact ⟨_, out.2, rfl⟩
      obtain ⟨r, w, hAnswer⟩ := hAfter
      rw [run_ask, hAnswer]
      exact ih r (h.2 r) w (n + 1)

/-- `beginImmediate`, the body, `commit`. -/
def explicit (body : Session S A ε α) : Session S A ε Unit :=
  beginImmediate.bind fun _ => body.bind fun _ => commit

/-- Such an operation is clean where it cannot begin, or where nothing after can fail. -/
theorem explicit_leavesNoTrace_iff {body : Session S A ε α} (h : Every Inside (fun _ => True) body)
    (faults : Nat → Option ε) (d : D) :
    LeavesNoTrace L faults (explicit body) d ↔
      faults 0 ≠ none ∨ ∃ a c n, run (answer L faults) body (⟨d, some d⟩, 1) = (.ok a, c, n) ∧
        faults n = none := by
  rw [leavesNoTrace_iff, explicit, run_beginImmediate]
  cases h0 : faults 0 with
  | some e => simp
  | none =>
    simp only [ne_eq, not_true_eq_false, false_or, run_bind]
    obtain ⟨w, hOpen⟩ := run_stays_open (L := L) faults h d d (0 + 1)
    rw [Nat.zero_add] at hOpen ⊢
    rcases hRun : run (answer L faults) body (⟨d, some d⟩, 1) with ⟨outcome, c, n⟩
    rw [hRun] at hOpen
    simp only at hOpen
    subst hOpen
    cases outcome with
    | error e =>
      simp only [Prod.mk.injEq, reduceCtorEq, false_and, exists_false, iff_false]
      exact fun hClean => pending_ne_idle d w d (hClean e rfl)
    | ok a =>
      have hCommit := run_commit (β := Unit) L faults ⟨d, some w⟩ n .ret
      rw [Program.bind_ret] at hCommit
      simp only [hCommit]
      cases hLast : faults n with
      | some e =>
        constructor
        · exact fun hClean => absurd (hClean e rfl) (pending_ne_idle d w d)
        · rintro ⟨_, _, m, hSame, hNone⟩
          cases hSame
          rw [hLast] at hNone
          cases hNone
      | none =>
        constructor
        · exact fun _ => ⟨a, _, n, rfl, hLast⟩
        · intro _ e he
          cases he

end Explicit

end Foundation.Transaction
