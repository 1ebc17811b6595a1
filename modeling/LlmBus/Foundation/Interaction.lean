/-! # Interaction programs

A program is a finite tree of requests: it asks its surroundings for one operation at
a time and goes on with the reply. Nothing is said here about who answers, so one
program text can be run alone against recorded replies, observed through every
possible sequence of replies, or interleaved with other programs.
-/

namespace Foundation.Interaction

/-- The operations a program may ask for, each with the type of its replies. -/
structure Interface where
  Op : Type
  Reply : Op → Type

inductive Program (I : Interface) (ε α : Type) where
  | ret (a : α)
  | fail (e : ε)
  | ask (op : I.Op) (k : I.Reply op → Program I ε α)

variable {I : Interface} {ε α β γ σ : Type}

namespace Program

def bind : Program I ε α → (α → Program I ε β) → Program I ε β
  | ret a, f => f a
  | fail e, _ => fail e
  | ask op k, f => ask op fun r => (k r).bind f

instance : Monad (Program I ε) where
  pure := ret
  bind := bind

def perform (op : I.Op) : Program I ε (I.Reply op) :=
  ask op ret

def ofExcept : Except ε α → Program I ε α
  | .ok a => ret a
  | .error e => fail e

@[simp] theorem pure_eq (a : α) : (pure a : Program I ε α) = ret a := rfl

@[simp] theorem bind_eq (p : Program I ε α) (f : α → Program I ε β) : p >>= f = p.bind f := rfl

@[simp] theorem ret_bind (a : α) (f : α → Program I ε β) : (ret a).bind f = f a := rfl

@[simp] theorem fail_bind (e : ε) (f : α → Program I ε β) :
    (fail e : Program I ε α).bind f = fail e := rfl

@[simp] theorem ask_bind (op : I.Op) (k : I.Reply op → Program I ε α) (f : α → Program I ε β) :
    (ask op k).bind f = ask op fun r => (k r).bind f := rfl

@[simp] theorem ofExcept_ok (a : α) : (ofExcept (.ok a) : Program I ε α) = ret a := rfl

@[simp] theorem ofExcept_error (e : ε) : (ofExcept (.error e) : Program I ε α) = fail e := rfl

theorem bind_assoc (p : Program I ε α) (f : α → Program I ε β) (g : β → Program I ε γ) :
    (p.bind f).bind g = p.bind fun a => (f a).bind g := by
  induction p with
  | ret a => rfl
  | fail e => rfl
  | ask op k ih => exact congrArg (ask op) (funext ih)

theorem bind_ret (p : Program I ε α) : p.bind ret = p := by
  induction p with
  | ret a => rfl
  | fail e => rfl
  | ask op k ih => exact congrArg (ask op) (funext ih)

end Program

open Program

structure Event (I : Interface) where
  op : I.Op
  reply : I.Reply op

/-- `Yields p trace outcome`: some sequence of replies leads `p` through exactly
`trace` to `outcome`. The replies are arbitrary, so a fact about all yields holds
whatever the surroundings do. -/
inductive Yields : Program I ε α → List (Event I) → Except ε α → Prop where
  | ret (a : α) : Yields (ret a) [] (.ok a)
  | fail (e : ε) : Yields (fail e) [] (.error e)
  | ask (op : I.Op) (k : I.Reply op → Program I ε α) (r : I.Reply op) {trace outcome}
      (h : Yields (k r) trace outcome) : Yields (ask op k) (⟨op, r⟩ :: trace) outcome

@[simp] theorem yields_ret_iff {a : α} {trace : List (Event I)} {outcome : Except ε α} :
    Yields (ret a) trace outcome ↔ trace = [] ∧ outcome = .ok a := by
  constructor
  · intro h
    cases h
    exact ⟨rfl, rfl⟩
  · rintro ⟨rfl, rfl⟩
    exact .ret a

theorem yields_ask_iff {op : I.Op} {k : I.Reply op → Program I ε α} {trace : List (Event I)}
    {outcome : Except ε α} :
    Yields (ask op k) trace outcome ↔
      ∃ r rest, trace = ⟨op, r⟩ :: rest ∧ Yields (k r) rest outcome := by
  constructor
  · intro h
    cases h with
    | ask _ _ r h => exact ⟨r, _, rfl, h⟩
  · rintro ⟨r, rest, rfl, h⟩
    exact .ask op k r h

/-- At most `n` requests, whatever the replies. -/
def EndsWithin : Nat → Program I ε α → Prop
  | n + 1, .ask _ k => ∀ r, EndsWithin n (k r)
  | 0, .ask _ _ => False
  | _, _ => True

/-- Run alone: `answer` gives each reply and the state after it. -/
def run (answer : σ → (op : I.Op) → I.Reply op × σ) : Program I ε α → σ → Except ε α × σ
  | .ret a, s => (.ok a, s)
  | .fail e, s => (.error e, s)
  | .ask op k, s => run answer (k (answer s op).1) (answer s op).2

section Run

variable (answer : σ → (op : I.Op) → I.Reply op × σ)

@[simp] theorem run_ret (a : α) (s : σ) : run (ε := ε) answer (.ret a) s = (.ok a, s) := rfl

@[simp] theorem run_fail (e : ε) (s : σ) : run (α := α) answer (.fail e) s = (.error e, s) := rfl

@[simp] theorem run_ask (op : I.Op) (k : I.Reply op → Program I ε α) (s : σ) :
    run answer (.ask op k) s = run answer (k (answer s op).1) (answer s op).2 := rfl

@[simp] theorem run_ofExcept (r : Except ε α) (s : σ) : run answer (.ofExcept r) s = (r, s) := by
  cases r <;> rfl

theorem run_bind (p : Program I ε α) (f : α → Program I ε β) (s : σ) :
    run answer (p.bind f) s =
      match run answer p s with
      | (.ok a, s') => run answer (f a) s'
      | (.error e, s') => (.error e, s') := by
  induction p generalizing s with
  | ret a => rfl
  | fail e => rfl
  | ask op k ih => exact ih _ _

end Run

/-- The answers, with a list of the requests so far. -/
def recorded (answer : σ → (op : I.Op) → I.Reply op × σ) (s : σ × List I.Op) (op : I.Op) :
    I.Reply op × σ × List I.Op :=
  ((answer s.1 op).1, (answer s.1 op).2, s.2 ++ [op])

/-- Every request of the program satisfies `A` and every value it returns satisfies `P`,
whatever the replies. -/
def Every (A : I.Op → Prop) (P : α → Prop) : Program I ε α → Prop
  | .ret a => P a
  | .fail _ => True
  | .ask op k => A op ∧ ∀ r, Every A P (k r)

section Every

variable {A : I.Op → Prop} {P : α → Prop} {Q : β → Prop}

theorem Every.mono {P' : α → Prop} (hP : ∀ a, P a → P' a) {p : Program I ε α}
    (h : Every A P p) : Every A P' p := by
  induction p with
  | ret a => exact hP a h
  | fail e => trivial
  | ask op k ih => exact ⟨h.1, fun r => ih r (h.2 r)⟩

theorem Every.imp {A' : I.Op → Prop} (hA : ∀ op, A op → A' op) {p : Program I ε α} (h : Every A P p) :
    Every A' P p := by
  induction p with
  | ret a => exact h
  | fail e => trivial
  | ask op k ih => exact ⟨hA op h.1, fun r => ih r (h.2 r)⟩

theorem Every.bind {f : α → Program I ε β} {p : Program I ε α} (h : Every A P p)
    (hf : ∀ a, P a → Every A Q (f a)) : Every A Q (p.bind f) := by
  induction p with
  | ret a => exact hf a h
  | fail e => trivial
  | ask op k ih => exact ⟨h.1, fun r => ih r (h.2 r)⟩

theorem every_ofExcept {r : Except ε α} (h : ∀ a, r = .ok a → P a) :
    Every A P (ofExcept r : Program I ε α) := by
  cases r with
  | ok a => exact h a rfl
  | error e => trivial

/-- What every answer to an allowed request keeps, the whole run keeps. -/
theorem run_of_every {answer : σ → (op : I.Op) → I.Reply op × σ} {J : σ → Prop}
    {p : Program I ε α} (h : Every A P p) (hAnswer : ∀ op s, A op → J s → J (answer s op).2)
    {s : σ} (hs : J s) :
    J (run answer p s).2 ∧ ∀ a, (run answer p s).1 = .ok a → P a := by
  induction p generalizing s with
  | ret a =>
    refine ⟨hs, fun b hb => ?_⟩
    cases hb
    exact h
  | fail e => exact ⟨hs, fun b hb => by cases hb⟩
  | ask op k ih => exact ih _ (h.2 _) (hAnswer op s h.1 hs)

end Every

/-- Whatever it is answered, the program asks for something else after a request in `A`: it
neither returns nor fails there. -/
def GoesOn (A : I.Op → Prop) : Program I ε α → Prop
  | .ret _ => True
  | .fail _ => True
  | .ask op k => ∀ r, GoesOn A (k r) ∧ (A op → ∃ next k', k r = .ask next k')

section GoesOn

variable {A : I.Op → Prop}

theorem goesOn_ofExcept_bind {x : Except ε β} {f : β → Program I ε α}
    (h : ∀ b, x = .ok b → GoesOn A (f b)) : GoesOn A ((ofExcept x).bind f) := by
  cases x with
  | ok b => exact h b rfl
  | error e => trivial

/-- No run ends at such a request. -/
theorem GoesOn.last {p : Program I ε α} (h : GoesOn A p) {trace : List (Event I)}
    {outcome : Except ε α} (hYields : Yields p trace outcome) {before : List (Event I)}
    {event : Event I} (hTrace : trace = before ++ [event]) : ¬ A event.op := by
  induction hYields generalizing before with
  | ret a => simp at hTrace
  | fail e => simp at hTrace
  | ask op k r hRest ih =>
    intro hA
    obtain ⟨hNext, hAsk⟩ := h r
    cases before with
    | nil =>
      obtain ⟨hEvent, hNil⟩ := List.cons.inj hTrace
      rw [← hEvent] at hA
      obtain ⟨next, k', hEq⟩ := hAsk hA
      rw [hEq, hNil] at hRest
      cases hRest
    | cons first before =>
      exact ih hNext (List.cons.inj hTrace).2 hA

end GoesOn

end Foundation.Interaction
