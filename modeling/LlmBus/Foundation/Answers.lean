import LlmBus.Foundation.Handlers

/-! # Programs against fixed answers

Where every request has one answer, which nothing the program does can change, a program
is a function of those answers. Only the requests it may make matter, and of several
programs one after the other the first that fails decides the failure.
-/

namespace Foundation.Interaction

open Program

variable {I : Interface} {ε α β : Type}

/-- The failure, where there is one. -/
def errorOf : Except ε α → Option ε
  | .ok _ => none
  | .error e => some e

/-- The outcome where the requests are answered like this. -/
def answered (env : (op : I.Op) → I.Reply op) : Program I ε α → Except ε α
  | .ret a => .ok a
  | .fail e => .error e
  | .ask op k => answered env (k (env op))

section Answered

variable (env : (op : I.Op) → I.Reply op)

@[simp] theorem answered_ret (a : α) : answered env (.ret a : Program I ε α) = .ok a := rfl

@[simp] theorem answered_fail (e : ε) : answered env (.fail e : Program I ε α) = .error e := rfl

@[simp] theorem answered_ask (op : I.Op) (k : I.Reply op → Program I ε α) :
    answered env (.ask op k) = answered env (k (env op)) := rfl

@[simp] theorem answered_ofExcept (x : Except ε α) :
    answered env (.ofExcept x : Program I ε α) = x := by
  cases x with
  | ok a => rfl
  | error e => rfl

theorem answered_bind (p : Program I ε α) (f : α → Program I ε β) :
    answered env (p.bind f) = (answered env p).bind fun a => answered env (f a) := by
  induction p with
  | ret a => rfl
  | fail e => rfl
  | ask op k ih => exact ih (env op)

def failureOf (p : Program I ε α) : Option ε :=
  errorOf (answered env p)

@[simp] theorem failureOf_ofExcept (x : Except ε α) :
    failureOf env (.ofExcept x : Program I ε α) = errorOf x := by
  rw [failureOf, answered_ofExcept]

/-- The first failure decides: what comes after `p` counts where `p` is fine. -/
theorem failureOf_bind {p : Program I ε α} {f : α → Program I ε β} {next : Option ε}
    (h : ∀ a, answered env p = .ok a → failureOf env (f a) = next) :
    failureOf env (p.bind f) = (failureOf env p).or next := by
  unfold failureOf
  rw [answered_bind]
  cases hFirst : answered env p with
  | error e => rfl
  | ok a => exact h a hFirst

end Answered

/-- What a program cannot ask for does not matter to it. -/
theorem answered_congr {A : I.Op → Prop} {P : α → Prop} {p : Program I ε α} (h : Every A P p)
    {env env' : (op : I.Op) → I.Reply op} (hSame : ∀ op, A op → env op = env' op) :
    answered env p = answered env' p := by
  induction p with
  | ret a => rfl
  | fail e => rfl
  | ask op k ih =>
    rw [answered_ask, answered_ask, hSame op h.1]
    exact ih _ (h.2 _)

end Foundation.Interaction
