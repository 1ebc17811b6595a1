import LlmBus.Foundation.Interaction

/-! # Programs on a host

A host relates the state before a request, the reply, and the state after it. A program is
followed through everything its host may do: what holds where a request is made, and what
holds where the program ends. The rules go along the program, those of `try` and of
`finally` among them.
-/

namespace Foundation.Interaction

variable {I J : Interface} {ε δ α β σ : Type}

namespace Program

/-- The outcome as a value: the body of a `try`. -/
def attempt : Program I ε α → Program I δ (Except ε α)
  | ret a => ret (.ok a)
  | fail e => ret (.error e)
  | ask op k => ask op fun r => (k r).attempt

/-- A program on another host, where each request is itself a program, which may fail. -/
def carry (h : (op : I.Op) → Program J δ (I.Reply op)) (wrap : ε → δ) : Program I ε α → Program J δ α
  | ret a => ret a
  | fail e => fail (wrap e)
  | ask op k => (h op).bind fun r => (k r).carry h wrap

section Carry

variable {h : (op : I.Op) → Program J δ (I.Reply op)} {wrap : ε → δ}

@[simp] theorem carry_ret (a : α) : (ret a : Program I ε α).carry h wrap = ret a := rfl

@[simp] theorem carry_fail (e : ε) : (fail e : Program I ε α).carry h wrap = fail (wrap e) := rfl

@[simp] theorem carry_ofExcept (x : Except ε α) :
    (ofExcept x : Program I ε α).carry h wrap = ofExcept (x.mapError wrap) := by
  cases x <;> rfl

end Carry

end Program

open Program

abbrev Host (I : Interface) (σ : Type) :=
  σ → (op : I.Op) → I.Reply op → σ → Prop

/-- A run to the end of the program. -/
inductive Concludes (H : Host I σ) : Program I ε α → σ → Except ε α → σ → Prop where
  | ret (a : α) (s : σ) : Concludes H (.ret a) s (.ok a) s
  | fail (e : ε) (s : σ) : Concludes H (.fail e) s (.error e) s
  | ask (op : I.Op) (k : I.Reply op → Program I ε α) (r : I.Reply op) {s s' t : σ}
      {outcome : Except ε α} (h : H s op r s') (hRest : Concludes H (k r) s' outcome t) :
      Concludes H (.ask op k) s outcome t

/-- Every request is made where `A` holds of it, and every run ends as `Q` has it. -/
def Secures (H : Host I σ) (A : σ → I.Op → Prop) (Q : Except ε α → σ → Prop) :
    Program I ε α → σ → Prop
  | .ret a, s => Q (.ok a) s
  | .fail e, s => Q (.error e) s
  | .ask op k, s => A s op ∧ ∀ r s', H s op r s' → Secures H A Q (k r) s'

section Secures

variable {H : Host I σ} {A : σ → I.Op → Prop} {Q Q' : Except ε α → σ → Prop} {s : σ}

theorem Secures.mono {p : Program I ε α} (h : Secures H A Q p s)
    (hQ : ∀ outcome t, Q outcome t → Q' outcome t) : Secures H A Q' p s := by
  induction p generalizing s with
  | ret a => exact hQ _ _ h
  | fail e => exact hQ _ _ h
  | ask op k ih => exact ⟨h.1, fun r s' hReply => ih r (h.2 r s' hReply)⟩

/-- What is left by a value and what by an exception. -/
def Ending (S : α → σ → Prop) (F : ε → σ → Prop) : Except ε α → σ → Prop
  | .ok a, t => S a t
  | .error e, t => F e t

theorem secures_bind {Q : Except ε β → σ → Prop} {p : Program I ε α} {f : α → Program I ε β} :
    Secures H A Q (p.bind f) s ↔
      Secures H A (Ending (fun a => Secures H A Q (f a)) fun e => Q (.error e)) p s := by
  induction p generalizing s with
  | ret a => rfl
  | fail e => rfl
  | ask op k ih =>
    constructor
    · exact fun h => ⟨h.1, fun r s' hReply => (ih r).mp (h.2 r s' hReply)⟩
    · exact fun h => ⟨h.1, fun r s' hReply => (ih r).mpr (h.2 r s' hReply)⟩

/-- The rule for a sequence: what the first part leaves is what the second starts from. -/
theorem Secures.bind {Q : Except ε β → σ → Prop} {S : α → σ → Prop} {F : ε → σ → Prop}
    {p : Program I ε α} {f : α → Program I ε β} (h : Secures H A (Ending S F) p s)
    (hOk : ∀ a t, S a t → Secures H A Q (f a) t) (hError : ∀ e t, F e t → Q (.error e) t) :
    Secures H A Q (p.bind f) s := by
  refine secures_bind.mpr (h.mono fun outcome t hOutcome => ?_)
  cases outcome with
  | ok a => exact hOk a t hOutcome
  | error e => exact hError e t hOutcome

end Secures

/-! ### A host that decides -/

section Decided

variable {H : Host I σ} {answer : σ → (op : I.Op) → I.Reply op × σ} {s : σ}

/-- The requests of a run, each with the state in which it is made. -/
def asked (answer : σ → (op : I.Op) → I.Reply op × σ) : Program I ε α → σ → List (I.Op × σ)
  | .ret _, _ => []
  | .fail _, _ => []
  | .ask op k, s => (op, s) :: asked answer (k (answer s op).1) (answer s op).2

end Decided

end Foundation.Interaction
