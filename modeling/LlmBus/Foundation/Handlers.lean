import LlmBus.Foundation.Interaction

/-! # Programs carried out by programs

A handler answers each operation of one interface with a program over another. Carrying
a program out through a handler keeps its behaviour: its runs are those of the program,
each request replaced by a run of what answers it.
-/

namespace Foundation.Interaction

variable {I J : Interface} {ε α β : Type}

namespace Program

/-- A program that cannot fail, among those that can. -/
def widen : Program I Empty α → Program I ε α
  | ret a => ret a
  | ask op k => ask op fun r => (k r).widen

@[simp] theorem widen_ret (a : α) : (ret a : Program I Empty α).widen = (ret a : Program I ε α) := rfl

@[simp] theorem widen_ask (op : I.Op) (k : I.Reply op → Program I Empty α) :
    (ask op k).widen = (ask op fun r => (k r).widen : Program I ε α) := rfl

end Program

open Program

theorem yields_bind_iff {p : Program I ε α} {f : α → Program I ε β} {trace : List (Event I)}
    {outcome : Except ε β} :
    Yields (p.bind f) trace outcome ↔
      (∃ e, Yields p trace (.error e) ∧ outcome = .error e) ∨
        ∃ a first rest, Yields p first (.ok a) ∧ Yields (f a) rest outcome ∧ trace = first ++ rest := by
  induction p generalizing trace with
  | ret a =>
    constructor
    · intro h
      exact .inr ⟨a, [], trace, .ret a, h, rfl⟩
    · rintro (⟨e, hFail, _⟩ | ⟨a', first, rest, hFirst, hRest, rfl⟩)
      · cases hFail
      · cases hFirst
        exact hRest
  | fail e =>
    constructor
    · intro h
      cases h
      exact .inl ⟨e, .fail e, rfl⟩
    · rintro (⟨e', hFail, rfl⟩ | ⟨a, first, rest, hFirst, _, _⟩)
      · cases hFail
        exact .fail e
      · cases hFirst
  | ask op k ih =>
    constructor
    · intro h
      obtain ⟨r, rest, rfl, hNext⟩ := yields_ask_iff.mp h
      obtain ⟨e, hFail, hOutcome⟩ | ⟨a, first, rest', hFirst, hRest, rfl⟩ := (ih r).mp hNext
      · exact .inl ⟨e, .ask op k r hFail, hOutcome⟩
      · exact .inr ⟨a, ⟨op, r⟩ :: first, rest', .ask op k r hFirst, hRest, rfl⟩
    · rintro (⟨e, hFail, hOutcome⟩ | ⟨a, first, rest, hFirst, hRest, rfl⟩)
      · obtain ⟨r, rest, rfl, hNext⟩ := yields_ask_iff.mp hFail
        exact .ask op _ r ((ih r).mpr (.inl ⟨e, hNext, hOutcome⟩))
      · obtain ⟨r, first, rfl, hNext⟩ := yields_ask_iff.mp hFirst
        exact .ask op _ r ((ih r).mpr (.inr ⟨a, first, rest, hNext, hRest, rfl⟩))

theorem yields_widen_iff {p : Program I Empty α} {trace : List (Event I)} {outcome : Except ε α} :
    Yields p.widen trace outcome ↔ ∃ a, outcome = .ok a ∧ Yields p trace (.ok a) := by
  induction p generalizing trace with
  | ret a =>
    rw [widen_ret, yields_ret_iff]
    constructor
    · rintro ⟨rfl, rfl⟩
      exact ⟨a, rfl, .ret a⟩
    · rintro ⟨a', rfl, h⟩
      cases h
      exact ⟨rfl, rfl⟩
  | fail e => exact e.elim
  | ask op k ih =>
    rw [widen_ask, yields_ask_iff]
    constructor
    · rintro ⟨r, rest, rfl, h⟩
      obtain ⟨a, hOutcome, hNext⟩ := (ih r).mp h
      exact ⟨a, hOutcome, .ask op k r hNext⟩
    · rintro ⟨a, hOutcome, h⟩
      obtain ⟨r, rest, rfl, hNext⟩ := yields_ask_iff.mp h
      exact ⟨r, rest, rfl, (ih r).mpr ⟨a, hOutcome, hNext⟩⟩

theorem Every.event {A : I.Op → Prop} {P : α → Prop} {p : Program I ε α} (h : Every A P p)
    {trace : List (Event I)} {outcome : Except ε α} (hYields : Yields p trace outcome) :
    (∀ event ∈ trace, A event.op) ∧ ∀ a, outcome = .ok a → P a := by
  induction hYields with
  | ret a =>
    refine ⟨fun event hEvent => (List.not_mem_nil hEvent).elim, fun b hb => ?_⟩
    cases hb
    exact h
  | fail e => exact ⟨fun event hEvent => (List.not_mem_nil hEvent).elim, fun b hb => by cases hb⟩
  | ask op k r hRest ih =>
    obtain ⟨hRequests, hOutcome⟩ := ih (h.2 r)
    refine ⟨fun event hEvent => ?_, hOutcome⟩
    cases List.mem_cons.mp hEvent with
    | inl hFirst =>
      rw [hFirst]
      exact h.1
    | inr hLater => exact hRequests event hLater

/-- Every request is carried out, and every reply is one. -/
abbrev Interpretation (I J : Interface) :=
  (op : I.Op) → Program J Empty (I.Reply op)

def handle (h : Interpretation I J) : Program I ε α → Program J ε α
  | .ret a => .ret a
  | .fail e => .fail e
  | .ask op k => (h op).widen.bind fun r => handle h (k r)

section Handle

variable (h : Interpretation I J)

@[simp] theorem handle_ret (a : α) : handle h (.ret a : Program I ε α) = .ret a := rfl

@[simp] theorem handle_fail (e : ε) : handle h (.fail e : Program I ε α) = .fail e := rfl

@[simp] theorem handle_ask (op : I.Op) (k : I.Reply op → Program I ε α) :
    handle h (.ask op k) = (h op).widen.bind fun r => handle h (k r) := rfl

@[simp] theorem handle_ofExcept (r : Except ε α) :
    handle h (.ofExcept r) = (.ofExcept r : Program J ε α) := by
  cases r <;> rfl

theorem handle_bind (p : Program I ε α) (f : α → Program I ε β) :
    handle h (p.bind f) = (handle h p).bind fun a => handle h (f a) := by
  induction p with
  | ret a => rfl
  | fail e => rfl
  | ask op k ih =>
    rw [ask_bind, handle_ask, handle_ask, bind_assoc]
    exact congrArg _ (funext ih)

/-- The events of a run, each replaced by a run of what answers it with that reply. -/
inductive CarriedOut : List (Event I) → List (Event J) → Prop where
  | nil : CarriedOut [] []
  | cons {op : I.Op} {r : I.Reply op} {part : List (Event J)} {events : List (Event I)}
      {trace : List (Event J)} (hPart : Yields (h op) part (.ok r))
      (hRest : CarriedOut events trace) : CarriedOut (⟨op, r⟩ :: events) (part ++ trace)

variable {h} in
theorem CarriedOut.of_append {first rest : List (Event I)} {trace : List (Event J)}
    (hCarried : CarriedOut h (first ++ rest) trace) :
    ∃ before after, trace = before ++ after ∧ CarriedOut h first before ∧ CarriedOut h rest after := by
  induction first generalizing trace with
  | nil => exact ⟨[], trace, rfl, .nil, hCarried⟩
  | cons event first ih =>
    cases hCarried with
    | @cons _ _ part _ trace hPart hLater =>
      obtain ⟨before, after, rfl, hFirst, hRest⟩ := ih hLater
      exact ⟨part ++ before, after, (List.append_assoc ..).symm, .cons hPart hFirst, hRest⟩

theorem yields_handle_iff {p : Program I ε α} {trace : List (Event J)} {outcome : Except ε α} :
    Yields (handle h p) trace outcome ↔
      ∃ events, Yields p events outcome ∧ CarriedOut h events trace := by
  induction p generalizing trace with
  | ret a =>
    rw [handle_ret, yields_ret_iff]
    constructor
    · rintro ⟨rfl, rfl⟩
      exact ⟨[], .ret a, .nil⟩
    · rintro ⟨events, hYields, hCarried⟩
      cases hYields
      cases hCarried
      exact ⟨rfl, rfl⟩
  | fail e =>
    constructor
    · intro hYields
      cases hYields
      exact ⟨[], .fail e, .nil⟩
    · rintro ⟨events, hYields, hCarried⟩
      cases hYields
      cases hCarried
      exact .fail e
  | ask op k ih =>
    rw [handle_ask, yields_bind_iff]
    constructor
    · rintro (⟨e, hFail, _⟩ | ⟨r, part, rest, hPart, hRest, rfl⟩)
      · obtain ⟨a, hOk, _⟩ := yields_widen_iff.mp hFail
        cases hOk
      · obtain ⟨r', hOk, hYields⟩ := yields_widen_iff.mp hPart
        cases hOk
        obtain ⟨events, hEvents, hCarried⟩ := (ih r).mp hRest
        exact ⟨⟨op, r⟩ :: events, .ask op k r hEvents, .cons hYields hCarried⟩
    · rintro ⟨events, hYields, hCarried⟩
      obtain ⟨r, rest, rfl, hNext⟩ := yields_ask_iff.mp hYields
      cases hCarried with
      | @cons _ _ part _ trace hPart hRest =>
        refine .inr ⟨r, part, trace, ?_, (ih r).mpr ⟨rest, hNext, hRest⟩, rfl⟩
        exact yields_widen_iff.mpr ⟨r, rfl, hPart⟩

end Handle

end Foundation.Interaction
