import Mathlib.Data.List.Basic

/-! # Runs of answered calls

Calls are made on a state one after the other, and each is answered. Where a call that fails
leaves the state alone, the answers of the others do not show that it was made; what a part
of the state answers depends on the calls on that part only; and two machines whose states
stay related give the same answers.
-/

namespace Foundation.Replay

universe u v w x

variable {ι : Type u} {σ : Type v} {τ : Type w} {ρ : Type x}

/-- Each call with its answer. -/
def outcomes (step : ι → σ → ρ × σ) : σ → List ι → List (ι × ρ)
  | _, [] => []
  | s, i :: rest => (i, (step i s).1) :: outcomes step (step i s).2 rest

variable {step : ι → σ → ρ × σ}

theorem map_fst_outcomes (s : σ) (calls : List ι) :
    (outcomes step s calls).map Prod.fst = calls := by
  induction calls generalizing s with
  | nil => rfl
  | cons i rest ih => exact congrArg (i :: ·) (ih _)

def after (step : ι → σ → ρ × σ) (s : σ) (calls : List ι) : σ :=
  calls.foldl (fun s i => (step i s).2) s

/-- Related states give the same answer to every call of the kind, and stay related. -/
structure Simulation (step : ι → σ → ρ × σ) (step' : ι → τ → ρ × τ) (related : σ → τ → Prop)
    (kind : ι → Prop) : Prop where
  answer : ∀ i s t, kind i → related s t → (step i s).1 = (step' i t).1
  next : ∀ i s t, kind i → related s t → related (step i s).2 (step' i t).2

theorem Simulation.outcomes_eq {step' : ι → τ → ρ × τ} {related : σ → τ → Prop} {kind : ι → Prop}
    (h : Simulation step step' related kind) {calls : List ι} (hCalls : ∀ i ∈ calls, kind i)
    {s : σ} {t : τ} (hRelated : related s t) : outcomes step s calls = outcomes step' t calls := by
  induction calls generalizing s t with
  | nil => rfl
  | cons i rest ih =>
    have hKind : kind i := hCalls i List.mem_cons_self
    have hRest := ih (fun j hj => hCalls j (List.mem_cons_of_mem i hj)) (h.next i s t hKind hRelated)
    rw [outcomes, outcomes, h.answer i s t hKind hRelated, hRest]

theorem Simulation.after {step' : ι → τ → ρ × τ} {related : σ → τ → Prop} {kind : ι → Prop}
    (h : Simulation step step' related kind) {calls : List ι} (hCalls : ∀ i ∈ calls, kind i)
    {s : σ} {t : τ} (hRelated : related s t) :
    related (Replay.after step s calls) (Replay.after step' t calls) := by
  induction calls generalizing s t with
  | nil => exact hRelated
  | cons i rest ih =>
    apply ih fun j hj => hCalls j (List.mem_cons_of_mem i hj)
    exact h.next i s t (hCalls i List.mem_cons_self) hRelated

/-- Calls whose answer is not `good` leave no trace, so the run of the good ones alone gives
the good answers again. -/
theorem outcomes_filter_good {good : ρ → Bool} {calls : List ι}
    (h : ∀ i ∈ calls, ∀ s, good (step i s).1 = false → (step i s).2 = s) (s : σ) :
    outcomes step s (((outcomes step s calls).filter fun e => good e.2).map Prod.fst) =
      (outcomes step s calls).filter fun e => good e.2 := by
  induction calls generalizing s with
  | nil => rfl
  | cons i rest ih =>
    have hRest : ∀ j ∈ rest, ∀ s, good (step j s).1 = false → (step j s).2 = s := fun j hj =>
      h j (List.mem_cons_of_mem i hj)
    rw [outcomes]
    cases hGood : good (step i s).1 with
    | true =>
      simp only [List.filter_cons, hGood, if_true, List.map_cons, outcomes, ih hRest]
    | false =>
      simp only [List.filter_cons, hGood, Bool.false_eq_true, if_false,
        h i List.mem_cons_self s hGood, ih hRest]

/-- A part of the state that its own calls act on, and that the other calls leave alone. -/
structure Part (whole : ι → τ → ρ × τ) (step : ι → σ → ρ × σ) (view : τ → σ) (mine : ι → Bool) :
    Prop where
  answer : ∀ i t, mine i = true → (whole i t).1 = (step i (view t)).1
  own : ∀ i t, mine i = true → view (whole i t).2 = (step i (view t)).2
  foreign : ∀ i t, mine i = false → view (whole i t).2 = view t

theorem Part.outcomes {whole : ι → τ → ρ × τ} {view : τ → σ} {mine : ι → Bool}
    (h : Part whole step view mine) (t : τ) (calls : List ι) :
    (outcomes whole t calls).filter (fun e => mine e.1) =
      Replay.outcomes step (view t) (calls.filter mine) := by
  induction calls generalizing t with
  | nil => rfl
  | cons i rest ih =>
    rw [Replay.outcomes]
    cases hMine : mine i with
    | true =>
      simp only [List.filter_cons, hMine, if_true, Replay.outcomes, ih, h.answer i t hMine,
        h.own i t hMine]
    | false =>
      simp only [List.filter_cons, hMine, Bool.false_eq_true, if_false, ih, h.foreign i t hMine]

/-- Both at once: the good calls on one part, made alone, give the answers they gave. -/
theorem Part.outcomes_filter_good {whole : ι → τ → ρ × τ} {view : τ → σ} {mine : ι → Bool}
    (h : Part whole step view mine) {good : ρ → Bool} {calls : List ι}
    (hGood : ∀ i ∈ calls, mine i = true → ∀ s, good (step i s).1 = false → (step i s).2 = s) (t : τ) :
    Replay.outcomes whole t
        (((Replay.outcomes whole t calls).filter fun e => mine e.1 && good e.2).map Prod.fst) =
      (Replay.outcomes whole t calls).filter fun e => mine e.1 && good e.2 := by
  have hKept : (Replay.outcomes whole t calls).filter (fun e => mine e.1 && good e.2) =
      (Replay.outcomes step (view t) (calls.filter mine)).filter fun e => good e.2 := by
    rw [← h.outcomes, List.filter_filter]
    simp only [Bool.and_comm]
  rw [hKept]
  generalize hEntries : (Replay.outcomes step (view t) (calls.filter mine)).filter
    (fun e => good e.2) = kept
  have hMine : ∀ i ∈ kept.map Prod.fst, mine i = true := by
    intro i hi
    obtain ⟨entry, hEntry, rfl⟩ := List.mem_map.mp hi
    rw [← hEntries] at hEntry
    have hCall := List.mem_map_of_mem (f := Prod.fst) (List.mem_of_mem_filter hEntry)
    rw [map_fst_outcomes] at hCall
    exact (List.mem_filter.mp hCall).2
  have hAlone : (Replay.outcomes whole t (kept.map Prod.fst)).filter (fun e => mine e.1) =
      Replay.outcomes whole t (kept.map Prod.fst) := by
    apply List.filter_eq_self.mpr
    intro entry hEntry
    apply hMine
    have hCall := List.mem_map_of_mem (f := Prod.fst) hEntry
    rwa [map_fst_outcomes] at hCall
  rw [← hAlone, h.outcomes, List.filter_eq_self.mpr hMine, ← hEntries]
  apply Replay.outcomes_filter_good
  intro i hi
  obtain ⟨hCall, hOwn⟩ := List.mem_filter.mp hi
  exact hGood i hCall hOwn

end Foundation.Replay
