import Mathlib.Data.List.Forall2

/-! # What an observer is shown

A service is visited again and again by one peer. What each visit shows, and what the peer
has left to come back with, depends on the circumstances of that visit. Two services look
the same to a peer that never gets beyond what both answer alike.
-/

namespace Foundation.Observation

variable {V V' S O : Type}

/-- What one visit shows, and what is left for the next; nothing where there is no visit. -/
abbrev Visited (S O : Type) := Option (O × Option S)

/-- One visit under each of the circumstances, for as long as there is something left. -/
def watch (visit : V → S → Visited S O) : List V → S → List O
  | [], _ => []
  | v :: vs, s =>
    match visit v s with
    | none => []
    | some (shown, none) => [shown]
    | some (shown, some left) => shown :: watch visit vs left

variable {visit : V → S → Visited S O} {visit' : V' → S → Visited S O}

theorem mem_watch_of_visit {v : V} {vs : List V} {s : S} {shown : O} {left : Option S}
    (h : visit v s = some (shown, left)) : shown ∈ watch visit (v :: vs) s := by
  cases left with
  | none => simp [watch, h]
  | some s' => simp [watch, h]

/-- If each visit under like circumstances shows the same, provided the observer stays within
`Within`, the observer sees the same all along. -/
theorem watch_congr {Alike : V → V' → Prop} {Within : O → Prop}
    (hVisit : ∀ v v' s, Alike v v' → (∀ shown left, visit v s = some (shown, left) → Within shown) →
      visit v s = visit' v' s)
    {vs : List V} {vs' : List V'} (h : List.Forall₂ Alike vs vs') {s : S}
    (hWithin : ∀ shown ∈ watch visit vs s, Within shown) :
    watch visit vs s = watch visit' vs' s := by
  induction h generalizing s with
  | nil => rfl
  | @cons v v' vs vs' hAlike _ ih =>
    have hSame : visit v s = visit' v' s :=
      hVisit v v' s hAlike fun shown _ hShown => hWithin shown (mem_watch_of_visit hShown)
    rw [watch, watch, ← hSame]
    cases hNow : visit v s with
    | none => rfl
    | some out =>
      obtain ⟨shown, left⟩ := out
      cases left with
      | none => rfl
      | some s' =>
        simp only [List.cons.injEq, true_and]
        refine ih fun later hLater => hWithin later ?_
        simp [watch, hNow, hLater]

end Foundation.Observation
