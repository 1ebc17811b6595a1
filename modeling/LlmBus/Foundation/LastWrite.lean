import Mathlib.Data.List.Induction

/-! # The last write to a key

A state that many kinds of calls act on holds one value under each key. If a call either
writes a key or leaves it alone, then what is held under the key is what the last call that
wrote it has written.
-/

namespace Foundation

universe u v w x

variable {ι : Type u} {σ : Type v} {κ : Type w} {ν : Type x}

/-- The value was written to the key, and nothing has been written to it since. -/
def LastWrite (Writes : ι → κ → ν → Prop) (calls : List ι) (key : κ) (value : ν) : Prop :=
  ∃ before call later, calls = before ++ call :: later ∧ Writes call key value ∧
    ∀ other ∈ later, ∀ value', ¬ Writes other key value'

/-- What each call does to what is held under a key. -/
structure Register (step : σ → ι → σ) (held : σ → κ → Option ν) (Writes : ι → κ → ν → Prop) : Prop where
  writes : ∀ {call key value} s, Writes call key value → held (step s call) key = some value
  keeps : ∀ {call key} s, (∀ value, ¬ Writes call key value) → held (step s call) key = held s key

namespace LastWrite

variable {Writes : ι → κ → ν → Prop} {calls : List ι} {call : ι} {key : κ} {value : ν}

theorem not_nil : ¬ LastWrite Writes [] key value := by
  rintro ⟨before, call, later, hCalls, _⟩
  exact absurd hCalls (by simp)

theorem snoc_iff : LastWrite Writes (calls ++ [call]) key value ↔
    Writes call key value ∨ (∀ value', ¬ Writes call key value') ∧ LastWrite Writes calls key value := by
  constructor
  · rintro ⟨before, writer, later, hCalls, hWrites, hLater⟩
    rcases List.eq_nil_or_concat later with rfl | ⟨rest, last, rfl⟩
    · obtain ⟨_, hHere⟩ := List.append_inj' hCalls rfl
      obtain rfl : call = writer := List.head_eq_of_cons_eq hHere
      exact .inl hWrites
    · rw [List.concat_eq_append, ← List.cons_append, ← List.append_assoc] at hCalls
      obtain ⟨hFront, hHere⟩ := List.append_inj' hCalls rfl
      obtain rfl : call = last := List.head_eq_of_cons_eq hHere
      exact .inr ⟨hLater call (by simp), before, writer, rest, hFront, hWrites, fun other hMem =>
        hLater other (by simp [hMem])⟩
  · rintro (hWrites | ⟨hKeeps, before, writer, later, rfl, hWrites, hLater⟩)
    · exact ⟨calls, call, [], rfl, hWrites, fun _ hMem => absurd hMem List.not_mem_nil⟩
    · refine ⟨before, writer, later ++ [call], by simp, hWrites, fun other hMem => ?_⟩
      rcases List.mem_append.mp hMem with hOld | hLast
      · exact hLater other hOld
      · obtain rfl := List.mem_singleton.mp hLast
        exact hKeeps

end LastWrite

/-- Where nothing was held at first, the last write is what is held. -/
theorem Register.held_iff {step : σ → ι → σ} {held : σ → κ → Option ν} {Writes : ι → κ → ν → Prop}
    (h : Register step held Writes) {s : σ} {key : κ} (hStart : held s key = none) (calls : List ι)
    {value : ν} : held (calls.foldl step s) key = some value ↔ LastWrite Writes calls key value := by
  induction calls using List.reverseRecOn with
  | nil =>
    rw [List.foldl_nil, hStart]
    exact iff_of_false (fun hSome => by cases hSome) LastWrite.not_nil
  | append_singleton calls call ih =>
    rw [List.foldl_append, List.foldl_cons, List.foldl_nil, LastWrite.snoc_iff]
    by_cases hWriter : ∃ written, Writes call key written
    · obtain ⟨written, hWrites⟩ := hWriter
      rw [h.writes _ hWrites]
      constructor
      · intro hSame
        cases hSame
        exact .inl hWrites
      · rintro (hOther | ⟨hKeeps, _⟩)
        · exact (h.writes s hWrites).symm.trans (h.writes s hOther)
        · exact absurd hWrites (hKeeps written)
    · have hKeeps : ∀ written, ¬ Writes call key written := fun written hWrites =>
        hWriter ⟨written, hWrites⟩
      rw [h.keeps _ hKeeps, ih]
      exact ⟨fun hLast => .inr ⟨hKeeps, hLast⟩, fun hNow => hNow.elim (absurd · (hKeeps value)) (·.2)⟩

end Foundation
