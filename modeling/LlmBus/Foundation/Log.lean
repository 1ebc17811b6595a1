import Mathlib.Data.List.Basic

/-! # Append-only logs

What several parties did, in order, each entry under the number of the one who did it.
-/

namespace Foundation

abbrev Log (α : Type) := List (Nat × α)

namespace Log

variable {α : Type} {log : Log α} {t u : Nat} {a : α}

def own (t : Nat) (log : Log α) : List α :=
  (log.filter fun entry => entry.1 == t).map (·.2)

def count (p : α → Bool) (log : Log α) : Nat :=
  log.countP fun entry => p entry.2

/-- Each entry stands in the relation to what came before it. -/
def EachAfter (Q : Log α → Nat → α → Prop) (log : Log α) : Prop :=
  ∀ pre t a post, log = pre ++ (t, a) :: post → Q pre t a

theorem own_snoc_self : own t (log ++ [(t, a)]) = own t log ++ [a] := by
  simp [own]

theorem own_snoc_of_ne (h : u ≠ t) : own u (log ++ [(t, a)]) = own u log := by
  have hNe : ¬ t = u := fun hEq => h hEq.symm
  simp [own, hNe]

theorem mem_own_iff : a ∈ own t log ↔ (t, a) ∈ log := by
  simp [own]

theorem count_snoc (p : α → Bool) : count p (log ++ [(t, a)]) = count p log + if p a then 1 else 0 := by
  simp [count, List.countP_append, List.countP_cons]

theorem count_snoc_of_false {p : α → Bool} (h : p a = false) :
    count p (log ++ [(t, a)]) = count p log := by
  rw [count_snoc, h]
  rfl

theorem count_snoc_of_true {p : α → Bool} (h : p a = true) :
    count p (log ++ [(t, a)]) = count p log + 1 := by
  rw [count_snoc, h]
  rfl

theorem count_eq_zero_iff {p : α → Bool} : count p log = 0 ↔ ∀ t a, (t, a) ∈ log → p a = false := by
  simp only [count, List.countP_eq_zero, Prod.forall, Bool.not_eq_true]

/-- What happened at most once was done by one party. -/
theorem party_eq_of_count_le_one {p : α → Bool} (h : count p log ≤ 1) {b : α} (hA : (t, a) ∈ log)
    (hB : (u, b) ∈ log) (hpA : p a = true) (hpB : p b = true) : t = u := by
  have hLength : (log.filter fun entry => p entry.2).length ≤ 1 := by
    rw [← List.countP_eq_length_filter]
    exact h
  have hMemA : (t, a) ∈ log.filter fun entry => p entry.2 := List.mem_filter.mpr ⟨hA, hpA⟩
  have hMemB : (u, b) ∈ log.filter fun entry => p entry.2 := List.mem_filter.mpr ⟨hB, hpB⟩
  match hFilter : log.filter fun entry => p entry.2 with
  | [] =>
    rw [hFilter] at hMemA
    cases hMemA
  | [entry] =>
    rw [hFilter, List.mem_singleton] at hMemA hMemB
    exact congrArg Prod.fst (hMemA.trans hMemB.symm)
  | first :: second :: rest =>
    rw [hFilter] at hLength
    simp only [List.length_cons] at hLength
    omega

theorem eachAfter_nil {Q : Log α → Nat → α → Prop} : EachAfter Q [] := by
  intro pre t a post h
  simp at h

theorem eachAfter_snoc {Q : Log α → Nat → α → Prop} (h : EachAfter Q log) (hLast : Q log t a) :
    EachAfter Q (log ++ [(t, a)]) := by
  intro pre u b post hSplit
  rcases List.eq_nil_or_concat post with rfl | ⟨before, last, rfl⟩
  · obtain ⟨rfl, hEq⟩ := List.append_inj' hSplit rfl
    cases hEq
    exact hLast
  · have hSame : log ++ [(t, a)] = (pre ++ (u, b) :: before) ++ [last] := by
      rw [hSplit]
      simp
    obtain ⟨hLog, _⟩ := List.append_inj' hSame rfl
    exact h pre u b before hLog

end Log

end Foundation
