import Mathlib.Order.Lattice
import Mathlib.Data.List.Nodup
import Mathlib.Data.List.Basic

/-! # Dated entries

Each entry of a list takes effect at its key and stays in force until the next key. The
order of the list plays no part. With distinct keys at most one entry is in force, and an
entry that is added changes what is in force on its own span and nowhere else.
-/

namespace Foundation

universe u v

variable {α : Type u} {κ : Type v} [LinearOrder κ] {key : α → κ}

/-- The entry with the latest key that is not after `date`. -/
structure InForce (key : α → κ) (entries : List α) (date : κ) (entry : α) : Prop where
  mem : entry ∈ entries
  begun : key entry ≤ date
  latest : ∀ other ∈ entries, key other ≤ date → key other ≤ key entry

/-- From the key of `entry`, inclusive, to the next later key, exclusive. -/
def InSpan (key : α → κ) (entries : List α) (entry : α) (date : κ) : Prop :=
  key entry ≤ date ∧ ∀ other ∈ entries, key entry < key other → date < key other

instance (entries : List α) (entry : α) (date : κ) : Decidable (InSpan key entries entry date) :=
  inferInstanceAs (Decidable (_ ∧ ∀ other ∈ entries, _))

namespace InForce

variable {entries before after : List α} {entry other added : α} {date : κ}

theorem key_eq (h : InForce key entries date entry) (hOther : InForce key entries date other) :
    key entry = key other :=
  le_antisymm (hOther.latest entry h.mem h.begun) (h.latest other hOther.mem hOther.begun)

/-- Distinct keys leave no choice. -/
theorem eq (h : InForce key entries date entry) (hOther : InForce key entries date other)
    (hDistinct : (entries.map key).Nodup) : entry = other :=
  List.inj_on_of_nodup_map hDistinct h.mem hOther.mem (h.key_eq hOther)

theorem iff_inSpan :
    InForce key entries date entry ↔ entry ∈ entries ∧ InSpan key entries entry date := by
  constructor
  · intro h
    refine ⟨h.mem, h.begun, fun other hMem hLater => ?_⟩
    exact not_le.mp fun hBegun => absurd (h.latest other hMem hBegun) (not_le.mpr hLater)
  · rintro ⟨hMem, hBegun, hNext⟩
    refine ⟨hMem, hBegun, fun other hOther hLe => ?_⟩
    exact not_lt.mp fun hLater => absurd hLe (not_le.mpr (hNext other hOther hLater))

theorem insert_of_inSpan (h : InSpan key (before ++ after) added date) :
    InForce key (before ++ added :: after) date added := by
  rw [iff_inSpan]
  refine ⟨by simp, h.1, fun other hMem hLater => ?_⟩
  rcases List.mem_cons.mp (List.perm_middle.mem_iff.mp hMem) with rfl | hOld
  · exact absurd hLater (lt_irrefl _)
  · exact h.2 other hOld hLater

theorem insert_of_not_inSpan
    (hOff : ¬ InSpan key (before ++ after) added date) :
    InForce key (before ++ added :: after) date entry ↔
      InForce key (before ++ after) date entry := by
  have hMem : ∀ e, e ∈ before ++ added :: after ↔ e = added ∨ e ∈ before ++ after := fun e =>
    List.perm_middle.mem_iff.trans List.mem_cons
  constructor
  · intro h
    rcases (hMem entry).mp h.mem with rfl | hOld
    · refine absurd ⟨h.begun, fun other hOther hLater => ?_⟩ hOff
      exact (iff_inSpan.mp h).2.2 other ((hMem other).mpr (.inr hOther)) hLater
    · exact ⟨hOld, h.begun, fun other hOther => h.latest other ((hMem other).mpr (.inr hOther))⟩
  · intro h
    refine ⟨(hMem entry).mpr (.inr h.mem), h.begun, fun other hOther hBegun => ?_⟩
    rcases (hMem other).mp hOther with rfl | hOld
    · -- The added entry has begun, so a later one has begun as well, and that one decides.
      unfold InSpan at hOff
      push Not at hOff
      obtain ⟨later, hLaterMem, hLater, hLe⟩ := hOff hBegun
      exact hLater.le.trans (h.latest later hLaterMem hLe)
    · exact h.latest other hOld hBegun

end InForce

end Foundation
