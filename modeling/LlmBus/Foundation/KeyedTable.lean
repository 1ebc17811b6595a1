import Mathlib.Data.List.Basic
import Mathlib.Data.List.Nodup

/-! # Tables with a primary key

The rows stand in insertion order and no two share a key; the structure carries that
fact, so no statement below can build a table that violates it.
-/

namespace Foundation

variable {κ ρ : Type}

structure KeyedTable (key : ρ → κ) where
  rows : List ρ
  distinct : (rows.map key).Nodup

namespace KeyedTable

variable [DecidableEq κ] {key : ρ → κ}

def empty : KeyedTable key :=
  ⟨[], List.nodup_nil⟩

def find (t : KeyedTable key) (k : κ) : Option ρ :=
  t.rows.find? fun r => decide (key r = k)

theorem key_of_find {t : KeyedTable key} {k : κ} {r : ρ} (h : t.find k = some r) : key r = k := by
  simpa using List.find?_some h

theorem mem_of_find {t : KeyedTable key} {k : κ} {r : ρ} (h : t.find k = some r) : r ∈ t.rows :=
  List.mem_of_find?_eq_some h

theorem find_eq_none_iff {t : KeyedTable key} {k : κ} :
    t.find k = none ↔ k ∉ t.rows.map key := by
  simp [find, List.find?_eq_none]

@[simp] theorem find_empty (k : κ) : (empty : KeyedTable key).find k = none := rfl

theorem find?_of_nodup {rows : List ρ} (hRows : (rows.map key).Nodup) {r : ρ} (h : r ∈ rows) :
    rows.find? (fun s => decide (key s = key r)) = some r := by
  induction rows with
  | nil => cases h
  | cons s rest ih =>
    simp only [List.map_cons, List.nodup_cons] at hRows
    rcases List.mem_cons.mp h with rfl | hMem
    · simp
    · have hNe : key s ≠ key r := by
        intro hEq
        exact hRows.1 (hEq ▸ List.mem_map_of_mem hMem)
      rw [List.find?_cons_of_neg (by simpa using hNe)]
      exact ih hRows.2 hMem

def append (t : KeyedTable key) (r : ρ) (h : t.find (key r) = none) : KeyedTable key :=
  ⟨t.rows ++ [r], by
    rw [List.map_append, List.nodup_append]
    refine ⟨t.distinct, by simp, ?_⟩
    rintro k hk k' hk' rfl
    have hEq : k = key r := by simpa using hk'
    exact find_eq_none_iff.mp h (hEq ▸ hk)⟩

/-- `INSERT … ON CONFLICT(key) DO NOTHING`. -/
def insertNew (t : KeyedTable key) (r : ρ) : KeyedTable key :=
  if h : t.find (key r) = none then t.append r h else t

/-- `UPDATE … WHERE key = k`, by a change that keeps the key. -/
def update (t : KeyedTable key) (k : κ) (f : ρ → ρ) (hf : ∀ r, key (f r) = key r) :
    KeyedTable key :=
  ⟨t.rows.map fun r => if key r = k then f r else r, by
    have hKeys : (t.rows.map fun r => if key r = k then f r else r).map key = t.rows.map key := by
      rw [List.map_map]
      apply List.map_congr_left
      intro r _
      by_cases hr : key r = k
      · simp [hr, hf]
      · simp [hr]
    rw [hKeys]
    exact t.distinct⟩

/-- `INSERT … ON CONFLICT(key) DO UPDATE`: `merge old new` is the row kept. -/
def upsert (t : KeyedTable key) (r : ρ) (merge : ρ → ρ → ρ)
    (hMerge : ∀ old new, key (merge old new) = key old) : KeyedTable key :=
  if h : t.find (key r) = none then t.append r h
  else t.update (key r) (fun old => merge old r) fun old => hMerge old r

theorem find_append {t : KeyedTable key} {r : ρ} (h : t.find (key r) = none) (k : κ) :
    (t.append r h).find k = if k = key r then some r else t.find k := by
  simp only [find, append, List.find?_append]
  by_cases hk : k = key r
  · subst hk
    have hNone : t.rows.find? (fun s => decide (key s = key r)) = none := h
    simp [hNone]
  · have hNe : ¬ key r = k := fun hEq => hk hEq.symm
    simp [hk, hNe]

@[simp] theorem find_append_self {t : KeyedTable key} {r : ρ} (h : t.find (key r) = none) :
    (t.append r h).find (key r) = some r := by
  rw [find_append, if_pos rfl]

theorem find_insertNew_of_ne {t : KeyedTable key} {r : ρ} {k : κ} (hk : k ≠ key r) :
    (t.insertNew r).find k = t.find k := by
  unfold insertNew
  split
  · rw [find_append, if_neg hk]
  · rfl

theorem insertNew_of_none {t : KeyedTable key} {r : ρ} (h : t.find (key r) = none) :
    t.insertNew r = t.append r h := by
  unfold insertNew
  rw [dif_pos h]

theorem find_insertNew_self {t : KeyedTable key} {r : ρ} (h : t.find (key r) = none) :
    (t.insertNew r).find (key r) = some r := by
  rw [insertNew_of_none h]
  exact find_append_self h

theorem find?_map_update {rows : List ρ} {k k' : κ} {f : ρ → ρ} (hf : ∀ r, key (f r) = key r) :
    (rows.map fun r => if key r = k then f r else r).find? (fun r => decide (key r = k')) =
      (rows.find? fun r => decide (key r = k')).map fun r => if key r = k then f r else r := by
  induction rows with
  | nil => rfl
  | cons s rest ih =>
    have hKey : key (if key s = k then f s else s) = key s := by
      split
      · exact hf s
      · rfl
    rw [List.map_cons]
    by_cases hs : key s = k'
    · rw [List.find?_cons_of_pos (by simpa [hKey] using hs), List.find?_cons_of_pos (by simpa using hs)]
      rfl
    · rw [List.find?_cons_of_neg (by simpa [hKey] using hs), List.find?_cons_of_neg (by simpa using hs)]
      exact ih

theorem find_update_self {t : KeyedTable key} {k : κ} {f : ρ → ρ} (hf : ∀ r, key (f r) = key r) :
    (t.update k f hf).find k = (t.find k).map f := by
  refine (find?_map_update hf).trans ?_
  cases h : t.find k with
  | none => rw [show t.rows.find? (fun r => decide (key r = k)) = none from h]; rfl
  | some r =>
    rw [show t.rows.find? (fun r => decide (key r = k)) = some r from h]
    simp [key_of_find h]

theorem find_update_of_ne {t : KeyedTable key} {k k' : κ} {f : ρ → ρ}
    (hf : ∀ r, key (f r) = key r) (hk : k' ≠ k) : (t.update k f hf).find k' = t.find k' := by
  refine (find?_map_update hf).trans ?_
  cases h : t.find k' with
  | none => rw [show t.rows.find? (fun r => decide (key r = k')) = none from h]; rfl
  | some r =>
    rw [show t.rows.find? (fun r => decide (key r = k')) = some r from h]
    have hNe : key r ≠ k := (key_of_find h).symm ▸ hk
    simp [hNe]

/-- What is found after an insertion was there before, or is the row inserted. -/
theorem mem_insertNew {t : KeyedTable key} {r x : ρ} {k : κ} (h : (t.insertNew r).find k = some x) :
    t.find k = some x ∨ x = r := by
  by_cases hFree : t.find (key r) = none
  · by_cases hk : k = key r
    · subst hk
      rw [find_insertNew_self hFree] at h
      exact .inr (Option.some.inj h).symm
    · rw [find_insertNew_of_ne hk] at h
      exact .inl h
  · rw [insertNew, dif_neg hFree] at h
    exact .inl h

/-- What is found after an update was there before, changed or not. -/
theorem mem_update {t : KeyedTable key} {k k' : κ} {f : ρ → ρ} (hf : ∀ r, key (f r) = key r) {x : ρ}
    (h : (t.update k f hf).find k' = some x) : ∃ y, t.find k' = some y ∧ (x = y ∨ x = f y) := by
  by_cases hk : k' = k
  · subst hk
    rw [find_update_self] at h
    obtain ⟨y, hy, rfl⟩ := Option.map_eq_some_iff.mp h
    exact ⟨y, hy, .inr rfl⟩
  · rw [find_update_of_ne hf hk] at h
    exact ⟨x, h, .inl rfl⟩

theorem find_upsert_self {t : KeyedTable key} {r : ρ} {merge : ρ → ρ → ρ}
    (hMerge : ∀ old new, key (merge old new) = key old) :
    (t.upsert r merge hMerge).find (key r) =
      some (match t.find (key r) with
        | none => r
        | some old => merge old r) := by
  unfold upsert
  split
  · rename_i h
    rw [find_append_self, h]
  · rename_i h
    rw [find_update_self]
    obtain ⟨old, hOld⟩ := Option.ne_none_iff_exists'.mp h
    rw [hOld]
    rfl

theorem find_upsert_of_ne {t : KeyedTable key} {r : ρ} {merge : ρ → ρ → ρ}
    (hMerge : ∀ old new, key (merge old new) = key old) {k : κ} (hk : k ≠ key r) :
    (t.upsert r merge hMerge).find k = t.find k := by
  unfold upsert
  split
  · rw [find_append, if_neg hk]
  · exact find_update_of_ne _ hk

/-! ### Counting rows -/

def count (t : KeyedTable key) (p : ρ → Bool) : Nat :=
  t.rows.countP p

theorem count_key {t : KeyedTable key} {k : κ} {r : ρ} (h : t.find k = some r) :
    t.count (fun s => key s = k) = 1 := by
  have hCount : t.count (fun s => key s = k) = (t.rows.map key).count k := by
    rw [count, List.count_eq_countP, List.countP_map]
    exact List.countP_congr fun s _ => by simp
  rw [hCount, ← key_of_find h]
  exact List.count_eq_one_of_mem t.distinct (List.mem_map_of_mem (mem_of_find h))

theorem count_append {t : KeyedTable key} {r : ρ} (h : t.find (key r) = none) (p : ρ → Bool) :
    (t.append r h).count p = t.count p + if p r then 1 else 0 := by
  simp [count, append, List.countP_append, List.countP_cons]

theorem countP_map_update {rows : List ρ} (hRows : (rows.map key).Nodup) {r : ρ} (hr : r ∈ rows)
    {f : ρ → ρ} (p : ρ → Bool) :
    (rows.map fun s => if key s = key r then f s else s).countP p + (if p r then 1 else 0) =
      rows.countP p + if p (f r) then 1 else 0 := by
  induction rows with
  | nil => cases hr
  | cons s rest ih =>
    simp only [List.map_cons, List.nodup_cons] at hRows
    simp only [List.map_cons, List.countP_cons]
    rcases List.mem_cons.mp hr with rfl | hMem
    · have hRest : (rest.map fun s => if key s = key r then f s else s) = rest := by
        refine (List.map_congr_left fun s hs => ?_).trans (List.map_id rest)
        have hNe : ¬ key s = key r := fun hEq => hRows.1 (hEq ▸ List.mem_map_of_mem hs)
        rw [if_neg hNe]
        rfl
      rw [hRest, if_pos rfl]
      omega
    · have hNe : ¬ key s = key r := fun hEq => hRows.1 (hEq ▸ List.mem_map_of_mem hMem)
      rw [if_neg hNe]
      have h := ih hRows.2 hMem
      omega

theorem count_update {t : KeyedTable key} {k : κ} {r : ρ} (h : t.find k = some r) {f : ρ → ρ}
    (hf : ∀ s, key (f s) = key s) (p : ρ → Bool) :
    (t.update k f hf).count p + (if p r then 1 else 0) =
      t.count p + if p (f r) then 1 else 0 := by
  obtain rfl := key_of_find h
  exact countP_map_update t.distinct (mem_of_find h) p

/-! ### The same table with its rows written differently -/

section Image

variable {σ : Type} {key' : σ → κ} {f : ρ → σ}

omit [DecidableEq κ] in
theorem map_key_map (hf : ∀ r, key' (f r) = key r) (rows : List ρ) :
    (rows.map f).map key' = rows.map key := by
  rw [List.map_map]
  exact List.map_congr_left fun r _ => hf r

omit [DecidableEq κ] in
theorem nodup_image (hf : ∀ r, key' (f r) = key r) (t : KeyedTable key) :
    ((t.rows.map f).map key').Nodup := by
  rw [map_key_map hf]
  exact t.distinct

def image (hf : ∀ r, key' (f r) = key r) (t : KeyedTable key) : KeyedTable key' :=
  ⟨t.rows.map f, nodup_image hf t⟩

theorem find_image (hf : ∀ r, key' (f r) = key r) (t : KeyedTable key) (k : κ) :
    (t.image hf).find k = (t.find k).map f := by
  simp only [find, image, List.find?_map, Function.comp_def, hf]

theorem image_insertNew (hf : ∀ r, key' (f r) = key r) (t : KeyedTable key) (r : ρ) :
    (t.insertNew r).image hf = (t.image hf).insertNew (f r) := by
  unfold insertNew
  by_cases hFree : t.find (key r) = none
  · have hFree' : (t.image hf).find (key' (f r)) = none := by
      rw [find_image, hf, hFree]
      rfl
    rw [dif_pos hFree, dif_pos hFree']
    simp only [image, append, List.map_append, List.map_cons, List.map_nil]
  · have hTaken : ¬ (t.image hf).find (key' (f r)) = none := by
      rw [find_image, hf, Option.map_eq_none_iff]
      exact hFree
    rw [dif_neg hFree, dif_neg hTaken]

theorem image_update (hf : ∀ r, key' (f r) = key r) (t : KeyedTable key) (k : κ) {g : ρ → ρ}
    {g' : σ → σ} (hg : ∀ r, key (g r) = key r) (hg' : ∀ r, key' (g' r) = key' r) (hSame : ∀ r, f (g r) = g' (f r)) :
    (t.update k g hg).image hf = (t.image hf).update k g' hg' := by
  simp only [image, update, List.map_map, mk.injEq]
  apply List.map_congr_left
  intro r _
  simp only [Function.comp_apply, hf]
  split
  · exact hSame r
  · rfl

end Image

end KeyedTable

end Foundation
