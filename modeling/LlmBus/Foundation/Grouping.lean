import Mathlib.Algebra.BigOperators.Group.List.Basic
import Mathlib.Data.List.Perm.Basic
import Mathlib.Data.List.Sort
import Mathlib.Order.RelIso.Basic

/-! # Sums by key and sorting by key

Rows are grouped under a key and the amounts of each group added up, in a dictionary
that keeps the order of first appearance. The sums depend on the rows as a multiset only,
and so does a list that is then sorted under keys no two of its entries share.
-/

namespace Foundation.Grouping

variable {κ α 𝕜 : Type}

/-! ### Sorting -/

section Sorting

variable [LinearOrder κ] {key : α → κ} {items items' : List α}

def sortOn (key : α → κ) (items : List α) : List α :=
  items.insertionSort (Order.Preimage key (· ≤ ·))

theorem sortOn_perm (key : α → κ) (items : List α) : (sortOn key items).Perm items :=
  List.perm_insertionSort _ items

theorem mem_sortOn {a : α} : a ∈ sortOn key items ↔ a ∈ items :=
  (sortOn_perm key items).mem_iff

theorem pairwise_sortOn (key : α → κ) (items : List α) :
    (sortOn key items).Pairwise fun a b => key a ≤ key b := by
  have : Std.Total (Order.Preimage key (· ≤ ·)) := ⟨fun a b => le_total (key a) (key b)⟩
  have : IsTrans α (Order.Preimage key (· ≤ ·)) := ⟨fun a b c hab hbc => le_trans (α := κ) hab hbc⟩
  exact List.pairwise_insertionSort _ items

theorem strict_sortOn (h : (items.map key).Nodup) :
    (sortOn key items).Pairwise fun a b => key a < key b := by
  have hNodup : ((sortOn key items).map key).Nodup := ((sortOn_perm key items).map key).nodup_iff.mpr h
  have hApart := List.pairwise_map.mp hNodup
  exact (pairwise_sortOn key items).imp₂ (fun a b hLe hNe => lt_of_le_of_ne hLe hNe) hApart

/-- Sorting forgets in which order the entries came. -/
theorem sortOn_eq_of_perm (h : (items.map key).Nodup) (hPerm : items.Perm items') :
    sortOn key items = sortOn key items' := by
  have h' : (items'.map key).Nodup := (hPerm.map key).nodup_iff.mp h
  have hBoth : (sortOn key items).Perm (sortOn key items') :=
    (sortOn_perm key items).trans (hPerm.trans (sortOn_perm key items').symm)
  exact hBoth.eq_of_pairwise (fun a b _ _ hab hba => absurd hba (lt_asymm hab)) (strict_sortOn h)
    (strict_sortOn h')

end Sorting

/-! ### Grouping -/

section Sums

variable [DecidableEq κ] [AddCommMonoid 𝕜]

/-- What the rows of one key come to. -/
def totalOf (key : α → κ) (amount : α → 𝕜) (rows : List α) (k : κ) : 𝕜 :=
  ((rows.filter fun r => decide (key r = k)).map amount).sum

/-- An entry that is there is increased in its place, a new one is put last. -/
def addAt : List (κ × 𝕜) → κ → 𝕜 → List (κ × 𝕜)
  | [], k, a => [(k, 0 + a)]
  | (k', b) :: rest, k, a => if k' = k then (k', b + a) :: rest else (k', b) :: addAt rest k a

def sumBy (key : α → κ) (amount : α → 𝕜) (rows : List α) : List (κ × 𝕜) :=
  rows.foldl (fun totals r => addAt totals (key r) (amount r)) []

variable {key : α → κ} {amount : α → 𝕜} {rows rows' : List α} {totals : List (κ × 𝕜)} {k k' : κ} {a : 𝕜}

theorem totalOf_cons (r : α) (rows : List α) (k : κ) :
    totalOf key amount (r :: rows) k = (if key r = k then amount r else 0) + totalOf key amount rows k := by
  unfold totalOf
  by_cases h : key r = k
  · simp [h]
  · simp [h]

theorem totalOf_eq_zero (h : k ∉ rows.map key) : totalOf key amount rows k = 0 := by
  have hNone : (rows.filter fun r => decide (key r = k)) = [] := by
    refine List.filter_eq_nil_iff.mpr fun r hr hKey => h ?_
    rw [← of_decide_eq_true hKey]
    exact List.mem_map_of_mem hr
  rw [totalOf, hNone, List.map_nil, List.sum_nil]

theorem totalOf_perm (h : rows.Perm rows') : totalOf key amount rows k = totalOf key amount rows' k :=
  ((h.filter _).map amount).sum_eq

/-- A row whose key no other row has is all that its key comes to. -/
theorem totalOf_of_mem (h : (rows.map key).Nodup) {r : α} (hMem : r ∈ rows) :
    totalOf key amount rows (key r) = amount r := by
  induction rows with
  | nil => cases hMem
  | cons s rest ih =>
    rw [List.map_cons, List.nodup_cons] at h
    rw [totalOf_cons]
    rcases List.mem_cons.mp hMem with rfl | hRest
    · rw [if_pos rfl, totalOf_eq_zero h.1, add_zero]
    · have hNe : key s ≠ key r := fun hEq => h.1 (hEq ▸ List.mem_map_of_mem hRest)
      rw [if_neg hNe, zero_add, ih h.2 hRest]

/-- Grouping the rows of one group once more. -/
theorem totalOf_filter {κ' : Type} [DecidableEq κ'] (key' : α → κ') (k' : κ') :
    totalOf key amount (rows.filter fun r => decide (key' r = k')) k =
      totalOf (fun r => (key r, key' r)) amount rows (k, k') := by
  simp only [totalOf, List.filter_filter, Prod.mk.injEq, Bool.decide_and]

/-! One addition -/

theorem keys_addAt : (addAt totals k a).map Prod.fst =
    if k ∈ totals.map Prod.fst then totals.map Prod.fst else totals.map Prod.fst ++ [k] := by
  induction totals with
  | nil => rfl
  | cons e rest ih =>
    obtain ⟨k', b⟩ := e
    rw [addAt]
    by_cases hKey : k' = k
    · simp [hKey]
    · rw [if_neg hKey, List.map_cons, ih]
      have hNe : k ≠ k' := fun hEq => hKey hEq.symm
      simp only [List.map_cons, List.mem_cons, hNe, false_or, List.cons_append]
      split
      · rfl
      · rfl

theorem totalOf_addAt : totalOf Prod.fst Prod.snd (addAt totals k a) k' =
    totalOf Prod.fst Prod.snd totals k' + if k = k' then a else 0 := by
  induction totals with
  | nil =>
    rw [addAt, totalOf_cons]
    simp [totalOf]
  | cons e rest ih =>
    obtain ⟨k₁, b⟩ := e
    rw [addAt]
    by_cases hKey : k₁ = k
    · subst hKey
      rw [if_pos rfl, totalOf_cons, totalOf_cons]
      by_cases hSame : k₁ = k'
      · simp [hSame, add_right_comm]
      · simp [hSame]
    · rw [if_neg hKey, totalOf_cons, totalOf_cons, ih, add_assoc]

theorem sum_addAt : ((addAt totals k a).map Prod.snd).sum = (totals.map Prod.snd).sum + a := by
  induction totals with
  | nil => simp [addAt]
  | cons e rest ih =>
    obtain ⟨k', b⟩ := e
    rw [addAt]
    split
    · simp [add_right_comm]
    · rw [List.map_cons, List.sum_cons, ih, List.map_cons, List.sum_cons, add_assoc]

theorem nodup_addAt (h : (totals.map Prod.fst).Nodup) : ((addAt totals k a).map Prod.fst).Nodup := by
  rw [keys_addAt]
  split
  · exact h
  · rename_i hNew
    exact List.nodup_append.mpr ⟨h, List.nodup_singleton k, fun x hx y hy hEq =>
      hNew (List.mem_singleton.mp hy ▸ hEq ▸ hx)⟩

theorem mem_keys_addAt : k' ∈ (addAt totals k a).map Prod.fst ↔ k' ∈ totals.map Prod.fst ∨ k' = k := by
  rw [keys_addAt]
  split
  · rename_i hOld
    exact ⟨.inl, fun h => h.elim id fun hEq => hEq ▸ hOld⟩
  · rw [List.mem_append, List.mem_singleton]

/-! All of them -/

theorem nodup_foldl (h : (totals.map Prod.fst).Nodup) :
    ((rows.foldl (fun totals r => addAt totals (key r) (amount r)) totals).map Prod.fst).Nodup := by
  induction rows generalizing totals with
  | nil => exact h
  | cons r rest ih => exact ih (nodup_addAt h)

theorem mem_keys_foldl :
    k ∈ (rows.foldl (fun totals r => addAt totals (key r) (amount r)) totals).map Prod.fst ↔
      k ∈ totals.map Prod.fst ∨ k ∈ rows.map key := by
  induction rows generalizing totals with
  | nil => simp
  | cons r rest ih =>
    rw [List.foldl_cons, ih, mem_keys_addAt, List.map_cons, List.mem_cons, or_assoc]

theorem totalOf_foldl :
    totalOf Prod.fst Prod.snd (rows.foldl (fun totals r => addAt totals (key r) (amount r)) totals) k =
      totalOf Prod.fst Prod.snd totals k + totalOf key amount rows k := by
  induction rows generalizing totals with
  | nil => simp [totalOf]
  | cons r rest ih => rw [List.foldl_cons, ih, totalOf_addAt, totalOf_cons, add_assoc]

theorem sum_foldl :
    ((rows.foldl (fun totals r => addAt totals (key r) (amount r)) totals).map Prod.snd).sum =
      (totals.map Prod.snd).sum + (rows.map amount).sum := by
  induction rows generalizing totals with
  | nil => simp
  | cons r rest ih => rw [List.foldl_cons, ih, sum_addAt, List.map_cons, List.sum_cons, add_assoc]

theorem nodup_keys_sumBy (key : α → κ) (amount : α → 𝕜) (rows : List α) :
    ((sumBy key amount rows).map Prod.fst).Nodup :=
  nodup_foldl List.nodup_nil

theorem sum_sumBy (key : α → κ) (amount : α → 𝕜) (rows : List α) :
    ((sumBy key amount rows).map Prod.snd).sum = (rows.map amount).sum := by
  rw [sumBy, sum_foldl, List.map_nil, List.sum_nil, zero_add]

/-- The entries are the keys that occur, each with what its rows come to. -/
theorem mem_sumBy_iff : (k, a) ∈ sumBy key amount rows ↔
    k ∈ rows.map key ∧ a = totalOf key amount rows k := by
  have hKeys : k ∈ (sumBy key amount rows).map Prod.fst ↔ k ∈ rows.map key := by
    rw [sumBy, mem_keys_foldl]
    simp
  have hTotal : totalOf Prod.fst Prod.snd (sumBy key amount rows) k = totalOf key amount rows k := by
    rw [sumBy, totalOf_foldl]
    simp [totalOf]
  have hEntry : ∀ b, (k, b) ∈ sumBy key amount rows → b = totalOf key amount rows k := fun b hb =>
    (totalOf_of_mem (nodup_keys_sumBy key amount rows) hb).symm.trans hTotal
  constructor
  · intro h
    exact ⟨hKeys.mp (List.mem_map_of_mem (f := Prod.fst) h), hEntry a h⟩
  · rintro ⟨hKey, rfl⟩
    obtain ⟨⟨k', b⟩, hMem, rfl⟩ := List.mem_map.mp (hKeys.mpr hKey)
    rw [← hEntry b hMem]
    exact hMem

theorem sumBy_perm (h : rows.Perm rows') :
    (sumBy key amount rows).Perm (sumBy key amount rows') := by
  refine (List.perm_ext_iff_of_nodup (nodup_keys_sumBy key amount rows).of_map
    (nodup_keys_sumBy key amount rows').of_map).mpr ?_
  rintro ⟨k, a⟩
  rw [mem_sumBy_iff, mem_sumBy_iff, totalOf_perm h, (h.map key).mem_iff]

/-- Over any keys that cover the rows, the totals add up to the rows. -/
theorem sum_totalOf {keys : List κ} (hKeys : keys.Nodup) (hCover : ∀ r ∈ rows, key r ∈ keys) :
    (keys.map (totalOf key amount rows)).sum = (rows.map amount).sum := by
  induction rows with
  | nil =>
    have hZero : totalOf key amount [] = fun _ => (0 : 𝕜) := rfl
    simp [hZero]
  | cons r rest ih =>
    have hRest := ih fun s hs => hCover s (List.mem_cons_of_mem r hs)
    have hOne : (keys.map fun k => if key r = k then amount r else 0).sum = amount r := by
      rw [List.sum_map_eq_nsmul_single (key r) _ fun k hNe _ => if_neg hNe.symm, if_pos rfl,
        List.count_eq_one_of_mem hKeys (hCover r List.mem_cons_self), one_nsmul]
    have hSplit : (totalOf key amount (r :: rest)) =
        fun k => (if key r = k then amount r else 0) + totalOf key amount rest k :=
      funext (totalOf_cons r rest)
    rw [hSplit, List.sum_map_add, hOne, hRest, List.map_cons, List.sum_cons]

end Sums

end Foundation.Grouping
