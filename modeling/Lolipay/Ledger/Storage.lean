import Mathlib.Algebra.BigOperators.Group.List.Basic
import Mathlib.Algebra.BigOperators.Group.Finset.Piecewise
import Mathlib.Algebra.Order.BigOperators.Group.Finset
import Mathlib.Algebra.Order.Ring.Int
import Mathlib.Data.List.AList

namespace Lolipay.Ledger.Storage

variable {K V : Type} [DecidableEq K]

/-- Contract storage under one kind of key: at most one value for each key. -/
abbrev Store (K V : Type) := AList (fun _ : K => V)

def total (f : V → ℤ) (s : Store K V) : ℤ := (s.entries.map (fun e => f e.2)).sum

def measureAt (f : V → ℤ) (s : Store K V) (k : K) : ℤ := ((s.lookup k).map f).getD 0

omit [DecidableEq K] in
@[simp] theorem total_empty (f : V → ℤ) : total f (∅ : Store K V) = 0 := rfl

theorem sum_kerase (f : V → ℤ) (k : K) (l : List (Sigma fun _ : K => V)) :
    ((l.kerase k).map (fun e => f e.2)).sum =
      (l.map (fun e => f e.2)).sum - ((l.dlookup k).map f).getD 0 := by
  induction l with
  | nil => simp
  | cons e l ih =>
    obtain ⟨k', v⟩ := e
    by_cases h : k = k'
    · subst h
      simp
    · rw [List.kerase_cons_ne h, List.dlookup_cons_ne _ _ h]
      simp only [List.map_cons, List.sum_cons, ih]
      omega

theorem total_insert (f : V → ℤ) (s : Store K V) (k : K) (v : V) :
    total f (s.insert k v) = total f s - measureAt f s k + f v := by
  have h := sum_kerase f k s.entries
  simp only [total, measureAt, AList.entries_insert, List.map_cons, List.sum_cons, h, AList.lookup]
  omega

theorem measureAt_of_lookup {f : V → ℤ} {s : Store K V} {k : K} {v : V} (h : s.lookup k = some v) :
    measureAt f s k = f v := by simp [measureAt, h]

theorem measureAt_of_none {f : V → ℤ} {s : Store K V} {k : K} (h : s.lookup k = none) :
    measureAt f s k = 0 := by simp [measureAt, h]

theorem total_erase {f : V → ℤ} {s : Store K V} {k : K} {v : V} (h : s.lookup k = some v) :
    total f s = total f (s.erase k) + f v := by
  have hsum := sum_kerase f k s.entries
  have hv : ((s.entries.dlookup k).map f).getD 0 = f v := measureAt_of_lookup h
  change (s.entries.map fun e => f e.2).sum = ((s.entries.kerase k).map fun e => f e.2).sum + f v
  omega

/-- A custodian who books a change of one value stays solvent when his balance
moves by at least as much as what he owes on it. -/
theorem total_insert_le {f : V → ℤ} {s : Store K V} {k : K} {v : V} {b b' : ℤ}
    (h : total f s ≤ b) (hle : f v - measureAt f s k ≤ b' - b) : total f (s.insert k v) ≤ b' := by
  rw [total_insert]
  omega

theorem measureAt_insert {f : V → ℤ} {s : Store K V} {k : K} {v : V} (hk : k ∉ s) (j : K) :
    measureAt f (s.insert k v) j = measureAt f s j + if j = k then f v else 0 := by
  by_cases h : j = k
  · subst h
    simp [measureAt, AList.lookup_eq_none.mpr hk]
  · simp [measureAt, AList.lookup_insert_ne h, h]

theorem total_eq_sum (f : V → ℤ) (s : Store K V) {keys : Finset K} (h : ∀ k ∈ s, k ∈ keys) :
    total f s = ∑ k ∈ keys, measureAt f s k := by
  induction s using AList.insertRec with
  | H0 => simp [measureAt]
  | IH k v s hk ih =>
    have hkeys : k ∈ keys := h k (by simp)
    have hrest : total f s = ∑ j ∈ keys, measureAt f s j :=
      ih fun j hj => h j (by simp [hj])
    simp only [measureAt_insert hk, Finset.sum_add_distrib, Finset.sum_ite_eq', if_pos hkeys]
    rw [total_insert, measureAt_of_none (AList.lookup_eq_none.mpr hk), hrest]
    omega

theorem total_le {f g : V → ℤ} {s s' : Store K V}
    (h : ∀ k, measureAt f s' k ≤ measureAt g s k) : total f s' ≤ total g s := by
  rw [total_eq_sum f s' fun k hk =>
      Finset.mem_union_right s.keys.toFinset (List.mem_toFinset.mpr hk),
    total_eq_sum g s fun k hk =>
      Finset.mem_union_left s'.keys.toFinset (List.mem_toFinset.mpr hk)]
  exact Finset.sum_le_sum fun k _ => h k

theorem total_nonneg {f : V → ℤ} {s : Store K V} (h : ∀ k, 0 ≤ measureAt f s k) : 0 ≤ total f s := by
  have hle : total f (∅ : Store K V) ≤ total f s := total_le fun k => h k
  exact hle

theorem measureAt_le_total {f : V → ℤ} {s : Store K V} (h : ∀ k, 0 ≤ measureAt f s k) (k : K) :
    measureAt f s k ≤ total f s := by
  cases hv : s.lookup k with
  | none =>
    rw [measureAt_of_none hv]
    exact total_nonneg h
  | some v =>
    have hrest : 0 ≤ total f (s.erase k) := by
      apply total_nonneg
      intro j
      by_cases hj : j = k
      · subst hj
        rw [measureAt_of_none (AList.lookup_erase _ _)]
      · rw [measureAt, AList.lookup_erase_ne hj]
        exact h j
    rw [measureAt_of_lookup hv, total_erase hv]
    omega

theorem lookup_erases (ks : List K) (s : Store K V) (k : K) :
    (ks.foldl (fun s k => s.erase k) s).lookup k = if k ∈ ks then none else s.lookup k := by
  induction ks generalizing s with
  | nil => simp
  | cons first rest ih =>
    rw [List.foldl_cons, ih]
    by_cases h : k = first
    · subst h
      simp
    · simp [h, AList.lookup_erase_ne h]

end Lolipay.Ledger.Storage
