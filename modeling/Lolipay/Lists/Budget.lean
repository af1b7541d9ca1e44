import Mathlib.Algebra.GroupWithZero.Nat
import Mathlib.Algebra.Order.Group.Nat
import Mathlib.Data.List.Basic

namespace Lolipay.Lists.Budget

variable {α β : Type*}

def markedFirst (p : α → Bool) (a b : α) : Bool := p a || !p b

theorem markedFirst_trans (p : α → Bool) (a b c : α)
    (hab : markedFirst p a b = true) (hbc : markedFirst p b c = true) :
    markedFirst p a c = true := by
  simp only [markedFirst, Bool.or_eq_true, Bool.not_eq_true'] at hab hbc ⊢
  grind

theorem markedFirst_total (p : α → Bool) (a b : α) :
    (markedFirst p a b || markedFirst p b a) = true := by
  simp only [markedFirst]
  cases p a <;> cases p b <;> rfl

theorem filter_mergeSort_markedFirst {p q : α → Bool}
    (hq : ∀ a b, q a = true → q b = true → markedFirst p a b = true) (l : List α) :
    (l.mergeSort (markedFirst p)).filter q = l.filter q := by
  have hsub : (l.filter q).Sublist (l.mergeSort (markedFirst p)) := by
    apply List.sublist_mergeSort (markedFirst_trans p) (markedFirst_total p) _ List.filter_sublist
    apply List.pairwise_of_forall_mem_list
    intro a ha b hb
    exact hq a b (List.of_mem_filter ha) (List.of_mem_filter hb)
  have hsub' := hsub.filter q
  simp only [List.filter_filter, Bool.and_self] at hsub'
  exact (hsub'.eq_of_length ((List.mergeSort_perm l _).filter q).length_eq.symm).symm

/-- A stable sort by one mark puts the marked elements in front of the others and
keeps the order among either. -/
theorem mergeSort_markedFirst (p : α → Bool) (l : List α) :
    l.mergeSort (markedFirst p) = l.filter p ++ l.filter (fun a => !p a) := by
  have hsorted := List.pairwise_mergeSort (markedFirst_trans p) (markedFirst_total p) l
  have hmarked : (l.mergeSort (markedFirst p)).filter p = l.filter p := by
    apply filter_mergeSort_markedFirst
    intro a b ha _
    simp [markedFirst, ha]
  have hothers : (l.mergeSort (markedFirst p)).filter (fun a => !p a) =
      l.filter (fun a => !p a) := by
    apply filter_mergeSort_markedFirst
    intro a b _ hb
    simp only [markedFirst, hb, Bool.or_true]
  rw [← hmarked, ← hothers]
  generalize l.mergeSort (markedFirst p) = s at hsorted
  induction s with
  | nil => rfl
  | cons a s ih =>
    rw [List.pairwise_cons] at hsorted
    cases ha : p a with
    | true => simpa [ha] using ih hsorted.2
    | false =>
      have hnone : s.filter p = [] := by
        rw [List.filter_eq_nil_iff]
        intro b hb hpb
        simpa [markedFirst, ha, hpb] using hsorted.1 b hb
      have hall : s.filter (fun a => !p a) = s := by
        rw [List.filter_eq_self]
        intro b hb
        simpa [markedFirst, ha] using hsorted.1 b hb
      simp [ha, hnone, hall]

variable (cost : α → ℕ)

/-- The longest beginning of a list whose costs stay within a budget. -/
def fitting (budget : ℕ) : List α → List α
  | [] => []
  | a :: l => if cost a ≤ budget then a :: fitting (budget - cost a) l else []

variable {cost}

theorem fitting_front (budget : ℕ) (l : List α) : fitting cost budget l <+: l := by
  induction l generalizing budget with
  | nil => exact List.prefix_rfl
  | cons a l ih =>
    unfold fitting
    split_ifs
    · exact List.prefix_cons_inj a |>.mpr (ih _)
    · exact List.nil_prefix

theorem sum_fitting_le (budget : ℕ) (l : List α) :
    ((fitting cost budget l).map cost).sum ≤ budget := by
  induction l generalizing budget with
  | nil => exact Nat.zero_le budget
  | cons a l ih =>
    unfold fitting
    split_ifs with ha
    · have hrest := ih (budget - cost a)
      simp only [List.map_cons, List.sum_cons]
      omega
    · exact Nat.zero_le budget

theorem front_fitting_iff {budget : ℕ} {xs l : List α} (hxs : xs <+: l) :
    xs <+: fitting cost budget l ↔ (xs.map cost).sum ≤ budget := by
  induction l generalizing budget xs with
  | nil =>
    obtain rfl := List.prefix_nil.mp hxs
    simp
  | cons a l ih =>
    cases xs with
    | nil => simp
    | cons x xs =>
      obtain ⟨rfl, hrest⟩ := List.cons_prefix_cons.mp hxs
      unfold fitting
      split_ifs with ha
      · rw [List.cons_prefix_cons, ih hrest, List.map_cons, List.sum_cons, Nat.le_sub_iff_add_le' ha]
        simp only [true_and]
      · simp only [List.prefix_nil, List.map_cons, List.sum_cons]
        constructor
        · intro h
          cases h
        · intro h
          omega

theorem fitting_of_sum_le {budget : ℕ} {l : List α} (h : (l.map cost).sum ≤ budget) :
    fitting cost budget l = l :=
  (fitting_front budget l).eq_of_length
    (((front_fitting_iff List.prefix_rfl).mpr h).length_le.antisymm
      (fitting_front budget l).length_le).symm

theorem fitting_eq_nil_iff {budget : ℕ} {a : α} {l : List α} :
    fitting cost budget (a :: l) = [] ↔ budget < cost a := by
  unfold fitting
  split_ifs with ha
  · simp [ha]
  · simpa using ha

theorem fitting_of_large {budget : ℕ} {l : List α} (h : ∀ a ∈ l, budget < 2 * cost a) :
    fitting cost budget l = [] ∨ fitting cost budget l = l.take 1 := by
  cases l with
  | nil => exact Or.inl rfl
  | cons a l =>
    unfold fitting
    split_ifs with ha
    · right
      have hrest : fitting cost (budget - cost a) l = [] := by
        cases l with
        | nil => rfl
        | cons b l =>
          have hcost := h a List.mem_cons_self
          have hnext := h b (List.mem_cons_of_mem a List.mem_cons_self)
          exact fitting_eq_nil_iff.mpr (by omega)
      rw [hrest, List.take_succ_cons, List.take_zero]
    · exact Or.inl rfl

theorem exists_marked_iff {p : α → Bool} {xs l : List α} {a : α} (hxs : xs <+: l)
    (ha : l.find? p = some a) :
    (∃ b ∈ xs, p b = true) ↔ l.takeWhile (fun b => !p b) ++ [a] <+: xs := by
  induction l generalizing xs with
  | nil => cases ha
  | cons c l ih =>
    cases xs with
    | nil => simp
    | cons x xs =>
      obtain ⟨rfl, hrest⟩ := List.cons_prefix_cons.mp hxs
      cases hp : p x with
      | true =>
        have hax : x = a := by simpa [hp] using ha
        subst hax
        simp [hp]
      | false =>
        have hfind : l.find? p = some a := by simpa [hp] using ha
        rw [List.takeWhile_cons_of_pos (by simp [hp]), List.cons_append, List.cons_prefix_cons,
          ← ih hrest hfind]
        simp [hp]

end Lolipay.Lists.Budget
