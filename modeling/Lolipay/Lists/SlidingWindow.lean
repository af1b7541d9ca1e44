import Mathlib.Data.List.Basic
import Mathlib.Data.List.Perm.Basic

namespace Lolipay.Lists.SlidingWindow

variable {span now now' p q v n : ℕ} {xs ys kept all : List ℕ}

def within (span now : ℕ) (xs : List ℕ) : List ℕ := xs.filter fun t => now < t + span

theorem within_within (h : p ≤ q) : within span q (within span p xs) = within span q xs := by
  unfold within
  rw [List.filter_filter]
  apply List.filter_congr
  intro t _
  by_cases hq : q < t + span
  · simp [hq, Nat.lt_of_le_of_lt h hq]
  · simp [hq]

theorem length_within_le (span : ℕ) (h : p ≤ q) (xs : List ℕ) :
    (within span q xs).length ≤ (within span p xs).length := by
  rw [← within_within h]
  exact List.length_filter_le _ _

theorem within_perm (h : xs.Perm ys) : (within span now xs).Perm (within span now ys) :=
  h.filter _

/-- The last mention of a moment is taken out of a list. -/
def eraseLast (v : ℕ) (xs : List ℕ) : List ℕ := (xs.reverse.erase v).reverse

theorem eraseLast_perm (v : ℕ) (xs : List ℕ) : (eraseLast v xs).Perm (xs.erase v) :=
  (List.reverse_perm _).trans ((List.reverse_perm xs).erase v)

theorem within_erase : (within span p (xs.erase v)).Perm ((within span p xs).erase v) := by
  rw [List.perm_iff_count]
  intro u
  simp only [within, List.count_erase]
  by_cases hu : p < u + span
  · rw [List.count_filter (by simpa using hu), List.count_filter (by simpa using hu), List.count_erase]
  · have hnone (l : List ℕ) : List.count u (l.filter fun t => p < t + span) = 0 := by
      apply List.count_eq_zero_of_not_mem
      simp [hu]
    simp [hnone]

/-- A list that is pruned now and then keeps, of all moments, at least those that
are young enough now. -/
def Remembers (span now : ℕ) (kept all : List ℕ) : Prop :=
  ∃ p ≤ now, kept.Perm (within span p all)

theorem Remembers.nil : Remembers span now [] [] := ⟨now, Nat.le_refl _, .refl _⟩

theorem Remembers.later (h : Remembers span now kept all) (hle : now ≤ now') :
    Remembers span now' kept all := by
  obtain ⟨p, hp, hkept⟩ := h
  exact ⟨p, Nat.le_trans hp hle, hkept⟩

theorem Remembers.of_perm (h : Remembers span now kept xs) (hall : xs.Perm ys) :
    Remembers span now kept ys := by
  obtain ⟨p, hp, hkept⟩ := h
  exact ⟨p, hp, hkept.trans (within_perm hall)⟩

theorem Remembers.within (h : Remembers span now kept all) :
    (within span now kept).Perm (within span now all) := by
  obtain ⟨p, hp, hkept⟩ := h
  exact (within_perm hkept).trans (.of_eq (within_within hp))

theorem Remembers.prune (h : Remembers span now kept all) :
    Remembers span now (SlidingWindow.within span now kept) all :=
  ⟨now, Nat.le_refl _, h.within⟩

theorem Remembers.push (h : Remembers span now kept all) (hspan : 0 < span) :
    Remembers span now (kept ++ [now]) (now :: all) := by
  obtain ⟨p, hp, hkept⟩ := h
  refine ⟨p, hp, (List.perm_append_singleton now kept).trans ?_⟩
  have hyoung : p < now + span := by omega
  rw [SlidingWindow.within, List.filter_cons_of_pos (by simpa using hyoung)]
  exact hkept.cons now

theorem Remembers.eraseLast (h : Remembers span now kept all) (v : ℕ) :
    Remembers span now (eraseLast v kept) (all.erase v) := by
  obtain ⟨p, hp, hkept⟩ := h
  exact ⟨p, hp, (eraseLast_perm v kept).trans ((hkept.erase v).trans within_erase.symm)⟩

/-- No window of the span holds more than so many moments. -/
def Rated (span n : ℕ) (all : List ℕ) : Prop :=
  ∀ a, (all.filter fun t => a < t ∧ t ≤ a + span).length ≤ n

theorem Rated.nil : Rated span n [] := fun _ => Nat.zero_le n

theorem Rated.of_perm (h : Rated span n xs) (hall : xs.Perm ys) : Rated span n ys := by
  intro a
  rw [← (hall.filter _).length_eq]
  exact h a

theorem Rated.of_subperm (h : Rated span n xs) (hsub : ys.Subperm xs) : Rated span n ys := by
  intro a
  exact Nat.le_trans (hsub.filter _).length_le (h a)

/-- Where there is room in the window that ends now, there is room in every window. -/
theorem Rated.cons (h : Rated span n all)
    (hroom : (within span now all).length < n) : Rated span n (now :: all) := by
  intro a
  by_cases hin : a < now ∧ now ≤ a + span
  · rw [List.filter_cons_of_pos (by simpa using hin), List.length_cons]
    have hsub : (all.filter fun t => a < t ∧ t ≤ a + span).Sublist (within span now all) := by
      unfold within
      apply List.monotone_filter_right
      intro t ht
      simp only [decide_eq_true_eq] at ht ⊢
      omega
    have hle := hsub.length_le
    omega
  · rw [List.filter_cons_of_neg (by simpa using hin)]
    exact h a

end Lolipay.Lists.SlidingWindow
