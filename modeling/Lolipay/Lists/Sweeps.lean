import Mathlib.Data.List.Basic
import Mathlib.Data.List.Infix
import Mathlib.Tactic.Common

namespace Lolipay.Lists.Sweeps

variable {α : Type*} (size : ℕ) (stays : α → Bool)

/-- One sweep over the first elements of a list: those that do not stay are gone. -/
def sweep (l : List α) : List α := (l.take size).filter stays ++ l.drop size

def swept (l : List α) : ℕ → List α
  | 0 => l
  | n + 1 => sweep size stays (swept l n)

variable {size : ℕ} {stays : α → Bool} {front rest : List α} {x : α}

theorem swept_succ (l : List α) (n : ℕ) :
    swept size stays l (n + 1) = swept size stays (sweep size stays l) n := by
  induction n with
  | zero => rfl
  | succ n ih => rw [swept, ih, swept]

theorem sweep_append (h : size ≤ front.length) :
    sweep size stays (front ++ rest) = sweep size stays front ++ rest := by
  rw [sweep, sweep, List.take_append_of_le_length h, List.drop_append_of_le_length h,
    List.append_assoc]

theorem countP_sweep (l : List α) :
    (sweep size stays l).countP stays = l.countP stays := by
  conv_rhs => rw [← List.take_append_drop size l, List.countP_append]
  rw [sweep, List.countP_append, List.countP_filter]
  simp

theorem sweep_sublist (size : ℕ) (stays : α → Bool) (l : List α) : (sweep size stays l).Sublist l := by
  conv_rhs => rw [← List.take_append_drop size l]
  exact List.filter_sublist.append (List.Sublist.refl _)

theorem length_sweep_lt (hfew : front.countP stays < size) (h : size ≤ front.length) :
    (sweep size stays front).length < front.length := by
  obtain hlt | heq := Nat.lt_or_eq_of_le (sweep_sublist size stays front).length_le
  · exact hlt
  · have hsame : (front.take size).filter stays = front.take size := by
      have heq' := (sweep_sublist size stays front).eq_of_length heq
      conv_rhs at heq' => rw [← List.take_append_drop size front]
      exact List.append_cancel_right heq'
    have hcount : (front.take size).countP stays = size := by
      rw [List.countP_eq_length_filter, hsame, List.length_take, Nat.min_eq_left h]
    have hle := (List.take_sublist size front).countP_le (p := stays)
    omega

theorem swept_of_many (rest : List α) (hmany : size ≤ front.countP stays) (n : ℕ) :
    ∃ front', swept size stays (front ++ rest) n = front' ++ rest := by
  induction n generalizing front with
  | zero => exact ⟨front, rfl⟩
  | succ n ih =>
    rw [swept_succ, sweep_append (hmany.trans List.countP_le_length)]
    exact ih (by rwa [countP_sweep])

/-- What has few staying elements before it is reached by a sweep soon. -/
theorem swept_of_few (rest : List α) (hfew : front.countP stays < size) :
    ∃ n ≤ front.length, ∃ front', swept size stays (front ++ rest) n = front' ++ rest ∧
      front'.length < size := by
  induction hlength : front.length using Nat.strong_induction_on generalizing front with
  | _ len ih =>
    by_cases hreach : front.length < size
    · exact ⟨0, Nat.zero_le _, front, rfl, hreach⟩
    · have hshorter := length_sweep_lt hfew (not_lt.mp hreach)
      obtain ⟨n, hn, front', hswept, hshort⟩ := ih (sweep size stays front).length
        (hlength ▸ hshorter) (by rwa [countP_sweep]) rfl
      refine ⟨n + 1, by omega, front', ?_, hshort⟩
      rw [swept_succ, sweep_append (not_lt.mp hreach), hswept]

theorem reached_of_few (x : α) (rest : List α) (hfew : front.countP stays < size) :
    ∃ n ≤ front.length, x ∈ (swept size stays (front ++ x :: rest) n).take size := by
  obtain ⟨n, hn, front', hswept, hlength⟩ := swept_of_few (x :: rest) hfew
  refine ⟨n, hn, ?_⟩
  rw [hswept, List.take_append, List.mem_append]
  right
  obtain ⟨m, hm⟩ := Nat.exists_eq_succ_of_ne_zero (Nat.sub_ne_zero_of_lt hlength)
  rw [hm, List.take_succ_cons]
  exact List.mem_cons_self

variable [DecidableEq α]

theorem sweep_eq_filter {l : List α} (h : l.Nodup) :
    sweep size stays l = l.filter fun a => stays a || decide (a ∉ l.take size) := by
  have hsplit := List.take_append_drop size l
  have hdisjoint : ∀ a ∈ l.drop size, a ∉ l.take size := by
    intro a hdrop htake
    rw [← hsplit, List.nodup_append] at h
    exact h.2.2 a htake a hdrop rfl
  have htake : (l.take size).filter (fun a => stays a || decide (a ∉ l.take size)) =
      (l.take size).filter stays := by
    apply List.filter_congr
    intro a ha
    simp [ha]
  have hdrop : (l.drop size).filter (fun a => stays a || decide (a ∉ l.take size)) =
      l.drop size := by
    rw [List.filter_eq_self]
    intro a ha
    simp [hdisjoint a ha]
  conv_rhs => rw [← hsplit, List.filter_append]
  rw [hsplit, htake, hdrop, sweep]

/-- An element that does not stay is gone after some number of sweeps exactly when
one of the sweeps reached it. -/
theorem notMem_swept_iff {l : List α} (h : l.Nodup) (hx : x ∈ l) (hgoes : stays x = false)
    (n : ℕ) : x ∉ swept size stays l n ↔ ∃ m < n, x ∈ (swept size stays l m).take size := by
  have hnodup : ∀ m, (swept size stays l m).Nodup := by
    intro m
    induction m with
    | zero => exact h
    | succ m ih => exact ih.sublist (sweep_sublist size stays _)
  induction n with
  | zero => simp [swept, hx]
  | succ n ih =>
    rw [swept, sweep_eq_filter (hnodup n), List.mem_filter, hgoes, Bool.false_or,
      decide_eq_true_eq, not_and_or, not_not]
    apply (or_congr_left ih).trans
    constructor
    · rintro (⟨m, hm, hreached⟩ | hreached)
      · exact ⟨m, Nat.lt_succ_of_lt hm, hreached⟩
      · exact ⟨n, n.lt_succ_self, hreached⟩
    · rintro ⟨m, hm, hreached⟩
      obtain hm | rfl := Nat.lt_succ_iff_lt_or_eq.mp hm
      · exact Or.inl ⟨m, hm, hreached⟩
      · exact Or.inr hreached

theorem split_takeWhile {l : List α} (hx : x ∈ l) :
    ∃ rest, l = l.takeWhile (· ≠ x) ++ x :: rest := by
  induction l with
  | nil => exact absurd hx List.not_mem_nil
  | cons a l ih =>
    by_cases ha : a = x
    · subst ha
      exact ⟨l, by simp⟩
    · obtain ⟨rest, hrest⟩ := ih (List.mem_of_ne_of_mem (Ne.symm ha) hx)
      refine ⟨rest, ?_⟩
      rw [List.takeWhile_cons_of_pos (by simpa using ha), List.cons_append, ← hrest]

theorem mem_swept_of_many {l : List α} (hx : x ∈ l)
    (hmany : size ≤ (l.takeWhile (· ≠ x)).countP stays) (n : ℕ) : x ∈ swept size stays l n := by
  obtain ⟨rest, hl⟩ := split_takeWhile hx
  obtain ⟨front', hswept⟩ := swept_of_many (x :: rest) hmany n
  rw [hl, hswept]
  exact List.mem_append_right _ List.mem_cons_self

/-- An element that does not stay is gone within as many sweeps as there are
elements exactly when fewer staying elements stand before it than a sweep reaches. -/
theorem swept_away_iff {l : List α} (h : l.Nodup) (hx : x ∈ l) (hgoes : stays x = false) :
    (∃ n ≤ l.length, x ∉ swept size stays l n) ↔
      (l.takeWhile (· ≠ x)).countP stays < size := by
  constructor
  · rintro ⟨n, -, hgone⟩
    by_contra hmany
    exact hgone (mem_swept_of_many hx (not_lt.mp hmany) n)
  · intro hfew
    obtain ⟨rest, hl⟩ := split_takeWhile hx
    obtain ⟨m, hm, hreached⟩ := reached_of_few x rest hfew
    rw [← hl] at hreached
    refine ⟨m + 1, ?_, (notMem_swept_iff h hx hgoes (m + 1)).mpr ⟨m, m.lt_succ_self, hreached⟩⟩
    rw [hl, List.length_append, List.length_cons]
    omega

end Lolipay.Lists.Sweeps
