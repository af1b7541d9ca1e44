import Mathlib.Tactic.Common

namespace Lolipay.Ledger.Leases

variable {idle start s t now : ℕ} {touched touched' : ℕ → Prop}

/-- The times up to which a lease is renewed: its start, and every touch that
comes before the idle limit behind the last renewal. -/
inductive Renewed (idle : ℕ) (touched : ℕ → Prop) (start : ℕ) : ℕ → Prop
  | start : Renewed idle touched start start
  | touch {s t : ℕ} (h : Renewed idle touched start s) (hle : s ≤ t) (hlt : t < s + idle)
      (ht : touched t) : Renewed idle touched start t

theorem Renewed.mono (h : Renewed idle touched start t) (hsub : ∀ u, touched u → touched' u) :
    Renewed idle touched' start t := by
  induction h with
  | start => exact .start
  | touch h hle hlt ht ih => exact ih.touch hle hlt (hsub _ ht)

theorem Renewed.touched_or (h : Renewed idle touched start t) : t = start ∨ touched t := by
  cases h with
  | start => exact .inl rfl
  | touch h hle hlt ht => exact .inr ht

def Live (idle : ℕ) (touched : ℕ → Prop) (start now : ℕ) : Prop :=
  ∃ s, Renewed idle touched start s ∧ s ≤ now ∧ now < s + idle

/-- Nothing keeps a lease over a pause as long as the idle limit. -/
theorem Live.lt_of_pause (h : Live idle touched start now) (hstart : start < t)
    (hpause : ∀ u, t ≤ u → u ≤ now → ¬ touched u) : now < t + idle := by
  obtain ⟨s, hs, hle, hlt⟩ := h
  have hbefore : s < t := by
    obtain rfl | htouched := hs.touched_or
    · exact hstart
    · by_contra hge
      exact hpause s (Nat.le_of_not_lt hge) hle htouched
  omega

end Lolipay.Ledger.Leases
