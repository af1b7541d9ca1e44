import Mathlib.Algebra.Order.Ring.Int
import Mathlib.Tactic.Common

namespace Lolipay.Ledger.Rounding

variable {a b c d n u x : ℤ}

/-- Rounding towards zero is the upper adjoint of a multiplication, as far as
positive bounds can tell. -/
theorem le_tdiv_iff (ha : 0 < a) (hc : 0 < c) : a ≤ b.tdiv c ↔ a * c ≤ b := by
  constructor
  · intro h
    have hb : 0 ≤ b := by
      by_contra hneg
      have hle : b.tdiv c ≤ (0 : ℤ).tdiv c := Int.tdiv_le_tdiv hc (not_le.mp hneg).le
      rw [Int.zero_tdiv] at hle
      exact absurd (ha.trans_le h) (not_lt.mpr hle)
    rw [Int.tdiv_eq_ediv_of_nonneg hb] at h
    exact (Int.le_ediv_iff_mul_le hc).mp h
  · exact Int.le_tdiv_of_mul_le hc

/-- A division that rounds up gives the least multiple that covers the amount. -/
theorem roundUp_le_iff (hn : 0 < n) (hd : 0 < d) : (n + d - 1).tdiv d ≤ u ↔ n ≤ u * d := by
  rw [Int.tdiv_eq_ediv_of_nonneg (by omega), ← Int.lt_add_one_iff, Int.ediv_lt_iff_lt_mul hd, Int.add_mul,
    Int.one_mul]
  omega

theorem tdiv_tdiv (x d : ℤ) (hc : 0 < c) : (x.tdiv c).tdiv d = x.tdiv (c * d) := by
  have hpos (x : ℤ) (hx : 0 ≤ x) : (x.tdiv c).tdiv d = x.tdiv (c * d) := by
    rw [Int.tdiv_eq_ediv_of_nonneg hx, Int.tdiv_eq_ediv_of_nonneg hx,
      Int.tdiv_eq_ediv_of_nonneg (Int.ediv_nonneg hx hc.le), Int.ediv_ediv_of_nonneg hc.le]
  obtain hx | hx := le_total 0 x
  · exact hpos x hx
  · have hneg := hpos (-x) (by omega)
    rw [Int.neg_tdiv, Int.neg_tdiv, Int.neg_tdiv] at hneg
    exact neg_injective hneg

theorem tdiv_mul_le_self (hx : 0 ≤ x) (hc : 0 < c) : x.tdiv c * c ≤ x := by
  rw [Int.tdiv_eq_ediv_of_nonneg hx]
  exact Int.ediv_mul_le x hc.ne'

end Lolipay.Ledger.Rounding
