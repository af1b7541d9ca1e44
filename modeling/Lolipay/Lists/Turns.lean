import Mathlib.Data.List.Basic
import Mathlib.Tactic.Common

namespace Lolipay.Lists.Turns

/-- What is put off can be put off only as often as the rank allows, when every
turn that passes it over lowers the rank. -/
theorem turn_of_rank (served : ℕ → Prop) (rank : ℕ → ℕ)
    (hpos : ∀ n, (∀ m < n, ¬ served m) → 0 < rank n)
    (hstep : ∀ n < rank 0, (∀ m < n + 1, ¬ served m) → rank (n + 1) < rank n) :
    ∃ n < rank 0, served n := by
  by_contra hnever
  push Not at hnever
  have hrank : ∀ n ≤ rank 0, rank n + n ≤ rank 0 := by
    intro n
    induction n with
    | zero => simp
    | succ n ih =>
      intro hn
      have hlower := hstep n hn fun m hm => hnever m (by omega)
      have hrest := ih (by omega)
      omega
  have hlast := hrank (rank 0) (Nat.le_refl _)
  have hleft := hpos (rank 0) hnever
  omega

variable {α : Type*} (served : ℕ → α → Bool)

/-- The items that no turn before this one served. -/
def neverServed (items : List α) (n : ℕ) : List α :=
  items.filter fun a => decide (∀ m < n, served m a = false)

variable {served} {items : List α} {a : α} {n : ℕ}

theorem mem_neverServed :
    a ∈ neverServed served items n ↔ a ∈ items ∧ ∀ m < n, served m a = false := by
  simp [neverServed]

@[simp]
theorem neverServed_zero : neverServed served items 0 = items := by
  simp [neverServed]

theorem length_neverServed_lt (hmem : a ∈ neverServed served items n) (hserved : served n a = true) :
    (neverServed served items (n + 1)).length < (neverServed served items n).length := by
  have hsub : neverServed served items (n + 1) =
      (neverServed served items n).filter fun b => !served n b := by
    rw [neverServed, neverServed, List.filter_filter]
    apply List.filter_congr
    intro b _
    rw [Bool.eq_iff_iff]
    simp only [decide_eq_true_eq, Bool.and_eq_true, Bool.not_eq_true']
    constructor
    · intro h
      exact ⟨h n (by omega), fun m hm => h m (by omega)⟩
    · rintro ⟨hn, hbefore⟩ m hm
      obtain hm | rfl := Nat.lt_succ_iff_lt_or_eq.mp hm
      · exact hbefore m hm
      · exact hn
  rw [hsub, List.length_filter_lt_length_iff_exists]
  exact ⟨a, hmem, by simp [hserved]⟩

/-- If a new item is served as long as there is one, all are served within as many
turns as there are items. -/
theorem all_served (served : ℕ → α → Bool) (items : List α)
    (h : ∀ n < items.length, (∃ a, a ∈ neverServed served items n) →
      ∃ a ∈ neverServed served items n, served n a = true) :
    ∀ a ∈ items, ∃ n < items.length, served n a = true := by
  intro a ha
  have hwaiting : ∀ n, (∀ m < n, ¬ served m a = true) → a ∈ neverServed served items n := by
    intro n hn
    refine mem_neverServed.mpr ⟨ha, ?_⟩
    intro m hm
    simpa using hn m hm
  have hturn := turn_of_rank (fun n => served n a = true)
    (fun n => (neverServed served items n).length) ?_ ?_
  · simpa using hturn
  · intro n hn
    exact List.length_pos_of_mem (hwaiting n hn)
  · intro n hn hbefore
    rw [neverServed_zero] at hn
    obtain ⟨b, hb, hserved⟩ := h n hn ⟨a, hwaiting n fun m hm => hbefore m (by omega)⟩
    exact length_neverServed_lt hb hserved

end Lolipay.Lists.Turns
