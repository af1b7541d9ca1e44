import Mathlib.Tactic.Common

namespace Lolipay.Lists.Association

variable {K V : Type} {k : K} {v : V} {p : K × V} {l : List (K × V)}

/-- The new value stands where the old one did, or at the end. -/
def put [DecidableEq K] (k : K) (v : V) : List (K × V) → List (K × V)
  | [] => [(k, v)]
  | p :: rest => if p.1 = k then (k, v) :: rest else p :: put k v rest

theorem mem_of_lookup [BEq K] [LawfulBEq K] (h : l.lookup k = some v) : (k, v) ∈ l := by
  obtain ⟨l₁, l₂, rfl, -⟩ := List.lookup_eq_some_iff.mp h
  exact List.mem_append_right _ List.mem_cons_self

theorem mem_put [DecidableEq K] (h : p ∈ put k v l) : p = (k, v) ∨ p ∈ l := by
  induction l with
  | nil => exact .inl (List.mem_singleton.mp h)
  | cons p' rest ih =>
    rw [put] at h
    split at h
    next =>
      obtain rfl | h := List.mem_cons.mp h
      · exact .inl rfl
      · exact .inr (List.mem_cons_of_mem _ h)
    next =>
      obtain rfl | h := List.mem_cons.mp h
      · exact .inr List.mem_cons_self
      · exact (ih h).imp id (List.mem_cons_of_mem _)

end Lolipay.Lists.Association
