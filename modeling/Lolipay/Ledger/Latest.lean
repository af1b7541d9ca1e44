import Mathlib.Order.Lattice
import Mathlib.Data.List.Perm.Basic

namespace Lolipay.Ledger.Latest

variable {α K : Type} [LinearOrder K] (stamp : α → K)

/-- What is kept gives way to what is at least as late. -/
def later : Option α → α → Option α
  | none, a => some a
  | some b, a => if stamp a < stamp b then some b else some a

def latest (l : List α) : Option α := l.foldl (later stamp) none

variable {stamp} {a b : α} {l l' : List α}

theorem later_right_comm (h : stamp a = stamp b → a = b) (kept : Option α) :
    later stamp (later stamp kept a) b = later stamp (later stamp kept b) a := by
  obtain hlt | heq | hgt := lt_trichotomy (stamp a) (stamp b)
  · cases kept with
    | none => simp [later, hlt, hlt.not_gt]
    | some c =>
      by_cases hc : stamp b < stamp c
      · simp [later, hc, hlt.trans hc]
      · by_cases hca : stamp a < stamp c <;> simp [later, hc, hca, hlt, hlt.not_gt]
  · rw [h heq]
  · cases kept with
    | none => simp [later, hgt, hgt.not_gt]
    | some c =>
      by_cases hc : stamp a < stamp c
      · simp [later, hc, hgt.trans hc]
      · by_cases hcb : stamp b < stamp c <;> simp [later, hc, hcb, hgt, hgt.not_gt]

/-- What a list leaves is one of its items or was there before, and nothing is later. -/
theorem foldl_later_spec (stamp : α → K) (l : List α) (kept : α) :
    ∃ b, l.foldl (later stamp) (some kept) = some b ∧ (b = kept ∨ b ∈ l) ∧
      stamp kept ≤ stamp b ∧ ∀ c ∈ l, stamp c ≤ stamp b := by
  induction l generalizing kept with
  | nil => exact ⟨kept, rfl, .inl rfl, le_rfl, fun c hc => by cases hc⟩
  | cons a l ih =>
    by_cases hlt : stamp a < stamp kept
    · obtain ⟨b, hb, hfrom, hle, hall⟩ := ih kept
      refine ⟨b, ?_, hfrom.imp_right (List.mem_cons_of_mem a), hle, ?_⟩
      · rw [List.foldl_cons, later, if_pos hlt, hb]
      · intro c hc
        obtain rfl | hc := List.mem_cons.mp hc
        · exact hlt.le.trans hle
        · exact hall c hc
    · obtain ⟨b, hb, hfrom, hle, hall⟩ := ih a
      refine ⟨b, ?_, .inr ?_, (not_lt.mp hlt).trans hle, ?_⟩
      · rw [List.foldl_cons, later, if_neg hlt, hb]
      · obtain rfl | hfrom := hfrom
        · exact List.mem_cons_self
        · exact List.mem_cons_of_mem a hfrom
      · intro c hc
        obtain rfl | hc := List.mem_cons.mp hc
        · exact hle
        · exact hall c hc

theorem latest_eq_some (hdistinct : ∀ a ∈ l, ∀ b ∈ l, stamp a = stamp b → a = b) (ha : a ∈ l)
    (hmax : ∀ b ∈ l, stamp b ≤ stamp a) : latest stamp l = some a := by
  cases l with
  | nil => cases ha
  | cons c l =>
    obtain ⟨b, hb, hfrom, hle, hall⟩ := foldl_later_spec stamp l c
    have hmem : b ∈ c :: l := by
      obtain rfl | hfrom := hfrom
      · exact List.mem_cons_self
      · exact List.mem_cons_of_mem c hfrom
    have hge : stamp a ≤ stamp b := by
      obtain rfl | ha := List.mem_cons.mp ha
      · exact hle
      · exact hall a ha
    rw [hdistinct a ha b hmem (le_antisymm hge (hmax b hmem))]
    exact hb

theorem latest_perm (hdistinct : ∀ a ∈ l, ∀ b ∈ l, stamp a = stamp b → a = b) (hperm : l.Perm l') :
    latest stamp l = latest stamp l' :=
  hperm.foldl_eq' (fun a ha b hb kept => later_right_comm (hdistinct a ha b hb) kept) none

end Lolipay.Ledger.Latest
