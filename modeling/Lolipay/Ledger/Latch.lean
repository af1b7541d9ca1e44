import Mathlib.Algebra.BigOperators.Group.List.Basic
import Mathlib.Algebra.Order.Ring.Int
import Lolipay.Ledger.Runs

namespace Lolipay.Ledger.Latch

open Lolipay.Ledger.Runs

variable {S A R D : Type}

/-- A decision that is taken at most once and then stands. Taking it is
announced; nothing else is. -/
inductive LatchStep : Option D → Option D → Option D → Prop
  | keep (o : Option D) : LatchStep o o none
  | take (d : D) : LatchStep none (some d) (some d)

variable {m : Machine S A R} {s t : S} {tr : List (Entry S A R)} {I : S → Prop}

/-- A machine that refines a latch announces exactly the decision it ends up with. -/
theorem announced_once (phase : S → Option D) (announce : Entry S A R → Option D)
    (h : Run m s tr t) (hs : I s) (hstep : ∀ u a, I u → m.admits u a → I (m.next u a))
    (h0 : phase s = none)
    (hl : ∀ u a, I u → m.admits u a →
      LatchStep (phase u) (phase (m.next u a)) (announce (m.entry u a))) :
    tr.filterMap announce = (phase t).toList := by
  induction h with
  | nil => simp [h0]
  | @snoc tr u h a ha ih =>
    have hu := hl u a (h.invariant hs hstep) ha
    rw [List.filterMap_append, ih]
    generalize phase u = p at hu ⊢
    generalize phase (m.next u a) = p' at hu ⊢
    generalize he : announce (m.entry u a) = e at hu
    cases hu with
    | keep => simp [he]
    | take d => simp [he]

theorem charged_le (charge : Entry S A R → ℤ) (budget : S → ℤ) (h : Run m s tr t) (hs : I s)
    (hstep : ∀ u a, I u → m.admits u a → I (m.next u a))
    (hc : ∀ u a, I u → m.admits u a → charge (m.entry u a) + budget u ≤ budget (m.next u a)) :
    (tr.map charge).sum + budget s ≤ budget t := by
  induction h with
  | nil => simp
  | @snoc tr u h a ha ih =>
    have hu := hc u a (h.invariant hs hstep) ha
    rw [List.map_append, List.sum_append, List.map_singleton, List.sum_singleton]
    omega

def spent (b : Bool) : ℤ := if b then 1 else 0

theorem spent_mono {b b' : Bool} (h : b = true → b' = true) : spent b ≤ spent b' := by
  cases b <;> cases b' <;> simp_all [spent]

/-- What can be charged only while a flag is raised is charged once in a run. -/
theorem charged_once (charge : Entry S A R → ℤ) (flag : S → Bool) (h : Run m s tr t) (hs : I s)
    (hstep : ∀ u a, I u → m.admits u a → I (m.next u a))
    (hc : ∀ u a, I u → m.admits u a →
      charge (m.entry u a) + spent (flag u) ≤ spent (flag (m.next u a))) :
    (tr.map charge).sum ≤ 1 := by
  have hle := charged_le charge (fun u => spent (flag u)) h hs hstep hc
  have hstart : 0 ≤ spent (flag s) := by cases flag s <;> decide
  have hend : spent (flag t) ≤ 1 := by cases flag t <;> decide
  omega

end Lolipay.Ledger.Latch
