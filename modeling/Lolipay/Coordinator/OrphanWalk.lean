import Lolipay.Lists.Keyset
import Lolipay.Coordinator.Windows
import Mathlib.Data.Prod.Lex

namespace Lolipay.Coordinator.OrphanWalk

open Lolipay.Lists.Keyset Lolipay.Ledger.Storage
open Lolipay.Coordinator.Orders Lolipay.Coordinator.Windows

def autoRefundBatchSize : ℕ := 20

structure OrphanCursor where
  createdAt : ℕ
  id : OrderId
  deriving DecidableEq, Repr

/-- What a tick of `reconcileOrphanedEscrows` finds: the settings, the clock and the
orders. -/
structure Tick where
  autoRefund : Bool
  signerConfigured : Bool
  now : ℕ
  orders : Store OrderId Order

def Tick.pool (t : Tick) : List (OrderId × Order) :=
  (t.orders.entries.map fun e => (e.1, e.2)).filter fun c =>
    refundablePoolWhere t.now (nowSecs t.now) c.2

def isAfterCursor (after : Option OrphanCursor) (c : OrderId × Order) : Bool :=
  match after with
  | none => true
  | some after =>
    after.createdAt < c.2.createdAt || (c.2.createdAt = after.createdAt && after.id < c.1)

/-- The order of the query: by creation and then by id, both ascending. -/
def orderedBefore (c d : OrderId × Order) : Bool :=
  c.2.createdAt < d.2.createdAt || (c.2.createdAt = d.2.createdAt && c.1 ≤ d.1)

def candidates (t : Tick) (after : Option OrphanCursor) : List (OrderId × Order) :=
  ((t.pool.filter (isAfterCursor after)).mergeSort orderedBefore).take autoRefundBatchSize

def cursorOf (c : OrderId × Order) : OrphanCursor := ⟨c.2.createdAt, c.1⟩

def reconcile (t : Tick) (after : Option OrphanCursor) :
    List (OrderId × Order) × Option OrphanCursor :=
  if !t.autoRefund then ([], after)
  else if !t.signerConfigured then ([], after)
  else
    let found := candidates t after
    (found, if found.length = autoRefundBatchSize then found.getLast?.map cursorOf else none)

/-- Ticks in a row, from any cursor, during which no row enters the pool. -/
structure Walk where
  tick : ℕ → Tick
  start : Option OrphanCursor
  autoRefund : ∀ n, (tick n).autoRefund = true
  signerConfigured : ∀ n, (tick n).signerConfigured = true
  leaving : ∀ n, ((tick (n + 1)).pool.map cursorOf) ⊆ (tick n).pool.map cursorOf

namespace Walk

def cursor (r : Walk) : ℕ → Option OrphanCursor
  | 0 => r.start
  | n + 1 => (reconcile (r.tick n) (r.cursor n)).2

def found (r : Walk) (n : ℕ) : List (OrderId × Order) := (reconcile (r.tick n) (r.cursor n)).1

def poolSize (r : Walk) (n : ℕ) : ℕ := (r.tick n).pool.length

end Walk

def maxWalkPeriods : ℕ := 12

/-- The allowance of the divergence alert before it calls an orphan missed. -/
def walkPeriods (poolSize : ℕ) : ℕ :=
  min (batches autoRefundBatchSize poolSize + 1) maxWalkPeriods

def keyOf (a : OrphanCursor) : ℕ ×ₗ ℕ := toLex (a.createdAt, a.id)

theorem keyOf_injective : Function.Injective keyOf := by
  rintro ⟨createdAt, id⟩ ⟨createdAt', id'⟩ h
  have hpair : (createdAt, id) = (createdAt', id') := toLex.injective h
  obtain ⟨rfl, rfl⟩ := Prod.mk.injEq _ _ _ _ ▸ hpair
  rfl

theorem isAfterCursor_eq (after : Option OrphanCursor) (c : OrderId × Order) :
    isAfterCursor after c = isAfter (after.map keyOf) (keyOf (cursorOf c)) := by
  cases after with
  | none => rfl
  | some after =>
    rw [Bool.eq_iff_iff]
    simp only [isAfterCursor, isAfter, Option.map_some, Option.all_some, keyOf, cursorOf,
      Bool.or_eq_true, Bool.and_eq_true, decide_eq_true_eq, Prod.Lex.toLex_lt_toLex]
    constructor
    · rintro (h | ⟨h, hid⟩)
      · exact Or.inl h
      · exact Or.inr ⟨h.symm, hid⟩
    · rintro (h | ⟨h, hid⟩)
      · exact Or.inl h
      · exact Or.inr ⟨h.symm, hid⟩

theorem orderedBefore_iff (c d : OrderId × Order) :
    orderedBefore c d = true ↔ keyOf (cursorOf c) ≤ keyOf (cursorOf d) := by
  simp [orderedBefore, keyOf, cursorOf, Prod.Lex.toLex_le_toLex]

def keys (t : Tick) : List (ℕ ×ₗ ℕ) :=
  (t.pool.mergeSort orderedBefore).map fun c => keyOf (cursorOf c)

theorem nodup_keys_of_ids {l : List (OrderId × Order)} (h : (l.map (·.1)).Nodup) :
    (l.map fun c => keyOf (cursorOf c)).Nodup := by
  apply List.Nodup.of_map (fun key : ℕ ×ₗ ℕ => (ofLex key).2)
  rw [List.map_map]
  exact h

theorem pool_ids_nodup (t : Tick) : (t.pool.map (·.1)).Nodup := by
  have hkeys : ((t.orders.entries.map fun e => (e.1, e.2)).map (·.1)).Nodup := by
    rw [List.map_map]
    exact t.orders.keys_nodup
  exact hkeys.sublist (List.filter_sublist.map _)

theorem sorted_keys {l : List (OrderId × Order)} (h : (l.map (·.1)).Nodup) :
    ((l.mergeSort orderedBefore).map fun c => keyOf (cursorOf c)).Pairwise (· < ·) := by
  have hle : (l.mergeSort orderedBefore).Pairwise fun c d => orderedBefore c d = true := by
    apply List.pairwise_mergeSort
    · intro a b c hab hbc
      rw [orderedBefore_iff] at hab hbc ⊢
      exact hab.trans hbc
    · intro a b
      rw [Bool.or_eq_true, orderedBefore_iff, orderedBefore_iff]
      exact le_total _ _
  have hnodup : ((l.mergeSort orderedBefore).map fun c => keyOf (cursorOf c)).Nodup :=
    (((List.mergeSort_perm l orderedBefore).map _).nodup_iff).mpr (nodup_keys_of_ids h)
  have hkeys : ((l.mergeSort orderedBefore).map fun c => keyOf (cursorOf c)).Pairwise (· ≤ ·) := by
    rw [List.pairwise_map]
    exact hle.imp fun {a b} hab => (orderedBefore_iff a b).mp hab
  exact hkeys.imp₂ (fun _ _ hab hne => lt_of_le_of_ne hab hne) hnodup

theorem keys_sorted (t : Tick) : (keys t).Pairwise (· < ·) := sorted_keys (pool_ids_nodup t)

theorem mem_keys {t : Tick} {k : ℕ ×ₗ ℕ} :
    k ∈ keys t ↔ k ∈ t.pool.map fun c => keyOf (cursorOf c) :=
  ((List.mergeSort_perm t.pool orderedBefore).map _).mem_iff

/-- The candidates of a tick are a batch of the walk over the keys. -/
theorem candidates_keys (t : Tick) (after : Option OrphanCursor) :
    (candidates t after).map (fun c => keyOf (cursorOf c)) =
      batch autoRefundBatchSize (keys t) (after.map keyOf) := by
  have hfiltered : ((t.pool.filter (isAfterCursor after)).map (·.1)).Nodup :=
    (pool_ids_nodup t).sublist (List.filter_sublist.map _)
  have hkeys : ((t.pool.filter (isAfterCursor after)).mergeSort orderedBefore).map
      (fun c => keyOf (cursorOf c)) = (keys t).filter (isAfter (after.map keyOf)) := by
    apply (sorted_keys hfiltered).eq_of_mem_iff ((keys_sorted t).filter _)
    intro k
    rw [((List.mergeSort_perm _ orderedBefore).map _).mem_iff, List.mem_filter, mem_keys]
    simp only [List.mem_map, List.mem_filter]
    constructor
    · rintro ⟨c, ⟨hc, hafter⟩, rfl⟩
      exact ⟨⟨c, hc, rfl⟩, isAfterCursor_eq after c ▸ hafter⟩
    · rintro ⟨⟨c, hc, rfl⟩, hafter⟩
      exact ⟨c, ⟨hc, (isAfterCursor_eq after c).trans hafter⟩, rfl⟩
  rw [candidates, List.map_take, hkeys, batch]

namespace Walk

theorem reconcile_eq (r : Walk) (n : ℕ) :
    reconcile (r.tick n) (r.cursor n) =
      (candidates (r.tick n) (r.cursor n),
        if (candidates (r.tick n) (r.cursor n)).length = autoRefundBatchSize then
          (candidates (r.tick n) (r.cursor n)).getLast?.map cursorOf
        else none) := by
  simp [reconcile, r.autoRefund n, r.signerConfigured n]

theorem cursor_keys (r : Walk) (n : ℕ) :
    (r.cursor n).map keyOf =
      cursorAt autoRefundBatchSize (fun n => keys (r.tick n)) (r.start.map keyOf) n := by
  induction n with
  | zero => rfl
  | succ n ih =>
    rw [cursor, reconcile_eq, cursorAt, ← ih, ← candidates_keys, nextCursor, List.length_map,
      List.getLast?_map]
    split_ifs
    · rw [Option.map_map]
      rfl
    · rfl

theorem keys_sublist (r : Walk) (n : ℕ) : (keys (r.tick (n + 1))).Sublist (keys (r.tick n)) := by
  have hsubset : keys (r.tick (n + 1)) ⊆ keys (r.tick n) := by
    intro k hk
    rw [mem_keys] at hk ⊢
    obtain ⟨c, hc, rfl⟩ := List.mem_map.mp hk
    obtain ⟨d, hd, hcd⟩ := List.mem_map.mp (r.leaving n (List.mem_map_of_mem hc))
    exact List.mem_map.mpr ⟨d, hd, congrArg keyOf hcd⟩
  exact List.sublist_of_subperm_of_pairwise
    (List.subperm_of_subset (keys_sorted _).nodup hsubset) (keys_sorted _) (keys_sorted _)

/-- Every row that stays in the pool is a candidate of one of as many ticks as the
divergence alert allows for a walk, below its cap. -/
theorem orphans_visited (r : Walk) (a : OrphanCursor)
    (hstays : ∀ n < batches autoRefundBatchSize (r.poolSize 0) + 1,
      a ∈ (r.tick n).pool.map cursorOf) :
    ∃ n < batches autoRefundBatchSize (r.poolSize 0) + 1, a ∈ (r.found n).map cursorOf ∧
      (walkPeriods (r.poolSize 0) < maxWalkPeriods → n < walkPeriods (r.poolSize 0)) := by
  have hlength : (keys (r.tick 0)).length = r.poolSize 0 := by
    rw [keys, List.length_map, List.length_mergeSort, poolSize]
  have hmem : ∀ n < batches autoRefundBatchSize (keys (r.tick 0)).length + 1,
      keyOf a ∈ keys (r.tick n) := by
    intro n hn
    rw [hlength] at hn
    obtain ⟨c, hc, hca⟩ := List.mem_map.mp (hstays n hn)
    exact mem_keys.mpr (List.mem_map.mpr ⟨c, hc, congrArg keyOf hca⟩)
  obtain ⟨n, hn, hfound⟩ := visited (fun n => keys (r.tick n))
    (r.start.map keyOf) (by decide) (fun n => keys_sorted (r.tick n)) r.keys_sublist hmem
  rw [hlength] at hn
  rw [← cursor_keys, ← candidates_keys] at hfound
  obtain ⟨c, hc, hca⟩ := List.mem_map.mp hfound
  refine ⟨n, hn, List.mem_map.mpr ⟨c, ?_, keyOf_injective hca⟩, ?_⟩
  · rw [found, reconcile_eq]
    exact hc
  · rw [walkPeriods]
    omega

end Walk

section Sample

def sampleOrphan (createdAt : ℕ) : Order :=
  ({ Desk.samplePlacement with createdAt } : Placement).opened.setStatus .cancelled

/-- Two of the rows were created at the same time. -/
def sampleOrphans : Store OrderId Order :=
  ((((∅ : Store OrderId Order).insert 0 (sampleOrphan 900000)).insert 1
    (sampleOrphan 900000)).insert 2 (sampleOrphan 950000))

def tickOver (orders : Store OrderId Order) : Tick where
  autoRefund := true
  signerConfigured := true
  now := 9000000
  orders := orders

/-- A fourth row leaves the pool after the first tick. -/
def sampleTick : ℕ → Tick
  | 0 => tickOver (sampleOrphans.insert 3 (sampleOrphan 960000))
  | _ + 1 => tickOver sampleOrphans

theorem sampleTick_pool (n : ℕ) :
    [⟨950000, 2⟩, ⟨900000, 1⟩, ⟨900000, 0⟩] ⊆ (sampleTick n).pool.map cursorOf := by
  cases n with
  | zero => decide
  | succ n =>
    change _ ⊆ (tickOver sampleOrphans).pool.map cursorOf
    decide

/-- The walk begins between the two rows of one time and comes round to the first. -/
def sampleWalk : Walk where
  tick := sampleTick
  start := some ⟨900000, 0⟩
  autoRefund n := by cases n <;> rfl
  signerConfigured n := by cases n <;> rfl
  leaving n := by
    cases n with
    | zero =>
      change (tickOver sampleOrphans).pool.map cursorOf ⊆ (sampleTick 0).pool.map cursorOf
      decide
    | succ n => exact List.Subset.refl _

theorem sample_visited :
    ∃ n < batches autoRefundBatchSize (sampleWalk.poolSize 0) + 1,
      (⟨900000, 0⟩ : OrphanCursor) ∈ (sampleWalk.found n).map cursorOf ∧
      (walkPeriods (sampleWalk.poolSize 0) < maxWalkPeriods →
        n < walkPeriods (sampleWalk.poolSize 0)) :=
  sampleWalk.orphans_visited ⟨900000, 0⟩ fun n _ => sampleTick_pool n (by simp)

end Sample

end Lolipay.Coordinator.OrphanWalk
