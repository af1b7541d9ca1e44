import Mathlib.Data.Finset.Card
import Lolipay.Coordinator.Verdicts

namespace Lolipay.Coordinator.Reputation

open Lolipay.Ledger.Storage Lolipay.Ledger.Invocation
open Lolipay.Coordinator.Orders Lolipay.Coordinator.Writes Lolipay.Coordinator.Database
open Lolipay.Coordinator.Desk Lolipay.Coordinator.Verdicts

/-- A settled order whose verdict, as it stands, is against the user: what the
rebuild reads by `USER_LOST_WHERE`. -/
def userLost (row : Order) : Bool :=
  (row.status = .released || row.status = .refunded) &&
    row.resolution.any (userLostDispute row.flow)

def lostOrders (orders : Store OrderId Order) : List (OrderId × Address) :=
  (orders.entries.filter fun e => userLost e.2).map fun e => (e.1, e.2.userAddress)

def countLost (counts : Store Address ℤ) (lost : OrderId × Address) : Store Address ℤ :=
  counts.insert lost.2 ((counts.lookup lost.2).getD 0 + 1)

def setProfile (profiles : Store Address ℤ) (count : Sigma fun _ : Address => ℤ) :
    Store Address ℤ :=
  profiles.insert count.1 count.2

def setAccrued (orders : Store OrderId Order) (id : OrderId) : Store OrderId Order :=
  match orders.lookup id with
  | none => orders
  | some row => orders.insert id { row with disputeLossAccrued := true }

def backfillDisputesLost (db : Db) : Db :=
  let lost := lostOrders db.orders
  let counts := lost.foldl countLost ∅
  if counts.entries.isEmpty then db
  else
    { db with
      userProfiles := counts.entries.foldl setProfile db.userProfiles
      orders := (lost.map (·.1)).foldl setAccrued db.orders }

/-- The rebuild leaves every count and every flag as it is. -/
structure Unchanged (db : Db) : Prop where
  counts : ∀ a, (backfillDisputesLost db).userProfiles.lookup a = db.userProfiles.lookup a
  flags : ∀ id, ((backfillDisputesLost db).orders.lookup id).map (·.disputeLossAccrued) =
    (db.orders.lookup id).map (·.disputeLossAccrued)

variable {db : Db} {orders : Store OrderId Order} {id : OrderId} {row : Order} {a : Address}

theorem lookup_foldl_countLost (lost : List (OrderId × Address)) (counts : Store Address ℤ) :
    (lost.foldl countLost counts).lookup a =
      if lost.countP (·.2 = a) = 0 then counts.lookup a
      else some ((counts.lookup a).getD 0 + lost.countP (·.2 = a)) := by
  induction lost generalizing counts with
  | nil => simp
  | cons o lost ih =>
    rw [List.foldl_cons, ih, countLost]
    by_cases ha : o.2 = a
    · rw [List.countP_cons_of_pos (by simpa using ha), ha, AList.lookup_insert,
        if_neg (Nat.succ_ne_zero _), Option.getD_some]
      push_cast
      split
      next h => simp [h]
      next => rw [add_assoc, add_comm 1]
    · rw [List.countP_cons_of_neg (by simpa using ha), AList.lookup_insert_ne (Ne.symm ha)]

theorem lookup_foldl_setProfile {entries : List (Sigma fun _ : Address => ℤ)}
    (hkeys : entries.NodupKeys) (profiles : Store Address ℤ) :
    (entries.foldl setProfile profiles).lookup a =
      (entries.dlookup a).or (profiles.lookup a) := by
  induction entries generalizing profiles with
  | nil => simp
  | cons e entries ih =>
    obtain ⟨b, n⟩ := e
    obtain ⟨hnot, hkeys⟩ := List.nodupKeys_cons.mp hkeys
    rw [List.foldl_cons, ih hkeys]
    by_cases ha : a = b
    · subst ha
      simp [setProfile, List.dlookup_eq_none.mpr hnot]
    · rw [List.dlookup_cons_ne _ _ ha, setProfile, AList.lookup_insert_ne ha]

theorem lookup_foldl_setAccrued (ids : List OrderId) (orders : Store OrderId Order) :
    (ids.foldl setAccrued orders).lookup id =
      (orders.lookup id).map fun row =>
        if id ∈ ids then { row with disputeLossAccrued := true } else row := by
  induction ids generalizing orders with
  | nil => simp
  | cons i ids ih =>
    rw [List.foldl_cons, ih, setAccrued]
    cases hi : orders.lookup i with
    | none =>
      by_cases hid : id = i
      · subst hid
        simp [hi]
      · simp [hid]
    | some row =>
      by_cases hid : id = i
      · subst hid
        simp [hi]
      · simp [AList.lookup_insert_ne hid, hid]

/-- The orders of a user whose verdict, as it stands, is against the user. -/
def standing (orders : Store OrderId Order) (a : Address) : Finset OrderId :=
  orders.keys.toFinset.filter fun id =>
    (orders.lookup id).any fun row => userLost row && row.userAddress = a

theorem mem_standing : id ∈ standing orders a ↔
    ∃ row, orders.lookup id = some row ∧ userLost row = true ∧ row.userAddress = a := by
  simp only [standing, Finset.mem_filter, List.mem_toFinset, Option.any_eq_true, Bool.and_eq_true,
    decide_eq_true_eq]
  refine ⟨fun h => h.2, fun h => ⟨?_, h⟩⟩
  obtain ⟨row, hrow, -⟩ := h
  exact AList.lookup_isSome.mp (by simp [hrow])

theorem countP_lostOrders (orders : Store OrderId Order) (a : Address) :
    (lostOrders orders).countP (·.2 = a) = (standing orders a).card := by
  have hentries : (lostOrders orders).countP (·.2 = a) =
      orders.entries.countP fun e => userLost e.2 && e.2.userAddress = a := by
    rw [lostOrders, List.countP_map, List.countP_filter]
    congr 1
    funext e
    simp [Bool.and_comm]
  have hkeys : orders.keys.countP (fun id => (orders.lookup id).any fun row =>
      userLost row && row.userAddress = a) =
      orders.entries.countP fun e => userLost e.2 && e.2.userAddress = a := by
    rw [AList.keys, List.keys, List.countP_map]
    apply List.countP_congr
    intro e he
    have hlook : orders.lookup e.1 = some e.2 := AList.mem_lookup_iff.mpr he
    simp [hlook]
  rw [hentries, ← hkeys, List.countP_eq_length_filter, standing, ← List.toFinset_filter,
    List.toFinset_card_of_nodup (orders.keys_nodup.filter _)]

theorem counts_empty_iff (lost : List (OrderId × Address)) :
    (lost.foldl countLost ∅).entries.isEmpty = true ↔ lost = [] := by
  constructor
  · intro h
    cases lost with
    | nil => rfl
    | cons o lost =>
      have hlook := lookup_foldl_countLost (a := o.2) (o :: lost) ∅
      rw [if_neg (by simp), AList.lookup, List.isEmpty_iff.mp h] at hlook
      simp at hlook
  · rintro rfl
    rfl

theorem lookup_backfill_profile (db : Db) (a : Address) :
    (backfillDisputesLost db).userProfiles.lookup a =
      if (standing db.orders a).card = 0 then db.userProfiles.lookup a
      else some ((standing db.orders a).card : ℤ) := by
  rw [← countP_lostOrders, backfillDisputesLost]
  split
  next h => simp [(counts_empty_iff _).mp h]
  next =>
    rw [lookup_foldl_setProfile (AList.nodupKeys _)]
    change ((List.foldl countLost ∅ (lostOrders db.orders)).lookup a).or _ = _
    rw [lookup_foldl_countLost]
    split <;> simp

theorem mem_lostOrders (hrow : orders.lookup id = some row) :
    id ∈ (lostOrders orders).map (·.1) ↔ userLost row = true := by
  simp only [lostOrders, List.map_map, List.mem_map, List.mem_filter, Function.comp]
  constructor
  · rintro ⟨e, ⟨he, hlost⟩, rfl⟩
    have hlook : orders.lookup e.1 = some e.2 := AList.mem_lookup_iff.mpr he
    obtain rfl := Option.some.inj (hrow.symm.trans hlook)
    exact hlost
  · exact fun h => ⟨⟨id, row⟩, ⟨AList.mem_lookup_iff.mp hrow, h⟩, rfl⟩

theorem lookup_backfill_order (db : Db) (id : OrderId) :
    (backfillDisputesLost db).orders.lookup id =
      (db.orders.lookup id).map fun row =>
        if userLost row then { row with disputeLossAccrued := true } else row := by
  rw [backfillDisputesLost]
  split
  next h =>
    cases hrow : db.orders.lookup id with
    | none => rfl
    | some row =>
      have hnot : userLost row = false := by
        have hmem := (mem_lostOrders hrow).not
        rw [(counts_empty_iff _).mp h] at hmem
        simpa using hmem
      simp [hnot]
  next =>
    rw [lookup_foldl_setAccrued]
    cases hrow : db.orders.lookup id with
    | none => rfl
    | some row => simp only [Option.map_some, mem_lostOrders hrow]

/-- The rebuild changes nothing if every user with a loss that stands has as
many in the books, and all of them are flagged. -/
theorem unchanged_iff (db : Db) :
    Unchanged db ↔ ∀ a, standing db.orders a ≠ ∅ →
      db.userProfiles.lookup a = some ((standing db.orders a).card : ℤ) ∧
        ∀ id ∈ standing db.orders a, (db.orders.lookup id).any (·.disputeLossAccrued) = true := by
  constructor
  · rintro ⟨hcounts, hflags⟩ a ha
    constructor
    · rw [← hcounts a, lookup_backfill_profile, if_neg (by simpa using ha)]
    · intro id hid
      obtain ⟨row, hrow, hlost, -⟩ := mem_standing.mp hid
      have hflag := hflags id
      rw [lookup_backfill_order, hrow] at hflag
      simpa [hrow, hlost] using hflag.symm
  · intro h
    refine ⟨fun a => ?_, fun id => ?_⟩
    · rw [lookup_backfill_profile]
      split
      next => rfl
      next hne => exact (h a (by simpa using hne)).1.symm
    · rw [lookup_backfill_order]
      cases hrow : db.orders.lookup id with
      | none => rfl
      | some row =>
        cases hlost : userLost row with
        | false => simp [hlost]
        | true =>
          have hmem : id ∈ standing db.orders row.userAddress :=
            mem_standing.mpr ⟨row, hrow, hlost, rfl⟩
          have hflag := (h row.userAddress (Finset.ne_empty_of_mem hmem)).2 id hmem
          simpa [hrow, hlost] using hflag.symm

end Lolipay.Coordinator.Reputation
