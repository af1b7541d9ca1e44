import Lolipay.Coordinator.Following

namespace Lolipay.Coordinator.Publication

open Lolipay.Ledger.Invocation Lolipay.Ledger.Runs
open Lolipay.Escrow.Types Lolipay.Escrow.System Lolipay.Escrow.Phases
open Lolipay.Coordinator.Orders Lolipay.Coordinator.Binding Lolipay.Coordinator.Database
open Lolipay.Coordinator.Indexer Lolipay.Coordinator.Replica

structure Told where
  contract : Address
  event : Event
  hash : Option TxHash

def Told.about (e : Told) (contract : Address) (s : Option TradeId) : Bool :=
  e.contract = contract ∧ subject e.event = s

/-- The ids that the RPC gives to events. No two events have the same. -/
structure Numbering where
  id : Address → Option TradeId → ℕ → EventId
  injective : ∀ {c c' s s' k k'}, id c s k = id c' s' k' → c = c' ∧ s = s' ∧ k = k'

variable (ν : Numbering)

/-- What the RPC answers for an event that comes after others. -/
def Numbering.render (earlier : List Told) (e : Told) : RpcEvent where
  id := some (ν.id e.contract (subject e.event)
    (earlier.countP fun e' => e'.about e.contract (subject e.event)))
  body := bodyOf e.event
  tradeId := (subject e.event).getD 0
  contractId := some e.contract
  txHash := e.hash

def Numbering.rendered : List Told → List Told → List RpcEvent
  | _, [] => []
  | earlier, e :: told => ν.render earlier e :: Numbering.rendered (earlier ++ [e]) told

/-- The docket of an order, under the ids of the RPC. -/
def Numbering.docket (home : Address) (order : OrderId) (placement : Placement) : Docket where
  home
  order
  placement
  eventId k := ν.id (contractIdFor placement home) (some placement.tradeId) k
  eventId_injective _ _ h := (ν.injective h).2.2

/-- The docket knows the events of its trade under these ids. -/
def Numbering.Names (q : Docket) : Prop :=
  ∀ k, q.eventId k = ν.id q.contract (some q.placement.tradeId) k

def published (contract : Address) (w : World) (a : Action) (hash : Option TxHash) : List Told :=
  ((receipt w a).elim [] fun r => r.events).map fun ev => ⟨contract, ev, hash⟩

section Own

variable (q : Docket)

def isOwn (e : Told) : Bool := e.about q.contract (some q.placement.tradeId)

def own (told : List Told) : List Event := (told.filter (isOwn q)).map (·.event)

def before (told : List Told) (i : ℕ) : ℕ := (own q (told.take i)).length

def Foreign (ev : RpcEvent) : Prop :=
  ev.body = .other ∨
    ((ev.tradeId ≠ q.placement.tradeId ∨ ev.contractId ≠ some q.contract) ∧
      ∀ k, ev.id ≠ some (q.eventId k))

variable {q} {told told' : List Told} {e : Told} {i : ℕ}

theorem own_append (xs ys : List Told) : own q (xs ++ ys) = own q xs ++ own q ys := by
  simp [own]

theorem own_front (h : told <+: told') : own q told <+: own q told' := by
  obtain ⟨rest, rfl⟩ := h
  rw [own_append]
  exact List.prefix_append _ _

theorem own_published (c : Address) (w : World) (a : Action) (hash : Option TxHash) :
    own q (published c w a hash) = if c = q.contract then news q.placement.tradeId w a else [] := by
  simp only [own, published, news, List.filter_map, List.map_map]
  by_cases hc : c = q.contract
  · rw [if_pos hc]
    have hsame : (isOwn q ∘ fun ev => (⟨c, ev, hash⟩ : Told)) =
        fun ev => decide (subject ev = some q.placement.tradeId) := by
      funext ev
      simp [isOwn, Told.about, hc]
    rw [hsame]
    exact List.map_id _
  · rw [if_neg hc]
    have hnone : (isOwn q ∘ fun ev => (⟨c, ev, hash⟩ : Told)) = fun _ => false := by
      funext ev
      simp [isOwn, Told.about, hc]
    rw [hnone, List.filter_false, List.map_nil]

theorem before_length (told : List Told) : before q told told.length = (own q told).length := by
  rw [before, List.take_length]

theorem before_mono {j : ℕ} (h : i ≤ j) : before q told i ≤ before q told j :=
  (own_front (List.take_prefix_take_left h)).length_le

theorem before_of_front (h : told <+: told') (hi : i ≤ told.length) :
    before q told' i = before q told i := by
  obtain ⟨rest, rfl⟩ := h
  rw [before, List.take_append_of_le_length hi, before]

theorem before_succ (he : told[i]? = some e) :
    before q told (i + 1) = before q told i + if isOwn q e then 1 else 0 := by
  rw [before, List.take_add_one, he, Option.toList_some, own_append, List.length_append, ← before]
  congr 1
  by_cases h : isOwn q e <;> simp [own, h]

theorem own_getElem? (he : told[i]? = some e) (hown : isOwn q e = true) :
    (own q told)[before q told i]? = some e.event := by
  obtain ⟨hi, hget⟩ := List.getElem?_eq_some_iff.mp he
  have hsplit : told = told.take i ++ e :: told.drop (i + 1) := by
    rw [← hget, List.getElem_cons_drop, List.take_append_drop]
  have hlist : own q told = own q (told.take i) ++ e.event :: own q (told.drop (i + 1)) := by
    conv_lhs => rw [hsplit]
    rw [own_append]
    simp [own, hown]
  rw [hlist, before, List.getElem?_append_right (Nat.le_refl _), Nat.sub_self]
  rfl

end Own

section Rendered

variable {ν} {told : List Told} {e : Told} {i : ℕ}

theorem rendered_append (earlier xs ys : List Told) :
    ν.rendered earlier (xs ++ ys) = ν.rendered earlier xs ++ ν.rendered (earlier ++ xs) ys := by
  induction xs generalizing earlier with
  | nil => simp [Numbering.rendered]
  | cons e xs ih => simp [Numbering.rendered, ih]

theorem length_rendered (earlier told : List Told) :
    (ν.rendered earlier told).length = told.length := by
  induction told generalizing earlier with
  | nil => rfl
  | cons e told ih => simp [Numbering.rendered, ih]

theorem rendered_getElem? (earlier told : List Told) (i : ℕ) :
    (ν.rendered earlier told)[i]? = told[i]?.map (ν.render (earlier ++ told.take i)) := by
  induction told generalizing earlier i with
  | nil => simp [Numbering.rendered]
  | cons e told ih =>
    cases i with
    | zero => simp [Numbering.rendered]
    | succ i => simp [Numbering.rendered, ih]

variable {q : Docket}

/-- The indexer is told of the trade's own events under the ids of the docket. -/
theorem render_own (hq : ν.Names q) (hown : isOwn q e = true) (earlier : List Told) :
    ν.render earlier e = q.rpcEvent (own q earlier).length e.event e.hash := by
  obtain ⟨hcontract, hsubject⟩ := of_decide_eq_true hown
  have hcount : (own q earlier).length =
      earlier.countP fun e' => e'.about e.contract (subject e.event) := by
    rw [own, List.length_map, ← List.countP_eq_length_filter, hcontract, hsubject]
    rfl
  rw [Docket.rpcEvent, hq, hcount, Numbering.render, hcontract, hsubject]
  rfl

theorem render_foreign (hq : ν.Names q) (hown : isOwn q e = false) (earlier : List Told) :
    Foreign q (ν.render earlier e) := by
  have hapart : ¬(e.contract = q.contract ∧ subject e.event = some q.placement.tradeId) :=
    of_decide_eq_false hown
  cases hsubject : subject e.event with
  | none =>
    left
    cases hevent : e.event with
    | configChanged | pausedSet => simp [Numbering.render, hevent, bodyOf]
    | tradeCreated | fiatPaid | released | refunded | disputed | resolved | earlyReleased =>
      simp [hevent, subject] at hsubject
  | some tradeId =>
    right
    rw [hsubject] at hapart
    refine ⟨?_, fun k hid => hapart ?_⟩
    · by_cases hcontract : e.contract = q.contract
      · left
        intro htrade
        simp only [Numbering.render, hsubject, Option.getD_some] at htrade
        exact hapart ⟨hcontract, congrArg some htrade⟩
      · right
        simpa [Numbering.render] using hcontract
    · rw [hq] at hid
      obtain ⟨hcontract, hsame, -⟩ := ν.injective (Option.some.inj hid)
      rw [hsubject] at hsame
      exact ⟨hcontract, hsame⟩

end Rendered

end Lolipay.Coordinator.Publication
