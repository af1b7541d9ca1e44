import Lolipay.Escrow.Phases
import Lolipay.Coordinator.Steps

namespace Lolipay.Coordinator.Replica

open Lolipay.Ledger.Storage Lolipay.Ledger.Invocation Lolipay.Ledger.Runs
open Lolipay.Async.Process
open Lolipay.Escrow.Types Lolipay.Escrow.System Lolipay.Escrow.Phases
open Lolipay.Coordinator.Orders Lolipay.Coordinator.Binding Lolipay.Coordinator.Writes
open Lolipay.Coordinator.Database Lolipay.Coordinator.Services Lolipay.Coordinator.Indexer
open Lolipay.Coordinator.Desk Lolipay.Coordinator.Steps

/-- The order that a run is about, and the ids under which the indexer knows
the events of its trade. -/
structure Docket where
  home : Address
  order : OrderId
  placement : Placement
  eventId : ℕ → EventId
  eventId_injective : Function.Injective eventId

def Docket.contract (q : Docket) : Address := contractIdFor q.placement q.home

def Docket.tradeIn (q : Docket) (chain : Address → World) : Option Trade :=
  (chain q.contract).trade q.placement.tradeId

def Docket.Fits (q : Docket) (t : Trade) : Prop :=
  verifyTradeMatchesOrder (decodeTradeStatus t) q.placement.toOrderBindingFields = []

instance (q : Docket) (t : Trade) : Decidable (q.Fits t) := inferInstanceAs (Decidable (_ = _))

/-- What the indexer decodes from an event of the escrow. -/
def bodyOf : Event → EventBody
  | .tradeCreated _ _ => .tradeCreated
  | .fiatPaid _ => .fiatPaid
  | .released _ _ _ _ => .released
  | .earlyReleased _ _ _ _ => .earlyReleased
  | .refunded _ _ => .refunded
  | .disputed _ raiser => .disputed (some raiser)
  | .resolved _ released postSettle => .resolved (some released) postSettle
  | .configChanged _ _ | .pausedSet _ => .other

def Docket.rpcEvent (q : Docket) (i : ℕ) (ev : Event) (hash : Option TxHash) : RpcEvent :=
  ⟨some (q.eventId i), bodyOf ev, q.placement.tradeId, some q.contract, hash⟩

/-- The coordinator and the chain, with the events of the trade so far. -/
structure View where
  shared : Shared
  log : List Event

/-- An indexer that has processed the events before its cursor and may be at
work on the next one. -/
structure Follower extends View where
  cursor : ℕ
  handler : Option (Service ℕ)

/-- What may happen next: a call on the escrow, time, the indexer with the next
event, with one effect of its work or done with it, a crash after which it
resumes at an earlier event, or a whole `refreshOrderStatus` on a row that was
read at some time. -/
inductive Turn where
  | chain (a : Action)
  | tick (time : ℕ)
  | take (hash : Option TxHash)
  | go (o : Choice)
  | advance
  | crash (cursor : ℕ)
  | refresh (order : Order) (o : Choice)

/-- A read that bypasses the cache is answered by the chain as it is. -/
def Fresh (s : Shared) (o : Choice) : Effect → Prop
  | .ask (.getTradeStatus contractId tradeId) =>
    o.onChain = none ∨ ReallyHad s contractId tradeId o.onChain
  | .ask (.getTradeStatusStrict contractId tradeId) =>
    o.fails = true ∨ o.onChain = ((s.chain contractId).trade tradeId).map decodeTradeStatus
  | _ => True

variable (q : Docket)

def Current (s : Shared) (onChain : Option TradeOnChain) : Prop :=
  onChain = (q.tradeIn s.chain).map decodeTradeStatus

/-- The chain as it is, or as it was when the cache was filled. -/
def Stale (s : Shared) (onChain : Option TradeOnChain) : Prop :=
  ReallyHad s q.contract q.placement.tradeId onChain

/-- The environment's side: the escrow only comes to hold a trade that matches
the order, and refreshes are about the order and see the chain. -/
def admits (sees : Shared → Option TradeOnChain → Prop) (w : Follower) : Turn → Prop
  | .chain a =>
    Escrow.System.admits q.contract (w.shared.chain q.contract) a ∧
      ∀ t, (next (w.shared.chain q.contract) a).trade q.placement.tradeId = some t → q.Fits t
  | .tick time => w.shared.now ≤ time
  | .take _ => w.handler = none ∧ w.cursor < w.log.length
  | .go o =>
    match w.handler with
    | some (.step e _) => Fresh w.shared o e
    | _ => False
  | .advance =>
    match w.handler with
    | some (.pure _) => True
    | _ => False
  | .crash cursor => cursor ≤ w.cursor
  | .refresh order o =>
    order.toPlacement = q.placement ∧ (o.onChain = none ∨ sees w.shared o.onChain)

/-- The effects of a call that is not interrupted, all answered alike. -/
def inOneGo (o : Choice) (e : Effect) (s : Shared) : Shared × Reply e :=
  (after 0 e o s, reply 0 e o s)

def refreshed (order : Order) (o : Choice) (s : Shared) : Shared :=
  alone (inOneGo o) (refreshOrderStatus q.home q.order order) s

def turn (w : Follower) : Turn → Follower
  | .chain a =>
    { w with
      shared := moved w.shared (.chain q.contract a)
      log := w.log ++ news q.placement.tradeId (w.shared.chain q.contract) a }
  | .tick time => { w with shared := moved w.shared (.tick time) }
  | .take hash =>
    { w with handler := w.log[w.cursor]?.map fun ev =>
      applyEvent q.home (q.rpcEvent w.cursor ev hash) }
  | .go o =>
    match w.handler with
    | some (.step e k) =>
      { w with
        shared := after 0 e o w.shared
        handler := some (k (reply 0 e o w.shared)) }
    | _ => w
  | .advance => { w with cursor := w.cursor + 1, handler := none }
  | .crash cursor => { w with cursor, handler := none }
  | .refresh order o => { w with shared := refreshed q order o w.shared }

def replica (sees : Shared → Option TradeOnChain → Prop) : Machine Follower Turn Unit where
  admits := admits q sees
  next := turn q
  out _ _ := ()

/-- Before the trade: the order was never on chain, and nothing is indexed. -/
structure Starts (w : Follower) : Prop where
  log : w.log = []
  cursor : w.cursor = 0
  handler : w.handler = none
  row : ∃ row, w.shared.db.orders.lookup q.order = some row ∧ row.toPlacement = q.placement ∧
    notYetBoundOnChain row.status = true ∧ row.settledStatus = none ∧ row.resolution = none
  unique : ∀ id row, w.shared.db.orders.lookup id = some row →
    row.tradeId = q.placement.tradeId → id = q.order
  chain : ∀ c ∈ w.shared.chain :: w.shared.past, q.tradeIn c = none
  unclaimed : ∀ i, w.shared.db.indexedEvents.lookup (q.eventId i) = none

def sampleDocket : Docket := ⟨⟨0⟩, 0, samplePlacement, id, Function.injective_id⟩

def sampleFollower : Follower := ⟨⟨sampleDesk sampleOrders, []⟩, 0, none⟩

def sampleReplica : Machine Follower Turn Unit := replica sampleDocket (Current sampleDocket)

theorem sampleFollower_starts : Starts sampleDocket sampleFollower where
  log := rfl
  cursor := rfl
  handler := rfl
  row := ⟨samplePlacement.opened, rfl, rfl, rfl, rfl, rfl⟩
  unique id row hrow htrade := by
    by_cases hid : id = 0
    · exact hid
    · have hnone : sampleOrders.lookup id = none := AList.lookup_insert_ne hid
      cases hrow.symm.trans hnone
  chain c hc := by
    obtain rfl := List.mem_singleton.mp hc
    rfl
  unclaimed i := rfl

theorem fits_of_all {q : Docket} {r : Option Trade}
    (h : (r.all fun t => q.Fits t) = true) (t : Trade) (ht : r = some t) : q.Fits t := by
  subst ht
  exact of_decide_eq_true h

theorem sample_call {sees : Shared → Option TradeOnChain → Prop} {w : Follower} {a : Action}
    (ha : Escrow.System.admits ⟨0⟩ (w.shared.chain ⟨0⟩) a)
    (hfits : (((next (w.shared.chain ⟨0⟩) a).trade 1).all fun t => sampleDocket.Fits t) = true) :
    (replica sampleDocket sees).admits w (.chain a) := ⟨ha, fits_of_all hfits⟩

/-- Every read of the chain is answered by it as it is, and nothing fails. -/
def asItIs (s : Shared) : Effect → Choice
  | .ask (.getTradeStatus c tradeId) | .ask (.getTradeStatusStrict c tradeId) =>
    { onChain := ((s.chain c).trade tradeId).map decodeTradeStatus }
  | _ => {}

theorem asItIs_fresh (s : Shared) (e : Effect) : Fresh s (asItIs s e) e := by
  cases e with
  | ask query =>
    cases query with
    | getTradeStatus c tradeId => exact .inr ⟨s.chain, .head _, rfl⟩
    | getTradeStatusStrict c tradeId => exact .inr rfl
    | _ => trivial
  | _ => trivial

end Lolipay.Coordinator.Replica
