import Lolipay.Coordinator.Binding
import Lolipay.Coordinator.Database

namespace Lolipay.Coordinator.Services

open Lolipay.Ledger.Storage Lolipay.Ledger.Invocation Lolipay.Async.Process
open Lolipay.Escrow.Types
open Lolipay.Coordinator.Orders Lolipay.Coordinator.Binding Lolipay.Coordinator.Writes
open Lolipay.Coordinator.Database

variable (home : Address)

def staleOrderSweepGraceMs : ℤ := 60000

def attestGraceSecs : ℤ := 3600

def refundOpensAt (order : OrderBindingFields) : ℤ :=
  if order.flow ≠ .topUp then order.confirmDeadline
  else min (order.payDeadline + attestGraceSecs) order.confirmDeadline

def refreshOrderStatus (id : OrderId) (order : Order) : Service Order :=
  if refreshFromChainStatuses.contains order.status then do
    let onChain ← ask (.getTradeStatus (contractIdFor order.toPlacement home) order.tradeId)
    match onChain with
    | none => .pure order
    | some trade =>
      if tradeBindsToOrder trade order then
        if h : isAhead (statusMap trade.status) order.status then do
          let _ ← update id (.refresh ⟨order.status, trade, h⟩ order.disputeAt.isNone)
          let updated ← ask (.findOrder id)
          .pure (updated.getD order)
        else .pure order
      else .pure order
  else .pure order

def getOrder (id : OrderId) : Service Unit := do
  let order ← ask (.findOrder id)
  match order with
  | none => .fail
  | some order =>
    let _ ← refreshOrderStatus home id order
    .pure ()

/-- The chain check of `cancelOrder`: the status that the decision rests on.
The promoting update names no status in its `where` clause. -/
def statusForCancel (id : OrderId) (order : Order) : Service OrderStatus :=
  if refreshFromChainStatuses.contains order.status then do
    let onChain ← ask (.getTradeStatusStrict (contractIdFor order.toPlacement home) order.tradeId)
    match onChain with
    | none => .fail
    | some none => .pure order.status
    | some (some trade) =>
      if tradeBindsToOrder trade order then
        if h : isAhead (statusMap trade.status) order.status then do
          let count ← update id (.promote ⟨order.status, trade, h⟩)
          if count = 0 then .fail else .pure (statusMap trade.status)
        else .pure order.status
      else .pure order.status
  else .pure order.status

def providerOf (order : Order) : Service (Option Lp) :=
  match order.lpId with
  | none => .pure none
  | some lpId => ask (.findLp lpId)

def cancelOrder (id : OrderId) (callerAddress : Address) : Service Unit := do
  let order ← ask (.findOrder id)
  match order with
  | none => .fail
  | some order =>
    let lp ← providerOf order
    if order.userAddress ≠ callerAddress ∧ lp.map (·.stellarAddress) ≠ some callerAddress then
      .fail
    else do
      let currentStatus ← statusForCancel home id order
      if preChainStatuses.contains currentStatus then do
        let count ← update id .cancel
        if count = 0 then .fail else .pure ()
      else .fail

/-- One candidate of the sweep. The update stands in a `try` of its own. -/
def expireOrder (id : OrderId) (order : Order) : Service Unit := do
  let onChain ← ask (.getTradeStatusStrict (contractIdFor order.toPlacement home) order.tradeId)
  match onChain with
  | none => .pure ()
  | some none =>
    let _ ← issue (Effect.write id .expire)
    .pure ()
  | some (some trade) =>
    if verifyTradeMatchesOrder trade order.toOrderBindingFields = [] then .pure ()
    else do
      let _ ← issue (Effect.write id .expire)
      .pure ()

def forEach {α : Type} : List α → (α → Service Unit) → Service Unit
  | [], _ => .pure ()
  | x :: xs, f => do
    f x
    forEach xs f

def expireStaleOrders : Service Unit := do
  let ledgerSeenAt ← ask .latestLedgerCloseTime
  match ledgerSeenAt with
  | none => .pure ()
  | some ledgerSeenAt =>
    let now : ℕ ← ask .clock
    let candidates ← ask (.findStale (min (now : ℤ) ledgerSeenAt - staleOrderSweepGraceMs))
    forEach candidates fun c => expireOrder home c.1 c.2

def refundOrder (id : OrderId) (order : Order) : Service Unit := do
  let contractId := contractIdFor order.toPlacement home
  let onChain ← ask (.getTradeStatusStrict contractId order.tradeId)
  match onChain with
  | some (some trade) =>
    if trade.status = .funded then do
      let result ← ask (.submitRefund contractId order.tradeId)
      match result with
      | none => .pure ()
      | some hash =>
        let after ← ask (.getTradeStatusStrict contractId order.tradeId)
        let _ ← issue (Effect.write id (.autoRefund hash (after.getD none)))
        .pure ()
    else .pure ()
  | _ => .pure ()

def autoRefundExpired : Service Unit := do
  let config ← ask .getConfig
  if config.autoRefund then do
    let now : ℕ ← ask .clock
    let candidates ← ask (.findRefundable (now / 1000))
    forEach candidates fun c => refundOrder home c.1 c.2
  else .pure ()

def attestFiatPaid (id : OrderId) : Service Unit := do
  let order ← ask (.findOrder id)
  match order with
  | none => .fail
  | some order =>
    if order.flow ≠ .topUp then .fail
    else if order.status ≠ .funded then .fail
    else do
      let result ← ask (.submitAttestation (contractIdFor order.toPlacement home) order.tradeId
        (refundOpensAt order.toOrderBindingFields))
      match result with
      | none => .fail
      | some _ =>
        let _ ← update id .attest
        .pure ()

/-- The orders that a provider who stands down could still be asked to serve. -/
def reachableOrders (id : LpId) (status : LpStatus) : Service (List OrderId) :=
  if status = .suspended ∨ status = .revoked then ask (.findReachable id) else .pure []

def setStatus (id : LpId) (status : LpStatus) (note : Option String) : Service Unit := do
  let lp ← ask (.findLp id)
  match lp with
  | none => .fail
  | some lp =>
    if lp.status = status ∧ (note = none ∨ note = lp.approvalNote) then .pure ()
    else do
      let reachable ← reachableOrders id status
      let done : Bool ← issue (Effect.setLpStatus id lp status note reachable)
      demand done

end Lolipay.Coordinator.Services
