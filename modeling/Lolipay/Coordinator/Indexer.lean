import Lolipay.Coordinator.Services

namespace Lolipay.Coordinator.Indexer

open Lolipay.Ledger.Storage Lolipay.Ledger.Invocation Lolipay.Async.Process
open Lolipay.Escrow.Types
open Lolipay.Coordinator.Orders Lolipay.Coordinator.Binding Lolipay.Coordinator.Writes
open Lolipay.Coordinator.Database

/-- What the indexer decodes from the topics and the value of an event. A value
that does not decode, or lacks the field, is `none`; `other` stands for every
name that is not the escrow's. -/
inductive EventBody where
  | tradeCreated
  | fiatPaid
  | released
  | earlyReleased
  | refunded
  | disputed (raiser : Option Address)
  | resolved (released : Option Bool) (postSettle : Bool)
  | other
  deriving DecidableEq, Repr

structure RpcEvent where
  id : Option EventId
  body : EventBody
  tradeId : TradeId
  contractId : Option Address
  txHash : Option TxHash
  deriving DecidableEq, Repr

/-- The statuses of the table `EVENT_STATUS` that `applyEvent` itself writes. -/
def eventStatus : EventBody → Option Status
  | .tradeCreated => some .funded
  | .fiatPaid => some .fiatPaid
  | .released | .earlyReleased => some .released
  | .refunded => some .refunded
  | .disputed _ => some .disputed
  | .resolved _ _ | .other => none

def outcomeOf : Status → Option ResolveOutcome
  | .released => some .release
  | .refunded => some .refund
  | .funded | .fiatPaid | .disputed => none

theorem outcomeOf_eq {s : Status} {o : ResolveOutcome} (h : outcomeOf s = some o) :
    s = settledAs o := by
  cases s <;> simp_all [outcomeOf] <;> subst h <;> rfl

def attributeDisputer (raiser userAddress : Address) (lpWallet : Option Address) : Disputer :=
  if raiser = userAddress then .user
  else if lpWallet = some raiser then .lp
  else .resolver

/-- The date under which a dispute is entered, if the filing already has one. -/
def disputeStampFor (order : Order) : Option ℕ :=
  if order.disputeBy.isSome then order.disputeAt else none

def bindTradeToOrder (contractId : Address) (order : Order) : Service Bool := do
  let trade ← ask (.getTradeStatusStrict contractId order.tradeId)
  match trade with
  | none => .fail
  | some none => .pure false
  | some (some trade) =>
    .pure (verifyTradeMatchesOrder trade order.toOrderBindingFields = [])

def backfillSettlementHash (id : OrderId) (outcome : ResolveOutcome) (hash : TxHash) :
    Service ℕ := do
  let _ ← update id (.backfillSettlementHash outcome hash)
  .pure 0

/-- A settling update that matched no row leaves the transaction hash to whoever won. -/
def hashAfterLostRace (id : OrderId) (target : Status) (hash : Option TxHash) : Service ℕ :=
  match outcomeOf target, hash with
  | some outcome, some hash => do
    let fresh ← ask (.findOrder id)
    match fresh with
    | none => .pure 0
    | some fresh =>
      if fresh.status = statusMap target ∧ fresh.settlementTxHash = none then
        backfillSettlementHash id outcome hash
      else .pure 0
  | _, _ => .pure 0

/-- The chain state beside a settling event, which only dates the settlement. -/
def settlementRead (contractId : Address) (order : Order) (target : Status) :
    Service (Option TradeOnChain) :=
  if (outcomeOf target).isSome then ask (.getTradeStatus contractId order.tradeId)
  else .pure none

def applyStatusEvent (contractId : Address) (hash : Option TxHash) (id : OrderId) (order : Order)
    (target : Status) : Service ℕ :=
  match outcomeOf target, hash with
  | some outcome, some h =>
    if order.status = statusMap target ∧ order.settlementTxHash = none then
      backfillSettlementHash id outcome h
    else advance
  | _, _ => advance
where
  advance : Service ℕ :=
    if (statusBefore target).contains order.status then do
      let onChain ← settlementRead contractId order target
      let count ← update id (.land target onChain hash)
      if count = 0 then hashAfterLostRace id target hash else .pure 1
    else .pure 0

def reconcileDisputeMetadata (id : OrderId) (raiser : Option Address) : Service Unit :=
  match raiser with
  | none => .pure ()
  | some raiser => do
    let fresh ← ask (.findOrder id)
    match fresh with
    | none => .pure ()
    | some fresh =>
      let role := attributeDisputer raiser fresh.userAddress fresh.lpWallet
      let _ ← update id (.reconcileDisputeMetadata raiser role)
      .pure ()

/-- The update of a disputed event; only the process whose update matched goes
on to the attribution. -/
def enterDispute (id : OrderId) (w : RowWrite) (raiser : Option Address) : Service ℕ := do
  let count ← update id w
  if count = 0 then .pure 0
  else do
    reconcileDisputeMetadata id raiser
    .pure 1

def applyDisputedEvent (contractId : Address) (raiser : Option Address) (id : OrderId)
    (order : Order) : Service ℕ :=
  if order.status = .released ∨ order.status = .refunded then do
    let onChain ← ask (.getTradeStatusStrict contractId order.tradeId)
    match onChain with
    | none => .fail
    | some onChain =>
      if onChain.map (·.status) = some .disputed then
        enterDispute id (.reopen (disputeStampFor order)) raiser
      else .pure 0
  else enterDispute id (.dispute (disputeStampFor order)) raiser

def accrueDisputeLossIfApplicable (id : OrderId) (order : Order) (resolution : ResolveOutcome) :
    Service Unit :=
  if providerLostDispute order.flow resolution then issue (Effect.accrueProviderLoss id)
  else if userLostDispute order.flow resolution then
    issue (Effect.recordDisputeLost order.userAddress id)
  else .pure ()

def applyVerdict (event : EventId) (id : OrderId) (order : Order) (v : Verdict) : Service ℕ := do
  let res ← issue (Effect.verdict event id v)
  match res with
  | none => .fail
  | some (replay, written) =>
    if replay ∨ written = 0 then .pure 0
    else do
      accrueDisputeLossIfApplicable id order v.outcome
      .pure 1

/-- A verdict after settlement. One that comes while a later round is open is
only recorded as decided. -/
def applyPostVerdict (contractId : Address) (event : EventId) (id : OrderId) (order : Order)
    (outcome : ResolveOutcome) : Service ℕ := do
  let settled ← ask (.getTradeStatusStrict contractId order.tradeId)
  match settled with
  | none => .fail
  | some none => .pure 0
  | some (some settled) =>
    match h : outcomeOf settled.status with
    | none =>
      let _ ← (attempt (.claimEvent event) fun r => r : Service Bool)
      .pure 0
    | some final =>
      applyVerdict event id order (.postSettle outcome ⟨settled, final, outcomeOf_eq h⟩)

def resolutionOf (released : Bool) : ResolveOutcome := if released then .release else .refund

def applyResolvedEvent (contractId : Address) (ev : RpcEvent) (released : Option Bool)
    (postSettle : Bool) (id : OrderId) (order : Order) : Service ℕ :=
  match ev.id, released with
  | none, _ => .fail
  | some _, none => .pure 0
  | some event, some released =>
    if postSettle then applyPostVerdict contractId event id order (resolutionOf released)
    else do
      let onChain ← ask (.getTradeStatus contractId order.tradeId)
      applyVerdict event id order (.preSettle (resolutionOf released) onChain ev.txHash)

def handleEvent (contractId : Address) (ev : RpcEvent) (id : OrderId) (order : Order) :
    Service ℕ :=
  match ev.body with
  | .resolved released postSettle =>
    applyResolvedEvent contractId ev released postSettle id order
  | .disputed raiser => applyDisputedEvent contractId raiser id order
  | body =>
    match eventStatus body with
    | none => .pure 0
    | some target => applyStatusEvent contractId ev.txHash id order target

def applyEvent (home : Address) (ev : RpcEvent) : Service ℕ :=
  if ev.body = .other then .pure 0
  else do
    let found ← ask (.findOrderByTradeId ev.tradeId)
    match found, ev.contractId with
    | some (id, order), some contractId =>
      if contractId = contractIdFor order.toPlacement home then
        if notYetBoundOnChain order.status then do
          let bound ← bindTradeToOrder contractId order
          if bound then handleEvent contractId ev id order else .pure 0
        else handleEvent contractId ev id order
      else .pure 0
    | _, _ => .pure 0

end Lolipay.Coordinator.Indexer
