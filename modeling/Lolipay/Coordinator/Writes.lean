import Lolipay.Coordinator.Orders

namespace Lolipay.Coordinator.Writes

open Lolipay.Ledger.Storage Lolipay.Ledger.Invocation Lolipay.Escrow.Types
open Lolipay.Coordinator.Orders

def settledAs : ResolveOutcome → Status
  | .release => .released
  | .refund => .refunded

/-- A chain state that a service found ahead of the row it had read. -/
structure Advance where
  seen : OrderStatus
  onChain : TradeOnChain
  ahead : isAhead (statusMap onChain.status) seen = true

/-- Every update statement on a single order row outside the verdicts. -/
inductive RowWrite where
  /-- `refreshOrderStatus`; `stamps` says that the row it read had no `disputeAt`. -/
  | refresh (a : Advance) (stamps : Bool)
  /-- The promotion inside `cancelOrder`. -/
  | promote (a : Advance)
  | cancel
  | expire
  | autoRefund (hash : TxHash) (settlement : Option TradeOnChain)
  | attest
  /-- The indexer's update for an event that names its target. -/
  | land (target : Status) (onChain : Option TradeOnChain) (hash : Option TxHash)
  | backfillSettlementHash (outcome : ResolveOutcome) (hash : TxHash)
  /-- A disputed event before settlement; `stamp` is a filing date to keep. -/
  | dispute (stamp : Option ℕ)
  /-- A disputed event on a settled row. -/
  | reopen (stamp : Option ℕ)
  | reconcileDisputeMetadata (raiser : Address) (role : Disputer)

/-- The `where` clause of the statement, besides the id. -/
def RowWrite.matchesRow : RowWrite → Order → Bool
  | .refresh a _, row => row.status = a.seen
  | .promote _, _ => true
  | .cancel, row | .expire, row => preChainStatuses.contains row.status
  | .autoRefund _ _, row | .attest, row => row.status = .funded
  | .land target _ _, row => (statusBefore target).contains row.status
  | .backfillSettlementHash outcome _, row =>
    row.status = statusMap (settledAs outcome) && row.settlementTxHash = none
  | .dispute _, row => (statusBefore .disputed).contains row.status
  | .reopen _, row => row.status = .released || row.status = .refunded
  | .reconcileDisputeMetadata _ _, _ => true

/-- What the indexer copies from the chain beside a settled status. -/
def landSettlement (outcome : Status) (onChain : Option TradeOnChain) (hash : Option TxHash)
    (now : ℕ) (row : Order) : Order :=
  { row with
    settledStatus := some (statusMap outcome)
    settledAt := some (settledDate (onChain.elim 0 (·.settledAt)) now)
    postSettleDeadline :=
      (truthy (onChain.bind (·.postSettleDeadline))).orElse fun _ => row.postSettleDeadline
    settlementTxHash := hash.orElse fun _ => row.settlementTxHash }

def RowWrite.data (now : ℕ) : RowWrite → Order → Order
  | .refresh a stamps, row =>
    let row := settlementFieldsFrom a.onChain now (row.setStatus (statusMap a.onChain.status))
    if a.onChain.status = .disputed ∧ stamps then { row with disputeAt := some now } else row
  | .promote a, row =>
    settlementFieldsFrom a.onChain now (row.setStatus (statusMap a.onChain.status))
  | .cancel, row => row.setStatus .cancelled
  | .expire, row => row.setStatus .expired
  | .autoRefund hash settlement, row =>
    let row := { row.setStatus .refunded with
      settledStatus := some .refunded
      settledAt := some now
      settlementTxHash := some hash }
    settlement.elim row fun after => settlementFieldsFrom after now row
  | .attest, row => row.setStatus .fiatPaid
  | .land target onChain hash, row =>
    let row := row.setStatus (statusMap target)
    if target = .released ∨ target = .refunded then landSettlement target onChain hash now row
    else row
  | .backfillSettlementHash _ hash, row => { row with settlementTxHash := some hash }
  | .dispute stamp, row | .reopen stamp, row =>
    { row.setStatus .disputed with disputeAt := some (stamp.getD now) }
  | .reconcileDisputeMetadata raiser role, row =>
    { row with
      onChainDisputedBy := some raiser
      resolverDisputed := role = .resolver || row.resolverDisputed }

def RowWrite.run (now : ℕ) (w : RowWrite) (row : Order) : Option Order :=
  if w.matchesRow row then some (w.data now row) else none

def closeDisputeRound (now : ℕ) (row : Order) : Order :=
  if row.disputeBy = none ∧ row.onChainDisputedBy = none then row
  else
    { row with
      disputeBy := none
      disputeReason := none
      disputeNote := none
      onChainDisputedBy := none
      resolverDisputed := false
      disputeClosedAt := some now }

/-- A chain state in which the trade is settled. -/
structure Settled where
  onChain : TradeOnChain
  outcome : ResolveOutcome
  settled : onChain.status = settledAs outcome

/-- The verdict of a `resolved` event as the indexer is about to write it. -/
inductive Verdict where
  | preSettle (outcome : ResolveOutcome) (onChain : Option TradeOnChain) (hash : Option TxHash)
  | postSettle (outcome : ResolveOutcome) (settled : Settled)

def Verdict.outcome : Verdict → ResolveOutcome
  | .preSettle outcome _ _ => outcome
  | .postSettle outcome _ => outcome

def Verdict.target : Verdict → Status
  | .preSettle outcome _ _ => settledAs outcome
  | .postSettle _ settled => settled.onChain.status

def Verdict.matchesRow : Verdict → Order → Bool
  | .preSettle outcome _ _, row =>
    ((statusBefore (settledAs outcome)).contains row.status ||
      row.status = statusMap (settledAs outcome)) && row.resolution = none
  | .postSettle _ _, _ => true

def Verdict.data (now : ℕ) : Verdict → Order → Order
  | .preSettle outcome onChain hash, row =>
    { landSettlement (settledAs outcome) onChain hash now
        (row.setStatus (statusMap (settledAs outcome))) with
      resolution := some outcome }
  | .postSettle outcome settled, row =>
    let row := { row.setStatus (statusMap settled.onChain.status) with
      settledStatus := some (statusMap settled.onChain.status)
      settledAt := some (settledDate settled.onChain.settledAt now)
      postSettleDeadline :=
        (truthy settled.onChain.postSettleDeadline).orElse fun _ => row.postSettleDeadline
      resolution := some outcome }
    match settled.onChain.liabilityEstablished, settled.onChain.slashDeadline with
    | some established, some deadline =>
      { row with liabilityEstablished := established, slashDeadline := some deadline }
    | _, _ => row

def Verdict.run (now : ℕ) (v : Verdict) (row : Order) : Option Order :=
  if v.matchesRow row then some (closeDisputeRound now (v.data now row)) else none

def userLostDispute (flow : Flow) (resolution : ResolveOutcome) : Bool :=
  (flow = .topUp && resolution = .refund) || (flow = .withdraw && resolution = .release)

def providerLostDispute (flow : Flow) (resolution : ResolveOutcome) : Bool :=
  (flow = .topUp && resolution = .release) || (flow = .withdraw && resolution = .refund)

end Lolipay.Coordinator.Writes
