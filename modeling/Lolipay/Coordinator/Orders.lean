import Lolipay.Escrow.Types

namespace Lolipay.Coordinator.Orders

open Lolipay.Ledger.Storage Lolipay.Ledger.Invocation Lolipay.Escrow.Types

abbrev OrderId := ℕ

abbrev PersonId := ℕ

abbrev LpId := ℕ

abbrev QuoteId := ℕ

abbrev EventId := ℕ

/-- The clock of the coordinator, which counts milliseconds, as the contracts count. -/
def nowSecs (now : ℕ) : ℤ := (now / 1000 : ℕ)

abbrev TxHash := BitVec 256

inductive OrderStatus where
  | created
  | matched
  | awaitingOnchain
  | funded
  | fiatPaid
  | released
  | refunded
  | disputed
  | expired
  | cancelled
  deriving DecidableEq, Repr

/-- The names under which the coordinator knows the escrow's states. -/
def statusMap : Status → OrderStatus
  | .funded => .funded
  | .fiatPaid => .fiatPaid
  | .released => .released
  | .refunded => .refunded
  | .disputed => .disputed

def boundOnChain : List OrderStatus := [.funded, .fiatPaid, .disputed, .released, .refunded]

def notYetBoundOnChain (status : OrderStatus) : Bool := !boundOnChain.contains status

theorem bound_statusMap (st : Status) : notYetBoundOnChain (statusMap st) = false := by
  cases st <;> rfl

def refreshFromChainStatuses : List OrderStatus :=
  [.matched, .awaitingOnchain, .funded, .fiatPaid, .disputed]

def preChainStatuses : List OrderStatus := [.created, .matched, .awaitingOnchain]

def statusOrder : List OrderStatus :=
  [.created, .matched, .awaitingOnchain, .funded, .fiatPaid, .disputed, .released, .refunded,
    .expired, .cancelled]

def isAhead (newStatus currentStatus : OrderStatus) : Bool :=
  statusOrder.idxOf currentStatus < statusOrder.idxOf newStatus

/-- The statuses from which an event may still take a row to its target. -/
def statusBefore : Status → List OrderStatus
  | .funded => [.created, .matched, .awaitingOnchain, .expired, .cancelled]
  | .fiatPaid => [.created, .matched, .awaitingOnchain, .funded, .expired, .cancelled]
  | .disputed =>
    [.created, .matched, .awaitingOnchain, .funded, .fiatPaid, .expired, .cancelled]
  | .released | .refunded =>
    [.created, .matched, .awaitingOnchain, .funded, .fiatPaid, .disputed, .expired, .cancelled]

def volumeExcludedStatuses : List OrderStatus := [.expired, .cancelled, .refunded]

/-- What the coordinator decodes from `get_trade`. A field that is missing or
cannot be decoded is `none`. -/
structure TradeOnChain where
  status : Status
  settledAt : ℕ
  usdcAmount : Option ℤ
  fiatAmount : Option ℤ
  fiatCurrency : Option String
  flow : Option ℤ
  usdcProvider : Option Address
  usdcRecipient : Option Address
  confirmer : Option Address
  platformWallet : Option Address
  lpWallet : Option Address
  platformFeeBps : Option ℤ
  lpFeeBps : Option ℤ
  payDeadline : Option ℤ
  confirmDeadline : Option ℤ
  disputeDeadline : Option ℤ
  postSettleDeadline : Option ℤ
  slashDeadline : Option ℤ
  liabilityEstablished : Option Bool
  deriving DecidableEq, Repr

def flowDiscriminant : Flow → ℤ
  | .topUp => 0
  | .withdraw => 1

/-- An empty string counts as missing. -/
def asString (s : String) : Option String := if s.isEmpty then none else some s

def decodeTradeStatus (t : Trade) : TradeOnChain where
  status := t.status
  settledAt := t.settledAt
  usdcAmount := some t.usdcAmount
  fiatAmount := some t.fiatAmount
  fiatCurrency := asString t.fiatCurrency
  flow := some (flowDiscriminant t.flow)
  usdcProvider := some t.usdcProvider
  usdcRecipient := some t.usdcRecipient
  confirmer := some t.confirmer
  platformWallet := some t.platformWallet
  lpWallet := some t.lpWallet
  platformFeeBps := some t.platformFeeBps
  lpFeeBps := some t.lpFeeBps
  payDeadline := some t.payDeadline
  confirmDeadline := some t.confirmDeadline
  disputeDeadline := some t.disputeDeadline
  postSettleDeadline := some t.postSettleDeadline
  slashDeadline := some t.slashDeadline
  liabilityEstablished := some t.liabilityEstablished

structure OrderBindingFields where
  flow : Flow
  userAddress : Address
  lpWallet : Option Address
  usdcAmount : ℤ
  fiatAmount : ℤ
  fiatCurrency : String
  platformFeeBps : ℤ
  lpFeeBps : ℤ
  platformWallet : Address
  payDeadline : ℤ
  confirmDeadline : ℤ
  disputeDeadline : ℤ
  deriving DecidableEq, Repr

/-- The part of an order row that its creation writes and nothing updates. -/
structure Placement extends OrderBindingFields where
  tradeId : TradeId
  contractId : Option Address
  personId : PersonId
  lpId : Option LpId
  createdAt : ℕ
  expiresAt : ℕ
  ref : Option ℕ
  deriving DecidableEq, Repr

/-- Who raised a dispute, as seen from the order. -/
inductive Disputer where
  | user
  | lp
  | resolver
  deriving DecidableEq, Repr

/-- An order row; times are in milliseconds. `everExcluded` is no column: it
records whether the row was ever in a status that does not count to the daily
volume, and no service reads it. -/
structure Order extends Placement where
  status : OrderStatus
  settledAt : Option ℕ
  settledStatus : Option OrderStatus
  settlementTxHash : Option TxHash
  postSettleDeadline : Option ℤ
  slashDeadline : Option ℤ
  liabilityEstablished : Bool
  resolverDisputed : Bool
  onChainDisputedBy : Option Address
  disputeBy : Option Disputer
  disputeReason : Option String
  disputeNote : Option String
  disputeAt : Option ℕ
  disputeClosedAt : Option ℕ
  resolution : Option ResolveOutcome
  disputeLossAccrued : Bool
  everExcluded : Bool
  deriving DecidableEq, Repr

def Order.setStatus (row : Order) (status : OrderStatus) : Order :=
  { row with
    status
    everExcluded := row.everExcluded || volumeExcludedStatuses.contains status }

/-- Where the trade of an order lives; old rows do not say. -/
def contractIdFor (p : Placement) (escrowContractId : Address) : Address :=
  p.contractId.getD escrowContractId

def settledDate (settledAt now : ℕ) : ℕ := if 0 < settledAt then settledAt * 1000 else now

/-- A deadline of zero is falsy, so it is not copied. -/
def truthy (deadline : Option ℤ) : Option ℤ := deadline.filter fun d => d ≠ 0

def settlementFieldsFrom (onChain : TradeOnChain) (now : ℕ) (row : Order) : Order :=
  if onChain.status = .released ∨ onChain.status = .refunded then
    { row with
      settledStatus := some (statusMap onChain.status)
      settledAt := some (settledDate onChain.settledAt now)
      postSettleDeadline := onChain.postSettleDeadline.orElse fun _ => row.postSettleDeadline
      slashDeadline := onChain.slashDeadline.orElse fun _ => row.slashDeadline
      liabilityEstablished := onChain.liabilityEstablished.getD row.liabilityEstablished }
  else row

def Placement.opened (p : Placement) : Order where
  toPlacement := p
  status := .matched
  settledAt := none
  settledStatus := none
  settlementTxHash := none
  postSettleDeadline := none
  slashDeadline := none
  liabilityEstablished := false
  resolverDisputed := false
  onChainDisputedBy := none
  disputeBy := none
  disputeReason := none
  disputeNote := none
  disputeAt := none
  disputeClosedAt := none
  resolution := none
  disputeLossAccrued := false
  everExcluded := false

end Lolipay.Coordinator.Orders
