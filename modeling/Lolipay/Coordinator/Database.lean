import Lolipay.Async.Process
import Lolipay.Coordinator.Writes

namespace Lolipay.Coordinator.Database

open Lolipay.Ledger.Storage Lolipay.Ledger.Invocation Lolipay.Async.Process
open Lolipay.Escrow.Types Lolipay.Coordinator.Orders Lolipay.Coordinator.Writes

inductive LpStatus where
  | pending
  | approved
  | suspended
  | revoked
  deriving DecidableEq, Repr

inductive Rail where
  | bank
  | qris
  | ewallet
  deriving DecidableEq, Repr

structure Lp where
  stellarAddress : Address
  status : LpStatus
  approvalNote : Option String
  liquidityProof : String
  contact : String
  disputesLost : ℤ
  deriving DecidableEq, Repr

structure Quote where
  userAddress : Address
  flow : Flow
  rail : Rail
  usdcAmount : ℤ
  fiatAmount : ℤ
  fiatCurrency : String
  platformFeeBps : ℤ
  lpFeeBps : ℤ
  expiresAt : ℕ
  usedAt : Option ℕ
  deriving DecidableEq, Repr

inductive UserTier where
  | bronze
  | silver
  | trusted
  | gold
  deriving DecidableEq, Repr

/-- The platform's settings row; `dailyLimitByTier` holds the entries that are
usable numbers, rounded. The smallest order is positive: the database's default
is, and the admin form takes no other. -/
structure PlatformConfig where
  paused : Bool
  autoRefund : Bool
  platformWallet : Option Address
  minOrder : ℤ
  maxOrder : ℤ
  payWindowSecs : ℕ
  confirmWindowSecs : ℕ
  disputeWindowSecs : ℕ
  dailyLimitByTier : UserTier → Option ℕ
  minOrder_pos : 0 < minOrder

/-- The tables that the services share. `userProfiles` holds `disputesLost`. -/
structure Db where
  orders : Store OrderId Order
  indexedEvents : Store EventId ℕ
  lps : Store LpId Lp
  userProfiles : Store Address ℤ
  quotes : Store QuoteId Quote

/-- A provider that could take an order, with the orders it has open and the
payment method it would use. -/
structure Candidate where
  id : LpId
  stellarAddress : Address
  openOrders : ℕ
  paymentMethodId : ℕ
  deriving DecidableEq, Repr

structure StakeInfo where
  staked : ℤ
  eligible : Bool
  deriving DecidableEq, Repr

inductive Query where
  | clock
  | findOrder (id : OrderId)
  | findOrderByTradeId (tradeId : TradeId)
  | findStale (cutoff : ℤ)
  | findRefundable (nowSecs : ℤ)
  | latestLedgerCloseTime
  | getTradeStatus (contractId : Address) (tradeId : TradeId)
  | getTradeStatusStrict (contractId : Address) (tradeId : TradeId)
  | submitRefund (contractId : Address) (tradeId : TradeId)
  | submitAttestation (contractId : Address) (tradeId : TradeId) (notAfter : ℤ)
  | findLp (id : LpId)
  | findReachable (id : LpId)
  | findQuote (id : QuoteId)
  | getConfig
  | personIdFor (address : Address)
  | getReputation (personId : PersonId)
  | used24h (personId : PersonId)
  | identityVerified (personId : PersonId)
  | marketEnabled (fiat : String)
  | walletsOf (personId : PersonId)
  | findMatchable (rail : Rail) (fiat : String)
  | getStakeInfo (address : Address)
  | lpExposure (lpId : LpId) (nowSec : ℤ)
  | hasUsdcTrustline (address : Address)
  | newTradeId

/-- The replies; the outer `Option` of a call to another service is `none`
when the call throws. -/
@[reducible] def Query.Reply : Query → Type
  | .clock => ℕ
  | .findOrder _ => Option Order
  | .findOrderByTradeId _ => Option (OrderId × Order)
  | .findStale _ | .findRefundable _ => List (OrderId × Order)
  | .latestLedgerCloseTime => Option ℕ
  | .getTradeStatus _ _ => Option TradeOnChain
  | .getTradeStatusStrict _ _ => Option (Option TradeOnChain)
  | .submitRefund _ _ | .submitAttestation _ _ _ => Option TxHash
  | .findLp _ => Option Lp
  | .findReachable _ => List OrderId
  | .findQuote _ => Option Quote
  | .getConfig => PlatformConfig
  | .personIdFor _ => Option PersonId
  | .getReputation _ => UserTier
  | .used24h _ | .lpExposure _ _ => ℤ
  | .identityVerified _ | .marketEnabled _ => Bool
  | .walletsOf _ => List Address
  | .findMatchable _ _ => List Candidate
  | .getStakeInfo _ => Option StakeInfo
  | .hasUsdcTrustline _ => Option Bool
  | .newTradeId => TradeId

/-- An advisory lock: one space of keys for persons, one for providers. -/
inductive LockKey where
  | person (hash : ℤ)
  | lpCapacity (hash : ℤ)
  deriving DecidableEq, Repr

inductive Effect where
  | ask (q : Query)
  | write (id : OrderId) (w : RowWrite)
  | claimEvent (event : EventId)
  | verdict (event : EventId) (id : OrderId) (v : Verdict)
  | accrueProviderLoss (id : OrderId)
  | recordDisputeLost (address : Address) (id : OrderId)
  | setLpStatus (id : LpId) (seen : Lp) (status : LpStatus) (note : Option String)
      (reachable : List OrderId)
  | begin
  | lock (key : LockKey)
  | consumeQuote (id : QuoteId)
  | createOrderRow (data : Placement) (needsRef : Bool)
  | commit
  | rollback

inductive Inserted where
  | row (id : OrderId)
  | uniqueViolation
  deriving DecidableEq, Repr

/-- An outer `none` is a statement or a transaction that threw and was rolled back. -/
@[reducible] def Reply : Effect → Type
  | .ask q => q.Reply
  | .write _ _ => Option ℕ
  | .claimEvent _ => Option Bool
  | .verdict _ _ _ => Option (Bool × ℕ)
  | .accrueProviderLoss _ | .recordDisputeLost _ _ => Unit
  | .setLpStatus _ _ _ _ _ => Bool
  | .begin | .lock _ | .rollback => Unit
  | .consumeQuote _ => Option ℕ
  | .createOrderRow _ _ => Option Inserted
  | .commit => Bool

abbrev Service (α : Type) := Program Effect Reply α

def ask (q : Query) : Service q.Reply := .step (.ask q) .pure

/-- An update whose failure the caller does not catch. -/
def update (id : OrderId) (w : RowWrite) : Service ℕ := attempt (.write id w) fun r => r

end Lolipay.Coordinator.Database
