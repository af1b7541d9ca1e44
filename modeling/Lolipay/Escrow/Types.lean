import Lolipay.Ledger.Invocation

namespace Lolipay.Escrow.Types

open Lolipay.Ledger.Storage Lolipay.Ledger.Invocation

abbrev TradeId := BitVec 256

inductive Status where
  | funded
  | fiatPaid
  | released
  | refunded
  | disputed
  deriving DecidableEq, Repr

inductive Flow where
  | topUp
  | withdraw
  deriving DecidableEq, Repr

inductive ResolveOutcome where
  | release
  | refund
  deriving DecidableEq, Repr

/-- The part of a trade record that `createTrade` writes and nothing updates. -/
structure Terms where
  usdcProvider : Address
  usdcRecipient : Address
  confirmer : Address
  usdcToken : Address
  usdcAmount : ℤ
  fiatAmount : ℤ
  fiatCurrency : String
  flow : Flow
  platformFeeBps : ℕ
  lpFeeBps : ℕ
  platformWallet : Address
  lpWallet : Address
  createdAt : ℕ
  payDeadline : ℕ
  confirmDeadline : ℕ
  disputeDeadline : ℕ
  disputeWindow : ℕ
  deriving DecidableEq, Repr

structure Trade extends Terms where
  status : Status
  disputedBy : Option Address
  resolverDeadline : ℕ
  settledAt : ℕ
  hasPreDisputeStatus : Bool
  preDisputeStatus : Status
  providerPostSettleUsed : Bool
  recipientPostSettleUsed : Bool
  resolverPostSettleUsed : Bool
  postSettleDeadline : ℕ
  slashDeadline : ℕ
  liabilityEstablished : Bool
  deriving DecidableEq, Repr

/-- The accessor `pre_dispute_status()`: the recorded status counts only under its flag. -/
def Trade.preDisputeStatus? (trade : Trade) : Option Status :=
  if trade.hasPreDisputeStatus then some trade.preDisputeStatus else none

def Trade.setPreDisputeStatus (trade : Trade) : Option Status → Trade
  | some s => { trade with hasPreDisputeStatus := true, preDisputeStatus := s }
  | none => { trade with hasPreDisputeStatus := false, preDisputeStatus := .funded }

/-- The status that says who has the principal: a dispute hides it behind the record. -/
def Trade.effective (trade : Trade) : Status := trade.preDisputeStatus?.getD trade.status

def Trade.settled (trade : Trade) (status : Status) (now deadline : ℕ) : Trade :=
  { trade with
    status
    settledAt := now
    postSettleDeadline := deadline
    slashDeadline := deadline }

structure DisputeView where
  isDisputed : Bool
  provider : Address
  recipient : Address
  amount : ℤ
  preSettlement : Bool
  released : Bool
  postSettleRaised : Bool
  liabilityEstablished : Bool
  slashDeadline : ℕ
  deriving DecidableEq, Repr

structure Config where
  admin : Address
  usdcToken : Address
  resolver : Address
  defaultPlatformFeeBps : ℕ
  defaultPlatformWallet : Address
  paused : Bool
  disputeWindow : ℕ
  fiatAttestor : Address
  earlyReleaseProviders : List Address
  deriving DecidableEq, Repr

inductive Error where
  | alreadyInitialized
  | notInitialized
  | paused
  | tradeExists
  | tradeNotFound
  | invalidAmount
  | invalidFee
  | invalidDeadlines
  | invalidState
  | deadlinePassed
  | deadlineNotReached
  | unauthorized
  | notDisputed
  | tokenImmutable
  | walletImmutable
  | invalidRoles
  | invalidConfig
  | disputeWindowPassed
  | alreadyResolved
  | earlyReleaseNotAllowed
  | disputeNotAllowed
  deriving DecidableEq, Repr

def Error.code : Error → ℕ
  | .alreadyInitialized => 1
  | .notInitialized => 2
  | .paused => 3
  | .tradeExists => 4
  | .tradeNotFound => 5
  | .invalidAmount => 6
  | .invalidFee => 7
  | .invalidDeadlines => 8
  | .invalidState => 9
  | .deadlinePassed => 10
  | .deadlineNotReached => 11
  | .unauthorized => 12
  | .notDisputed => 13
  | .tokenImmutable => 14
  | .walletImmutable => 15
  | .invalidRoles => 16
  | .invalidConfig => 17
  | .disputeWindowPassed => 18
  | .alreadyResolved => 19
  | .earlyReleaseNotAllowed => 20
  | .disputeNotAllowed => 21

inductive Event where
  | tradeCreated (tradeId : TradeId) (usdcAmount : ℤ)
  | configChanged (admin resolver : Address)
  | pausedSet (paused : Bool)
  | fiatPaid (tradeId : TradeId)
  | released (tradeId : TradeId) (net platformFee lpFee : ℤ)
  | refunded (tradeId : TradeId) (amount : ℤ)
  | disputed (tradeId : TradeId) (raiser : Address)
  | resolved (tradeId : TradeId) (released postSettle : Bool)
  | earlyReleased (tradeId : TradeId) (net platformFee lpFee : ℤ)
  deriving DecidableEq, Repr

/-- The contract's instance entry and its persistent trade entries. Entry
lifetimes are not modelled: an archived entry is restored before it is read. -/
structure Contents where
  config : Option Config
  trades : Store TradeId Trade

abbrev EscrowHost := Host Contents Event

end Lolipay.Escrow.Types
