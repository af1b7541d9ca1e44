import Lolipay.Escrow.Types

namespace Lolipay.Staking.Types

open Lolipay.Ledger.Storage Lolipay.Ledger.Invocation
open Lolipay.Escrow.Types (TradeId DisputeView)

structure StakeInfo where
  staked : ℤ
  unbonding : ℤ
  unbondAvailableAt : ℕ
  deriving DecidableEq, Repr

structure Config where
  admin : Address
  usdcToken : Address
  resolver : Address
  escrowContract : Address
  minStake : ℤ
  cooldownSecs : ℕ
  paused : Bool
  deriving DecidableEq, Repr

inductive Error where
  | alreadyInitialized
  | notInitialized
  | paused
  | invalidAmount
  | insufficientStaked
  | insufficientStake
  | nothingToClaim
  | cooldownActive
  | unauthorized
  | tokenImmutable
  | invalidCooldown
  | tradeNotDisputed
  | notTradeParty
  | alreadySlashed
  | slashNotApplicable
  | slashWindowPassed
  | escrowUnreadable
  | verdictPending
  | noLiabilityFound
  deriving DecidableEq, Repr

inductive Event where
  | staked (lp : Address) (amount totalStaked : ℤ)
  | unstakeRequested (lp : Address) (amount : ℤ) (availableAt : ℕ)
  | unstaked (lp : Address) (amount : ℤ)
  | slashed (lp victim : Address) (amount : ℤ)
  | configChanged (admin resolver : Address)
  | pausedSet (paused : Bool)
  deriving DecidableEq, Repr

/-- What comes back when the contract asks another one for its view of a
dispute: the view, an error of that contract, or nothing that can be read. -/
inductive Reply where
  | view (v : DisputeView)
  | contractError (code : ℕ)
  | unreadable
  deriving DecidableEq, Repr

structure Contents where
  config : Option Config
  stakes : Store Address StakeInfo
  slashed : Store TradeId ℤ

abbrev StakingHost := Host Contents Event

end Lolipay.Staking.Types
