import Lolipay.Staking.Types

namespace Lolipay.Staking.Contract

open Lolipay.Ledger.Calls Lolipay.Ledger.Storage Lolipay.Ledger.Invocation Lolipay.Staking.Types
open Lolipay.Escrow.Types (TradeId DisputeView)

def maxCooldownSecs : ℕ := 90 * 24 * 60 * 60
def minCooldownSecs : ℕ := 4 * 24 * 60 * 60 + 1
def escrowTradeNotFound : ℕ := 5

def getConfig (h : StakingHost) : Outcome Error Config := okOr h.storage.config .notInitialized

def storeConfig (h : StakingHost) (cfg : Config) : StakingHost :=
  { h with storage := { h.storage with config := some cfg } }

def stakeOf (c : Contents) (lp : Address) : StakeInfo := (c.stakes.lookup lp).getD ⟨0, 0, 0⟩

def slashedOf (c : Contents) (tradeId : TradeId) : ℤ := (c.slashed.lookup tradeId).getD 0

def getStake (h : StakingHost) (lp : Address) : StakeInfo := stakeOf h.storage lp

def setStake (h : StakingHost) (lp : Address) (info : StakeInfo) : StakingHost :=
  { h with storage := { h.storage with stakes := h.storage.stakes.insert lp info } }

def slashedSoFar (h : StakingHost) (tradeId : TradeId) : ℤ := slashedOf h.storage tradeId

def addSlashed (h : StakingHost) (tradeId : TradeId) (amount : ℤ) :
    Outcome Error StakingHost := do
  let total ← addI128 (slashedSoFar h tradeId) amount
  .ok { h with storage := { h.storage with slashed := h.storage.slashed.insert tradeId total } }

def cooldownOutOfRange (cooldownSecs : ℕ) : Prop :=
  ¬(minCooldownSecs ≤ cooldownSecs ∧ cooldownSecs ≤ maxCooldownSecs)

instance (n : ℕ) : Decidable (cooldownOutOfRange n) :=
  inferInstanceAs (Decidable (¬(minCooldownSecs ≤ n ∧ n ≤ maxCooldownSecs)))

def construct (env : Env) (admin usdcToken resolver escrowContract : Address) (minStake : ℤ)
    (cooldownSecs : ℕ) : Outcome Error Config := do
  requireAuth env admin
  rejectIf (cooldownOutOfRange cooldownSecs) .invalidCooldown
  rejectIf (minStake ≤ 0) .invalidAmount
  .ok { admin, usdcToken, resolver, escrowContract, minStake, cooldownSecs, paused := false }

/-- Both immutable addresses are guarded by the same error of the source. -/
def setConfig (env : Env) (h : StakingHost) (newConfig : Config) : Outcome Error StakingHost := do
  let cfg ← getConfig h
  requireAuth env cfg.admin
  requireAuth env newConfig.admin
  rejectIf (newConfig.usdcToken ≠ cfg.usdcToken) .tokenImmutable
  rejectIf (newConfig.escrowContract ≠ cfg.escrowContract) .tokenImmutable
  rejectIf (cooldownOutOfRange newConfig.cooldownSecs) .invalidCooldown
  rejectIf (newConfig.minStake ≤ 0) .invalidAmount
  .ok ((storeConfig h newConfig).publish (.configChanged newConfig.admin newConfig.resolver))

def setPaused (env : Env) (h : StakingHost) (paused : Bool) : Outcome Error StakingHost := do
  let cfg ← getConfig h
  requireAuth env cfg.admin
  .ok ((storeConfig h { cfg with paused }).publish (.pausedSet paused))

def stake (env : Env) (h : StakingHost) (lp : Address) (amount : ℤ) :
    Outcome Error StakingHost := do
  let cfg ← getConfig h
  rejectIf cfg.paused .paused
  rejectIf (amount ≤ 0) .invalidAmount
  requireAuth env lp
  let info := getStake h lp
  let staked ← addI128 info.staked amount
  let h := setStake h lp { info with staked }
  let h ← h.transfer env ⟨cfg.usdcToken, lp, env.contract, amount⟩
  .ok (h.publish (.staked lp amount staked))

def available (h : StakingHost) (lp : Address) : ℤ := (getStake h lp).staked

/-- Only the escrow's own "trade not found" counts as an answer that there is no trade. -/
def readDispute : Reply → Outcome Error (Option DisputeView)
  | .view v => .ok (some v)
  | .contractError code =>
    if code = escrowTradeNotFound then .ok none else .error (.error .escrowUnreadable)
  | .unreadable => .error (.error .escrowUnreadable)

def isEligible (h : StakingHost) (lp : Address) : Outcome Error Bool := do
  let cfg ← getConfig h
  .ok ((getStake h lp).staked ≥ cfg.minStake)

def requestUnstake (env : Env) (h : StakingHost) (lp : Address) (amount : ℤ) :
    Outcome Error StakingHost := do
  let cfg ← getConfig h
  rejectIf (amount ≤ 0) .invalidAmount
  requireAuth env lp
  let info := getStake h lp
  rejectIf (amount > info.staked) .insufficientStaked
  let staked ← subI128 info.staked amount
  let unbonding ← addI128 info.unbonding amount
  let cooled ← addU64 env.timestamp cfg.cooldownSecs
  let availableAt := max info.unbondAvailableAt cooled
  .ok ((setStake h lp ⟨staked, unbonding, availableAt⟩).publish
    (.unstakeRequested lp amount availableAt))

def claimUnstake (env : Env) (h : StakingHost) (lp : Address) : Outcome Error StakingHost := do
  let cfg ← getConfig h
  requireAuth env lp
  let info := getStake h lp
  rejectIf (info.unbonding ≤ 0) .nothingToClaim
  rejectIf (env.timestamp < info.unbondAvailableAt) .cooldownActive
  let amount := info.unbonding
  let h := setStake h lp { info with unbonding := 0 }
  let h ← h.transfer env ⟨cfg.usdcToken, env.contract, lp, amount⟩
  .ok (h.publish (.unstaked lp amount))

/-- Who pays and who is paid: the settlement left the money with the first. -/
def culpritAndVictim (view : DisputeView) : Address × Address :=
  if view.released then (view.recipient, view.provider) else (view.provider, view.recipient)

/-- Stake is taken first, then what is already unbonding. -/
def takeStake (info : StakeInfo) (amount : ℤ) : Outcome Error StakeInfo :=
  if amount ≤ info.staked then do
    let staked ← subI128 info.staked amount
    .ok { info with staked }
  else do
    let fromUnbonding ← subI128 amount info.staked
    let unbonding ← subI128 info.unbonding fromUnbonding
    .ok { info with staked := 0, unbonding }

def resetTimer (info : StakeInfo) : StakeInfo :=
  if info.unbonding = 0 then { info with unbondAvailableAt := 0 } else info

/-- `escrow` is what the other contracts on the ledger answer to `dispute_view`. -/
def slash (env : Env) (escrow : Address → TradeId → Reply) (h : StakingHost) (lp : Address)
    (tradeId : TradeId) (amount : ℤ) (caller : Address) : Outcome Error StakingHost := do
  let cfg ← getConfig h
  rejectIf (caller ≠ cfg.resolver ∧ caller ≠ cfg.admin) .unauthorized
  requireAuth env caller
  rejectIf (amount ≤ 0) .invalidAmount
  let found ← readDispute (escrow cfg.escrowContract tradeId)
  let view ← okOr found .tradeNotDisputed
  rejectIf view.preSettlement .slashNotApplicable
  rejectIf (¬view.postSettleRaised) .tradeNotDisputed
  rejectIf (¬view.liabilityEstablished)
    (if view.isDisputed then .verdictPending else .noLiabilityFound)
  rejectIf (env.timestamp > view.slashDeadline) .slashWindowPassed
  rejectIf (lp ≠ view.provider ∧ lp ≠ view.recipient) .notTradeParty
  let (culprit, victim) := culpritAndVictim view
  rejectIf (lp ≠ culprit) .slashNotApplicable
  let already := slashedSoFar h tradeId
  rejectIf (already ≥ view.amount) .alreadySlashed
  let remaining ← subI128 view.amount already
  rejectIf (amount > remaining) .invalidAmount
  let info := getStake h lp
  let bonded ← addI128 info.staked info.unbonding
  rejectIf (amount > bonded) .insufficientStake
  let taken ← takeStake info amount
  let h := setStake h lp (resetTimer taken)
  let h ← addSlashed h tradeId amount
  let h ← h.transfer env ⟨cfg.usdcToken, env.contract, victim, amount⟩
  .ok (h.publish (.slashed lp victim amount))

end Lolipay.Staking.Contract
