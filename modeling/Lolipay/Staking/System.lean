import Lolipay.Ledger.Deployment
import Lolipay.Staking.Contract

namespace Lolipay.Staking.System

open Lolipay.Ledger
open Lolipay.Ledger.Calls Lolipay.Ledger.Storage Lolipay.Ledger.Invocation Lolipay.Ledger.Runs
open Lolipay.Staking.Types Lolipay.Staking.Contract
open Lolipay.Escrow.Types (TradeId)

inductive Op where
  | stake (lp : Address) (amount : ℤ)
  | requestUnstake (lp : Address) (amount : ℤ)
  | claimUnstake (lp : Address)
  | slash (lp : Address) (tradeId : TradeId) (amount : ℤ) (caller : Address)
  | setConfig (newConfig : Config)
  | setPaused (paused : Bool)
  deriving DecidableEq, Repr

def Op.lp : Op → Option Address
  | .stake lp _ | .requestUnstake lp _ | .claimUnstake lp | .slash lp _ _ _ => some lp
  | .setConfig _ | .setPaused _ => none

/-- A call, with what the escrow contract would answer to it. -/
structure Call where
  op : Op
  escrow : Address → TradeId → Reply

def exec (env : Env) (h : StakingHost) (c : Call) : Outcome Error StakingHost :=
  match c.op with
  | .stake lp amount => stake env h lp amount
  | .requestUnstake lp amount => requestUnstake env h lp amount
  | .claimUnstake lp => claimUnstake env h lp
  | .slash lp tradeId amount caller => slash env c.escrow h lp tradeId amount caller
  | .setConfig newConfig => setConfig env h newConfig
  | .setPaused paused => setPaused env h paused

abbrev World := Deployment.World Contents

abbrev Receipt := Deployment.Receipt Event

abbrev Action := Deployment.Action Call

def World.stake (w : World) (lp : Address) : StakeInfo := stakeOf w.contents lp

abbrev next (w : World) (a : Action) : World := Deployment.next exec w a

abbrev receipt (w : World) (a : Action) : Option Receipt := Deployment.receipt exec w a

abbrev admits (self : Address) (w : World) (a : Action) : Prop := Deployment.admits self w a

abbrev machine (self : Address) : Machine World Action (Option Receipt) :=
  Deployment.machine exec self

abbrev History := List (Entry World Action (Option Receipt))

def Deployed (self : Address) (cfg : Config) (w : World) : Prop :=
  ∃ env admin token resolver escrowContract minStake cooldown,
    env.contract = self ∧ env.timestamp = w.now ∧
    construct env admin token resolver escrowContract minStake cooldown = .ok cfg ∧
    w.contents = ⟨some cfg, ∅, ∅⟩ ∧ 0 ≤ w.balances cfg.usdcToken self

end Lolipay.Staking.System
