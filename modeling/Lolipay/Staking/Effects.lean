import Lolipay.Staking.System

namespace Lolipay.Staking.Effects

open Lolipay.Ledger
open Lolipay.Ledger.Calls Lolipay.Ledger.Storage Lolipay.Ledger.Invocation Lolipay.Ledger.Runs
open Lolipay.Staking.Types Lolipay.Staking.Contract Lolipay.Staking.System
open Lolipay.Escrow.Types (TradeId DisputeView)

def bonded (info : StakeInfo) : ℤ := info.staked + info.unbonding

/-- The record after a slash, without the overflow checks. -/
def seized (info : StakeInfo) (amount : ℤ) : StakeInfo :=
  resetTimer (if amount ≤ info.staked then { info with staked := info.staked - amount }
    else { info with staked := 0, unbonding := info.unbonding - (amount - info.staked) })

/-- What `slash` has checked when it takes stake. -/
structure Slashing (cfg : Config) (env : Env) (c : Contents) (escrow : Address → TradeId → Reply)
    (lp : Address) (id : TradeId) (amount : ℤ) (caller : Address) (view : DisputeView) : Prop where
  reply : escrow cfg.escrowContract id = .view view
  operator : caller = cfg.resolver ∨ caller = cfg.admin
  signed : caller ∈ env.signers
  amount_pos : 0 < amount
  settled : view.preSettlement = false
  raised : view.postSettleRaised = true
  liable : view.liabilityEstablished = true
  timely : env.timestamp ≤ view.slashDeadline
  culprit : lp = (culpritAndVictim view).1
  capped : slashedOf c id + amount ≤ view.amount
  covered : amount ≤ bonded (stakeOf c lp)

structure Lawful (cfg : Config) : Prop where
  cooldown_ge : minCooldownSecs ≤ cfg.cooldownSecs
  cooldown_le : cfg.cooldownSecs ≤ maxCooldownSecs
  minStake_pos : 0 < cfg.minStake

structure Keeps (cfg cfg' : Config) : Prop where
  token : cfg'.usdcToken = cfg.usdcToken
  escrow : cfg'.escrowContract = cfg.escrowContract

/-- Everything that one successful call can do to the storage, with the transfers it makes. -/
inductive Effect (env : Env) (c : Contents) : Call → Contents → List Transfer → Prop
  | staked {cfg : Config} {lp : Address} {amount : ℤ} {escrow : Address → TradeId → Reply}
      (hcfg : c.config = some cfg) (hpos : 0 < amount) (hs : lp ∈ env.signers) :
      Effect env c ⟨.stake lp amount, escrow⟩
        { c with
          stakes := c.stakes.insert lp
            { stakeOf c lp with staked := (stakeOf c lp).staked + amount } }
        [⟨cfg.usdcToken, lp, env.contract, amount⟩]
  | requested {cfg : Config} {lp : Address} {amount : ℤ} {escrow : Address → TradeId → Reply}
      (hcfg : c.config = some cfg) (hpos : 0 < amount) (hle : amount ≤ (stakeOf c lp).staked)
      (hs : lp ∈ env.signers) :
      Effect env c ⟨.requestUnstake lp amount, escrow⟩
        { c with
          stakes := c.stakes.insert lp
            ⟨(stakeOf c lp).staked - amount, (stakeOf c lp).unbonding + amount,
              max (stakeOf c lp).unbondAvailableAt (env.timestamp + cfg.cooldownSecs)⟩ }
        []
  | claimed {cfg : Config} {lp : Address} {escrow : Address → TradeId → Reply}
      (hcfg : c.config = some cfg) (hpos : 0 < (stakeOf c lp).unbonding)
      (ht : (stakeOf c lp).unbondAvailableAt ≤ env.timestamp) (hs : lp ∈ env.signers) :
      Effect env c ⟨.claimUnstake lp, escrow⟩
        { c with stakes := c.stakes.insert lp { stakeOf c lp with unbonding := 0 } }
        [⟨cfg.usdcToken, env.contract, lp, (stakeOf c lp).unbonding⟩]
  | slashed {cfg : Config} {lp : Address} {id : TradeId} {amount : ℤ} {caller : Address}
      {view : DisputeView} {escrow : Address → TradeId → Reply} (hcfg : c.config = some cfg)
      (hs : Slashing cfg env c escrow lp id amount caller view) :
      Effect env c ⟨.slash lp id amount caller, escrow⟩
        { c with
          stakes := c.stakes.insert lp (seized (stakeOf c lp) amount)
          slashed := c.slashed.insert id (slashedOf c id + amount) }
        [⟨cfg.usdcToken, env.contract, (culpritAndVictim view).2, amount⟩]
  | configured {cfg newConfig : Config} {escrow : Address → TradeId → Reply}
      (hcfg : c.config = some cfg) (hl : Lawful newConfig) (hk : Keeps cfg newConfig) :
      Effect env c ⟨.setConfig newConfig, escrow⟩ { c with config := some newConfig } []
  | pauseSet {cfg : Config} {paused : Bool} {escrow : Address → TradeId → Reply}
      (hcfg : c.config = some cfg) :
      Effect env c ⟨.setPaused paused, escrow⟩ { c with config := some { cfg with paused } } []

variable {env : Env} {h h' : StakingHost} {escrow : Address → TradeId → Reply} {lp : Address}
  {amount : ℤ}

theorem construct_lawful {admin token resolver escrowContract : Address} {minStake : ℤ}
    {cooldown : ℕ} {cfg : Config}
    (hx : construct env admin token resolver escrowContract minStake cooldown = .ok cfg) :
    Lawful cfg := by
  simp only [construct, bind_eq_ok, rejectIf_eq_ok, requireAuth_eq_ok, Except.ok.injEq,
    not_le] at hx
  obtain ⟨-, -, -, hcool, -, hmin, rfl⟩ := hx
  rw [cooldownOutOfRange, not_not] at hcool
  exact ⟨hcool.1, hcool.2, hmin⟩

theorem stake_performs (hx : stake env h lp amount = .ok h') :
    Deployment.Performs Effect env h ⟨.stake lp amount, escrow⟩ h' := by
  simp only [stake, getConfig, addI128, bind_eq_ok, okOr_eq_ok, rejectIf_eq_ok,
    requireAuth_eq_ok, checkI128_eq_ok, transfer_eq_ok, Except.ok.injEq, not_le] at hx
  obtain ⟨cfg, hcfg, -, -, -, hpos, -, hs, staked, ⟨-, rfl⟩, h₁, ⟨-, rfl⟩, rfl⟩ := hx
  exact ⟨_, .staked hcfg hpos hs, rfl, rfl⟩

theorem requestUnstake_performs (hx : requestUnstake env h lp amount = .ok h') :
    Deployment.Performs Effect env h ⟨.requestUnstake lp amount, escrow⟩ h' := by
  simp only [requestUnstake, getConfig, addI128, subI128, bind_eq_ok, okOr_eq_ok,
    rejectIf_eq_ok, requireAuth_eq_ok, checkI128_eq_ok, addU64_eq_ok, Except.ok.injEq, not_le,
    not_lt] at hx
  obtain ⟨cfg, hcfg, -, hpos, -, hs, -, hle, staked, ⟨-, rfl⟩, unbonding, ⟨-, rfl⟩, cooled,
    ⟨-, rfl⟩, rfl⟩ := hx
  exact ⟨[], .requested hcfg hpos hle hs, rfl, (List.append_nil _).symm⟩

theorem claimUnstake_performs (hx : claimUnstake env h lp = .ok h') :
    Deployment.Performs Effect env h ⟨.claimUnstake lp, escrow⟩ h' := by
  simp only [claimUnstake, getConfig, bind_eq_ok, okOr_eq_ok, rejectIf_eq_ok,
    requireAuth_eq_ok, transfer_eq_ok, Except.ok.injEq, not_le, not_lt] at hx
  obtain ⟨cfg, hcfg, -, hs, -, hpos, -, ht, h₁, ⟨-, rfl⟩, rfl⟩ := hx
  exact ⟨_, .claimed hcfg hpos ht hs, rfl, rfl⟩

theorem takeStake_ok {info taken : StakeInfo} (hx : takeStake info amount = .ok taken) :
    resetTimer taken = seized info amount := by
  rw [takeStake] at hx
  rw [seized]
  split at hx
  next hle =>
    simp only [subI128, bind_eq_ok, checkI128_eq_ok, Except.ok.injEq] at hx
    obtain ⟨staked, ⟨-, rfl⟩, rfl⟩ := hx
    rw [if_pos hle]
  next hgt =>
    simp only [subI128, bind_eq_ok, checkI128_eq_ok, Except.ok.injEq] at hx
    obtain ⟨fromUnbonding, ⟨-, rfl⟩, unbonding, ⟨-, rfl⟩, rfl⟩ := hx
    rw [if_neg hgt]

theorem readDispute_eq_some (r : Reply) (view : DisputeView) :
    readDispute r = .ok (some view) ↔ r = .view view := by
  cases r with
  | view v => simp [readDispute]
  | contractError code => by_cases hc : code = escrowTradeNotFound <;> simp [readDispute, hc]
  | unreadable => simp [readDispute]

theorem slash_performs {id : TradeId} {caller : Address}
    (hx : slash env escrow h lp id amount caller = .ok h') :
    Deployment.Performs Effect env h ⟨.slash lp id amount caller, escrow⟩ h' := by
  simp only [slash, getConfig, addSlashed, addI128, subI128, bind_eq_ok,
    okOr_eq_ok, rejectIf_eq_ok, requireAuth_eq_ok, checkI128_eq_ok, transfer_eq_ok,
    Except.ok.injEq, not_le, not_lt, not_not, Bool.not_eq_true, Bool.not_eq_false,
    ge_iff_le] at hx
  obtain ⟨cfg, hcfg, -, hop, -, hsig, -, hpos, found, hread, view, rfl, -, hpre, -, hraised, -,
    hliable, -, htime, -, -, -, hculprit, -, -, remaining, ⟨-, rfl⟩, -, hcap, total, ⟨-, rfl⟩, -,
    hcov, taken, htake, h₁, ⟨sum, ⟨-, rfl⟩, rfl⟩, h₂, ⟨-, rfl⟩, rfl⟩ := hx
  have hs : Slashing cfg env h.storage escrow lp id amount caller view := by
    refine ⟨(readDispute_eq_some _ _).mp hread, ?_, hsig, hpos, hpre, hraised, hliable, htime,
      hculprit, ?_, hcov⟩
    · by_contra hno
      exact hop (not_or.mp hno)
    · have hcap' : amount ≤ view.amount - slashedOf h.storage id := hcap
      omega
  have htaken : resetTimer taken = seized (stakeOf h.storage lp) amount := takeStake_ok htake
  have he := Effect.slashed hcfg hs
  rw [← htaken] at he
  exact ⟨_, he, rfl, rfl⟩

theorem setConfig_performs {newConfig : Config} (hx : setConfig env h newConfig = .ok h') :
    Deployment.Performs Effect env h ⟨.setConfig newConfig, escrow⟩ h' := by
  simp only [setConfig, getConfig, bind_eq_ok, okOr_eq_ok, rejectIf_eq_ok, requireAuth_eq_ok,
    Except.ok.injEq, not_not, not_le] at hx
  obtain ⟨cfg, hcfg, -, -, -, -, -, htok, -, hesc, -, hcool, -, hmin, rfl⟩ := hx
  rw [cooldownOutOfRange, not_not] at hcool
  exact ⟨[], .configured hcfg ⟨hcool.1, hcool.2, hmin⟩ ⟨htok, hesc⟩, rfl,
    (List.append_nil _).symm⟩

theorem setPaused_performs {paused : Bool} (hx : setPaused env h paused = .ok h') :
    Deployment.Performs Effect env h ⟨.setPaused paused, escrow⟩ h' := by
  simp only [setPaused, getConfig, bind_eq_ok, okOr_eq_ok, requireAuth_eq_ok,
    Except.ok.injEq] at hx
  obtain ⟨cfg, hcfg, -, -, rfl⟩ := hx
  exact ⟨[], .pauseSet hcfg, rfl, (List.append_nil _).symm⟩

theorem exec_effect : Deployment.Effective exec Effect := by
  intro env h call h' hx
  obtain ⟨op, escrow⟩ := call
  cases op with
  | stake lp amount => exact stake_performs hx
  | requestUnstake lp amount => exact requestUnstake_performs hx
  | claimUnstake lp => exact claimUnstake_performs hx
  | slash lp id amount caller => exact slash_performs hx
  | setConfig newConfig => exact setConfig_performs hx
  | setPaused paused => exact setPaused_performs hx

theorem call_cases (w : World) (env : Env) (call : Call) :
    (next w (.call env call) = { w with now := env.timestamp } ∧
      receipt w (.call env call) = none) ∨
    ∃ c ts evs, Effect env w.contents call c ts ∧
      next w (.call env call) = ⟨c, moveAll w.balances ts, env.timestamp⟩ ∧
      receipt w (.call env call) = some ⟨ts, evs⟩ :=
  Deployment.call_cases exec_effect w env call

@[simp] theorem stakeOf_insert (c : Contents) (lp : Address) (info : StakeInfo)
    (m : Store TradeId ℤ) (cfg : Option Config) :
    stakeOf ⟨cfg, c.stakes.insert lp info, m⟩ lp = info := by
  simp only [stakeOf, AList.lookup_insert, Option.getD_some]

theorem stakeOf_insert_ne (c : Contents) {lp lp' : Address} (hne : lp' ≠ lp) (info : StakeInfo)
    (m : Store TradeId ℤ) (cfg : Option Config) :
    stakeOf ⟨cfg, c.stakes.insert lp info, m⟩ lp' = stakeOf c lp' := by
  simp only [stakeOf, AList.lookup_insert_ne hne]

/-- A call on one provider leaves the record of every other provider as it was. -/
theorem effect_other {c c' : Contents} {call : Call} {ts : List Transfer}
    (he : Effect env c call c' ts) (hne : call.op.lp ≠ some lp) : stakeOf c' lp = stakeOf c lp := by
  cases he with
  | staked | requested | claimed | slashed =>
    apply stakeOf_insert_ne
    rintro rfl
    exact hne rfl
  | configured | pauseSet => rfl

end Lolipay.Staking.Effects
