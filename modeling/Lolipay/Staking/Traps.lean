import Lolipay.Ledger.Traps
import Lolipay.Staking.Solvency

namespace Lolipay.Staking.Traps

open Lolipay.Ledger
open Lolipay.Ledger.Calls Lolipay.Ledger.Storage Lolipay.Ledger.Invocation Lolipay.Ledger.Runs
open Lolipay.Ledger.Traps
open Lolipay.Staking.Types Lolipay.Staking.Contract Lolipay.Staking.System Lolipay.Staking.Effects
open Lolipay.Staking.Solvency
open Lolipay.Escrow.Types (TradeId DisputeView)

variable {self : Address} {cfg cfg₀ : Config} {env : Env} {h : StakingHost} {id : TradeId}
  {lp : Address} {limit amount : ℤ} {escrow : Address → TradeId → Reply} {w w₀ : World} {a : Action}
  {tr : History}

/-- The records are small enough for every sum that is ever formed with them. -/
structure Fits (limit : ℤ) (h : StakingHost) : Prop where
  limit_le : 2 * limit ≤ i128Limit
  stakes : ∀ lp, Sound (getStake h lp) ∧ bonded (getStake h lp) < limit
  slashed : ∀ id, 0 ≤ slashedSoFar h id
  cooldown : ∀ cfg, h.storage.config = some cfg → cfg.cooldownSecs ≤ maxCooldownSecs

theorem stake_noTrap (hf : Fits limit h) (hamount : amount < limit) :
    NoTrap (stake env h lp amount) := by
  obtain ⟨hsound, hlt⟩ := hf.stakes lp
  have hst := hsound.staked_nonneg
  have hun := hsound.unbonding_nonneg
  have hlimit := hf.limit_le
  simp only [stake, getConfig, addI128, noTrap_bind, noTrap_okOr, noTrap_rejectIf, noTrap_requireAuth,
    noTrap_checkI128, noTrap_transfer, noTrap_ok, rejectIf_eq_ok, implies_true, true_and, and_true,
    not_le]
  intro cfg hcfg _ _ _ hpos _ _
  unfold bonded at hlt
  omega

theorem requestUnstake_noTrap (hf : Fits limit h)
    (htime : env.timestamp + maxCooldownSecs < u64Limit) :
    NoTrap (requestUnstake env h lp amount) := by
  obtain ⟨hsound, hlt⟩ := hf.stakes lp
  have hst := hsound.staked_nonneg
  have hun := hsound.unbonding_nonneg
  have hlimit := hf.limit_le
  simp only [requestUnstake, getConfig, addI128, subI128, noTrap_bind, noTrap_okOr, noTrap_rejectIf,
    noTrap_requireAuth, noTrap_checkI128, noTrap_addU64, noTrap_ok, rejectIf_eq_ok, okOr_eq_ok,
    implies_true, true_and, and_true, not_le, not_lt]
  intro cfg hcfg _ hpos _ _ _ hle
  have hcool := hf.cooldown cfg hcfg
  unfold bonded at hlt
  exact ⟨by omega, fun _ _ => ⟨by omega, fun _ _ => by omega⟩⟩

theorem claimUnstake_noTrap : NoTrap (claimUnstake env h lp) := by
  simp only [claimUnstake, getConfig, noTrap_bind, noTrap_okOr, noTrap_rejectIf, noTrap_requireAuth,
    noTrap_transfer, noTrap_ok, implies_true, and_true]

theorem takeStake_noTrap {info : StakeInfo} (hs : Sound info) (hlt : bonded info < i128Limit)
    (hpos : 0 < amount) (hle : amount ≤ bonded info) : NoTrap (takeStake info amount) := by
  have hst := hs.staked_nonneg
  have hun := hs.unbonding_nonneg
  have hlimit : (0 : ℤ) < i128Limit := by decide
  unfold bonded at hlt hle
  rw [takeStake]
  split
  next =>
    simp only [subI128, noTrap_bind, noTrap_checkI128, noTrap_ok, implies_true, and_true]
    omega
  next =>
    simp only [subI128, noTrap_bind, noTrap_checkI128, noTrap_ok, checkI128_eq_ok, implies_true,
      and_true]
    refine ⟨by omega, ?_⟩
    rintro _ ⟨-, rfl⟩
    omega

theorem slash_noTrap {caller : Address} (hf : Fits limit h)
    (hview : ∀ cfg view, h.storage.config = some cfg → escrow cfg.escrowContract id = .view view →
      view.amount < limit) :
    NoTrap (slash env escrow h lp id amount caller) := by
  obtain ⟨hsound, hlt⟩ := hf.stakes lp
  have hst := hsound.staked_nonneg
  have hun := hsound.unbonding_nonneg
  have hlimit := hf.limit_le
  have hzero := hf.slashed id
  have hbound : (0 : ℤ) < i128Limit := by decide
  have hread (r : Reply) : NoTrap (readDispute r) := by
    cases r with
    | view v => exact noTrap_ok _
    | contractError code =>
      rw [readDispute]
      split
      next => exact noTrap_ok _
      next => exact noTrap_error _
    | unreadable => exact noTrap_error _
  simp only [slash, getConfig, addSlashed, addI128, subI128, noTrap_bind, noTrap_okOr, noTrap_rejectIf,
    noTrap_requireAuth, noTrap_checkI128, noTrap_transfer, noTrap_ok, hread, rejectIf_eq_ok, okOr_eq_ok,
    checkI128_eq_ok, implies_true, true_and, and_true, not_le, not_lt, ge_iff_le]
  intro cfg hcfg _ _ _ _ _ hpos found hfound view hsome _ _ _ _ _ _ _ _ _ _ _ _ _ hmore
  subst hsome
  have hamount := hview cfg view hcfg ((readDispute_eq_some _ _).mp hfound)
  refine ⟨by omega, ?_⟩
  rintro _ ⟨-, rfl⟩ _ hcap
  refine ⟨?_, ?_⟩
  · unfold bonded at hlt
    omega
  rintro _ ⟨-, rfl⟩ _ hcovered
  refine ⟨takeStake_noTrap hsound (by omega) hpos hcovered, fun taken _ => ?_⟩
  have hkept : slashedSoFar (setStake h lp (resetTimer taken)) id = slashedSoFar h id := rfl
  rw [hkept]
  omega

theorem exec_noTrap (call : Call) (hf : Fits limit h)
    (htime : env.timestamp + maxCooldownSecs < u64Limit)
    (hstake : ∀ lp amount, call.op = .stake lp amount → amount < limit)
    (hview : ∀ cfg id view, h.storage.config = some cfg →
      call.escrow cfg.escrowContract id = .view view → view.amount < limit) :
    NoTrap (exec env h call) := by
  obtain ⟨op, escrow⟩ := call
  cases op with
  | stake lp amount => exact stake_noTrap hf (hstake lp amount rfl)
  | requestUnstake lp amount => exact requestUnstake_noTrap hf htime
  | claimUnstake lp => exact claimUnstake_noTrap
  | slash lp id amount caller => exact slash_noTrap hf fun cfg view => hview cfg id view
  | setConfig newConfig =>
    simp only [exec, setConfig, getConfig, noTrap_bind, noTrap_okOr, noTrap_rejectIf,
      noTrap_requireAuth, noTrap_ok, implies_true, and_true]
  | setPaused paused =>
    simp only [exec, setPaused, getConfig, noTrap_bind, noTrap_okOr, noTrap_requireAuth, noTrap_ok,
      implies_true, and_true]

theorem effect_slashed {c c' : Contents} {call : Call} {ts : List Transfer}
    (he : Effect env c call c' ts) (hall : ∀ id, 0 ≤ slashedOf c id) (id : TradeId) :
    0 ≤ slashedOf c' id := by
  cases he with
  | staked | requested | claimed | configured | pauseSet => exact hall id
  | @slashed cfg lp id' amount caller view escrow hcfg hs =>
    by_cases hid : id = id'
    · subst hid
      have hpos := hs.amount_pos
      have hold := hall id
      rw [slashedOf, AList.lookup_insert, Option.getD_some]
      omega
    · rw [slashedOf, AList.lookup_insert_ne hid]
      exact hall id

theorem slashed_nonneg (hd : Deployed self cfg₀ w₀) (hr : Run (machine self) w₀ tr w) (id : TradeId) :
    0 ≤ slashedOf w.contents id := by
  refine hr.invariant (I := fun u => ∀ id, 0 ≤ slashedOf u.contents id) ?_ ?_ id
  · obtain ⟨-, -, -, -, -, -, -, -, -, -, hc, -⟩ := hd
    intro id
    rw [hc]
    exact le_rfl
  · intro u a hu ha
    cases a with
    | other time moves => exact hu
    | call env call =>
      obtain ⟨hn, -⟩ | ⟨c, ts, evs, he, hn, -⟩ := call_cases u env call
      · intro id
        show 0 ≤ slashedOf (next u (.call env call)).contents id
        rw [hn]
        exact hu id
      · intro id
        show 0 ≤ slashedOf (next u (.call env call)).contents id
        rw [hn]
        exact effect_slashed he hu id

theorem Fits.of_run (hd : Deployed self cfg₀ w₀) (hr : Run (machine self) w₀ tr w)
    (hlimit : 2 * limit ≤ i128Limit) (hb : w.balances cfg₀.usdcToken self < limit) :
    Fits limit (enter w.contents w.balances) := by
  have hi := (Coherent.deployed hd).run hr
  have hnonneg (lp : Address) : 0 ≤ measureAt bonded w.contents.stakes lp := by
    rw [measureAt_stakes]
    have hs : Sound (stakeOf w.contents lp) := hi.stakes lp
    have hst := hs.staked_nonneg
    have hun := hs.unbonding_nonneg
    unfold bonded
    omega
  refine ⟨hlimit, fun lp => ⟨hi.stakes lp, ?_⟩, slashed_nonneg hd hr, fun cfg hcfg => ?_⟩
  · have hle : bonded (stakeOf w.contents lp) ≤ total bonded w.contents.stakes := by
      rw [← measureAt_stakes]
      exact measureAt_le_total hnonneg lp
    exact lt_of_le_of_lt (hle.trans hi.solvent) hb
  · exact (hi.unique hcfg).1.cooldown_le

end Lolipay.Staking.Traps
