import Lolipay.Escrow.Traps
import Lolipay.Staking.Traps
import Lolipay.Joint.Slash

namespace Lolipay.Joint.Traps

open Lolipay.Ledger
open Lolipay.Ledger.Calls Lolipay.Ledger.Invocation Lolipay.Ledger.Runs Lolipay.Ledger.Traps
open Lolipay.Escrow.Types (TradeId)
open Lolipay.Escrow.Contract (CreateArgs splitFees)
open Lolipay.Escrow.Payout (feesOf feeOf_nonneg net_pos)
open Lolipay.Escrow.Traps (timeLimit tokenLimit Modest Sized splitFees_of_safe safe_of_lt)
open Lolipay.Staking.Contract (maxCooldownSecs)
open Lolipay.Joint.System Lolipay.Joint.Slash Lolipay.Joint.Bond

variable {site : Site} {ecfg : Escrow.Types.Config} {scfg : Staking.Types.Config} {env : Env}
  {w w₀ : World} {tr : History}

theorem sized_of_run (hd : Deployed site ecfg scfg w₀) (hr : Run (machine site) w₀ tr w)
    (hb : ∀ e ∈ tr, Modest e.post.balances) : Sized w.escrowSide := by
  apply Sized.of_run hd.escrow (run_escrow hr)
  intro f hf
  obtain ⟨e, he, rfl⟩ := List.mem_map.mp hf
  obtain ⟨-, -, -, -, ha, hentry, -⟩ := hr.of_mem he
  have hpost : (escrowEntry site e).post = e.post.escrowSide := by
    rw [entry_post hentry]
    exact (escrow_follows ha).2
  rw [hpost]
  exact hb e he

theorem view_lt (hi : Coherent site ecfg scfg w₀.now w) (hsized : Sized w.escrowSide)
    {cfg : Staking.Types.Config} {id : TradeId} {view : Escrow.Types.DisputeView}
    (hcfg : w.staking.config = some cfg) (hview : answers site w cfg.escrowContract id = .view view) :
    view.amount < tokenLimit := by
  obtain ⟨-, hk⟩ := hi.staking.unique hcfg
  rw [hk.escrow, hi.linked] at hview
  obtain ⟨t, ht, rfl⟩ := trade_of_view hview
  exact hsized id t ht

/-- No call of either contract ends in an overflow, in any state of any run in
which times and token balances stay below their limits. -/
theorem no_arithmetic_trap (hd : Deployed site ecfg scfg w₀) (hr : Run (machine site) w₀ tr w)
    (hb : ∀ u, u = w ∨ Visits tr u → Modest u.balances) :
    (∀ env op, admits site w (.escrow env op) → env.timestamp < timeLimit →
      Deployment.invoke Escrow.System.exec w.escrowSide env op ≠ .error .trap) ∧
    (∀ env op, admits site w (.staking env op) → env.timestamp < timeLimit →
      (∀ lp amount, op = .stake lp amount → amount < tokenLimit) →
      Deployment.invoke Staking.System.exec w.stakingSide env ⟨op, answers site w⟩ ≠ .error .trap) ∧
    (∀ args : CreateArgs, args.platformFeeBps < 2 ^ 32 → args.lpFeeBps < 2 ^ 32 →
      (args.platformFeeBps + args.lpFeeBps : ℤ) < i128Limit) ∧
    (∀ id t, w.trade id = some t → ∃ fees,
      splitFees t.usdcAmount t.platformFeeBps t.lpFeeBps = .ok fees ∧
      0 ≤ fees.platformFee ∧ 0 ≤ fees.lpFee ∧ 0 < fees.net) ∧
    ∀ lp, 0 ≤ (w.stake lp).staked ∧ 0 ≤ (w.stake lp).unbonding := by
  have hi := Coherent.of_run hd hr
  have hsized := sized_of_run hd hr fun e he => hb e.post (.inr ⟨e, he, .inr rfl⟩)
  refine ⟨fun env op ha htime => ?_, fun env op ha htime hstake => ?_, fun args hp hl => ?_,
    fun id t ht => ?_, fun lp => ?_⟩
  · refine Escrow.Traps.exec_noTrap htime (fun id t ht => ?_) op
    exact Escrow.Traps.Sound.fits (hi.escrow.trades id t ht) ha.2.1 (hsized id t ht)
  · have hfits : Staking.Traps.Fits tokenLimit (enter w.staking w.balances) :=
      Staking.Traps.Fits.of_run hd.staking (run_staking (run_coherent hd Run.nil) hr) (by decide)
        (hb w (.inl rfl) _ _)
    refine Staking.Traps.exec_noTrap ⟨op, answers site w⟩ hfits ?_ hstake fun cfg id view => view_lt hi hsized
    simp only [timeLimit, maxCooldownSecs, u64Limit] at *
    omega
  · simp only [i128Limit]
    omega
  · have hterms := (hi.escrow.trades id t ht).terms
    refine ⟨feesOf t.toTerms, splitFees_of_safe (safe_of_lt hterms.amount_pos (hsized id t ht))
      hterms.fees_lt, ?_, ?_, net_pos hterms.amount_pos hterms.fees_lt⟩
    · exact feeOf_nonneg hterms.amount_pos.le _
    · exact feeOf_nonneg hterms.amount_pos.le _
  · have hs := hi.staking.stakes lp
    exact ⟨hs.staked_nonneg, hs.unbonding_nonneg⟩

def openAction : Action :=
  .escrow (Escrow.Custody.sampleEnv 1000 [⟨6⟩]) (.createTrade 1 Escrow.Custody.sampleArgs)

def openedWorld : World := next sampleSite sampleWorld openAction

theorem opened_modest : Modest openedWorld.balances := by
  have hbalances : openedWorld.balances =
      moveAll (fun _ _ => 0) [⟨⟨2⟩, ⟨6⟩, ⟨0⟩, 1000000⟩] := rfl
  intro token holder
  rw [hbalances]
  simp only [moveAll, List.foldl_cons, List.foldl_nil, move, tokenLimit]
  split <;> split <;> decide

/-- The sample trade can be marked and split without an overflow. -/
theorem sample_no_arithmetic_trap :
    Deployment.invoke Escrow.System.exec openedWorld.escrowSide
      (Escrow.Custody.sampleEnv 1500 [⟨7⟩]) (.markFiatPaid 1 ⟨7⟩) ≠ .error .trap ∧
    ∃ t fees, openedWorld.trade 1 = some t ∧
      splitFees t.usdcAmount t.platformFeeBps t.lpFeeBps = .ok fees ∧ 0 < fees.net := by
  have hadmitted : (machine sampleSite).admits sampleWorld openAction := ⟨rfl, by decide⟩
  have hrun : Run (machine sampleSite) sampleWorld
      [(machine sampleSite).entry sampleWorld openAction] openedWorld := Run.nil.snoc openAction hadmitted
  have hmodest (u : World) (hu : u = openedWorld ∨
      Visits [(machine sampleSite).entry sampleWorld openAction] u) : Modest u.balances := by
    obtain rfl | ⟨e, he, hu⟩ := hu
    · exact opened_modest
    · obtain rfl := List.mem_singleton.mp he
      obtain rfl | rfl := hu
      · intro token holder
        show (0 : ℤ) < tokenLimit
        decide
      · exact opened_modest
  obtain ⟨hescrow, -, -, hsplit, -⟩ := no_arithmetic_trap sampleWorld_deployed hrun hmodest
  obtain ⟨t, ht⟩ := Option.isSome_iff_exists.mp (show (openedWorld.trade 1).isSome = true by decide)
  obtain ⟨fees, hfees, -, -, hnet⟩ := hsplit 1 t ht
  exact ⟨hescrow _ _ ⟨rfl, by decide⟩ (by decide), t, fees, ht, hfees, hnet⟩

end Lolipay.Joint.Traps
