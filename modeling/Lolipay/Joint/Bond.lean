import Lolipay.Escrow.Custody
import Lolipay.Joint.System

namespace Lolipay.Joint.Bond

open Lolipay.Ledger.Calls Lolipay.Ledger.Storage Lolipay.Ledger.Invocation Lolipay.Ledger.Runs
open Lolipay.Escrow.Types (TradeId Trade)
open Lolipay.Escrow.Contract (resolverWindow)
open Lolipay.Staking.Contract (minCooldownSecs)
open Lolipay.Staking.Solvency (CoolsFor)
open Lolipay.Joint.System

variable {site : Site} {ecfg : Escrow.Types.Config} {scfg : Staking.Types.Config} {lp : Address}
  {id : TradeId} {t : Trade} {w w₀ v : World} {e e' : JointEntry} {tr tr₁ tr₂ tr₃ : History}
  {requested claimed start floor : ℕ}

def Requests (lp : Address) (e : JointEntry) (time : ℕ) : Prop :=
  ∃ env amount, e.act = .staking env (.requestUnstake lp amount) ∧ e.out.isSome = true ∧
    env.timestamp = time

def Claims (lp : Address) (e : JointEntry) (time : ℕ) : Prop :=
  ∃ env, e.act = .staking env (.claimUnstake lp) ∧ e.out.isSome = true ∧ env.timestamp = time

theorem receipt_isSome {env : Env} {op : Staking.System.Op}
    (he : e = (machine site).entry e.pre e.act) (hact : e.act = .staking env op)
    (hout : e.out.isSome = true) :
    (Staking.System.receipt e.pre.stakingSide (stakingCall site e.pre env op)).isSome = true := by
  rw [entry_out he, hact] at hout
  simpa only [machine, out, Option.isSome_map] using hout

theorem requests_side (he : e = (machine site).entry e.pre e.act) (h : Requests lp e requested) :
    Staking.Solvency.Requests lp (stakingEntry site e) requested := by
  obtain ⟨env, amount, hact, hout, rfl⟩ := h
  refine ⟨env, ⟨.requestUnstake lp amount, answers site e.pre⟩, amount, ?_, rfl, ?_, rfl⟩
  · show stakingAction site e.pre e.act = _
    rw [hact]
    rfl
  · show (Staking.System.receipt e.pre.stakingSide (stakingAction site e.pre e.act)).isSome = true
    rw [hact]
    exact receipt_isSome he hact hout

/-- Between a request and a later claim of the same provider lies the least
cooldown that is in force meanwhile. -/
theorem claim_after_cooldown (hi : Escrow.Invariant.Coherent ecfg start w₀.escrowSide)
    (hr : Run (machine site) w₀ (tr₁ ++ e :: tr₂ ++ e' :: tr₃) w)
    (hf : ∀ f ∈ tr₁ ++ e :: tr₂, CoolsFor floor f.pre.stakingSide)
    (hreq : Requests lp e requested) (hclaim : Claims lp e' claimed) :
    requested + floor ≤ claimed := by
  obtain ⟨hpre, -, he', -⟩ := hr.at_entry
  obtain ⟨-, -, he, -⟩ := hpre.at_entry
  obtain ⟨env, hact, hout, rfl⟩ := hclaim
  have hside := run_staking hi hpre
  obtain ⟨hpos, htimer⟩ := Staking.Solvency.claim_ready (receipt_isSome he' hact hout)
  have hmem : stakingEntry site e ∈ (tr₁ ++ e :: tr₂).map (stakingEntry site) :=
    List.mem_map_of_mem (by simp)
  have hcools : ∀ g ∈ (tr₁ ++ e :: tr₂).map (stakingEntry site), CoolsFor floor g.pre := by
    intro g hg
    obtain ⟨f, hmem, rfl⟩ := List.mem_map.mp hg
    exact hf f hmem
  have hcool := Staking.Solvency.run_timer hside hcools hpos hmem (requests_side he hreq)
  exact hcool.trans htimer

/-- The staking contract itself sees to the least cooldown. -/
theorem run_cools (hd : Deployed site ecfg scfg w₀) (hr : Run (machine site) w₀ tr w) :
    ∀ f ∈ tr, CoolsFor minCooldownSecs f.pre.stakingSide := by
  intro f hf
  obtain ⟨tr', -, -, hpre, -⟩ := hr.of_mem hf
  exact ((Staking.Solvency.Coherent.deployed hd.staking).run
    (run_staking (run_coherent hd Run.nil) hpre)).coolsFor

/-- The bond law. Stake that a provider starts to unbond at or after the
settlement of a trade does not leave the staking contract through a claim while
that trade can still be slashed, in whatever state of the run its slash window
is read. -/
theorem bond_law (hd : Deployed site ecfg scfg w₀)
    (hr : Run (machine site) w₀ (tr₁ ++ e :: tr₂ ++ e' :: tr₃) w)
    (hreq : Requests lp e requested) (hclaim : Claims lp e' claimed)
    (hv : Visits (tr₁ ++ e :: tr₂ ++ e' :: tr₃) v) (ht : v.trade id = some t)
    (hset : t.settledAt ≤ requested) : t.slashDeadline < claimed := by
  have hcool := claim_after_cooldown (run_coherent hd Run.nil) hr (run_cools hd hr.at_entry.1) hreq hclaim
  obtain ⟨tr', hr'⟩ := hr.reaches hv
  have hs := (run_coherent hd hr').trades id t ht
  have hle := hs.slash_le
  -- Four days and a second of cooldown against at most four days of slash window.
  simp only [resolverWindow, minCooldownSecs] at hle hcool
  omega

def sampleSite : Site := ⟨⟨0⟩, ⟨9⟩, by decide⟩

def sampleWorld : World :=
  ⟨⟨some Escrow.Custody.sampleConfig, ∅⟩, ⟨some Staking.Solvency.sampleConfig, ∅, ∅⟩,
    fun _ _ => 0, 1000⟩

theorem sampleWorld_deployed : Deployed sampleSite Escrow.Custody.sampleConfig
    Staking.Solvency.sampleConfig sampleWorld :=
  ⟨Escrow.Custody.sampleWorld_deployed, Staking.Solvency.sampleWorld_deployed, rfl⟩

/-- The recipient of a trade has a bond. The trade is released to him and
disputed, and the verdict goes against him. -/
def condemnedActions : List Action :=
  [.staking (Staking.Solvency.sampleEnv 1000 [⟨7⟩]) (.stake ⟨7⟩ 2000000),
    .escrow (Escrow.Custody.sampleEnv 1000 [⟨6⟩]) (.createTrade 1 Escrow.Custody.sampleArgs),
    .escrow (Escrow.Custody.sampleEnv 1500 [⟨7⟩]) (.markFiatPaid 1 ⟨7⟩),
    .escrow (Escrow.Custody.sampleEnv 1600 [⟨6⟩]) (.confirmAndRelease 1),
    .escrow (Escrow.Custody.sampleEnv 1700 [⟨6⟩]) (.raiseDispute 1 ⟨6⟩),
    .escrow (Escrow.Custody.sampleEnv 1800 [⟨3⟩]) (.resolve 1 .refund ⟨3⟩)]

def condemnedWorld : World := final (machine sampleSite) sampleWorld condemnedActions

theorem condemned_run : Run (machine sampleSite) sampleWorld
    (history (machine sampleSite) sampleWorld condemnedActions) condemnedWorld := by
  apply Run.of_actions
  refine ⟨⟨rfl, ?_⟩, ⟨rfl, ?_⟩, ⟨rfl, ?_⟩, ⟨rfl, ?_⟩, ⟨rfl, ?_⟩, ⟨rfl, ?_⟩, trivial⟩ <;> decide

def requestAction : Action :=
  .staking (Staking.Solvency.sampleEnv 1900 [⟨7⟩]) (.requestUnstake ⟨7⟩ 1500000)

def requestedWorld : World := next sampleSite condemnedWorld requestAction

def slashActions : List Action :=
  [.staking (Staking.Solvency.sampleEnv 2000 [⟨3⟩]) (.slash ⟨7⟩ 1 400000 ⟨3⟩),
    .staking (Staking.Solvency.sampleEnv 2100 [⟨3⟩]) (.slash ⟨7⟩ 1 600000 ⟨3⟩)]

def slashedWorld : World := final (machine sampleSite) requestedWorld slashActions

theorem slashed_run : Run (machine sampleSite) requestedWorld
    (history (machine sampleSite) requestedWorld slashActions) slashedWorld := by
  apply Run.of_actions
  refine ⟨⟨rfl, ?_⟩, ⟨rfl, ?_⟩, trivial⟩ <;> decide

def claimAction : Action := .staking (Staking.Solvency.sampleEnv 347501 [⟨7⟩]) (.claimUnstake ⟨7⟩)

def sampleHistory : History :=
  history (machine sampleSite) sampleWorld condemnedActions ++
    (machine sampleSite).entry condemnedWorld requestAction ::
      history (machine sampleSite) requestedWorld slashActions ++
    (machine sampleSite).entry slashedWorld claimAction :: []

theorem sample_run : Run (machine sampleSite) sampleWorld sampleHistory
    (next sampleSite slashedWorld claimAction) := by
  have hreq : (machine sampleSite).admits condemnedWorld requestAction := ⟨rfl, by decide⟩
  have hclaim : (machine sampleSite).admits slashedWorld claimAction := ⟨rfl, by decide⟩
  exact (condemned_run.trans (Run.cons hreq slashed_run)).trans (Run.cons hclaim Run.nil)

def condemnedTrade : Trade := (condemnedWorld.trade 1).get (by decide)

theorem sample_bond_law :
    condemnedTrade.settledAt = 1600 ∧ condemnedTrade.slashDeadline = 88200 ∧
      condemnedTrade.slashDeadline < 347501 := by
  refine ⟨by decide, by decide, ?_⟩
  exact bond_law (t := condemnedTrade) (v := condemnedWorld) sampleWorld_deployed sample_run
    ⟨_, 1500000, rfl, by decide, rfl⟩ ⟨_, rfl, by decide, rfl⟩
    ⟨(machine sampleSite).entry condemnedWorld requestAction, by simp, .inl rfl⟩
    (Option.some_get _).symm (by decide)

end Lolipay.Joint.Bond
