import Lolipay.Joint.Bond
import Lolipay.Coordinator.Limits

namespace Lolipay.Coordinator.CooldownFloor

open Lolipay.Ledger.Calls Lolipay.Ledger.Invocation Lolipay.Ledger.Runs
open Lolipay.Escrow.Types (TradeId Trade)
open Lolipay.Escrow.Contract (resolverWindow maxDisputeWindow)
open Lolipay.Escrow.Invariant (settlement Sound)
open Lolipay.Staking.Solvency (CoolsFor)
open Lolipay.Joint.System Lolipay.Joint.Bond
open Lolipay.Coordinator.Limits Lolipay.Coordinator.Creation
open Lolipay.Coordinator.Signing (argsOf)

variable {site : Site} {ecfg : Escrow.Types.Config} {scfg : Staking.Types.Config} {floor : ℤ}
  {lp : Address} {id : TradeId} {t : Trade} {w w₀ w₁ w₂ v : World} {a : Action} {e e' : JointEntry}
  {tr tr₀ tr₁ tr₂ tr₃ : History} {requested claimed : ℕ}

def Cools (floor : ℤ) (w : World) : Prop :=
  ∃ cfg, w.staking.config = some cfg ∧ floor ≤ cfg.cooldownSecs

/-- The cooldown is at least the floor, and every later setting of it is. -/
structure FloorKept (floor : ℤ) (w : World) (tr : History) : Prop where
  start : Cools floor w
  later : ∀ e ∈ tr, ∀ env cfg, e.act = .staking env (.setConfig cfg) → e.out.isSome = true →
    floor ≤ cfg.cooldownSecs

theorem cools_step (h : Cools floor w)
    (hset : ∀ env cfg, a = .staking env (.setConfig cfg) → (out site w a).isSome = true →
      floor ≤ cfg.cooldownSecs) : Cools floor (next site w a) := by
  obtain ⟨cfg, hcfg, hle⟩ := h
  cases a with
  | escrow env op => exact ⟨cfg, hcfg, hle⟩
  | other time moves => exact ⟨cfg, hcfg, hle⟩
  | staking env op =>
    obtain ⟨hn, -⟩ | ⟨c, ts, evs, he, hn, hr⟩ :=
      Staking.Effects.call_cases w.stakingSide env ⟨op, answers site w⟩
    · refine ⟨cfg, ?_, hle⟩
      simp only [next, stakingCall, hn]
      exact hcfg
    · have hside : (next site w (.staking env op)).staking = c := by
        simp only [next, stakingCall, hn]
      rw [Cools, hside]
      cases he with
      | staked | requested | claimed | slashed => exact ⟨cfg, hcfg, hle⟩
      | pauseSet hcfg' =>
        obtain rfl := Option.some.inj (hcfg.symm.trans hcfg')
        exact ⟨_, rfl, hle⟩
      | configured =>
        refine ⟨_, rfl, hset env _ rfl ?_⟩
        simp only [out, stakingCall, hr]
        rfl

theorem FloorKept.run (hr : Run (machine site) w tr w₂) (h : FloorKept floor w tr) :
    (∀ e ∈ tr, Cools floor e.pre) ∧ Cools floor w₂ := by
  induction hr with
  | nil => exact ⟨by simp, h.start⟩
  | @snoc tr u hr a ha ih =>
    obtain ⟨hpre, hnow⟩ := ih ⟨h.start, fun e he => h.later e (List.mem_append_left _ he)⟩
    refine ⟨fun e he => ?_, cools_step hnow fun env cfg hact hout => ?_⟩
    · obtain he | he := List.mem_append.mp he
      · exact hpre e he
      · obtain rfl := List.mem_singleton.mp he
        exact hnow
    · exact h.later ((machine site).entry u a) (by simp) env cfg hact hout

theorem Cools.coolsFor (h : Cools floor w) : CoolsFor floor.toNat w.stakingSide := by
  obtain ⟨cfg, hcfg, hle⟩ := h
  intro cfg' hcfg'
  obtain rfl := Option.some.inj (hcfg.symm.trans hcfg')
  omega

variable {windows : Windows} {c : Date}

/-- A trade that settles by the confirm deadline of its order cannot be slashed
longer than the floor after the order was created. -/
theorem slashDeadline_lt (hs : Sound ecfg w₀.now v.now t)
    (hcarries : Carries (argsOf t.toTerms) (computeWindows windows c.ms))
    (hset : t.settledAt ≤ t.confirmDeadline) :
    (t.slashDeadline : ℤ) < (c.ms / 1000 : ℕ) +
      cooldownFloorSecs windows.payWindowSecs windows.confirmWindowSecs := by
  have hslash := hs.slash_le
  have hconfirm : (t.confirmDeadline : ℤ) =
      (c.ms / 1000 : ℕ) + windows.payWindowSecs + windows.confirmWindowSecs := hcarries.confirm
  simp only [cooldownFloorSecs, longestTailPastSettlementSecs, slashCeilingPastPostSettleSecs,
    maxDisputeWindowSecs, resolverWindowSecs, postVerdictGraceSecs, resolverWindow] at *
  omega

/-- The cooldown floor does what it is for. Stake that goes into unbonding at or
after the creation of an order stays where it can be slashed for as long as the
order's trade can be, if the trade settles by its confirm deadline. -/
theorem cooldown_floor_holds (hd : Deployed site ecfg scfg w₀) (hr₀ : Run (machine site) w₀ tr₀ w₁)
    (hr : Run (machine site) w₁ (tr₁ ++ e :: tr₂ ++ e' :: tr₃) w₂)
    (hfloor : FloorKept (cooldownFloorSecs windows.payWindowSecs windows.confirmWindowSecs) w₁
      (tr₁ ++ e :: tr₂ ++ e' :: tr₃))
    (hreq : Requests lp e requested) (hclaim : Claims lp e' claimed) (hc : c.ms / 1000 ≤ requested)
    (hv : Visits (tr₀ ++ (tr₁ ++ e :: tr₂ ++ e' :: tr₃)) v) (ht : v.trade id = some t)
    (hcarries : Carries (argsOf t.toTerms) (computeWindows windows c.ms))
    (hset : t.settledAt ≤ t.confirmDeadline) : t.slashDeadline < claimed := by
  obtain ⟨tr', hr'⟩ := (hr₀.trans hr).reaches hv
  have hlt := slashDeadline_lt ((run_coherent hd hr').trades id t ht) hcarries hset
  have hpres := (hfloor.run hr).1
  have hcool := claim_after_cooldown (run_coherent hd hr₀) hr
    (fun f hf => (hpres f (List.mem_append_left _ hf)).coolsFor) hreq hclaim
  omega

def raiseAction : Action :=
  .staking (Staking.Solvency.sampleEnv 1000 [⟨1⟩])
    (.setConfig { Staking.Solvency.sampleConfig with cooldownSecs := 352701 })

def raisedWorld : World := next sampleSite sampleWorld raiseAction

def judgedWorld : World := final (machine sampleSite) raisedWorld condemnedActions

def askedWorld : World := next sampleSite judgedWorld requestAction

def lateClaimAction : Action := .staking (Staking.Solvency.sampleEnv 354601 [⟨7⟩]) (.claimUnstake ⟨7⟩)

def lateHistory : History :=
  history (machine sampleSite) raisedWorld condemnedActions ++
    (machine sampleSite).entry judgedWorld requestAction :: [] ++
    (machine sampleSite).entry askedWorld lateClaimAction :: []

theorem raised_run : Run (machine sampleSite) sampleWorld
    [(machine sampleSite).entry sampleWorld raiseAction] raisedWorld :=
  Run.nil.snoc raiseAction ⟨rfl, by decide⟩

theorem late_run : Run (machine sampleSite) raisedWorld lateHistory
    (next sampleSite askedWorld lateClaimAction) := by
  have hjudged : Run (machine sampleSite) raisedWorld
      (history (machine sampleSite) raisedWorld condemnedActions) judgedWorld := by
    apply Run.of_actions
    refine ⟨⟨rfl, ?_⟩, ⟨rfl, ?_⟩, ⟨rfl, ?_⟩, ⟨rfl, ?_⟩, ⟨rfl, ?_⟩, ⟨rfl, ?_⟩, trivial⟩ <;> decide
  have hask : (machine sampleSite).admits judgedWorld requestAction := ⟨rfl, by decide⟩
  have hclaim : (machine sampleSite).admits askedWorld lateClaimAction := ⟨rfl, by decide⟩
  exact (hjudged.trans (Run.cons hask Run.nil)).trans (Run.cons hclaim Run.nil)

def judgedTrade : Trade := (judgedWorld.trade 1).get (by decide)

def sampleWindows : Windows := ⟨1100, 6000, 1000⟩

theorem sample_floorKept : FloorKept (cooldownFloorSecs sampleWindows.payWindowSecs
    sampleWindows.confirmWindowSecs) raisedWorld lateHistory := by
  refine ⟨⟨_, rfl, by decide⟩, fun e he env cfg hact => ?_⟩
  have hnone : ∀ e ∈ lateHistory, ∀ env cfg, e.act ≠ .staking env (.setConfig cfg) := by
    intro e he env cfg hact
    rw [lateHistory, List.mem_append, List.mem_append] at he
    obtain (he | he) | he := he
    · let ok : World → Action → Prop := fun _ a => ∀ env cfg, a ≠ .staking env (.setConfig cfg)
      have hmeets : ok e.pre e.act := by
        refine history_meets condemnedActions raisedWorld ?_ e he
        refine ⟨?_, ?_, ?_, ?_, ?_, ?_, trivial⟩ <;> rintro env cfg ⟨⟩
      exact hmeets env cfg hact
    · obtain rfl := List.mem_singleton.mp he
      cases hact
    · obtain rfl := List.mem_singleton.mp he
      cases hact
  exact absurd hact (hnone e he env cfg)

/-- The recipient of the sample trade asks for his stake after the verdict. -/
theorem sample_cooldown_floor :
    judgedTrade.settledAt = 1600 ∧ judgedTrade.slashDeadline = 88200 ∧
      judgedTrade.slashDeadline < 354601 := by
  refine ⟨by decide, by decide, ?_⟩
  have htrade : judgedWorld.trade 1 = some judgedTrade := (Option.some_get _).symm
  have hcarries : Carries (argsOf judgedTrade.toTerms)
      (computeWindows sampleWindows (⟨900000, by decide⟩ : Date).ms) :=
    ⟨by decide, by decide, by decide⟩
  exact cooldown_floor_holds sampleWorld_deployed raised_run late_run sample_floorKept
    ⟨_, 1500000, rfl, by decide, rfl⟩ ⟨_, rfl, by decide, rfl⟩ (by decide)
    ⟨(machine sampleSite).entry judgedWorld requestAction, by simp, .inl rfl⟩
    htrade hcarries (by decide)

end Lolipay.Coordinator.CooldownFloor
