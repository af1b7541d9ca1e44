import Lolipay.Staking.Effects

namespace Lolipay.Staking.Solvency

open Lolipay.Ledger
open Lolipay.Ledger.Calls Lolipay.Ledger.Storage Lolipay.Ledger.Invocation Lolipay.Ledger.Runs
open Lolipay.Staking.Types Lolipay.Staking.Contract Lolipay.Staking.System Lolipay.Staking.Effects
open Lolipay.Escrow.Types (TradeId DisputeView)

variable {self lp : Address} {cfg cfg₀ : Config} {env : Env} {call : Call} {c c' : Contents}
  {ts : List Transfer} {w w₀ w' : World} {a : Action} {tr : History} {floor : ℕ}

structure Sound (info : StakeInfo) : Prop where
  staked_nonneg : 0 ≤ info.staked
  unbonding_nonneg : 0 ≤ info.unbonding

/-- No record is negative, and the contract's balance covers all records together. -/
structure Coherent (contract : Address) (cfg₀ : Config) (w : World) : Prop where
  config : ∃ cfg, w.contents.config = some cfg ∧ Lawful cfg ∧ Keeps cfg₀ cfg
  stakes : ∀ lp, Sound (w.stake lp)
  solvent : total bonded w.contents.stakes ≤ w.balances cfg₀.usdcToken contract

theorem Coherent.unique (hi : Coherent self cfg₀ w) (hcfg : w.contents.config = some cfg) :
    Lawful cfg ∧ Keeps cfg₀ cfg := by
  obtain ⟨cfg', hcfg', h⟩ := hi.config
  obtain rfl := Option.some.inj (hcfg.symm.trans hcfg')
  exact h

theorem resetTimer_staked (info : StakeInfo) : (resetTimer info).staked = info.staked := by
  rw [resetTimer]
  split <;> rfl

theorem resetTimer_unbonding (info : StakeInfo) :
    (resetTimer info).unbonding = info.unbonding := by
  rw [resetTimer]
  split <;> rfl

theorem seized_sound {info : StakeInfo} {amount : ℤ} (hs : Sound info)
    (hle : amount ≤ bonded info) :
    Sound (seized info amount) ∧ bonded (seized info amount) = bonded info - amount := by
  have hst := hs.staked_nonneg
  have hun := hs.unbonding_nonneg
  unfold bonded at hle ⊢
  rw [seized]
  rw [resetTimer_staked, resetTimer_unbonding]
  by_cases hc : amount ≤ info.staked
  · rw [if_pos hc]
    refine ⟨⟨?_, ?_⟩, ?_⟩
    · rw [resetTimer_staked]
      show 0 ≤ info.staked - amount
      omega
    · rw [resetTimer_unbonding]
      exact hun
    · show info.staked - amount + info.unbonding = _
      omega
  · rw [if_neg hc]
    refine ⟨⟨?_, ?_⟩, ?_⟩
    · rw [resetTimer_staked]
    · rw [resetTimer_unbonding]
      show 0 ≤ info.unbonding - (amount - info.staked)
      omega
    · show 0 + (info.unbonding - (amount - info.staked)) = _
      omega

theorem measureAt_stakes (c : Contents) (lp : Address) :
    measureAt bonded c.stakes lp = bonded (stakeOf c lp) := by
  unfold measureAt stakeOf
  cases c.stakes.lookup lp <;> rfl

/-- The one provider whose record a call rewrites, with what his bond changes by
and what the contract pays for it. -/
theorem effect_record (he : Effect env c call c' ts) (hall : ∀ lp, Sound (stakeOf c lp)) :
    (c'.stakes = c.stakes ∧ ts = []) ∨
    ∃ cfg lp info, c.config = some cfg ∧ c'.stakes = c.stakes.insert lp info ∧ Sound info ∧
      ∀ b : Balances, bonded info - bonded (stakeOf c lp) ≤
        moveAll b ts cfg.usdcToken env.contract - b cfg.usdcToken env.contract := by
  cases he with
  | configured | pauseSet => exact .inl ⟨rfl, rfl⟩
  | @staked cfg lp amount escrow hcfg hpos hs =>
    have hne : env.contract ≠ lp := fun hc => env.silent (hc ▸ hs)
    have hold := (hall lp).staked_nonneg
    refine .inr ⟨cfg, lp, _, hcfg, rfl, ⟨?_, (hall lp).unbonding_nonneg⟩, fun b => ?_⟩
    · show 0 ≤ (stakeOf c lp).staked + amount
      omega
    · simp only [bonded, moveAll, List.foldl_cons, List.foldl_nil, move, hne, and_false, and_self,
        if_false, if_true]
      omega
  | @requested cfg lp amount escrow hcfg hpos hle hs =>
    have hold := (hall lp).unbonding_nonneg
    refine .inr ⟨cfg, lp, _, hcfg, rfl, ⟨?_, ?_⟩, fun b => ?_⟩
    · show 0 ≤ (stakeOf c lp).staked - amount
      omega
    · show 0 ≤ (stakeOf c lp).unbonding + amount
      omega
    · simp only [bonded, moveAll, List.foldl_nil]
      omega
  | @claimed cfg lp escrow hcfg hpos ht hs =>
    refine .inr ⟨cfg, lp, _, hcfg, rfl, ⟨(hall lp).staked_nonneg, le_rfl⟩, fun b => ?_⟩
    have hpay := moveAll_payer b [⟨cfg.usdcToken, env.contract, lp, (stakeOf c lp).unbonding⟩]
      cfg.usdcToken env.contract (by simp [hpos.le])
    simp only [amounts, List.map_cons, List.map_nil, List.sum_cons, List.sum_nil] at hpay
    simp only [bonded]
    omega
  | @slashed cfg lp id amount caller view escrow hcfg hs =>
    obtain ⟨hsound, hbond⟩ := seized_sound (hall lp) hs.covered
    refine .inr ⟨cfg, lp, _, hcfg, rfl, hsound, fun b => ?_⟩
    have hpay := moveAll_payer b [⟨cfg.usdcToken, env.contract, (culpritAndVictim view).2, amount⟩]
      cfg.usdcToken env.contract (by simp [hs.amount_pos.le])
    simp only [amounts, List.map_cons, List.map_nil, List.sum_cons, List.sum_nil] at hpay
    omega

theorem effect_config (he : Effect env c call c' ts)
    (hc : ∃ cfg, c.config = some cfg ∧ Lawful cfg ∧ Keeps cfg₀ cfg) :
    ∃ cfg, c'.config = some cfg ∧ Lawful cfg ∧ Keeps cfg₀ cfg := by
  obtain ⟨cfg, hcfg, hl, hk⟩ := hc
  cases he with
  | staked | requested | claimed | slashed => exact ⟨cfg, hcfg, hl, hk⟩
  | configured hcfg' hl' hk' =>
    obtain rfl := Option.some.inj (hcfg.symm.trans hcfg')
    exact ⟨_, rfl, hl', hk'.token.trans hk.token, hk'.escrow.trans hk.escrow⟩
  | pauseSet hcfg' =>
    obtain rfl := Option.some.inj (hcfg.symm.trans hcfg')
    exact ⟨_, rfl, ⟨hl.cooldown_ge, hl.cooldown_le, hl.minStake_pos⟩, hk.token, hk.escrow⟩

theorem effect_coherent (hi : Coherent env.contract cfg₀ w)
    (he : Effect env w.contents call c ts) :
    Coherent env.contract cfg₀ ⟨c, moveAll w.balances ts, env.timestamp⟩ := by
  obtain ⟨hst, rfl⟩ | ⟨cfg, lp, info, hcfg, hst, hs, hbal⟩ := effect_record he hi.stakes
  · refine ⟨effect_config he hi.config, fun lp => ?_, ?_⟩
    · have h := hi.stakes lp
      rw [World.stake, stakeOf] at h ⊢
      rw [hst]
      exact h
    · show total bonded c.stakes ≤ _
      rw [hst]
      exact hi.solvent
  · obtain ⟨-, hk⟩ := hi.unique hcfg
    refine ⟨effect_config he hi.config, fun lp' => ?_, ?_⟩
    · rw [World.stake, stakeOf, hst]
      by_cases hlp : lp' = lp
      · subst hlp
        rw [AList.lookup_insert]
        exact hs
      · rw [AList.lookup_insert_ne hlp]
        exact hi.stakes lp'
    · show total bonded c.stakes ≤ _
      have hb := hbal w.balances
      rw [hst]
      apply total_insert_le hi.solvent
      rw [measureAt_stakes, ← hk.token]
      exact hb

theorem Coherent.step (hi : Coherent self cfg₀ w) (ha : admits self w a) :
    Coherent self cfg₀ (next w a) := by
  cases a with
  | other time moves => exact ⟨hi.config, hi.stakes, hi.solvent.trans (le_moveAll _ _ _ _ ha.2)⟩
  | call env call =>
    obtain ⟨rfl, -⟩ := ha
    obtain ⟨hn, -⟩ | ⟨c, ts, evs, he, hn, -⟩ := call_cases w env call
    · rw [hn]
      exact ⟨hi.config, hi.stakes, hi.solvent⟩
    · rw [hn]
      exact effect_coherent hi he

theorem Coherent.deployed (hd : Deployed self cfg₀ w) : Coherent self cfg₀ w := by
  obtain ⟨env, admin, token, resolver, escrow, minStake, cooldown, -, -, hx, hc, hb⟩ := hd
  refine ⟨⟨cfg₀, by rw [hc], construct_lawful hx, rfl, rfl⟩, fun lp => ?_, ?_⟩
  · rw [World.stake, stakeOf, hc]
    exact ⟨le_rfl, le_rfl⟩
  · rw [hc]
    exact hb

theorem Coherent.run (hi : Coherent self cfg₀ w) (hr : Run (machine self) w tr w') :
    Coherent self cfg₀ w' :=
  hr.invariant hi fun _ _ hu ha => hu.step ha

def Requests (lp : Address) (e : Entry World Action (Option Receipt)) (time : ℕ) : Prop :=
  ∃ env call amount, e.act = .call env call ∧ call.op = .requestUnstake lp amount ∧
    e.out.isSome = true ∧ env.timestamp = time

theorem seized_timer {info : StakeInfo} {amount : ℤ} (hu : 0 < (seized info amount).unbonding) :
    0 < info.unbonding ∧ (seized info amount).unbondAvailableAt = info.unbondAvailableAt := by
  rw [seized] at hu ⊢
  rw [resetTimer_unbonding] at hu
  by_cases hc : amount ≤ info.staked
  · rw [if_pos hc] at hu ⊢
    have hne : info.unbonding ≠ 0 := hu.ne'
    refine ⟨hu, ?_⟩
    rw [resetTimer, if_neg hne]
  · rw [if_neg hc] at hu ⊢
    have hpos : 0 < info.unbonding - (amount - info.staked) := hu
    refine ⟨by omega, ?_⟩
    rw [resetTimer, if_neg hpos.ne']

def CoolsFor (floor : ℕ) (w : World) : Prop :=
  ∀ cfg, w.contents.config = some cfg → floor ≤ cfg.cooldownSecs

theorem Coherent.coolsFor (hi : Coherent self cfg₀ w) : CoolsFor minCooldownSecs w :=
  fun _ hcfg => (hi.unique hcfg).1.cooldown_ge

/-- What a call does to the timer of a provider who is unbonding after it: a
request of his own sets it, and nothing else lowers it. -/
theorem effect_timer (hf : CoolsFor floor w) (he : Effect env w.contents call c ts)
    (hu : 0 < (stakeOf c lp).unbonding) :
    (∃ amount, call.op = .requestUnstake lp amount ∧
      env.timestamp + floor ≤ (stakeOf c lp).unbondAvailableAt) ∨
    ((∀ amount, call.op ≠ .requestUnstake lp amount) ∧ 0 < (w.stake lp).unbonding ∧
      (w.stake lp).unbondAvailableAt ≤ (stakeOf c lp).unbondAvailableAt) := by
  by_cases hlp : call.op.lp = some lp
  · cases he with
    | @staked cfg lp' amount escrow hcfg hpos hs =>
      obtain rfl := Option.some.inj hlp
      rw [stakeOf_insert] at hu ⊢
      exact .inr ⟨by simp, hu, le_rfl⟩
    | @requested cfg lp' amount escrow hcfg hpos hle hs =>
      obtain rfl := Option.some.inj hlp
      have hcool := hf cfg hcfg
      rw [stakeOf_insert]
      refine .inl ⟨amount, rfl, ?_⟩
      show _ ≤ max _ _
      omega
    | @claimed cfg lp' escrow hcfg hpos ht hs =>
      obtain rfl := Option.some.inj hlp
      rw [stakeOf_insert] at hu
      exact absurd hu (lt_irrefl _)
    | @slashed cfg lp' id amount caller view escrow hcfg hs =>
      obtain rfl := Option.some.inj hlp
      rw [stakeOf_insert] at hu ⊢
      obtain ⟨hpos, htimer⟩ := seized_timer hu
      exact .inr ⟨by simp, hpos, htimer.ge⟩
    | configured | pauseSet => cases hlp
  · rw [effect_other he hlp] at hu ⊢
    refine .inr ⟨?_, hu, le_rfl⟩
    intro amount hop
    rw [hop] at hlp
    exact hlp rfl

theorem Requests.time_eq {e : Entry World Action (Option Receipt)} {time : ℕ}
    (h : Requests lp e time) : time = e.act.time := by
  obtain ⟨env, call, amount, hact, -, -, rfl⟩ := h
  rw [hact]
  rfl

theorem step_timer (self : Address) (hf : CoolsFor floor w)
    (hu : 0 < ((next w a).stake lp).unbonding) :
    a.time + floor ≤ ((next w a).stake lp).unbondAvailableAt ∨
    ((∀ time, ¬Requests lp ((machine self).entry w a) time) ∧ 0 < (w.stake lp).unbonding ∧
      (w.stake lp).unbondAvailableAt ≤ ((next w a).stake lp).unbondAvailableAt) := by
  cases a with
  | other t moves =>
    refine .inr ⟨?_, hu, le_rfl⟩
    rintro time ⟨env, call, amount, hact, -⟩
    cases hact
  | call env call =>
    obtain ⟨hn, hnone⟩ | ⟨c, ts, evs, he, hn, -⟩ := call_cases w env call
    · rw [hn] at hu ⊢
      refine .inr ⟨?_, hu, le_rfl⟩
      rintro time ⟨-, -, -, -, -, hout, -⟩
      have hfail : (receipt w (.call env call)).isSome = true := hout
      rw [hnone] at hfail
      cases hfail
    · rw [hn] at hu ⊢
      obtain ⟨amount, -, hset⟩ | ⟨hno, hpre, hmono⟩ := effect_timer hf he hu
      · exact .inl hset
      · refine .inr ⟨?_, hpre, hmono⟩
        rintro time ⟨env', call', amount, hact, hop, -⟩
        obtain ⟨rfl, rfl⟩ := Deployment.Action.call.inj hact
        exact hno amount hop

/-- While a provider is unbonding, his timer is ahead of each of his requests
by at least the least cooldown that was ever in force. -/
theorem run_timer (hr : Run (machine self) w₀ tr w) (hf : ∀ e ∈ tr, CoolsFor floor e.pre)
    (hu : 0 < (w.stake lp).unbonding) {e : Entry World Action (Option Receipt)} (he : e ∈ tr)
    {time : ℕ} (hreq : Requests lp e time) :
    time + floor ≤ (w.stake lp).unbondAvailableAt := by
  induction hr generalizing e time with
  | nil => cases he
  | @snoc tr u hr a ha ih =>
    have hnow := hf ((machine self).entry u a) (by simp)
    obtain hset | ⟨hno, hpre, hmono⟩ := step_timer self hnow hu
    · -- A request made now is the latest of all, whatever came before it.
      have hle := Deployment.run_time_le (hr.snoc a ha) e he
      have hnow : ((machine self).next u a).now = a.time := Deployment.now_next exec u a
      rw [← hreq.time_eq, hnow] at hle
      exact le_trans (by omega) hset
    · obtain he | he := List.mem_append.mp he
      · exact (ih (fun e he => hf e (List.mem_append_left _ he)) hpre he hreq).trans hmono
      · obtain rfl := List.mem_singleton.mp he
        exact absurd hreq (hno time)

theorem run_coolsFor (hd : Deployed self cfg₀ w₀) (hr : Run (machine self) w₀ tr w) :
    ∀ e ∈ tr, CoolsFor minCooldownSecs e.pre := by
  intro e he
  obtain ⟨tr₁, -, -, hpre, -⟩ := hr.of_mem he
  exact ((Coherent.deployed hd).run hpre).coolsFor

theorem claim_ready {escrow : Address → TradeId → Reply}
    (hr : (receipt w (.call env ⟨.claimUnstake lp, escrow⟩)).isSome = true) :
    0 < (w.stake lp).unbonding ∧ (w.stake lp).unbondAvailableAt ≤ env.timestamp := by
  obtain ⟨-, hnone⟩ | ⟨c, ts, evs, he, -, -⟩ := call_cases w env ⟨.claimUnstake lp, escrow⟩
  · rw [hnone] at hr
    cases hr
  · cases he with
    | claimed hcfg hpos ht hs => exact ⟨hpos, ht⟩

theorem step_other (ha : admits self w a)
    (hne : ∀ env call, a = .call env call → call.op.lp ≠ some lp) :
    (next w a).stake lp = w.stake lp := by
  cases a with
  | other t moves => rfl
  | call env call =>
    obtain ⟨hn, -⟩ | ⟨c, ts, evs, he, hn, -⟩ := call_cases w env call
    · rw [hn]
      rfl
    · rw [hn]
      exact effect_other he (hne env call rfl)

/-- In every run from the constructor no stake is negative, the balance covers
all stakes, nobody touches another provider's record, and a cooldown runs its
full length from the last request. -/
theorem staking_solvent (hd : Deployed self cfg₀ w₀) (hr : Run (machine self) w₀ tr w) :
    (∀ lp, 0 ≤ (w.stake lp).staked ∧ 0 ≤ (w.stake lp).unbonding) ∧
    total bonded w.contents.stakes ≤ w.balances cfg₀.usdcToken self ∧
    (∀ e ∈ tr, ∀ lp, (∀ env call, e.act = .call env call → call.op.lp ≠ some lp) →
      e.post.stake lp = e.pre.stake lp) ∧
    (∀ lp, 0 < (w.stake lp).unbonding → ∀ e ∈ tr, ∀ time, Requests lp e time →
      time + minCooldownSecs ≤ (w.stake lp).unbondAvailableAt) := by
  have hi := (Coherent.deployed hd).run hr
  refine ⟨fun lp => ⟨(hi.stakes lp).staked_nonneg, (hi.stakes lp).unbonding_nonneg⟩, hi.solvent,
    ?_, fun lp hu e he time hreq => run_timer hr (run_coolsFor hd hr) hu he hreq⟩
  intro e he lp hne
  obtain ⟨-, -, -, -, ha, hentry, -⟩ := hr.of_mem he
  rw [hentry]
  exact step_other ha hne

def sampleEnv (time : ℕ) (signers : List Address) : Env :=
  ⟨⟨9⟩, time, signers.filter (· ≠ ⟨9⟩), fun _ => true, by simp⟩

def sampleConfig : Config :=
  { admin := ⟨1⟩, usdcToken := ⟨2⟩, resolver := ⟨3⟩, escrowContract := ⟨0⟩, minStake := 100,
    cooldownSecs := 345601, paused := false }

def sampleWorld : World := ⟨⟨some sampleConfig, ∅, ∅⟩, fun _ _ => 0, 1000⟩

theorem sampleWorld_deployed : Deployed ⟨9⟩ sampleConfig sampleWorld :=
  ⟨sampleEnv 1000 [⟨1⟩], ⟨1⟩, ⟨2⟩, ⟨3⟩, ⟨0⟩, 100, 345601, rfl, rfl, rfl, rfl,
    by decide⟩

def sampleView : DisputeView :=
  { isDisputed := false, provider := ⟨6⟩, recipient := ⟨7⟩, amount := 1000000,
    preSettlement := false, released := false, postSettleRaised := true,
    liabilityEstablished := true, slashDeadline := 50000 }

/-- One provider stakes, asks for some of it back and is slashed into what is
unbonding; another provider stakes as well. -/
def sampleActions : List Action :=
  [.call (sampleEnv 1000 [⟨6⟩]) ⟨.stake ⟨6⟩ 1000, fun _ _ => .unreadable⟩,
    .call (sampleEnv 1100 [⟨8⟩]) ⟨.stake ⟨8⟩ 500, fun _ _ => .unreadable⟩,
    .call (sampleEnv 1200 [⟨6⟩]) ⟨.requestUnstake ⟨6⟩ 400, fun _ _ => .unreadable⟩,
    .call (sampleEnv 1300 [⟨3⟩]) ⟨.slash ⟨6⟩ 1 700 ⟨3⟩, fun _ _ => .view sampleView⟩]

def sampleFinal : World := final (machine ⟨9⟩) sampleWorld sampleActions

theorem sample_run : Run (machine ⟨9⟩) sampleWorld (history (machine ⟨9⟩) sampleWorld sampleActions)
    sampleFinal :=
  Run.of_actions sampleActions sampleWorld
    ⟨⟨rfl, by decide⟩, ⟨rfl, by decide⟩, ⟨rfl, by decide⟩, ⟨rfl, by decide⟩, trivial⟩

theorem sample_staking_solvent :
    sampleFinal.stake ⟨6⟩ = ⟨0, 300, 346801⟩ ∧ total bonded sampleFinal.contents.stakes = 800 ∧
    total bonded sampleFinal.contents.stakes ≤ sampleFinal.balances ⟨2⟩ ⟨9⟩ :=
  ⟨by decide, by decide, (staking_solvent sampleWorld_deployed sample_run).2.1⟩

end Lolipay.Staking.Solvency
