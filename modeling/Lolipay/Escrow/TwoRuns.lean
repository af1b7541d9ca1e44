import Lolipay.Escrow.Lifecycle

namespace Lolipay.Escrow.TwoRuns

open Lolipay.Ledger
open Lolipay.Ledger.Calls Lolipay.Ledger.Storage Lolipay.Ledger.Invocation Lolipay.Ledger.Runs
open Lolipay.Escrow.Types Lolipay.Escrow.Contract Lolipay.Escrow.System Lolipay.Escrow.Payout
open Lolipay.Escrow.Transitions Lolipay.Escrow.Effects Lolipay.Escrow.Invariant
open Lolipay.Escrow.Custody Lolipay.Escrow.Lifecycle

variable {self : Address} {cfg cfg₀ : Config} {env : Env} {id : TradeId} {t t' : Trade} {op : Op}
  {d : ResolveOutcome} {start : ℕ} {h : EscrowHost} {w w₀ w' : World} {tr tr' : History}

/-- The entry of a history that stored the terms of a trade. -/
def CreatedBy (id : TradeId) (u : Terms) (e : Entry World Action (Option Receipt)) : Prop :=
  ∃ env args cfg, e.act = .call env (.createTrade id args) ∧ e.out.isSome = true ∧
    e.pre.contents.config = some cfg ∧ u = (openingTrade cfg env.timestamp args).toTerms

theorem created_by (hr : Run (machine self) w₀ tr w) (h₀ : w₀.trade id = none)
    (ht : w.trade id = some t) : ∃ e ∈ tr, CreatedBy id t.toTerms e := by
  induction hr generalizing t with
  | nil => cases h₀.symm.trans ht
  | @snoc tr u hu a ha ih =>
    have hold {t₁ : Trade} (ht₁ : u.trade id = some t₁) (hterms : t.toTerms = t₁.toTerms) :
        ∃ e ∈ tr ++ [(machine self).entry u a], CreatedBy id t.toTerms e := by
      obtain ⟨e, he, hc⟩ := ih ht₁
      rw [hterms]
      exact ⟨e, List.mem_append_left _ he, hc⟩
    cases trade_step ha id with
    | same hsame => exact hold (hsame.symm.trans ht) rfl
    | @opened env cfg args hact hself hcfg ho hnew hnext hp hout =>
      obtain rfl := Option.some.inj (ht.symm.trans hnext)
      exact ⟨(machine self).entry u a, by simp, env, args, cfg, hact, hout, hcfg, rfl⟩
    | moved hact hself hcfg hlook hm hnext =>
      obtain rfl := Option.some.inj (ht.symm.trans hnext)
      exact hold hlook (moves_toTerms hm)

theorem payouts_of_terms (hd : Deployed self cfg₀ w₀) (hr : Run (machine self) w₀ tr w)
    (ht : w.trade id = some t) (hr' : Run (machine self) w tr' w') (ht' : w'.trade id = some t')
    (hset : settlement t' = some d) :
    payouts self id (tr ++ tr') = [payout self t.toTerms d] := by
  obtain ⟨t₁, ht₁, hterms⟩ := run_toTerms hr' ht
  obtain rfl := Option.some.inj (ht'.symm.trans ht₁)
  rw [payouts_eq hd (hr.trans hr'), phase_of_trade ht', settledPayout, hset, hterms]
  rfl

/-- The terms of a trade are those of its creation for ever. Two runs that
agree up to some moment after the creation and settle the trade in the same
direction make the same payouts, whatever the configuration did in between. -/
theorem terms_frozen (hd : Deployed self cfg₀ w₀) (hr : Run (machine self) w₀ tr w)
    (ht : w.trade id = some t) :
    (∃ e ∈ tr, CreatedBy id t.toTerms e) ∧
    (∀ tr' w', Run (machine self) w tr' w' →
      ∃ t', w'.trade id = some t' ∧ t'.toTerms = t.toTerms) ∧
    (∀ tr₁ w₁ t₁ tr₂ w₂ t₂ d, Run (machine self) w tr₁ w₁ → Run (machine self) w tr₂ w₂ →
      w₁.trade id = some t₁ → w₂.trade id = some t₂ →
      settlement t₁ = some d → settlement t₂ = some d →
      payouts self id (tr ++ tr₁) = payouts self id (tr ++ tr₂) ∧
      payouts self id (tr ++ tr₁) = [payout self t.toTerms d]) := by
  refine ⟨created_by hr (trade_none_of_deployed hd) ht, fun tr' w' hr' => run_toTerms hr' ht, ?_⟩
  intro tr₁ w₁ t₁ tr₂ w₂ t₂ d hr₁ hr₂ ht₁ ht₂ hset₁ hset₂
  have h₁ := payouts_of_terms hd hr ht hr₁ ht₁ hset₁
  have h₂ := payouts_of_terms hd hr ht hr₂ ht₂ hset₂
  exact ⟨h₁.trans h₂.symm, h₁⟩

def openedActions : List Action :=
  [.call (sampleEnv 1000 [⟨6⟩]) (.createTrade 1 sampleArgs)]

def openedWorld : World := final (machine ⟨0⟩) sampleWorld openedActions

def openedHistory : History := history (machine ⟨0⟩) sampleWorld openedActions

theorem opened_run : Run (machine ⟨0⟩) sampleWorld openedHistory openedWorld :=
  Run.of_actions openedActions sampleWorld ⟨⟨rfl, by decide⟩, trivial⟩

def openedTrade : Trade := openingTrade sampleConfig 1000 sampleArgs

theorem openedWorld_trade : openedWorld.trade 1 = some openedTrade := by decide

def closingActions : List Action :=
  [.call (sampleEnv 1500 [⟨7⟩]) (.markFiatPaid 1 ⟨7⟩),
    .call (sampleEnv 1600 [⟨6⟩]) (.confirmAndRelease 1)]

theorem closing_run :
    Run (machine ⟨0⟩) openedWorld (history (machine ⟨0⟩) openedWorld closingActions)
      (final (machine ⟨0⟩) openedWorld closingActions) :=
  Run.of_actions closingActions openedWorld ⟨⟨rfl, by decide⟩, ⟨rfl, by decide⟩, trivial⟩

/-- The administrator raises the fee, widens the dispute window and changes the
resolver before the same payment and release. -/
def reconfiguredActions : List Action :=
  .call (sampleEnv 1400 [⟨1⟩]) (.setConfig { sampleConfig with
    defaultPlatformFeeBps := 500, disputeWindow := 7200, resolver := ⟨8⟩ }) :: closingActions

theorem reconfigured_run :
    Run (machine ⟨0⟩) openedWorld (history (machine ⟨0⟩) openedWorld reconfiguredActions)
      (final (machine ⟨0⟩) openedWorld reconfiguredActions) :=
  Run.of_actions reconfiguredActions openedWorld
    ⟨⟨rfl, by decide⟩, ⟨rfl, by decide⟩, ⟨rfl, by decide⟩, trivial⟩

theorem sample_terms_frozen :
    (final (machine ⟨0⟩) openedWorld closingActions).contents.config ≠
      (final (machine ⟨0⟩) openedWorld reconfiguredActions).contents.config ∧
    payouts ⟨0⟩ 1 (openedHistory ++ history (machine ⟨0⟩) openedWorld closingActions) =
      payouts ⟨0⟩ 1 (openedHistory ++ history (machine ⟨0⟩) openedWorld reconfiguredActions) := by
  obtain ⟨-, -, htwo⟩ := terms_frozen sampleWorld_deployed opened_run openedWorld_trade
  have hpaid := htwo _ _ (settledNow (sampleEnv 1600 []) openedTrade .release) _ _
    (settledNow (sampleEnv 1600 []) openedTrade .release) .release closing_run
    reconfigured_run (by decide) (by decide) (by decide) (by decide)
  exact ⟨by decide, hpaid.1⟩

def Config.withPaused (p : Bool) (cfg : Config) : Config := { cfg with paused := p }

def Contents.withPaused (p : Bool) (c : Contents) : Contents :=
  { c with config := c.config.map (Config.withPaused p) }

def World.withPaused (p : Bool) (w : World) : World :=
  { w with contents := Contents.withPaused p w.contents }

def withPaused (p : Bool) (h : EscrowHost) : EscrowHost := h.mapStorage (Contents.withPaused p)

/-- The calls that the pause flag must not reach: those that end a trade, the
recipient's own payment mark, and disputes past the funding of a trade. -/
def Unstoppable (c : Contents) : Op → Prop
  | .confirmAndRelease _ | .refund _ | .cancel _ | .resolve _ _ _ => True
  | .markFiatPaid id caller => ∀ t ∈ c.trades.lookup id, caller = t.usdcRecipient
  | .raiseDispute id _ => ∀ t ∈ c.trades.lookup id, t.status ≠ .funded
  | _ => False

instance (c : Contents) : (op : Op) → Decidable (Unstoppable c op)
  | .confirmAndRelease _ | .refund _ | .cancel _ | .resolve _ _ _ => inferInstanceAs (Decidable True)
  | .markFiatPaid id caller =>
    inferInstanceAs (Decidable (∀ t ∈ c.trades.lookup id, caller = t.usdcRecipient))
  | .raiseDispute id _ =>
    inferInstanceAs (Decidable (∀ t ∈ c.trades.lookup id, t.status ≠ .funded))
  | .createTrade _ _ | .releaseFromFunded _ | .setConfig _ | .setPaused _ =>
    inferInstanceAs (Decidable False)

theorem getConfig_withPaused (p : Bool) (h : EscrowHost) :
    getConfig (withPaused p h) = (getConfig h).map (Config.withPaused p) := by
  unfold getConfig withPaused Host.mapStorage Contents.withPaused
  cases h.storage.config <;> rfl

theorem getTrade_withPaused (p : Bool) (h : EscrowHost) (id : TradeId) :
    getTrade (withPaused p h) id = getTrade h id := rfl

theorem setTrade_withPaused (p : Bool) (h : EscrowHost) (id : TradeId) (t : Trade) :
    setTrade (withPaused p h) id t = withPaused p (setTrade h id t) := rfl

theorem transfer_withPaused (p : Bool) (env : Env) (h : EscrowHost) (u : Transfer) :
    ((withPaused p h).transfer env u : Outcome Error EscrowHost) =
      (h.transfer env u).map (withPaused p) :=
  transfer_mapStorage _ env h u

theorem payFee_withPaused (p : Bool) (env : Env) (h : EscrowHost) (u : Transfer) :
    payFee env (withPaused p h) u = (payFee env h u).map (withPaused p) := by
  unfold payFee
  split
  next => exact transfer_withPaused p env h u
  next => rfl

theorem doRefund_withPaused (p : Bool) (env : Env) (h : EscrowHost) (id : TradeId) (t : Trade) :
    doRefund env (withPaused p h) id t = (doRefund env h id t).map (withPaused p) := by
  simp only [doRefund, setTrade_withPaused, transfer_withPaused, map_bind, bind_map]
  rfl

theorem payRelease_withPaused (p : Bool) (env : Env) (h : EscrowHost) (id : TradeId) (t : Trade) :
    payRelease env (withPaused p h) id t =
      (payRelease env h id t).map fun r => (withPaused p r.1, r.2) := by
  simp only [payRelease, setTrade_withPaused, transfer_withPaused, payFee_withPaused, map_bind,
    bind_map]
  rfl

theorem settleResolved_withPaused (p : Bool) (env : Env) (h : EscrowHost) (id : TradeId)
    (t : Trade) (d : ResolveOutcome) :
    settleResolved env (withPaused p h) id t d =
      (settleResolved env h id t d).map (withPaused p) := by
  cases d with
  | refund =>
    simp only [settleResolved, doRefund_withPaused, map_bind, bind_map]
    rfl
  | release =>
    simp only [settleResolved, payRelease_withPaused, map_bind, bind_map]
    rfl

theorem confirmAndRelease_withPaused (p : Bool) (env : Env) (h : EscrowHost) (id : TradeId) :
    confirmAndRelease env (withPaused p h) id =
      (confirmAndRelease env h id).map (withPaused p) := by
  simp only [confirmAndRelease, getConfig_withPaused, getTrade_withPaused, payRelease_withPaused,
    map_bind, bind_map]
  rfl

theorem refund_withPaused (p : Bool) (env : Env) (h : EscrowHost) (id : TradeId) :
    refund env (withPaused p h) id = (refund env h id).map (withPaused p) := by
  simp only [refund, getConfig_withPaused, getTrade_withPaused, doRefund_withPaused, map_bind,
    bind_map]

theorem cancel_withPaused (p : Bool) (env : Env) (h : EscrowHost) (id : TradeId) :
    cancel env (withPaused p h) id = (cancel env h id).map (withPaused p) := by
  simp only [cancel, getConfig_withPaused, getTrade_withPaused, doRefund_withPaused, map_bind,
    bind_map]

theorem resolve_withPaused (p : Bool) (env : Env) (h : EscrowHost) (id : TradeId)
    (d : ResolveOutcome) (caller : Address) :
    resolve env (withPaused p h) id d caller =
      (resolve env h id d caller).map (withPaused p) := by
  simp only [resolve, getConfig_withPaused, getTrade_withPaused, map_bind, bind_map]
  refine bind_congr fun cfg => bind_congr fun t => bind_congr fun _ => bind_congr fun _ =>
    bind_congr fun _ => bind_congr fun _ => ?_
  split
  · simp only [settleResolved_withPaused, map_bind]
    rfl
  · simp only [map_bind]
    rfl
  · exact settleResolved_withPaused p env h id t d

theorem markFiatPaid_withPaused (p : Bool) {caller : Address}
    (hby : ∀ cfg t, h.storage.config = some cfg → h.storage.trades.lookup id = some t →
      caller = t.usdcRecipient ∧ caller ≠ cfg.fiatAttestor) :
    markFiatPaid env (withPaused p h) id caller =
      (markFiatPaid env h id caller).map (withPaused p) := by
  simp only [markFiatPaid, getConfig_withPaused, getTrade_withPaused, map_bind, bind_map]
  cases hcfg : getConfig h with
  | error f => rfl
  | ok cfg =>
    cases ht : getTrade h id with
    | error f => rfl
    | ok t =>
      obtain ⟨rfl, hne⟩ := hby cfg t ((okOr_eq_ok _ _ _).mp hcfg) ((okOr_eq_ok _ _ _).mp ht)
      have hsame : markDeadline (Config.withPaused p cfg) t t.usdcRecipient =
          markDeadline cfg t t.usdcRecipient := by
        simp only [markDeadline, Config.withPaused, hne, false_and, if_false]
      simp only [ok_bind, hsame]
      rfl

theorem raiseDispute_withPaused (p : Bool) {raiser : Address}
    (hst : ∀ t, h.storage.trades.lookup id = some t → t.status ≠ .funded) :
    raiseDispute env (withPaused p h) id raiser =
      (raiseDispute env h id raiser).map (withPaused p) := by
  simp only [raiseDispute, getConfig_withPaused, getTrade_withPaused, map_bind, bind_map]
  cases ht : getTrade h id with
  | error f => rfl
  | ok t =>
    have hne := hst t ((okOr_eq_ok _ _ _).mp ht)
    have hsame (cfg : Config) : priorStatus (Config.withPaused p cfg) t raiser env.timestamp =
        priorStatus cfg t raiser env.timestamp := by
      unfold priorStatus
      cases hs : t.status with
      | funded => exact absurd hs hne
      | fiatPaid | released | refunded | disputed => rfl
    simp only [ok_bind, hsame]
    rfl

/-- On unstoppable calls the contract does not look at the pause flag. -/
theorem exec_withPaused (p : Bool) (hu : Unstoppable h.storage op)
    (hparties : ∀ cfg id t, h.storage.config = some cfg → h.storage.trades.lookup id = some t →
      t.usdcRecipient ≠ cfg.fiatAttestor) :
    exec env (withPaused p h) op = (exec env h op).map (withPaused p) := by
  cases op with
  | createTrade | releaseFromFunded | setConfig | setPaused => exact hu.elim
  | markFiatPaid id caller =>
    apply markFiatPaid_withPaused
    intro cfg t hcfg ht
    obtain rfl := hu t ht
    exact ⟨rfl, hparties cfg id t hcfg ht⟩
  | confirmAndRelease id => exact confirmAndRelease_withPaused p env h id
  | refund id => exact refund_withPaused p env h id
  | cancel id => exact cancel_withPaused p env h id
  | raiseDispute id raiser => exact raiseDispute_withPaused p hu
  | resolve id d caller => exact resolve_withPaused p env h id d caller

theorem recipient_ne_attestor (hi : Coherent cfg₀ start w) (hcfg : w.contents.config = some cfg)
    (ht : w.trade id = some t) : t.usdcRecipient ≠ cfg.fiatAttestor := by
  obtain ⟨-, hk⟩ := hi.unique hcfg
  rw [hk.attestor]
  exact (hi.trades id t ht).terms.recipient_ne

theorem invoke_withPaused (hi : Coherent cfg₀ start w) (p : Bool) (hu : Unstoppable w.contents op) :
    Deployment.invoke exec (World.withPaused p w) env op =
      (Deployment.invoke exec w env op).map (withPaused p) := by
  apply exec_withPaused p (h := enter w.contents w.balances) hu
  intro cfg id t hcfg ht
  exact recipient_ne_attestor hi hcfg ht

/-- Two states that differ in the pause flag alone answer an unstoppable call
alike and differ in the pause flag alone afterwards. -/
theorem call_withPaused (hi : Coherent cfg₀ start w) (p : Bool) (hu : Unstoppable w.contents op) :
    next (World.withPaused p w) (.call env op) = World.withPaused p (next w (.call env op)) ∧
      receipt (World.withPaused p w) (.call env op) = receipt w (.call env op) := by
  have hx : Deployment.invoke exec (World.withPaused p w) env op =
      (Deployment.invoke exec w env op).map (withPaused p) := invoke_withPaused hi p hu
  simp only [Deployment.next, Deployment.receipt, hx]
  cases Deployment.invoke exec w env op with
  | error f => exact ⟨rfl, rfl⟩
  | ok h => exact ⟨rfl, rfl⟩

def Op.setsPause : Op → Bool
  | .setPaused _ => true
  | _ => false

def Action.setsPause : Action → Bool
  | .call _ op => Op.setsPause op
  | .other _ _ => false

/-- A step of the runs compared below: a call on the pause flag, an unstoppable
call, or anything that happens without the contract. -/
def PauseStep : Entry World Action (Option Receipt) → Prop
  | ⟨u, .call _ op, _, _⟩ => Op.setsPause op = true ∨ Unstoppable u.contents op
  | ⟨_, .other _ _, _, _⟩ => True

instance : (e : Entry World Action (Option Receipt)) → Decidable (PauseStep e)
  | ⟨u, .call _ op, _, _⟩ =>
    inferInstanceAs (Decidable (Op.setsPause op = true ∨ Unstoppable u.contents op))
  | ⟨_, .other _ _, _, _⟩ => inferInstanceAs (Decidable True)

/-- A world without its pause flag and its clock. -/
def bare (w : World) : World := ⟨Contents.withPaused false w.contents, w.balances, 0⟩

def pauseless (w : World) : List Action → World := List.foldl (fun u a => bare (next u a)) w

theorem withPaused_withPaused (p q : Bool) (c : Contents) :
    Contents.withPaused p (Contents.withPaused q c) = Contents.withPaused p c := by
  simp only [Contents.withPaused, Option.map_map]
  rfl

theorem bare_withPaused (p : Bool) (w : World) : bare (World.withPaused p w) = bare w := by
  simp only [bare, World.withPaused, withPaused_withPaused]

theorem bare_other (w : World) (time : ℕ) (moves : List Transfer) :
    bare (next w (.other time moves)) = bare (next (bare w) (.other time moves)) := by
  simp only [Deployment.next, bare, withPaused_withPaused]

theorem bare_setPaused (w : World) (env : Env) (p : Bool) :
    bare (next w (.call env (.setPaused p))) = bare w := by
  obtain ⟨hn, -⟩ | ⟨c, ts, evs, he, hn, -⟩ := call_cases w env (.setPaused p)
  · rw [hn]
    rfl
  · cases he with
    | moved hcfg hlook hm => cases moves_tradeId hm
    | pauseSet hcfg hs =>
      rw [hn]
      simp only [bare, Contents.withPaused, hcfg]
      rfl

theorem bare_call (hi : Coherent cfg₀ start w) (hu : Unstoppable w.contents op) :
    bare (next w (.call env op)) = bare (next (bare w) (.call env op)) := by
  have hb : next (bare w) (.call env op) =
      next (World.withPaused false w) (.call env op) := by
    simp only [Deployment.next, bare, World.withPaused, Deployment.invoke]
  rw [hb, (call_withPaused hi false hu).1, bare_withPaused]

/-- A run of such steps is determined, but for the pause flag, by the others. -/
theorem run_bare (hi : Coherent cfg₀ start w) (hr : Run (machine self) w tr w')
    (hs : ∀ e ∈ tr, PauseStep e) :
    bare w' = pauseless (bare w) ((tr.map fun e => e.act).filter fun a => !Action.setsPause a) := by
  apply hr.observe bare (fun u a => bare (next u a)) Action.setsPause
  intro e he
  obtain ⟨tr₁, tr₂, -, hpre, -, hentry, -⟩ := hr.of_mem he
  have hstep := hs e he
  have hc := hi.run hpre
  rw [hentry]
  obtain ⟨u, a, r, v⟩ := e
  cases a with
  | other time moves => exact bare_other u time moves
  | call env op =>
    cases op with
    | setPaused p => exact bare_setPaused u env p
    | createTrade | releaseFromFunded | setConfig | markFiatPaid | confirmAndRelease | refund
    | cancel | raiseDispute | resolve =>
      obtain hset | hu := hstep
      · cases hset
      · exact bare_call hc hu

/-- Pausing never traps funds. The unstoppable calls do the same whatever the
pause flag is, and of two runs of such steps that differ only in their calls on
the flag the trades and all balances come out equal. -/
theorem pausing_never_traps_funds (hd : Deployed self cfg₀ w₀) (hr : Run (machine self) w₀ tr w) :
    (∀ p env op, Unstoppable w.contents op →
      receipt (World.withPaused p w) (.call env op) = receipt w (.call env op) ∧
      next (World.withPaused p w) (.call env op) = World.withPaused p (next w (.call env op))) ∧
    (∀ tr₁ w₁ tr₂ w₂, Run (machine self) w tr₁ w₁ → Run (machine self) w tr₂ w₂ →
      (∀ e ∈ tr₁, PauseStep e) → (∀ e ∈ tr₂, PauseStep e) →
      (tr₁.map fun e => e.act).filter (fun a => !Action.setsPause a) =
        (tr₂.map fun e => e.act).filter (fun a => !Action.setsPause a) →
      w₁.contents.trades = w₂.contents.trades ∧ w₁.balances = w₂.balances) := by
  have hi := (Coherent.deployed hd).run hr
  refine ⟨?_, ?_⟩
  · intro p env op hu
    obtain ⟨hn, hrec⟩ := call_withPaused hi p hu
    exact ⟨hrec, hn⟩
  · intro tr₁ w₁ tr₂ w₂ hr₁ hr₂ hs₁ hs₂ hacts
    have hsame : bare w₁ = bare w₂ := by rw [run_bare hi hr₁ hs₁, run_bare hi hr₂ hs₂, hacts]
    have htrades := congrArg (fun u => u.contents.trades) hsame
    have hbal := congrArg (fun u => u.balances) hsame
    exact ⟨htrades, hbal⟩

/-- The same payment and release, with the pause switched on, off and on again in between. -/
def pausedActions : List Action :=
  [.call (sampleEnv 1100 [⟨1⟩]) (.setPaused true),
    .call (sampleEnv 1500 [⟨7⟩]) (.markFiatPaid 1 ⟨7⟩),
    .call (sampleEnv 1500 [⟨1⟩]) (.setPaused false),
    .call (sampleEnv 1550 [⟨1⟩]) (.setPaused true),
    .call (sampleEnv 1600 [⟨6⟩]) (.confirmAndRelease 1)]

theorem paused_run :
    Run (machine ⟨0⟩) openedWorld (history (machine ⟨0⟩) openedWorld pausedActions)
      (final (machine ⟨0⟩) openedWorld pausedActions) :=
  Run.of_actions pausedActions openedWorld ⟨⟨rfl, by decide⟩, ⟨rfl, by decide⟩, ⟨rfl, by decide⟩,
    ⟨rfl, by decide⟩, ⟨rfl, by decide⟩, trivial⟩

theorem sample_pausing_never_traps_funds :
    (final (machine ⟨0⟩) openedWorld closingActions).contents.config ≠
      (final (machine ⟨0⟩) openedWorld pausedActions).contents.config ∧
    (final (machine ⟨0⟩) openedWorld closingActions).contents.trades =
      (final (machine ⟨0⟩) openedWorld pausedActions).contents.trades ∧
    (final (machine ⟨0⟩) openedWorld closingActions).balances =
      (final (machine ⟨0⟩) openedWorld pausedActions).balances ∧
    (final (machine ⟨0⟩) openedWorld pausedActions).balances ⟨2⟩ ⟨7⟩ = 985000 := by
  obtain ⟨-, htwo⟩ := pausing_never_traps_funds sampleWorld_deployed opened_run
  obtain ⟨htrades, hbal⟩ := htwo _ _ _ _ closing_run paused_run (by decide) (by decide) rfl
  exact ⟨by decide, htrades, hbal, by decide⟩

end Lolipay.Escrow.TwoRuns
