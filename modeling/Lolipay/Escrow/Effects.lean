import Lolipay.Escrow.Transitions

namespace Lolipay.Escrow.Effects

open Lolipay.Ledger
open Lolipay.Ledger.Calls Lolipay.Ledger.Storage Lolipay.Ledger.Invocation Lolipay.Ledger.Runs
open Lolipay.Escrow.Types Lolipay.Escrow.Contract Lolipay.Escrow.System Lolipay.Escrow.Payout
open Lolipay.Escrow.Transitions

def isOperator (cfg : Config) (party : Address) : Prop :=
  party = cfg.resolver ∨ party = cfg.fiatAttestor ∨ party = cfg.admin

/-- What `createTrade` has checked about the arguments it stores. -/
structure Opening (cfg : Config) (env : Env) (a : CreateArgs) : Prop where
  unpaused : cfg.paused = false
  amount_pos : 0 < a.usdcAmount
  fiat_pos : 0 < a.fiatAmount
  confirmer_eq : a.confirmer = a.usdcProvider
  parties_ne : a.usdcProvider ≠ a.usdcRecipient
  provider_free : ¬isOperator cfg a.usdcProvider
  recipient_free : ¬isOperator cfg a.usdcRecipient
  fees_lt : a.platformFeeBps + a.lpFeeBps < 10000
  platformFee_eq : a.platformFeeBps = cfg.defaultPlatformFeeBps
  platformWallet_eq : a.platformWallet = cfg.defaultPlatformWallet
  lpFee_le : a.lpFeeBps ≤ maxLpFeeBps
  pay_lt : a.payDeadline < a.confirmDeadline
  confirm_lt : a.confirmDeadline < a.disputeDeadline
  pay_ge : env.timestamp + minPayWindow ≤ a.payDeadline
  pay_le : a.payDeadline ≤ env.timestamp + maxPayWindow
  dispute_le : a.disputeDeadline ≤ env.timestamp + maxTotalWindow
  signed : a.usdcProvider ∈ env.signers

/-- What every stored configuration satisfies, and what no change of it can touch. -/
structure Lawful (cfg : Config) : Prop where
  fee_le : cfg.defaultPlatformFeeBps ≤ maxPlatformFeeBps
  window_ge : minDisputeWindow ≤ cfg.disputeWindow
  window_le : cfg.disputeWindow ≤ maxDisputeWindow
  roles : ¬rolesClash cfg.admin cfg.resolver cfg.fiatAttestor

structure Keeps (cfg cfg' : Config) : Prop where
  token : cfg'.usdcToken = cfg.usdcToken
  wallet : cfg'.defaultPlatformWallet = cfg.defaultPlatformWallet
  attestor : cfg'.fiatAttestor = cfg.fiatAttestor

/-- Everything that one successful call can do to the storage, with the transfers it makes. -/
inductive Effect (env : Env) (c : Contents) : Op → Contents → List Transfer → Prop
  | opened {cfg : Config} {id : TradeId} {a : CreateArgs} (hcfg : c.config = some cfg)
      (hnew : c.trades.lookup id = none) (ho : Opening cfg env a) :
      Effect env c (.createTrade id a)
        { c with trades := c.trades.insert id (openingTrade cfg env.timestamp a) }
        [⟨cfg.usdcToken, a.usdcProvider, env.contract, a.usdcAmount⟩]
  | moved {cfg : Config} {id : TradeId} {t t' : Trade} {op : Op} {ts : List Transfer}
      (hcfg : c.config = some cfg) (hlook : c.trades.lookup id = some t)
      (hm : Moves cfg env id t op t' ts) :
      Effect env c op { c with trades := c.trades.insert id t' } ts
  | configured {cfg newConfig : Config} (hcfg : c.config = some cfg)
      (hs : cfg.admin ∈ env.signers) (hs' : newConfig.admin ∈ env.signers)
      (hl : Lawful newConfig) (hk : Keeps cfg newConfig) :
      Effect env c (.setConfig newConfig) { c with config := some newConfig } []
  | pauseSet {cfg : Config} {paused : Bool} (hcfg : c.config = some cfg)
      (hs : cfg.admin ∈ env.signers) :
      Effect env c (.setPaused paused) { c with config := some { cfg with paused } } []

variable {env : Env} {h h' : EscrowHost}

theorem construct_lawful {admin token resolver wallet attestor : Address} {feeBps window : ℕ}
    {cfg : Config}
    (hx : construct env admin token resolver feeBps wallet window attestor = .ok cfg) :
    Lawful cfg ∧ cfg.paused = false := by
  simp only [construct, bind_eq_ok, rejectIf_eq_ok, requireAuth_eq_ok, Except.ok.injEq,
    not_lt] at hx
  obtain ⟨-, -, -, hfee, -, hwin, -, hroles, rfl⟩ := hx
  rw [windowOutOfRange, not_not] at hwin
  exact ⟨⟨hfee, hwin.1, hwin.2, hroles⟩, rfl⟩

theorem createTrade_effect {id : TradeId} {a : CreateArgs} (hx : createTrade env h id a = .ok h') :
    Deployment.Performs Effect env h (.createTrade id a) h' := by
  simp only [createTrade, getConfig, rejectOperator, bind_eq_ok, okOr_eq_ok, rejectIf_eq_ok,
    requireAuth_eq_ok, addU64_eq_ok, transfer_eq_ok, Except.ok.injEq, not_not, not_or, not_le,
    not_lt, Bool.not_eq_true, Option.isSome_eq_false_iff, Option.isNone_iff_eq_none] at hx
  obtain ⟨cfg, hcfg, -, hp, -, hnew, -, ⟨hamt, hfiat⟩, -, ⟨hconf, hne⟩, -, hprov, -, hrec, -, hfees,
    -, ⟨hpf, hpw⟩, -, hlp, -, ⟨-, hpc, hcd⟩, -, ⟨-, rfl⟩, -, hmin, -, ⟨-, rfl⟩, -, hmax, -,
    ⟨-, rfl⟩, -, htot, -, hs, h₁, ⟨-, rfl⟩, rfl⟩ := hx
  have ho : Opening cfg env a :=
    ⟨hp, hamt, hfiat, hconf, hne, by unfold isOperator; tauto, by unfold isOperator; tauto, hfees,
      hpf, hpw, hlp, hpc, hcd, hmin, hmax, htot, hs⟩
  exact ⟨_, .opened hcfg hnew ho, rfl, rfl⟩

theorem setConfig_effect {newConfig : Config} (hx : setConfig env h newConfig = .ok h') :
    Deployment.Performs Effect env h (.setConfig newConfig) h' := by
  simp only [setConfig, getConfig, bind_eq_ok, okOr_eq_ok, rejectIf_eq_ok, requireAuth_eq_ok,
    Except.ok.injEq, not_not, not_lt] at hx
  obtain ⟨cfg, hcfg, -, hs, -, htok, -, hwal, -, hatt, -, -, -, hroles, -, hfee, -, hwin, -, hs',
    rfl⟩ := hx
  rw [windowOutOfRange, not_not] at hwin
  exact ⟨[], .configured hcfg hs hs' ⟨hfee, hwin.1, hwin.2, hroles⟩ ⟨htok, hwal, hatt⟩, rfl,
    (List.append_nil _).symm⟩

theorem setPaused_effect {paused : Bool} (hx : setPaused env h paused = .ok h') :
    Deployment.Performs Effect env h (.setPaused paused) h' := by
  simp only [setPaused, getConfig, bind_eq_ok, okOr_eq_ok, requireAuth_eq_ok,
    Except.ok.injEq] at hx
  obtain ⟨cfg, hcfg, -, hs, rfl⟩ := hx
  exact ⟨[], .pauseSet hcfg hs, rfl, (List.append_nil _).symm⟩

theorem moved_effect {id : TradeId} {op : Op} (hm : Moved env id h op h') :
    Deployment.Performs Effect env h op h' := by
  obtain ⟨cfg, t, t', ts, hcfg, hlook, hmv, hst, hbal, htr⟩ := hm
  refine ⟨ts, ?_, hbal, htr⟩
  rw [hst]
  exact .moved hcfg hlook hmv

theorem trade_none_of_deployed {self : Address} {cfg : Config} {w : World} {id : TradeId}
    (hd : Deployed self cfg w) : w.trade id = none := by
  obtain ⟨-, -, -, -, -, -, -, -, -, -, -, hc, -⟩ := hd
  rw [World.trade, hc]
  rfl

/-- The one place where the contract's functions are taken apart: from here on
a successful call is known by its effect. -/
theorem exec_effect : Deployment.Effective exec Effect := by
  intro env h op h' hx
  cases op with
  | createTrade id a => exact createTrade_effect hx
  | markFiatPaid id caller => exact moved_effect (markFiatPaid_moved hx)
  | releaseFromFunded id => exact moved_effect (releaseFromFunded_moved hx)
  | confirmAndRelease id => exact moved_effect (confirmAndRelease_moved hx)
  | refund id => exact moved_effect (refund_moved hx)
  | cancel id => exact moved_effect (cancel_moved hx)
  | raiseDispute id raiser => exact moved_effect (raiseDispute_moved hx)
  | resolve id d caller => exact moved_effect (resolve_moved hx)
  | setConfig c => exact setConfig_effect hx
  | setPaused p => exact setPaused_effect hx

theorem call_cases (w : World) (env : Env) (op : Op) :
    (next w (.call env op) = { w with now := env.timestamp } ∧ receipt w (.call env op) = none) ∨
    ∃ c ts evs, Effect env w.contents op c ts ∧
      next w (.call env op) = ⟨c, moveAll w.balances ts, env.timestamp⟩ ∧
      receipt w (.call env op) = some ⟨ts, evs⟩ :=
  Deployment.call_cases exec_effect w env op

theorem moves_tradeId {cfg : Config} {id : TradeId} {t t' : Trade} {op : Op}
    {ts : List Transfer} (hm : Moves cfg env id t op t' ts) : op.tradeId = some id := by
  cases hm <;> rfl

theorem paidBy_failed {self : Address} {w : World} {a : Action} (id : TradeId)
    (hr : receipt w a = none) : paidBy self id ((machine self).entry w a) = [] := by
  simp only [paidBy, Machine.entry, machine, Deployment.machine, hr]

theorem paidBy_call {self : Address} {w : World} {op : Op} {r : Receipt} (id : TradeId)
    (hr : receipt w (.call env op) = some r) :
    paidBy self id ((machine self).entry w (.call env op)) =
      if op.tradeId = some id then outgoing self r.transfers else [] := by
  simp only [paidBy, Machine.entry, machine, Deployment.machine, hr]

/-- What one action does to one trade. -/
inductive TradeStep (self : Address) (w : World) (id : TradeId) (a : Action) : Prop
  | same (ht : (next w a).trade id = w.trade id)
      (hp : paidBy self id ((machine self).entry w a) = [])
  | opened {env : Env} {cfg : Config} {args : CreateArgs}
      (ha : a = .call env (.createTrade id args)) (hself : env.contract = self)
      (hcfg : w.contents.config = some cfg)
      (ho : Opening cfg env args) (hnew : w.trade id = none)
      (ht : (next w a).trade id = some (openingTrade cfg env.timestamp args))
      (hp : paidBy self id ((machine self).entry w a) = []) (hr : (receipt w a).isSome)
  | moved {env : Env} {op : Op} {cfg : Config} {t t' : Trade} {ts : List Transfer}
      (ha : a = .call env op) (hself : env.contract = self) (hcfg : w.contents.config = some cfg)
      (hlook : w.trade id = some t) (hm : Moves cfg env id t op t' ts)
      (ht : (next w a).trade id = some t') (hr : (receipt w a).isSome)
      (hp : paidBy self id ((machine self).entry w a) = outgoing self ts)

theorem trade_step {self : Address} {w : World} {a : Action} (hadm : admits self w a)
    (id : TradeId) : TradeStep self w id a := by
  cases a with
  | other time moves => exact .same rfl rfl
  | call env op =>
    obtain ⟨rfl, -⟩ := hadm
    obtain ⟨hn, hr⟩ | ⟨c, ts, evs, he, hn, hr⟩ := call_cases w env op
    · exact .same (by rw [hn]; rfl) (paidBy_failed id hr)
    cases he with
    | configured hcfg hs hs' hl hk =>
      exact .same (by rw [hn]; rfl) (by rw [paidBy_call id hr]; rfl)
    | pauseSet hcfg hs =>
      exact .same (by rw [hn]; rfl) (by rw [paidBy_call id hr]; rfl)
    | @opened cfg id' args hcfg hnew ho =>
      have hne : args.usdcProvider ≠ env.contract := fun hc => env.silent (hc ▸ ho.signed)
      have hp : paidBy env.contract id
          ((machine env.contract).entry w (.call env (.createTrade id' args))) = [] := by
        rw [paidBy_call id hr]
        simp [outgoing, hne]
      by_cases hid : id = id'
      · subst hid
        exact .opened rfl rfl hcfg ho hnew
          (by rw [hn]; simp only [World.trade, AList.lookup_insert]) hp (by rw [hr]; rfl)
      · exact .same (by rw [hn]; simp only [World.trade, AList.lookup_insert_ne hid]) hp
    | @moved cfg id' t t' _ _ hcfg hlook hm =>
      have hop := moves_tradeId hm
      by_cases hid : id = id'
      · subst hid
        refine .moved rfl rfl hcfg hlook hm
          (by rw [hn]; simp only [World.trade, AList.lookup_insert]) (by rw [hr]; rfl) ?_
        rw [paidBy_call id hr, if_pos hop]
      · refine .same (by rw [hn]; simp only [World.trade, AList.lookup_insert_ne hid]) ?_
        rw [paidBy_call id hr, if_neg (by simp [hop, Ne.symm hid])]

/-- What holds of a stored trade and is kept by every move on it holds of the
trade at the end of a run, where it is still stored. -/
theorem run_trade {self : Address} {w w' : World} {tr : History} {id : TradeId} {t : Trade}
    {P : Trade → Prop} (hr : Run (machine self) w tr w') (ht : w.trade id = some t) (hP : P t)
    (hstep : ∀ cfg env op u u' ts, P u → Moves cfg env id u op u' ts → P u') :
    ∃ t', w'.trade id = some t' ∧ P t' := by
  refine hr.invariant (I := fun v => ∃ t', v.trade id = some t' ∧ P t') ⟨t, ht, hP⟩ ?_
  rintro v a ⟨u, hu, hPu⟩ ha
  cases trade_step ha id with
  | same hs => exact ⟨u, hs.trans hu, hPu⟩
  | opened hact hself hcfg ho hnew => cases hnew.symm.trans hu
  | @moved env op cfg u₁ u' ts hact hself hcfg hlook hm hnext =>
    obtain rfl := Option.some.inj (hu.symm.trans hlook)
    exact ⟨u', hnext, hstep cfg env op u u' ts hPu hm⟩

/-- A successful call on a stored trade is one of the moves on it. -/
theorem succeeded_moves {w : World} {env : Env} {op : Op} {id : TradeId} {t : Trade}
    (hr : (receipt w (.call env op)).isSome) (hop : op.tradeId = some id)
    (hlook : w.trade id = some t) :
    ∃ cfg t' ts, w.contents.config = some cfg ∧ Moves cfg env id t op t' ts ∧
      (next w (.call env op)).trade id = some t' := by
  obtain ⟨-, hnone⟩ | ⟨c, ts, evs, he, hn, -⟩ := call_cases w env op
  · rw [hnone] at hr
    cases hr
  cases he with
  | configured | pauseSet => cases hop
  | opened hcfg hnew ho =>
    obtain rfl := Option.some.inj hop
    cases hlook.symm.trans hnew
  | moved hcfg hlook' hm =>
    obtain rfl := Option.some.inj (hop.symm.trans (moves_tradeId hm))
    obtain rfl := Option.some.inj (hlook.symm.trans hlook')
    refine ⟨_, _, _, hcfg, hm, ?_⟩
    rw [hn]
    exact AList.lookup_insert _

end Lolipay.Escrow.Effects
