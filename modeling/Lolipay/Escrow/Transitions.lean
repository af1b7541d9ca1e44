import Lolipay.Escrow.System
import Lolipay.Escrow.Payout

namespace Lolipay.Escrow.Transitions

open Lolipay.Ledger.Calls Lolipay.Ledger.Storage Lolipay.Ledger.Invocation
open Lolipay.Escrow.Types Lolipay.Escrow.Contract Lolipay.Escrow.System Lolipay.Escrow.Payout

/-- Who may give a verdict on a disputed trade: the resolver, or the
administrator once the resolver's time is over, and never a party. -/
structure Judge (cfg : Config) (env : Env) (t : Trade) (caller : Address) : Prop where
  notProvider : caller ≠ t.usdcProvider
  notRecipient : caller ≠ t.usdcRecipient
  office : caller = cfg.resolver ∨ (t.resolverDeadline < env.timestamp ∧ caller = cfg.admin)
  signed : caller ∈ env.signers

def settledNow (env : Env) (t : Trade) (d : ResolveOutcome) : Trade :=
  t.settled (if d = .release then .released else .refunded) env.timestamp
    (env.timestamp + t.disputeWindow)

def disputed (env : Env) (t : Trade) (raiser : Address) : Trade :=
  { t with
    status := .disputed
    disputedBy := some raiser
    resolverDeadline := env.timestamp + resolverWindow }

/-- A settled trade under dispute again: the raiser has used up his only try
and the slash window stays open for the resolver. -/
def reopened (env : Env) (t : Trade) (raiser : Address) : Trade :=
  disputed env (spendPostSettle { t.setPreDisputeStatus (some t.status) with
    slashDeadline := max t.slashDeadline (env.timestamp + resolverWindow) } raiser) raiser

def restored (t : Trade) (prior : Status) : Trade :=
  Trade.setPreDisputeStatus { t with status := prior } none

/-- Everything that one successful call can do to a trade that exists: the new
record and the transfers, under the guards that the call has passed. -/
inductive Moves (cfg : Config) (env : Env) (id : TradeId) (t : Trade) :
    Op → Trade → List Transfer → Prop
  | mark {caller : Address} {deadline : ℕ} (hst : t.status = .funded)
      (hd : markDeadline cfg t caller = .ok deadline) (ht : env.timestamp ≤ deadline)
      (hs : caller ∈ env.signers) :
      Moves cfg env id t (.markFiatPaid id caller) { t with status := .fiatPaid } []
  | releaseEarly {deadline : ℕ} (hst : t.status = .funded) (hpaused : cfg.paused = false)
      (hflow : t.flow = .topUp) (hlist : t.usdcProvider ∈ cfg.earlyReleaseProviders)
      (hd : gracedDeadline t.toTerms = .ok deadline) (ht : env.timestamp ≤ deadline)
      (hatt : cfg.fiatAttestor ∈ env.signers) (hconf : t.confirmer ∈ env.signers) :
      Moves cfg env id t (.releaseFromFunded id) (settledNow env t .release)
        (payout env.contract t.toTerms .release)
  | confirm (hst : t.status = .fiatPaid) (hconf : t.confirmer ∈ env.signers) :
      Moves cfg env id t (.confirmAndRelease id) (settledNow env t .release)
        (payout env.contract t.toTerms .release)
  | refundLate {opensAt : ℕ} (hst : t.status = .funded)
      (ho : refundOpensAt t.toTerms = .ok opensAt) (ht : opensAt < env.timestamp) :
      Moves cfg env id t (.refund id) (settledNow env t .refund)
        (payout env.contract t.toTerms .refund)
  | cancelBoth (hst : t.status = .funded) (hp : t.usdcProvider ∈ env.signers)
      (hr : t.usdcRecipient ∈ env.signers) :
      Moves cfg env id t (.cancel id) (settledNow env t .refund)
        (payout env.contract t.toTerms .refund)
  | disputePaid {raiser : Address} (hst : t.status = .fiatPaid) (hs : raiser ∈ env.signers)
      (hby : raiser = cfg.resolver ∨ raiser = t.usdcProvider ∨ raiser = t.usdcRecipient) :
      Moves cfg env id t (.raiseDispute id raiser) (disputed env t raiser) []
  | disputeFunded {raiser : Address} (hst : t.status = .funded) (hs : raiser ∈ env.signers)
      (hby : raiser = cfg.resolver) (hpaused : cfg.paused = false) (hflow : t.flow = .topUp)
      (ht : env.timestamp ≤ t.disputeDeadline) :
      Moves cfg env id t (.raiseDispute id raiser)
        (disputed env (t.setPreDisputeStatus (some .funded)) raiser) []
  | disputeSettled {raiser : Address} (hst : t.status = .released ∨ t.status = .refunded)
      (hs : raiser ∈ env.signers)
      (hby : raiser = cfg.resolver ∨ raiser = t.usdcProvider ∨ raiser = t.usdcRecipient)
      (hfresh : postSettleSpent t raiser = false) (ht : env.timestamp ≤ t.postSettleDeadline) :
      Moves cfg env id t (.raiseDispute id raiser) (reopened env t raiser) []
  | settlePaid {caller : Address} {d : ResolveOutcome} (hst : t.status = .disputed)
      (hj : Judge cfg env t caller) (hpre : t.preDisputeStatus? = none) :
      Moves cfg env id t (.resolve id d caller) (settledNow env t d)
        (payout env.contract t.toTerms d)
  | settleFunded {caller : Address} {d : ResolveOutcome} (hst : t.status = .disputed)
      (hj : Judge cfg env t caller) (hpre : t.preDisputeStatus? = some .funded)
      (hatt : cfg.fiatAttestor ∈ env.signers ∨
        (d = .refund ∧ t.resolverDeadline < env.timestamp ∧ caller = cfg.admin)) :
      Moves cfg env id t (.resolve id d caller) (settledNow env (t.setPreDisputeStatus none) d)
        (payout env.contract t.toTerms d)
  | judge {caller : Address} {d : ResolveOutcome} {prior : Status} {t' : Trade}
      (hst : t.status = .disputed) (hj : Judge cfg env t caller)
      (hpre : t.preDisputeStatus? = some prior) (hprior : prior ≠ .funded)
      (hv : verdict t prior d env.timestamp = .ok t') :
      Moves cfg env id t (.resolve id d caller) (restored t' prior) []

variable {cfg : Config} {env : Env} {id : TradeId} {h h' : EscrowHost}

/-- What a successful call on an existing trade leaves behind. -/
def Moved (env : Env) (id : TradeId) (h : EscrowHost) (op : Op) (h' : EscrowHost) : Prop :=
  ∃ cfg t t' ts, h.storage.config = some cfg ∧ h.storage.trades.lookup id = some t ∧
    Moves cfg env id t op t' ts ∧
    h'.storage = { h.storage with trades := h.storage.trades.insert id t' } ∧
    h'.balances = moveAll h.balances ts ∧ h'.transfers = h.transfers ++ ts

theorem markFiatPaid_moved {caller : Address} (hx : markFiatPaid env h id caller = .ok h') :
    Moved env id h (.markFiatPaid id caller) h' := by
  simp only [markFiatPaid, getConfig, getTrade, storageGetTrade, bind_eq_ok, okOr_eq_ok,
    rejectIf_eq_ok, requireAuth_eq_ok, Except.ok.injEq, not_not, not_lt] at hx
  obtain ⟨cfg, hcfg, t, hlook, -, hst, deadline, hd, -, ht, -, hs, rfl⟩ := hx
  exact ⟨cfg, t, _, [], hcfg, hlook, .mark hst hd ht hs, rfl, rfl, (List.append_nil _).symm⟩

theorem releaseFromFunded_moved (hx : releaseFromFunded env h id = .ok h') :
    Moved env id h (.releaseFromFunded id) h' := by
  simp only [releaseFromFunded, getConfig, getTrade, storageGetTrade, bind_eq_ok, okOr_eq_ok,
    rejectIf_eq_ok, requireAuth_eq_ok, Except.ok.injEq, not_not, not_lt, Bool.not_eq_true] at hx
  obtain ⟨cfg, hcfg, t, hlook, -, hst, -, hp, -, hflow, -, hlist, deadline, hd, -, ht, -, hatt, -,
    hconf, ⟨h₁, fees⟩, hpay, rfl⟩ := hx
  obtain ⟨-, rfl⟩ := payRelease_ok hpay
  exact ⟨cfg, t, _, _, hcfg, hlook, .releaseEarly hst hp hflow hlist hd ht hatt hconf,
    rfl, rfl, rfl⟩

theorem confirmAndRelease_moved (hx : confirmAndRelease env h id = .ok h') :
    Moved env id h (.confirmAndRelease id) h' := by
  simp only [confirmAndRelease, getConfig, getTrade, storageGetTrade, bind_eq_ok, okOr_eq_ok,
    rejectIf_eq_ok, requireAuth_eq_ok, Except.ok.injEq, not_not] at hx
  obtain ⟨cfg, hcfg, t, hlook, -, hst, -, hconf, ⟨h₁, fees⟩, hpay, rfl⟩ := hx
  obtain ⟨-, rfl⟩ := payRelease_ok hpay
  exact ⟨cfg, t, _, _, hcfg, hlook, .confirm hst hconf, rfl, rfl, rfl⟩

theorem refund_moved (hx : refund env h id = .ok h') : Moved env id h (.refund id) h' := by
  simp only [refund, getConfig, getTrade, storageGetTrade, bind_eq_ok, okOr_eq_ok,
    rejectIf_eq_ok, not_not, not_le, doRefund_eq_ok] at hx
  obtain ⟨cfg, hcfg, t, hlook, -, hst, opensAt, ho, -, ht, -, -, rfl⟩ := hx
  exact ⟨cfg, t, _, _, hcfg, hlook, .refundLate hst ho ht, rfl, rfl, rfl⟩

theorem cancel_moved (hx : cancel env h id = .ok h') : Moved env id h (.cancel id) h' := by
  simp only [cancel, getConfig, getTrade, storageGetTrade, bind_eq_ok, okOr_eq_ok,
    rejectIf_eq_ok, requireAuth_eq_ok, not_not, doRefund_eq_ok] at hx
  obtain ⟨cfg, hcfg, t, hlook, -, hst, -, hp, -, hr, -, -, rfl⟩ := hx
  exact ⟨cfg, t, _, _, hcfg, hlook, .cancelBoth hst hp hr, rfl, rfl, rfl⟩

theorem priorStatus_ok {t : Trade} {raiser : Address} {now : ℕ} {prior : Option Status}
    (hx : priorStatus cfg t raiser now = .ok prior) :
    (t.status = .fiatPaid ∧ prior = none) ∨
    (t.status = .funded ∧ cfg.paused = false ∧ t.flow = .topUp ∧ now ≤ t.disputeDeadline ∧
      prior = some .funded) ∨
    ((t.status = .released ∨ t.status = .refunded) ∧ postSettleSpent t raiser = false ∧
      now ≤ t.postSettleDeadline ∧ prior = some t.status) := by
  rw [priorStatus] at hx
  cases hst : t.status with
  | fiatPaid =>
    simp only [hst, Except.ok.injEq] at hx
    exact .inl ⟨rfl, hx.symm⟩
  | funded =>
    simp only [hst, bind_eq_ok, rejectIf_eq_ok, Except.ok.injEq, not_not, not_lt,
      Bool.not_eq_true] at hx
    obtain ⟨-, hp, -, hflow, -, ht, rfl⟩ := hx
    exact .inr (.inl ⟨rfl, hp, hflow, ht, rfl⟩)
  | released | refunded =>
    simp only [hst, bind_eq_ok, rejectIf_eq_ok, Except.ok.injEq, not_lt, Bool.not_eq_true] at hx
    obtain ⟨-, hfresh, -, ht, rfl⟩ := hx
    exact .inr (.inr ⟨by simp, hfresh, ht, rfl⟩)
  | disputed =>
    simp only [hst, reduceCtorEq] at hx

theorem raiseDispute_moved {raiser : Address} (hx : raiseDispute env h id raiser = .ok h') :
    Moved env id h (.raiseDispute id raiser) h' := by
  simp only [raiseDispute, getConfig, getTrade, storageGetTrade, bind_eq_ok, okOr_eq_ok,
    rejectIf_eq_ok, requireAuth_eq_ok, addU64_eq_ok, Except.ok.injEq] at hx
  obtain ⟨t, hlook, cfg, hcfg, prior, hprior, -, hby, -, hs, d, ⟨-, rfl⟩, rfl⟩ := hx
  have hparty (hst : t.status ≠ .funded) :
      raiser = cfg.resolver ∨ raiser = t.usdcProvider ∨ raiser = t.usdcRecipient := by
    rw [if_neg hst] at hby
    tauto
  obtain ⟨hst, rfl⟩ | ⟨hst, hp, hflow, ht, rfl⟩ | ⟨hst, hfresh, ht, rfl⟩ := priorStatus_ok hprior
  · exact ⟨cfg, t, _, [], hcfg, hlook, .disputePaid hst hs (hparty (by simp [hst])), rfl, rfl,
      (List.append_nil _).symm⟩
  · have hres : raiser = cfg.resolver := by simpa [hst] using hby
    exact ⟨cfg, t, _, [], hcfg, hlook, .disputeFunded hst hs hres hp hflow ht, rfl, rfl,
      (List.append_nil _).symm⟩
  · have hne : t.status ≠ .funded := by cases hst <;> simp [*]
    refine ⟨cfg, t, _, [], hcfg, hlook, .disputeSettled hst hs (hparty hne) hfresh ht, ?_, rfl,
      (List.append_nil _).symm⟩
    obtain hst | hst := hst <;> simp only [hst, recordPrior, reopenSettled, setTrade,
      Host.publish, disputed, reopened, Trade.setPreDisputeStatus]

theorem settleResolved_ok {t : Trade} {d : ResolveOutcome}
    (hx : settleResolved env h id t d = .ok h') :
    h'.storage = { h.storage with trades := h.storage.trades.insert id (settledNow env t d) } ∧
      h'.balances = moveAll h.balances (payout env.contract t.toTerms d) ∧
      h'.transfers = h.transfers ++ payout env.contract t.toTerms d := by
  cases d with
  | refund =>
    simp only [settleResolved, bind_eq_ok, doRefund_eq_ok, Except.ok.injEq] at hx
    obtain ⟨h₁, ⟨-, -, rfl⟩, rfl⟩ := hx
    exact ⟨rfl, rfl, rfl⟩
  | release =>
    simp only [settleResolved, bind_eq_ok, Except.ok.injEq] at hx
    obtain ⟨⟨h₁, fees⟩, hpay, rfl⟩ := hx
    obtain ⟨-, rfl⟩ := payRelease_ok hpay
    exact ⟨rfl, rfl, rfl⟩

theorem resolve_moved {d : ResolveOutcome} {caller : Address}
    (hx : resolve env h id d caller = .ok h') : Moved env id h (.resolve id d caller) h' := by
  simp only [resolve, getConfig, getTrade, storageGetTrade, bind_eq_ok, okOr_eq_ok,
    rejectIf_eq_ok, requireAuth_eq_ok, not_not, not_or, decide_eq_true_eq] at hx
  obtain ⟨cfg, hcfg, t, hlook, -, hst, -, ⟨hnp, hnr⟩, -, hoffice, -, hs, hx⟩ := hx
  have hj : Judge cfg env t caller := ⟨hnp, hnr, by tauto, hs⟩
  split at hx
  next hpre =>
    obtain ⟨_, hatt, hx⟩ := (bind_eq_ok _ _ _).mp hx
    have hatt' : cfg.fiatAttestor ∈ env.signers ∨
        (d = .refund ∧ t.resolverDeadline < env.timestamp ∧ caller = cfg.admin) := by
      rw [attestorCoSigns] at hatt
      split at hatt
      next hadm =>
        obtain ⟨⟨hlate, hadmin⟩, hd⟩ := of_decide_eq_true hadm
        exact .inr ⟨hd, hlate, hadmin⟩
      next => exact .inl ((requireAuth_eq_ok _ _ _).mp hatt)
    obtain ⟨hstore, hbal, htr⟩ := settleResolved_ok hx
    exact ⟨cfg, t, _, _, hcfg, hlook, .settleFunded hst hj hpre hatt', hstore, hbal, htr⟩
  next prior hne hpre =>
    simp only [bind_eq_ok, Except.ok.injEq] at hx
    obtain ⟨t', hv, rfl⟩ := hx
    exact ⟨cfg, t, _, [], hcfg, hlook, .judge hst hj hpre hne hv, rfl,
      rfl, (List.append_nil _).symm⟩
  next hpre =>
    obtain ⟨hstore, hbal, htr⟩ := settleResolved_ok hx
    exact ⟨cfg, t, _, _, hcfg, hlook, .settlePaid hst hj hpre, hstore, hbal, htr⟩

end Lolipay.Escrow.Transitions
