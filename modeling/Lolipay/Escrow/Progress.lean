import Lolipay.Escrow.Deadlines

namespace Lolipay.Escrow.Progress

open Lolipay.Ledger
open Lolipay.Ledger.Calls Lolipay.Ledger.Storage Lolipay.Ledger.Invocation Lolipay.Ledger.Runs
open Lolipay.Escrow.Types Lolipay.Escrow.Contract Lolipay.Escrow.System Lolipay.Escrow.Payout
open Lolipay.Escrow.Transitions Lolipay.Escrow.Effects Lolipay.Escrow.Invariant
open Lolipay.Escrow.Custody Lolipay.Escrow.Lifecycle Lolipay.Escrow.Deadlines

variable {self : Address} {cfg cfg₀ : Config} {env : Env} {id : TradeId} {t : Trade} {op : Op}
  {ts : List Transfer} {status : Status} {τ : ℕ} {w w₀ : World} {tr : History}

/-- At time `τ` a call with no other signatures than those of `signers` goes
through as soon as the token accepts the transfers `ts`, and leaves the trade
in the given status. -/
def Opens (self : Address) (w : World) (id : TradeId) (signers : List Address)
    (ts : List Transfer) (op : Op) (status : Status) (τ : ℕ) : Prop :=
  ∀ env : Env, env.contract = self → env.timestamp = τ → (∀ a ∈ signers, a ∈ env.signers) →
    (∀ u ∈ ts, env.accepts u = true) →
    (receipt w (.call env op)).isSome = true ∧
      ∃ t', (next w (.call env op)).trade id = some t' ∧ t'.status = status

/-- The products and differences of a release stay in the 128-bit range. -/
structure FeesFit (t : Terms) : Prop where
  amount : t.usdcAmount < i128Limit
  platform : t.usdcAmount * t.platformFeeBps < i128Limit
  lp : t.usdcAmount * t.lpFeeBps < i128Limit

/-- Those who have to sign for a held trade can sign: none of them is the contract itself. -/
structure Signable (contract : Address) (w : World) : Prop where
  admin : ∀ cfg, w.contents.config = some cfg → cfg.admin ≠ contract
  provider : ∀ id t, w.trade id = some t → t.usdcProvider ≠ contract

theorem succeeds_of_exec {h' : EscrowHost}
    (hx : exec env (enter w.contents w.balances) op = .ok h') :
    (receipt w (.call env op)).isSome = true := by
  simp only [receipt, Deployment.receipt, Deployment.invoke, hx, Option.isSome_some]

theorem opens_of_exec (hlook : w.trade id = some t) (hop : op.tradeId = some id)
    {signers : List Address}
    (hexec : ∀ env : Env, env.contract = self → env.timestamp = τ →
      (∀ a ∈ signers, a ∈ env.signers) → (∀ u ∈ ts, env.accepts u = true) →
      ∃ h', exec env (enter w.contents w.balances) op = .ok h')
    (hstatus : ∀ cfg env t' us, Moves cfg env id t op t' us → t'.status = status) :
    Opens self w id signers ts op status τ := by
  intro env hself hτ hsig hacc
  obtain ⟨h', hx⟩ := hexec env hself hτ hsig hacc
  have hsome := succeeds_of_exec hx
  obtain ⟨cfg, t', us, -, hm, hnext⟩ := succeeded_moves hsome hop hlook
  exact ⟨hsome, t', hnext, hstatus cfg env t' us hm⟩

theorem splitFees_ok (ha : 0 < t.usdcAmount) (hb : t.platformFeeBps + t.lpFeeBps < 10000)
    (hfit : FeesFit t.toTerms) :
    splitFees t.usdcAmount t.platformFeeBps t.lpFeeBps = .ok (feesOf t.toTerms) := by
  have hp := feeOf_nonneg ha.le t.platformFeeBps
  have hl := feeOf_nonneg ha.le t.lpFeeBps
  have hnet := net_pos (t := t.toTerms) ha hb
  have hmp : 0 ≤ t.usdcAmount * t.platformFeeBps := Int.mul_nonneg ha.le (Int.natCast_nonneg _)
  have hml : 0 ≤ t.usdcAmount * t.lpFeeBps := Int.mul_nonneg ha.le (Int.natCast_nonneg _)
  have hlimit : 0 < i128Limit := by decide
  have hamount := hfit.amount
  simp only [feesOf] at hnet
  simp only [splitFees, mulI128, subI128, bind_eq_ok, checkI128_eq_ok, Except.ok.injEq]
  refine ⟨_, ⟨⟨by omega, hfit.platform⟩, rfl⟩, _, ⟨⟨by omega, hfit.lp⟩, rfl⟩, _, ⟨?_, rfl⟩, _,
    ⟨?_, rfl⟩, rfl⟩
  · simp only [feeOf] at hp hl hnet
    constructor <;> omega
  · simp only [feeOf] at hp hl hnet
    constructor <;> omega

theorem payFee_goes (h : EscrowHost) {u : Transfer}
    (hacc : ∀ v ∈ feeTransfer u, env.accepts v = true) :
    payFee env h u = .ok (h.paid (feeTransfer u)) := by
  rw [payFee]
  rw [feeTransfer] at hacc ⊢
  split
  next hpos =>
    rw [if_pos hpos] at hacc
    exact (transfer_eq_ok _ _ _ _).mpr ⟨⟨hpos.le, hacc u (by simp)⟩, rfl⟩
  next => rw [paid_nil]

theorem payRelease_goes (id : TradeId) (h : EscrowHost) (ha : 0 < t.usdcAmount)
    (hb : t.platformFeeBps + t.lpFeeBps < 10000) (hfit : FeesFit t.toTerms)
    (hwin : env.timestamp + t.disputeWindow < u64Limit)
    (hacc : ∀ u ∈ payout env.contract t.toTerms .release, env.accepts u = true) :
    ∃ r, payRelease env h id t = .ok r := by
  have hsplit := splitFees_ok ha hb hfit
  have hnet := net_pos (t := t.toTerms) ha hb
  have hadd : (addU64 env.timestamp t.disputeWindow : Outcome Error ℕ) = .ok _ :=
    (addU64_eq_ok _ _ _).mpr ⟨hwin, rfl⟩
  have hpay (h : EscrowHost) := payFee_goes (u :=
    ⟨t.usdcToken, env.contract, t.platformWallet, (feesOf t.toTerms).platformFee⟩) h
    fun u hu => hacc u (by simp [payout, hu])
  have hlp (h : EscrowHost) := payFee_goes (u :=
    ⟨t.usdcToken, env.contract, t.lpWallet, (feesOf t.toTerms).lpFee⟩) h
    fun u hu => hacc u (by simp [payout, hu])
  have hrest (h : EscrowHost) : (h.transfer env
      ⟨t.usdcToken, env.contract, t.usdcRecipient, (feesOf t.toTerms).net⟩ :
        Outcome Error EscrowHost) = .ok _ :=
    (transfer_eq_ok _ _ _ _).mpr ⟨⟨hnet.le, hacc _ (by simp [payout])⟩, rfl⟩
  rw [payRelease, hsplit, ok_bind, hadd, ok_bind]
  simp only [hpay, hlp, hrest, ok_bind]
  exact ⟨_, rfl⟩

theorem doRefund_goes (id : TradeId) (h : EscrowHost) {u : Trade} (hu : u.toTerms = t.toTerms)
    (ha : 0 < t.usdcAmount) (hwin : env.timestamp + t.disputeWindow < u64Limit)
    (hacc : ∀ v ∈ payout env.contract t.toTerms .refund, env.accepts v = true) :
    ∃ h', doRefund env h id u = .ok h' := by
  rw [← hu] at ha hwin hacc
  exact ⟨_, (doRefund_eq_ok _ _ _ _ _).mpr ⟨hwin, ⟨ha.le, hacc _ (by simp [payout])⟩, rfl⟩⟩

theorem Signable.step {a : Action} (hi : Signable self w) (ha : admits self w a) :
    Signable self (next w a) where
  admin cfg hcfg := by
    cases a with
    | other time moves => exact hi.admin cfg hcfg
    | call env op =>
      obtain ⟨rfl, -⟩ := ha
      obtain ⟨hn, -⟩ | ⟨c, ts, evs, he, hn, -⟩ := call_cases w env op
      · rw [hn] at hcfg
        exact hi.admin cfg hcfg
      rw [hn] at hcfg
      cases he with
      | opened | moved => exact hi.admin cfg hcfg
      | configured hcfg' hs hs' =>
        obtain rfl := Option.some.inj hcfg
        exact fun hc => env.silent (hc ▸ hs')
      | @pauseSet cfg' paused hcfg' =>
        obtain rfl := Option.some.inj hcfg
        exact hi.admin cfg' hcfg'
  provider id t ht := by
    cases trade_step ha id with
    | same hsame =>
      rw [hsame] at ht
      exact hi.provider id t ht
    | @opened env cfg args hact hself hcfg ho hnew hopen =>
      obtain rfl := Option.some.inj (ht.symm.trans hopen)
      intro hc
      have hcontract : args.usdcProvider = env.contract := hc.trans hself.symm
      exact env.silent (hcontract ▸ ho.signed)
    | moved hact hself hcfg hlook hm hnext =>
      obtain rfl := Option.some.inj (ht.symm.trans hnext)
      rw [moves_toTerms hm]
      exact hi.provider id _ hlook

theorem Signable.deployed (hd : Deployed self cfg₀ w) : Signable self w := by
  refine ⟨fun cfg hcfg => ?_, fun id t ht => ?_⟩
  · obtain ⟨env, admin, token, resolver, fee, wallet, window, attestor, rfl, -, hx, hc, -⟩ := hd
    rw [hc] at hcfg
    obtain rfl := Option.some.inj hcfg
    simp only [construct, bind_eq_ok, rejectIf_eq_ok, requireAuth_eq_ok, Except.ok.injEq] at hx
    obtain ⟨-, hs, -, -, -, -, -, -, rfl⟩ := hx
    exact fun hadmin => env.silent (hadmin ▸ hs)
  · cases (trade_none_of_deployed hd).symm.trans ht

theorem Signable.run (hd : Deployed self cfg₀ w₀) (hr : Run (machine self) w₀ tr w) :
    Signable self w :=
  hr.invariant (Signable.deployed hd) fun _ _ h ha => h.step ha

/-- Anybody can refund a funded trade after the last instant for marking it. -/
theorem refund_opens (hs : Sound cfg₀ w₀.now w.now t) (hcfg : w.contents.config = some cfg)
    (ht : w.trade id = some t) (hst : t.status = .funded) (hfit : GraceFits t.toTerms)
    (hτ : lastInstant t.toTerms < τ) (hwin : τ + t.disputeWindow < u64Limit) :
    Opens self w id [] (payout self t.toTerms .refund) (.refund id) .refunded τ := by
  refine opens_of_exec ht rfl ?_ ?_
  · rintro env rfl rfl - hacc
    exact (refundEnabled_iff hs hst).mpr ⟨hfit, hτ, hwin⟩ env cfg _ rfl rfl
      (hacc _ (by simp [payout])) hcfg ht
  · intro cfg env t' us hm
    cases hm
    rfl

theorem confirm_opens (hs : Sound cfg₀ w₀.now w.now t) (hcfg : w.contents.config = some cfg)
    (ht : w.trade id = some t) (hst : t.status = .fiatPaid) (hfit : FeesFit t.toTerms)
    (hwin : τ + t.disputeWindow < u64Limit) :
    Opens self w id [t.confirmer] (payout self t.toTerms .release) (.confirmAndRelease id)
      .released τ := by
  refine opens_of_exec ht rfl ?_ ?_
  · rintro env rfl rfl hsig hacc
    obtain ⟨⟨h', fees⟩, hpay⟩ := payRelease_goes id (enter w.contents w.balances)
      hs.terms.amount_pos hs.terms.fees_lt hfit hwin hacc
    simp only [exec, confirmAndRelease, getConfig, getTrade, storageGetTrade, bind_eq_ok,
      okOr_eq_ok, rejectIf_eq_ok, requireAuth_eq_ok, not_not]
    exact ⟨_, cfg, hcfg, t, ht, (), hst, (), hsig _ (by simp), _, hpay, rfl⟩
  · intro cfg env t' us hm
    cases hm
    rfl

theorem raise_opens (hcfg : w.contents.config = some cfg) (ht : w.trade id = some t)
    (hst : t.status = .fiatPaid) {party : Address}
    (hparty : party = t.usdcProvider ∨ party = t.usdcRecipient)
    (hwin : τ + resolverWindow < u64Limit) :
    Opens self w id [party] [] (.raiseDispute id party) .disputed τ := by
  refine opens_of_exec ht rfl ?_ ?_
  · rintro env rfl rfl hsig -
    have hprior : priorStatus cfg t party env.timestamp = .ok none := by
      rw [priorStatus, hst]
    have hoffice : ¬(if t.status = .funded then party ≠ cfg.resolver
        else party ≠ cfg.resolver ∧ party ≠ t.usdcProvider ∧ party ≠ t.usdcRecipient) := by
      rw [if_neg (by simp [hst])]
      tauto
    simp only [exec, raiseDispute, getConfig, getTrade, storageGetTrade, bind_eq_ok, okOr_eq_ok,
      rejectIf_eq_ok, requireAuth_eq_ok, addU64_eq_ok]
    exact ⟨_, t, ht, cfg, hcfg, _, hprior, (), hoffice, (), hsig _ (by simp), _, ⟨hwin, rfl⟩, rfl⟩
  · intro cfg env t' us hm
    cases hm with
    | disputePaid | disputeFunded => rfl
    | disputeSettled hst' => cases hst' <;> simp_all

theorem settleResolved_goes (id : TradeId) (h : EscrowHost) {d : ResolveOutcome} {u : Trade}
    (hs : Sound cfg₀ w₀.now w.now t) (hu : u.toTerms = t.toTerms)
    (hfit : d = .release → FeesFit t.toTerms) (hwin : env.timestamp + t.disputeWindow < u64Limit)
    (hacc : ∀ v ∈ payout env.contract t.toTerms d, env.accepts v = true) :
    ∃ h', settleResolved env h id u d = .ok h' := by
  cases d with
  | refund =>
    obtain ⟨h', hx⟩ := doRefund_goes id h hu hs.terms.amount_pos hwin hacc
    exact ⟨_, (bind_eq_ok _ _ _).mpr ⟨h', hx, rfl⟩⟩
  | release =>
    have hsound := hs.terms
    rw [← hu] at hsound hfit hwin hacc
    obtain ⟨r, hx⟩ := payRelease_goes id h hsound.amount_pos hsound.fees_lt
      (hfit rfl) hwin hacc
    exact ⟨_, (bind_eq_ok _ _ _).mpr ⟨r, hx, rfl⟩⟩

/-- A judge settles a held trade in the direction he likes, with the attestor
beside him where the dispute came before any payment. -/
theorem resolve_goes {d : ResolveOutcome} {caller : Address} (hs : Sound cfg₀ w₀.now w.now t)
    (hcfg : w.contents.config = some cfg) (ht : w.trade id = some t) (hst : t.status = .disputed)
    (hheld : principalHeld t = true) (hj : Judge cfg env t caller)
    (hatt : cfg.fiatAttestor ∈ env.signers ∨
      (d = .refund ∧ t.resolverDeadline < env.timestamp ∧ caller = cfg.admin))
    (hfit : d = .release → FeesFit t.toTerms) (hwin : env.timestamp + t.disputeWindow < u64Limit)
    (hacc : ∀ v ∈ payout env.contract t.toTerms d, env.accepts v = true) :
    ∃ h', exec env (enter w.contents w.balances) (.resolve id d caller) = .ok h' := by
  have hpre : t.preDisputeStatus? = none ∨ t.preDisputeStatus? = some .funded := by
    simpa [principalHeld, hst] using hheld
  have hoffice : ¬(¬caller = cfg.resolver ∧
      ¬(env.timestamp > t.resolverDeadline ∧ caller = cfg.admin)) := by
    have h := hj.office
    tauto
  have hsettle (u : Trade) (hu : u.toTerms = t.toTerms) :=
    settleResolved_goes id (enter w.contents w.balances) hs hu hfit hwin hacc
  simp only [exec, resolve, getConfig, getTrade, storageGetTrade, bind_eq_ok, okOr_eq_ok,
    rejectIf_eq_ok, requireAuth_eq_ok, not_not, not_or, decide_eq_true_eq]
  obtain hpre | hpre := hpre
  · obtain ⟨h', hx⟩ := hsettle t rfl
    refine ⟨h', cfg, hcfg, t, ht, (), hst, (), ⟨hj.notProvider, hj.notRecipient⟩, (), hoffice, (),
      hj.signed, ?_⟩
    rw [hpre]
    exact hx
  · obtain ⟨h', hx⟩ := hsettle (t.setPreDisputeStatus none) rfl
    refine ⟨h', cfg, hcfg, t, ht, (), hst, (), ⟨hj.notProvider, hj.notRecipient⟩, (), hoffice, (),
      hj.signed, ?_⟩
    rw [hpre]
    refine (bind_eq_ok _ _ _).mpr ⟨(), ?_, hx⟩
    rw [attestorCoSigns]
    split
    next => rfl
    next hnot =>
      refine (requireAuth_eq_ok _ _ _).mpr (hatt.resolve_right ?_)
      rintro ⟨hd, hlate, hadmin⟩
      simp [hd, hlate, hadmin] at hnot

theorem moves_resolved_held {d : ResolveOutcome} {caller : Address} {t' : Trade}
    (hheld : principalHeld t = true) (hm : Moves cfg env id t (.resolve id d caller) t' ts) :
    t'.status = if d = .release then .released else .refunded := by
  cases hm with
  | settlePaid | settleFunded => rfl
  | judge hst hj hpre hprior hv => simp_all [principalHeld]

/-- Once the resolver's day is over the administrator alone can give a held
principal back, whoever else refuses to sign. -/
theorem unwind_opens (hs : Sound cfg₀ w₀.now w.now t) (hcfg : w.contents.config = some cfg)
    (ht : w.trade id = some t) (hst : t.status = .disputed) (hheld : principalHeld t = true)
    (hnp : cfg.admin ≠ t.usdcProvider) (hnr : cfg.admin ≠ t.usdcRecipient)
    (hτ : t.resolverDeadline < τ) (hwin : τ + t.disputeWindow < u64Limit) :
    Opens self w id [cfg.admin] (payout self t.toTerms .refund) (.resolve id .refund cfg.admin)
      .refunded τ := by
  refine opens_of_exec ht rfl ?_ fun cfg env t' us hm => moves_resolved_held hheld hm
  rintro env rfl rfl hsig hacc
  have hj : Judge cfg env t cfg.admin := ⟨hnp, hnr, .inr ⟨hτ, rfl⟩, hsig _ (by simp)⟩
  exact resolve_goes hs hcfg ht hst hheld hj (.inr ⟨rfl, hτ, rfl⟩) (fun hc => by cases hc) hwin
    hacc

theorem resolverDeadline_eq {e : Entry World Action (Option Receipt)} {t₀ : Trade}
    (he : e = (machine self).entry e.pre e.act) (hraised : RaisedFrom id e t₀ t) :
    t.resolverDeadline = e.act.time + resolverWindow := by
  obtain ⟨env, raiser, hact, -⟩ := hraised.call
  have hsome := hraised.succeeded
  have hafter := hraised.after
  rw [entry_out he, hact] at hsome
  rw [entry_post he, hact] at hafter
  rw [hact]
  obtain ⟨cfg, t', ts, -, hm, hnext⟩ := succeeded_moves hsome rfl hraised.before
  obtain rfl := Option.some.inj (hafter.symm.trans hnext)
  cases hm with
  | disputePaid | disputeFunded => rfl
  | disputeSettled =>
    obtain ⟨p, r, q, heq, -⟩ := reopened_eq env t₀ raiser
    rw [heq]
    rfl

/-- Every held trade of every reachable state has a way out, whatever the
configuration has become, wherever the sums and products that the call forms
stay in the range of their machine types. -/
theorem no_trade_stuck (hd : Deployed self cfg₀ w₀) (hr : Run (machine self) w₀ tr w)
    (ht : w.trade id = some t) (hheld : principalHeld t = true) :
    ∃ cfg, w.contents.config = some cfg ∧
    (t.status = .funded ∨ t.status = .fiatPaid ∨ t.status = .disputed) ∧
    (t.status = .funded → ∀ τ, lastInstant t.toTerms < τ → GraceFits t.toTerms →
      τ + t.disputeWindow < u64Limit →
      Opens self w id [] (payout self t.toTerms .refund) (.refund id) .refunded τ) ∧
    (t.status = .fiatPaid → t.confirmer ≠ self ∧ ∀ τ,
      (FeesFit t.toTerms → τ + t.disputeWindow < u64Limit →
        Opens self w id [t.confirmer] (payout self t.toTerms .release) (.confirmAndRelease id)
          .released τ) ∧
      (τ + 86400 < u64Limit → ∀ party, party = t.usdcProvider ∨ party = t.usdcRecipient →
        Opens self w id [party] [] (.raiseDispute id party) .disputed τ)) ∧
    (t.status = .disputed →
      (∃ e ∈ tr, ∃ t₀, RaisedFrom id e t₀ t ∧ t.resolverDeadline = e.act.time + 86400) ∧
      (cfg.admin ≠ t.usdcProvider → cfg.admin ≠ t.usdcRecipient → cfg.admin ≠ self ∧
        ∀ τ, t.resolverDeadline < τ → τ + t.disputeWindow < u64Limit →
          Opens self w id [cfg.admin] (payout self t.toTerms .refund)
            (.resolve id .refund cfg.admin) .refunded τ)) := by
  have hi := (Coherent.deployed hd).run hr
  have hs := hi.trades id t ht
  have hsign := Signable.run hd hr
  obtain ⟨cfg, hcfg, -, -⟩ := hi.config
  refine ⟨cfg, hcfg, ?_, ?_, ?_, ?_⟩
  · rw [principalHeld] at hheld
    cases hst : t.status <;> simp_all
  · intro hst τ hτ hfit hwin
    exact refund_opens hs hcfg ht hst hfit hτ hwin
  · intro hst
    refine ⟨hs.terms.confirmer_eq ▸ hsign.provider id t ht, fun τ => ⟨?_, ?_⟩⟩
    · intro hfit hwin
      exact confirm_opens hs hcfg ht hst hfit hwin
    · intro hwin party hparty
      exact raise_opens hcfg ht hst hparty hwin
  · intro hst
    constructor
    · obtain ⟨e, he, t₀, hraised⟩ := dispute_origin hd hr ht hst
      obtain ⟨-, -, -, -, -, hentry, -⟩ := hr.of_mem he
      exact ⟨e, he, t₀, hraised, resolverDeadline_eq hentry hraised⟩
    · intro hnp hnr
      refine ⟨hsign.admin cfg hcfg, fun τ hτ hwin => ?_⟩
      exact unwind_opens hs hcfg ht hst hheld hnp hnr hτ hwin

theorem sample_no_trade_stuck :
    Opens ⟨0⟩ sampleFinal 2 [] [⟨⟨2⟩, ⟨0⟩, ⟨6⟩, 1000000⟩] (.refund 2) .refunded 5601 := by
  obtain ⟨cfg, -, -, hfunded, -⟩ :=
    no_trade_stuck sampleWorld_deployed sample_run unpaidTrade_stored rfl
  exact hfunded rfl 5601 (by decide) (fun _ => by decide) (by decide)

def hugeArgs : CreateArgs := { sampleArgs with usdcAmount := 2 ^ 126 }

/-- A trade over an amount that fits 128 bits while its product with a fee rate does not. -/
def hugeActions : List Action :=
  [.call (sampleEnv 1000 [⟨6⟩]) (.createTrade 1 hugeArgs),
    .call (sampleEnv 1500 [⟨7⟩]) (.markFiatPaid 1 ⟨7⟩)]

def hugeFinal : World := final (machine ⟨0⟩) sampleWorld hugeActions

theorem hugeActions_admitted : Admitted (machine ⟨0⟩) sampleWorld hugeActions := by
  refine ⟨⟨rfl, ?_⟩, ⟨rfl, ?_⟩, trivial⟩ <;> decide

/-- Two exits that checked arithmetic shuts: a refund in the last second of the
64-bit clock, and the release of a huge amount at any ordinary time. -/
theorem exits_shut_by_overflow :
    Deployed ⟨0⟩ sampleConfig sampleWorld ∧
    (∃ tr, Run (machine ⟨0⟩) sampleWorld tr sampleFinal) ∧
    sampleFinal.trade 2 = some unpaidTrade ∧ unpaidTrade.status = .funded ∧
    lastInstant unpaidTrade.toTerms < u64Limit - 1 ∧
    receipt sampleFinal (.call (sampleEnv (u64Limit - 1) []) (.refund 2)) = none ∧
    (∃ tr, Run (machine ⟨0⟩) sampleWorld tr hugeFinal) ∧
    (∃ t, hugeFinal.trade 1 = some t ∧ t.status = .fiatPaid ∧ t.confirmer = ⟨6⟩) ∧
    receipt hugeFinal (.call (sampleEnv 1600 [⟨6⟩]) (.confirmAndRelease 1)) = none := by
  refine ⟨sampleWorld_deployed, ⟨_, sample_run⟩, unpaidTrade_stored, rfl, by decide, by decide,
    ⟨_, Run.of_actions hugeActions sampleWorld hugeActions_admitted⟩, ?_, by decide⟩
  exact ⟨(hugeFinal.trade 1).get (by decide), (Option.some_get _).symm, by decide, by decide⟩

end Lolipay.Escrow.Progress
