import Lolipay.Escrow.Lifecycle

namespace Lolipay.Escrow.Authority

open Lolipay.Ledger.Calls Lolipay.Ledger.Storage Lolipay.Ledger.Invocation Lolipay.Ledger.Runs
open Lolipay.Escrow.Types Lolipay.Escrow.Contract Lolipay.Escrow.System Lolipay.Escrow.Payout
open Lolipay.Escrow.Transitions Lolipay.Escrow.Effects Lolipay.Escrow.Invariant
open Lolipay.Escrow.Custody Lolipay.Escrow.Lifecycle

variable {self : Address} {cfg cfg₀ : Config} {env : Env} {id : TradeId} {t : Trade} {op : Op}
  {ts : List Transfer} {w w₀ w₁ w₂ : World} {tr tr₁ tr₂ : History}

/-- The three ways in which a call that takes tokens out of the contract for
somebody else than the provider can be authorised. `tr` is the history before
the call, `cfg` the configuration and `t` the record that the call finds. -/
inductive Authorised (attestor : Address) (tr : History) (cfg : Config) (env : Env) (id : TradeId)
    (t : Trade) : Op → Prop
  | confirmed (heq : t.confirmer = t.usdcProvider) (hs : t.usdcProvider ∈ env.signers) :
      Authorised attestor tr cfg env id t (.confirmAndRelease id)
  | early (hs : t.usdcProvider ∈ env.signers) (hatt : attestor ∈ env.signers) :
      Authorised attestor tr cfg env id t (.releaseFromFunded id)
  | judged {caller : Address} {e : Entry World Action (Option Receipt)} {t₀ : Trade}
      (hs : caller ∈ env.signers)
      (hoffice : caller = cfg.resolver ∨ (t.resolverDeadline < env.timestamp ∧ caller = cfg.admin))
      (hnp : caller ≠ t.usdcProvider) (hnr : caller ≠ t.usdcRecipient)
      (he : e ∈ tr) (hraised : RaisedFrom id e t₀ t)
      (hatt : t₀.status = .funded → attestor ∈ env.signers) :
      Authorised attestor tr cfg env id t (.resolve id .release caller)

theorem refund_payee {u : Transfer} (hu : u ∈ outgoing self (payout self t.toTerms .refund)) :
    u.payee = t.usdcProvider := by
  rw [outgoing_payout, payout, List.mem_singleton] at hu
  rw [hu]

/-- A transfer to anybody but the provider takes the signatures of a release. -/
theorem moves_authorised (hd : Deployed self cfg₀ w₀) (hr : Run (machine self) w₀ tr w)
    (hcfg : w.contents.config = some cfg) (hself : env.contract = self)
    (hlook : w.trade id = some t) {t' : Trade} (hm : Moves cfg env id t op t' ts) {u : Transfer}
    (hu : u ∈ outgoing self ts) (hto : u.payee ≠ t.usdcProvider) :
    Authorised cfg₀.fiatAttestor tr cfg env id t op := by
  subst hself
  have hi := (Coherent.deployed hd).run hr
  have hs := hi.trades id t hlook
  have hatt := (hi.unique hcfg).2.attestor
  have hconfirmer := hs.terms.confirmer_eq
  cases hm with
  | mark | disputePaid | disputeFunded | disputeSettled | judge => cases hu
  | refundLate | cancelBoth => exact absurd (refund_payee hu) hto
  | confirm hst hconf => exact .confirmed hconfirmer (hconfirmer ▸ hconf)
  | releaseEarly hst hp hflow hlist hdl ht hsig hconf =>
    exact .early (hconfirmer ▸ hconf) (hatt ▸ hsig)
  | @settlePaid caller d hst hj hpre =>
    cases d with
    | refund => exact absurd (refund_payee hu) hto
    | release =>
      obtain ⟨e, he, t₀, hraised⟩ := dispute_origin hd hr hlook hst
      refine .judged hj.signed hj.office hj.notProvider hj.notRecipient he hraised fun hf => ?_
      have hrec := hraised.recorded
      rw [hpre, hf] at hrec
      cases hrec
  | @settleFunded caller d hst hj hpre hsig =>
    cases d with
    | refund => exact absurd (refund_payee hu) hto
    | release =>
      obtain ⟨e, he, t₀, hraised⟩ := dispute_origin hd hr hlook hst
      refine .judged hj.signed hj.office hj.notProvider hj.notRecipient he hraised fun _ => ?_
      obtain hsig | ⟨hd', -⟩ := hsig
      · exact hatt ▸ hsig
      · cases hd'

theorem entry_authorised (hd : Deployed self cfg₀ w₀)
    {e : Entry World Action (Option Receipt)} (hr : Run (machine self) w₀ tr e.pre)
    (ha : admits self e.pre e.act) (he : e = (machine self).entry e.pre e.act)
    (hlook : e.pre.trade id = some t) {u : Transfer} (hu : u ∈ paidBy self id e)
    (hto : u.payee ≠ t.usdcProvider) :
    ∃ env op cfg, e.act = .call env op ∧ e.pre.contents.config = some cfg ∧
      Authorised cfg₀.fiatAttestor tr cfg env id t op := by
  rw [he] at hu
  cases trade_step ha id with
  | same ht hp => rw [hp] at hu; cases hu
  | opened hact hself hcfg ho hnew ht hp => rw [hp] at hu; cases hu
  | @moved env op cfg t₁ t' ts hact hself hcfg hlook' hm ht hrec hp =>
    obtain rfl := Option.some.inj (hlook.symm.trans hlook')
    rw [hp] at hu
    exact ⟨env, op, cfg, hact, hcfg, moves_authorised hd hr hcfg hself hlook hm hu hto⟩

/-- Nobody but the attestor has authorised anything on the trade: the refund is
open to everybody, and calls that failed count for nothing. -/
def OnlySigner (attestor : Address) (id : TradeId) (tr : History) : Prop :=
  ∀ e ∈ tr, e.out.isSome = true → ∀ env op, e.act = .call env op → op.tradeId = some id →
    op ≠ .refund id → ∀ a ∈ env.signers, a = attestor

theorem Authorised.not_only_attestor (hs : SoundTerms cfg₀ w₀.now w.now t.toTerms)
    (hl : Lawful cfg) (hatt : cfg.fiatAttestor = cfg₀.fiatAttestor)
    (h : Authorised cfg₀.fiatAttestor tr cfg env id t op) :
    ∃ a ∈ env.signers, a ≠ cfg₀.fiatAttestor := by
  cases h with
  | confirmed heq hsig | early hsig hatt' => exact ⟨_, hsig, hs.provider_ne⟩
  | judged hsig hoffice =>
    refine ⟨_, hsig, fun hc => hl.roles ?_⟩
    rw [rolesClash, hatt]
    obtain rfl | ⟨-, rfl⟩ := hoffice
    · exact .inr (.inr hc)
    · exact .inr (.inl hc)

theorem Authorised.op_eq (h : Authorised cfg₀.fiatAttestor tr cfg env id t op) :
    op.tradeId = some id ∧ op ≠ .refund id := by
  cases h <;> simp [Op.tradeId]

theorem succeeded_of_paid {e : Entry World Action (Option Receipt)} (h : paidBy self id e ≠ []) :
    e.out.isSome = true := by
  by_contra hnone
  rw [Bool.not_eq_true, Option.isSome_eq_false_iff, Option.isNone_iff_eq_none] at hnone
  apply h
  rw [paidBy, hnone]
  cases e.act <;> rfl

theorem not_released_by_attestor (hd : Deployed self cfg₀ w₀) (hr₁ : Run (machine self) w₀ tr₁ w₁)
    (hr₂ : Run (machine self) w₁ tr₂ w₂) (ht : w₁.trade id = some t)
    (honly : OnlySigner cfg₀.fiatAttestor id tr₂) :
    payout self t.toTerms .release ∉ payouts self id tr₂ := by
  intro hmem
  obtain ⟨e, he, hpay⟩ := List.mem_filterMap.mp hmem
  obtain ⟨tra, trb, -, hra, ha, hentry, -⟩ := hr₂.of_mem he
  obtain ⟨t₃, ht₃, hterms⟩ := run_toTerms hra ht
  have hr₃ := hr₁.trans hra
  have hi := (Coherent.deployed hd).run hr₃
  have hs := hi.trades id t₃ ht₃
  rw [← hterms] at hpay
  have hpaid : paidBy self id e = payout self t₃.toTerms .release := by
    rw [payment] at hpay
    split at hpay
    next => cases hpay
    next => exact Option.some.inj hpay
  obtain ⟨u, hu, hpayee⟩ :=
    (payout_reaches_recipient self .release hs.terms.parties_ne).mpr rfl
  have hto : u.payee ≠ t₃.usdcProvider := fun hc => hs.terms.parties_ne (hc.symm.trans hpayee)
  obtain ⟨env, op, cfg, hact, hcfg, hauth⟩ :=
    entry_authorised hd hr₃ ha hentry ht₃ (hpaid ▸ hu) hto
  obtain ⟨hl, hk⟩ := hi.unique hcfg
  obtain ⟨a, hsigned, hne⟩ := hauth.not_only_attestor hs.terms hl hk.attestor
  have hsome : e.out.isSome = true := by
    apply succeeded_of_paid
    rw [hpaid]
    exact payout_ne_nil _ _ _
  exact hne (honly e he hsome env op hact hauth.op_eq.1 hauth.op_eq.2 a hsigned)

/-- Who can move escrowed tokens. Whatever reaches anybody but the provider was
authorised as a release at that moment; and the attestor alone can at most
bring about that the provider has his tokens back. -/
theorem principal_needs_authority (hd : Deployed self cfg₀ w₀)
    (hr : Run (machine self) w₀ tr w) (id : TradeId) :
    (∀ tr₁ e tr₂ t u, tr = tr₁ ++ e :: tr₂ → e.pre.trade id = some t → u ∈ paidBy self id e →
      u.payee ≠ t.usdcProvider →
      ∃ env op cfg, e.act = .call env op ∧ e.pre.contents.config = some cfg ∧
        Authorised cfg₀.fiatAttestor tr₁ cfg env id t op) ∧
    (∀ tr₁ w₁ tr₂ t, tr = tr₁ ++ tr₂ → Run (machine self) w₀ tr₁ w₁ →
      Run (machine self) w₁ tr₂ w → w₁.trade id = some t → principalHeld t = true →
      OnlySigner cfg₀.fiatAttestor id tr₂ →
      (payouts self id tr = [] ∧ ∃ t', w.trade id = some t' ∧ principalHeld t' = true) ∨
      payouts self id tr = [[⟨t.usdcToken, self, t.usdcProvider, t.usdcAmount⟩]]) := by
  constructor
  · rintro tr₁ e tr₂ t u rfl ht hu hto
    obtain ⟨hr₁, ha, he, -⟩ := hr.at_entry
    exact entry_authorised hd hr₁ ha he ht hu hto
  · rintro tr₁ w₁ tr₂ t rfl hr₁ hr₂ ht hheld honly
    obtain ⟨t', ht', hterms⟩ := run_toTerms hr₂ ht
    have hs' := ((Coherent.deployed hd).run hr).trades id t' ht'
    have hs := ((Coherent.deployed hd).run hr₁).trades id t ht
    have hbefore : payouts self id tr₁ = [] := by
      rw [payouts_eq hd hr₁, phase_of_trade ht, settledPayout,
        (settlement_none_iff hs.flagged).mpr hheld]
      rfl
    have hall := payouts_eq hd hr id
    rw [phase_of_trade ht', settledPayout, hterms] at hall
    cases hset : settlement t' with
    | none =>
      rw [hset] at hall
      exact .inl ⟨hall, t', ht', (settlement_none_iff hs'.flagged).mp hset⟩
    | some d =>
      rw [hset] at hall
      cases d with
      | refund => exact .inr hall
      | release =>
        have hsplit : payouts self id (tr₁ ++ tr₂) = payouts self id tr₁ ++ payouts self id tr₂ :=
          List.filterMap_append
        rw [hsplit, hbefore, List.nil_append] at hall
        exact absurd (by rw [hall]; simp) (not_released_by_attestor hd hr₁ hr₂ ht honly)

def releaseEntry : Entry World Action (Option Receipt) :=
  (machine ⟨0⟩).entry (final (machine ⟨0⟩) sampleWorld (sampleActions.take 3))
    (.call (sampleEnv 1600 [⟨6⟩]) (.confirmAndRelease 1))

def releaseTrade : Trade := (releaseEntry.pre.trade 1).get (by decide)

theorem sample_principal_needs_authority :
    (⟨⟨2⟩, ⟨0⟩, ⟨7⟩, 985000⟩ : Transfer) ∈ paidBy ⟨0⟩ 1 releaseEntry ∧
    ∃ env op cfg, releaseEntry.act = .call env op ∧
      releaseEntry.pre.contents.config = some cfg ∧
      Authorised ⟨5⟩ (sampleHistory.take 3) cfg env 1 releaseTrade op :=
  ⟨by decide, (principal_needs_authority sampleWorld_deployed sample_run 1).1
    (sampleHistory.take 3) releaseEntry (sampleHistory.drop 4) releaseTrade
    ⟨⟨2⟩, ⟨0⟩, ⟨7⟩, 985000⟩ rfl (Option.some_get _).symm (by decide) (by decide)⟩

end Lolipay.Escrow.Authority
