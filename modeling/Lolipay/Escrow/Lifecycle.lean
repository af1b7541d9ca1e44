import Lolipay.Escrow.Custody

namespace Lolipay.Escrow.Lifecycle

open Lolipay.Ledger.Calls Lolipay.Ledger.Storage Lolipay.Ledger.Invocation Lolipay.Ledger.Runs
open Lolipay.Escrow.Types Lolipay.Escrow.Contract Lolipay.Escrow.System Lolipay.Escrow.Payout
open Lolipay.Escrow.Transitions Lolipay.Escrow.Effects Lolipay.Escrow.Invariant
open Lolipay.Escrow.Custody

variable {self : Address} {cfg cfg₀ : Config} {env : Env} {id : TradeId} {t t' : Trade} {op : Op}
  {ts : List Transfer} {d : ResolveOutcome} {start now : ℕ} {w w₀ w' : World} {tr tr' : History}

/-- Only two things happen to a settled trade: somebody disputes the settlement
in time, or a verdict on such a dispute gives the trade its status back. -/
theorem moves_of_settled (hf : Flagged t) (hd : settlement t = some d)
    (hm : Moves cfg env id t op t' ts) :
    (∃ raiser, op = .raiseDispute id raiser ∧ t.hasPreDisputeStatus = false ∧
      env.timestamp ≤ t.postSettleDeadline ∧ t' = reopened env t raiser) ∨
    (∃ outcome caller prior u, op = .resolve id outcome caller ∧ t.status = .disputed ∧
      t.preDisputeStatus? = some prior ∧ direction prior = some d ∧
      verdict t prior outcome env.timestamp = .ok u ∧ t' = restored u prior) := by
  cases hm with
  | mark hst | releaseEarly hst | confirm hst | refundLate hst | cancelBoth hst
  | disputePaid hst | disputeFunded hst =>
    have hflag := hf.unflagged (by simp [hst])
    rw [settlement_of_unflagged hflag, hst] at hd
    cases hd
  | @disputeSettled raiser hst hs hby hfresh ht =>
    have hflag := hf.unflagged (by cases hst <;> simp [*])
    exact .inl ⟨raiser, rfl, hflag, ht, rfl⟩
  | settlePaid hst hj hpre =>
    rw [settlement_of_unflagged (recorded_none hpre), hst] at hd
    cases hd
  | settleFunded hst hj hpre =>
    rw [settlement_of_recorded hpre] at hd
    cases hd
  | @judge caller outcome prior u hst hj hpre hprior hv =>
    rw [settlement_of_recorded hpre] at hd
    exact .inr ⟨outcome, caller, prior, u, rfl, hst, hpre, hd, hv, rfl⟩

theorem run_toTerms (hr : Run (machine self) w tr w') (ht : w.trade id = some t) :
    ∃ t', w'.trade id = some t' ∧ t'.toTerms = t.toTerms := by
  apply run_trade (P := fun u => u.toTerms = t.toTerms) hr ht rfl
  intro cfg env op u u' ts hu hm
  exact (moves_toTerms hm).trans hu

/-- The settled part of a record: direction, time of settlement and end of the dispute window. -/
structure SameSettlement (d : ResolveOutcome) (t t' : Trade) : Prop where
  direction : settlement t' = some d
  settledAt : t'.settledAt = t.settledAt
  postSettle : t'.postSettleDeadline = t.postSettleDeadline

theorem moves_sameSettlement (hf : Flagged t) (hd : settlement t = some d)
    (hm : Moves cfg env id t op t' ts) : SameSettlement d t t' := by
  obtain ⟨raiser, -, hflag, -, rfl⟩ | ⟨o, c, prior, u, -, -, hpre, hdir, hv, rfl⟩ :=
    moves_of_settled hf hd hm
  · obtain ⟨p, r, q, he, -⟩ := reopened_eq env t raiser
    refine ⟨(settlement_reopened hflag raiser).trans hd, ?_, ?_⟩ <;> rw [he]
  · refine ⟨(settlement_restored u prior).trans hdir, ?_, ?_⟩ <;>
      obtain ⟨-, -, rfl⟩ | ⟨-, rfl⟩ := verdict_ok hv <;> rfl

/-- Once settled, a trade keeps its settlement through every run. -/
theorem run_sameSettlement (hi : Coherent cfg₀ start w) (hr : Run (machine self) w tr w')
    (ht : w.trade id = some t) (hd : settlement t = some d) :
    ∃ t', w'.trade id = some t' ∧ SameSettlement d t t' := by
  have hf := (hi.trades id t ht).flagged
  obtain ⟨t', ht', -, hsame⟩ := run_trade (P := fun u => Flagged u ∧ SameSettlement d t u) hr ht
    ⟨hf, hd, rfl, rfl⟩ fun cfg env op u u' ts hu hm => by
      have hstep := moves_sameSettlement hu.1 hu.2.direction hm
      exact ⟨moves_flagged hu.1 hm, hstep.direction, hstep.settledAt.trans hu.2.settledAt,
        hstep.postSettle.trans hu.2.postSettle⟩
  exact ⟨t', ht', hsame⟩

/-- The entry of a history that raised the dispute a trade is in: it wrote the
record `t` over the record `t₀`, and remembers the status that `t₀` had. -/
structure RaisedFrom (id : TradeId) (e : Entry World Action (Option Receipt)) (t₀ t : Trade) :
    Prop where
  call : ∃ env raiser, e.act = .call env (.raiseDispute id raiser) ∧ raiser ∈ env.signers
  succeeded : e.out.isSome = true
  before : e.pre.trade id = some t₀
  after : e.post.trade id = some t
  recorded : t.preDisputeStatus? = if t₀.status = .fiatPaid then none else some t₀.status

theorem moves_disputed (hf : Flagged t) (hm : Moves cfg env id t op t' ts)
    (hst' : t'.status = .disputed) :
    (∃ raiser, op = .raiseDispute id raiser ∧ raiser ∈ env.signers) ∧
      t'.preDisputeStatus? = if t.status = .fiatPaid then none else some t.status := by
  cases hm with
  | mark | releaseEarly | confirm | refundLate | cancelBoth => cases hst'
  | settlePaid | settleFunded =>
    simp only [settledNow, Trade.settled] at hst'
    split at hst' <;> cases hst'
  | @disputePaid raiser hst hs =>
    have hflag := hf.unflagged (by simp [hst])
    refine ⟨⟨raiser, rfl, hs⟩, ?_⟩
    rw [hst]
    simp only [Trade.preDisputeStatus?, disputed, hflag, Bool.false_eq_true, if_false, if_true]
  | @disputeFunded raiser hst hs =>
    refine ⟨⟨raiser, rfl, hs⟩, ?_⟩
    rw [hst]
    rfl
  | @disputeSettled raiser hst hs =>
    refine ⟨⟨raiser, rfl, hs⟩, ?_⟩
    obtain ⟨p, r, q, he, -⟩ := reopened_eq env t raiser
    have hne : t.status ≠ .fiatPaid := by cases hst <;> simp [*]
    rw [he, if_neg hne]
    rfl
  | judge hst hj hpre hprior hv =>
    obtain ⟨hflag, rfl⟩ := recorded_some hpre
    obtain ⟨-, hp | hp | hp⟩ := hf.up hflag <;> cases hp.symm.trans hst'

theorem dispute_origin (hd : Deployed self cfg₀ w₀) (hr : Run (machine self) w₀ tr w)
    (ht : w.trade id = some t) (hst : t.status = .disputed) :
    ∃ e ∈ tr, ∃ t₀, RaisedFrom id e t₀ t := by
  induction hr with
  | nil => cases (trade_none_of_deployed hd).symm.trans ht
  | @snoc tr u hr a ha ih =>
    cases trade_step ha id with
    | same hs =>
      obtain ⟨e, he, t₀, hraised⟩ := ih (hs.symm.trans ht)
      exact ⟨e, List.mem_append_left _ he, t₀, hraised⟩
    | opened hact hself hcfg ho hnew hopen =>
      obtain rfl := Option.some.inj (ht.symm.trans hopen)
      cases hst
    | @moved env op cfg t₀ t₁ ts hact hself hcfg hlook hm hnext hrec =>
      obtain rfl := Option.some.inj (ht.symm.trans hnext)
      have hi := (Coherent.deployed hd).run hr
      obtain ⟨⟨raiser, rfl, hs⟩, hpre⟩ := moves_disputed (hi.trades id t₀ hlook).flagged hm hst
      exact ⟨(machine self).entry u a, by simp, t₀, ⟨env, raiser, hact, hs⟩, hrec, hlook, ht, hpre⟩

/-- What the status machine guarantees for every trade of every reachable state:
the representation invariant, a truthful dispute view, and a settlement that
no later operation can change. -/
theorem status_machine (hd : Deployed self cfg₀ w₀) (hr : Run (machine self) w₀ tr w)
    (ht : w.trade id = some t) :
    (t.hasPreDisputeStatus = true → t.status = .disputed ∧
      (t.preDisputeStatus = .funded ∨ t.preDisputeStatus = .released ∨
        t.preDisputeStatus = .refunded)) ∧
    (t.status = .disputed → t.hasPreDisputeStatus = false →
      ∃ e ∈ tr, ∃ t₀, RaisedFrom id e t₀ t ∧ t₀.status = .fiatPaid) ∧
    (0 < w₀.now → (t.settledAt = 0 ↔ principalHeld t = true) ∧
      (t.postSettleDeadline = 0 ↔ principalHeld t = true)) ∧
    (∃ v, disputeView (enter w.contents w.balances) id = .ok v ∧
      (v.preSettlement = true ↔ principalHeld t = true) ∧
      (v.preSettlement = true ↔ payouts self id tr = []) ∧
      (v.released = true ↔ ∃ ts ∈ payouts self id tr, ∃ u ∈ ts, u.payee = t.usdcRecipient)) ∧
    (∀ d tr' w', settlement t = some d → Run (machine self) w tr' w' →
      ∃ t', w'.trade id = some t' ∧ SameSettlement d t t') := by
  have hi := (Coherent.deployed hd).run hr
  have hs := hi.trades id t ht
  have hheld := settlement_none_iff hs.flagged
  have hpay := payouts_eq hd hr id
  rw [phase_of_trade ht, settledPayout] at hpay
  -- An unsettled record is zero and a settled one is not, since no ledger has time zero.
  have hzero (hpos : 0 < w₀.now) : (t.settledAt = 0 ↔ settlement t = none) ∧
      (t.postSettleDeadline = 0 ↔ settlement t = none) := by
    cases hset : settlement t with
    | none => exact ⟨by simp [(hs.held hset).settledAt], by simp [(hs.held hset).postSettle]⟩
    | some d =>
      have hrec := hs.settled d hset
      have hge := hrec.settledAt_ge
      have hps := hrec.postSettle
      simp only [reduceCtorEq, iff_false]
      omega
  refine ⟨hs.flagged.up, ?_, fun hp => ⟨(hzero hp).1.trans hheld, (hzero hp).2.trans hheld⟩,
    ?_, ?_⟩
  · intro hst hflag
    obtain ⟨e, he, t₀, hraised⟩ := dispute_origin hd hr ht hst
    refine ⟨e, he, t₀, hraised, ?_⟩
    have hrec := hraised.recorded
    by_contra hne
    rw [if_neg hne, Trade.preDisputeStatus?, hflag] at hrec
    cases hrec
  · refine ⟨viewOf t, ?_, (preSettlement_iff t).trans hheld, ?_, ?_⟩
    · exact (bind_eq_ok _ _ _).mpr ⟨t, (okOr_eq_ok _ _ _).mpr ht, rfl⟩
    · rw [preSettlement_iff, hpay]
      cases settlement t <;> simp
    · rw [released_iff, hpay]
      cases hset : settlement t with
      | none => simp
      | some d => simp [payout_reaches_recipient self d hs.terms.parties_ne]
  · intro d tr' w' hset hr'
    exact run_sameSettlement hi hr' ht hset

def sampleTrade : Trade := (sampleFinal.trade 1).get (by decide)

theorem sampleFinal_trade : sampleFinal.trade 1 = some sampleTrade := (Option.some_get _).symm

theorem sample_status_machine :
    sampleTrade.hasPreDisputeStatus = true ∧ sampleTrade.settledAt = 1600 ∧
    principalHeld sampleTrade = false ∧ sampleTrade.status = .disputed :=
  ⟨by decide, by decide, by decide,
    ((status_machine sampleWorld_deployed sample_run sampleFinal_trade).1 (by decide)).1⟩

end Lolipay.Escrow.Lifecycle
