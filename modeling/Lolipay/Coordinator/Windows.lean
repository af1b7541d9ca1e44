import Lolipay.Escrow.Deadlines
import Lolipay.Escrow.TwoRuns
import Lolipay.Coordinator.Signing

namespace Lolipay.Coordinator.Windows

open Lolipay.Ledger.Calls Lolipay.Ledger.Storage Lolipay.Ledger.Invocation Lolipay.Ledger.Runs
open Lolipay.Escrow.Types Lolipay.Escrow.System Lolipay.Escrow.Effects Lolipay.Escrow.Invariant
open Lolipay.Escrow.Contract (markFiatPaid markDeadline minPayWindow getConfig getTrade
  storageGetTrade)
open Lolipay.Escrow.Deadlines
open Lolipay.Escrow.Custody (sampleWorld_deployed sample_run sampleFinal sampleConfig)
open Lolipay.Escrow.TwoRuns (recipient_ne_attestor Config.withPaused)
open Lolipay.Coordinator.Orders Lolipay.Coordinator.Binding Lolipay.Coordinator.Database
open Lolipay.Coordinator.Services (attestGraceSecs refundOpensAt)
open Lolipay.Coordinator.Desk (refundableAt samplePlacement)
open Lolipay.Coordinator.Signing

def orphanLookbackMs : ℤ := 3888000000

/-- The part of `refundablePoolWhere` that has nothing to do with deadlines. -/
def orphaned (now : ℕ) (row : Order) : Bool :=
  (row.status = .cancelled || row.status = .expired) && row.settlementTxHash = none &&
    row.settledAt = none && (now : ℤ) - orphanLookbackMs < row.createdAt

def refundablePoolWhere (now : ℕ) (nowSecs : ℤ) (row : Order) : Bool :=
  orphaned now row && (row.confirmDeadline < nowSecs ||
    (row.flow = .topUp && row.payDeadline < nowSecs - attestGraceSecs))

def reconcilesNow (now : ℕ) (nowSecs : ℤ) (row : Order) : Bool :=
  refundablePoolWhere now nowSecs row &&
    !(nowSecs ≤ refundOpensAt row.toOrderBindingFields)

def claimPaidAccepts (row : Order) (userClaimedPaidAt : Option ℕ) (nowSecs : ℤ) : Bool :=
  row.flow = .topUp && row.status = .funded && userClaimedPaidAt = none &&
    !(refundOpensAt row.toOrderBindingFields < nowSecs)

def windowClosed (order : OrderBindingFields) (nowSecs : ℤ) : Bool :=
  refundOpensAt order < nowSecs

def attestationLate (notAfterSecs nowSecs : ℤ) : Bool := notAfterSecs < nowSecs

/-- The checks of `attestFiatPaidOnce` and of the attestor behind it. -/
def attestAccepts (row : Order) (nowSecs : ℤ) : Bool :=
  row.flow = .topUp && row.status = .funded &&
    !attestationLate (refundOpensAt row.toOrderBindingFields) nowSecs

def confirmReceiptAccepts (row : Order) (nowSecs : ℤ) : Bool :=
  !windowClosed row.toOrderBindingFields nowSecs && attestAccepts row nowSecs

def int8Limit : ℤ := 2 ^ 63

variable {self home : Address} {cfg cfg₀ : Config} {w₀ w : World} {tr : History} {t : Trade}
  {row : Order} {id : TradeId} {env : Env} {h : EscrowHost} {caller : Address} {d τ : ℕ}

/-- What a bound order says about the deadlines is what the trade says. -/
structure SameWindow (fields : OrderBindingFields) (t : Terms) : Prop where
  flow : fields.flow = t.flow
  pay : fields.payDeadline = t.payDeadline
  confirm : fields.confirmDeadline = t.confirmDeadline
  recipient : ∃ lp, fields.lpWallet = some lp ∧
    t.usdcRecipient = (mapRoles fields.flow fields.userAddress lp).usdcRecipient

theorem SameWindow.of_bound {fields : OrderBindingFields}
    (hb : verifyTradeMatchesOrder (decodeTradeStatus t) fields = []) :
    SameWindow fields t.toTerms := by
  obtain ⟨lp, hlp, -, -, -, hflow, -, hrec, -, -, -, -, -, hpay, hconfirm, -⟩ :=
    (verify_eq_nil_iff _ _).mp hb
  simp only [decodeTradeStatus, Option.some.injEq] at hflow hrec hpay hconfirm
  exact ⟨(flowDiscriminant_inj hflow).symm, hpay.symm, hconfirm.symm, lp, hlp, hrec⟩

/-- The coordinator's instant is the contract's. -/
theorem SameWindow.refundOpensAt_eq {fields : OrderBindingFields} {u : Terms}
    (hw : SameWindow fields u) : refundOpensAt fields = lastInstant u := by
  rw [refundOpensAt, lastInstant, hw.flow, hw.pay, hw.confirm]
  by_cases hflow : u.flow = .topUp
  · simp only [hflow, ne_eq, not_true_eq_false, if_false, if_true, attestGraceSecs,
      Escrow.Contract.attestGraceSecs]
    omega
  · simp only [hflow, ne_eq, not_false_eq_true, if_true, if_false]

theorem SameWindow.graceFits {fields : OrderBindingFields} {u : Terms} (hw : SameWindow fields u)
    (hfit : fields.payDeadline < int8Limit) : GraceFits u := by
  intro _
  rw [hw.pay] at hfit
  simp only [int8Limit, u64Limit, Escrow.Contract.attestGraceSecs] at *
  omega

theorem refundTimely_iff (hfit : GraceFits t.toTerms) (τ : ℕ) :
    RefundTimely t τ ↔ lastInstant t.toTerms < τ := by
  constructor
  · rintro ⟨opensAt, hopens, hlate⟩
    rw [((refundOpensAt_eq_ok _ _).mp hopens).2] at hlate
    exact hlate
  · intro hlate
    exact ⟨_, (refundOpensAt_eq_ok _ _).mpr ⟨hfit, rfl⟩, hlate⟩

/-- The two alternatives of the database filters together are the opening of the refund. -/
theorem SameWindow.filter_iff {fields : OrderBindingFields} {u : Terms} (hw : SameWindow fields u)
    (τ : ℕ) :
    (fields.confirmDeadline < (τ : ℤ) ∨
      fields.flow = .topUp ∧ fields.payDeadline < (τ : ℤ) - attestGraceSecs) ↔
      lastInstant u < τ := by
  rw [lastInstant, hw.flow, hw.pay, hw.confirm]
  by_cases hflow : u.flow = .topUp
  · simp only [hflow, if_true, true_and, attestGraceSecs, Escrow.Contract.attestGraceSecs]
    omega
  · simp only [hflow, if_false, false_and, or_false]
    omega

theorem markFiatPaid_iff (hcfg : h.storage.config = some cfg)
    (hlook : h.storage.trades.lookup id = some t) (hst : t.status = .funded)
    (hsig : caller ∈ env.signers) :
    (∃ h', markFiatPaid env h id caller = .ok h') ↔ MarkTimely cfg t caller env.timestamp := by
  simp only [markFiatPaid, getConfig, getTrade, storageGetTrade, bind_eq_ok, okOr_eq_ok,
    rejectIf_eq_ok, requireAuth_eq_ok, not_not, not_lt, hcfg, hlook, Option.some.injEq,
    exists_eq_left', MarkTimely]
  constructor
  · rintro ⟨h', -, -, deadline, hdl, -, hle, -⟩
    exact ⟨deadline, hdl, hle⟩
  · rintro ⟨deadline, hdl, hle⟩
    exact ⟨_, (), hst, deadline, hdl, (), hle, (), hsig, rfl⟩

/-- Unless the contract is paused, the attestor can mark a deposit up to the
refund's opening, and a withdrawal never. -/
theorem attestor_markTimely_iff (hrec : t.usdcRecipient ≠ cfg.fiatAttestor)
    (hfit : GraceFits t.toTerms) (τ : ℕ) :
    MarkTimely (Config.withPaused false cfg) t cfg.fiatAttestor τ ↔
      t.flow = .topUp ∧ τ ≤ lastInstant t.toTerms := by
  by_cases hflow : t.flow = .topUp
  · have hg := (gracedDeadline_eq_ok t.toTerms _).mpr ⟨hfit hflow, rfl⟩
    have hdl : markDeadline (Config.withPaused false cfg) t cfg.fiatAttestor =
        .ok (lastInstant t.toTerms) := by
      simp only [markDeadline, Config.withPaused, hflow, and_self, if_true, lastInstant]
      exact (bind_eq_ok _ _ _).mpr ⟨(), (rejectIf_eq_ok _ _ _).mpr (by simp), hg⟩
    simp only [MarkTimely, hdl, Except.ok.injEq, exists_eq_left', hflow, true_and]
  · simp only [MarkTimely, markDeadline, hflow, and_false, if_false, Ne.symm hrec, reduceCtorEq,
      false_and, exists_false]

theorem run_payDeadline_pos (hd : Deployed self cfg₀ w₀) (hr : Run (machine self) w₀ tr w) :
    ∀ id t, w.trade id = some t → 1 ≤ t.payDeadline := by
  refine hr.invariant (I := fun w => ∀ id t, w.trade id = some t → 1 ≤ t.payDeadline) ?_ ?_
  · intro id t ht
    rw [trade_none_of_deployed hd] at ht
    cases ht
  · intro u a ih ha id t ht
    cases trade_step ha id with
    | same hsame => exact ih id t (hsame.symm.trans ht)
    | opened hact hself hcfg ho hnew hnext =>
      obtain rfl := Option.some.inj (ht.symm.trans hnext)
      have hpay := ho.pay_ge
      simp only [minPayWindow] at hpay
      change 1 ≤ _
      simp only [Escrow.Contract.openingTrade]
      omega
    | moved hact hself hcfg hlook hm hnext =>
      obtain rfl := Option.some.inj (ht.symm.trans hnext)
      rw [moves_toTerms hm]
      exact ih id _ hlook

theorem timeBound_le {notAfterSecs : ℤ} (hle : notAfterSecs ≤ d) (hd : 1 ≤ d) (now : ℕ) :
    timeBound now notAfterSecs ≤ d := by
  rw [timeBound]
  omega

theorem SameWindow.notAfter_le {fields : OrderBindingFields} {lp : Lp}
    (hw : SameWindow fields t.toTerms) (hrec : t.usdcRecipient ≠ cfg.fiatAttestor)
    (hcaller : caller = getFiatPayer fields.flow fields.userAddress lp.stellarAddress)
    (hdl : markDeadline cfg t caller = .ok d) :
    (if fields.flow = .topUp then fields.payDeadline else fields.confirmDeadline) = d := by
  obtain ⟨provider, -, hrole⟩ := hw.recipient
  rw [hw.flow, hw.pay, hw.confirm]
  have hnot : ¬(caller = cfg.fiatAttestor ∧ t.flow = .topUp) := by
    rintro ⟨rfl, hflow⟩
    rw [hw.flow, hflow] at hcaller hrole
    exact hrec (hrole.trans hcaller.symm)
  rw [markDeadline, if_neg hnot] at hdl
  split at hdl
  next =>
    obtain rfl := Except.ok.inj hdl
    split <;> rfl
  next => cases hdl

theorem markDeadline_pos (hpay : 1 ≤ t.payDeadline) (hlt : t.payDeadline < t.confirmDeadline)
    (hdl : markDeadline cfg t caller = .ok d) : 1 ≤ d := by
  rw [markDeadline] at hdl
  split at hdl
  next =>
    simp only [bind_eq_ok, rejectIf_eq_ok] at hdl
    obtain ⟨-, -, hg⟩ := hdl
    rw [((gracedDeadline_eq_ok _ _).mp hg).2]
    omega
  next =>
    split at hdl
    next =>
      obtain rfl := Except.ok.inj hdl
      split <;> omega
    next => cases hdl

/-- The coordinator and the contract agree on every deadline of a bound order,
to the second. A pause, which is no deadline, is left out of the comparison. The
deadlines of a row are columns of 64 bits with a sign. -/
theorem deadlines_agree (hd : Deployed self cfg₀ w₀) (hr : Run (machine self) w₀ tr w)
    (hcfg : w.contents.config = some cfg) (ht : w.trade row.tradeId = some t)
    (hbound : verifyTradeMatchesOrder (decodeTradeStatus t) row.toOrderBindingFields = [])
    (hint8 : row.payDeadline < int8Limit) :
    (∃ opensAt, Escrow.Contract.refundOpensAt t.toTerms = .ok opensAt ∧
      refundOpensAt row.toOrderBindingFields = opensAt) ∧
    (∀ τ : ℕ, (refundableAt τ row = true ↔ row.status = .funded ∧ RefundTimely t τ) ∧
      ∀ now, reconcilesNow now τ row = true ↔ orphaned now row = true ∧ RefundTimely t τ) ∧
    (∀ (env : Env) (h : EscrowHost), h.storage.config = some (Config.withPaused false cfg) →
      h.storage.trades.lookup row.tradeId = some t → t.status = .funded →
      cfg.fiatAttestor ∈ env.signers → row.status = .funded →
      let accepted := ∃ h', markFiatPaid env h row.tradeId cfg.fiatAttestor = .ok h'
      (claimPaidAccepts row none env.timestamp = true ↔ accepted) ∧
        (attestAccepts row env.timestamp = true ↔ accepted) ∧
        (confirmReceiptAccepts row env.timestamp = true ↔ accepted)) ∧
    (∀ home currentOrder lp caller proofMissing now tx d,
      currentOrder.toPlacement = row.toPlacement →
      buildMarkFiatPaidTx home row currentOrder lp caller proofMissing now = some tx →
      markDeadline (Config.withPaused false cfg) t caller = .ok d →
      tx.op = some (.markFiatPaid row.tradeId caller) ∧ tx.notAfter ≤ d) ∧
    (∀ contractId now d, row.flow = .topUp →
      markDeadline (Config.withPaused false cfg) t cfg.fiatAttestor = .ok d →
      (markFiatPaidTx contractId cfg.fiatAttestor row.tradeId
        (refundOpensAt row.toOrderBindingFields) now).notAfter ≤ d) := by
  have hi := (Coherent.deployed hd).run hr
  have hterms := (hi.trades _ t ht).terms
  have hrec := recipient_ne_attestor hi hcfg ht
  have hpay := run_payDeadline_pos hd hr _ t ht
  have hw := SameWindow.of_bound hbound
  have hfit := hw.graceFits hint8
  have hopens := hw.refundOpensAt_eq
  refine ⟨⟨_, (refundOpensAt_eq_ok _ _).mpr ⟨hfit, rfl⟩, hopens⟩, fun τ => ⟨?_, fun now => ?_⟩,
    ?_, ?_, ?_⟩
  · rw [refundTimely_iff hfit, ← hw.filter_iff]
    simp [refundableAt]
  · rw [refundTimely_iff hfit, ← hw.filter_iff]
    have hlate := hw.filter_iff τ
    simp only [reconcilesNow, refundablePoolWhere, hopens, Bool.and_eq_true, Bool.or_eq_true,
      decide_eq_true_eq, Bool.not_eq_true', decide_eq_false_iff_not, not_le, Nat.cast_lt]
    tauto
  · intro env h hcfg' hlook hst hsig hrow accepted
    have hacc : accepted ↔ t.flow = .topUp ∧ env.timestamp ≤ lastInstant t.toTerms :=
      (markFiatPaid_iff hcfg' hlook hst hsig).trans (attestor_markTimely_iff hrec hfit _)
    rw [hacc]
    refine ⟨?_, ?_, ?_⟩ <;>
      simp [claimPaidAccepts, attestAccepts, confirmReceiptAccepts, attestationLate, windowClosed,
        hrow, hopens, hw.flow]
  · intro home currentOrder lp caller proofMissing now tx d hsame hbuilt hdl
    simp only [buildMarkFiatPaidTx] at hbuilt
    split at hbuilt
    next => cases hbuilt
    next hcaller =>
      split at hbuilt
      next => cases hbuilt
      next =>
        split at hbuilt
        next => cases hbuilt
        next =>
          obtain rfl := Option.some.inj hbuilt
          rw [hsame]
          refine ⟨rfl, timeBound_le ?_ (markDeadline_pos hpay hterms.pay_lt hdl) now⟩
          have hrec : t.usdcRecipient ≠ (Config.withPaused false cfg).fiatAttestor := hrec
          exact (hw.notAfter_le hrec (not_not.mp hcaller) hdl).le
  · intro contractId now d hflow hdl
    refine timeBound_le ?_ (markDeadline_pos hpay hterms.pay_lt hdl) now
    have htimely := (attestor_markTimely_iff hrec hfit (lastInstant t.toTerms)).mpr
      ⟨hw.flow.symm.trans hflow, le_rfl⟩
    obtain ⟨d', hdl', hle⟩ := htimely
    obtain rfl := Except.ok.inj (hdl.symm.trans hdl')
    rw [hopens]
    exact_mod_cast hle

def unpaidRow : Order := { samplePlacement.opened with tradeId := 2, status := .funded }

/-- One hour after the payment deadline the sample deposit changes hands: at that
second it can still be attested, from the next one on it can be refunded. -/
theorem sample_deadlines_agree :
    claimPaidAccepts unpaidRow none 5600 = true ∧ claimPaidAccepts unpaidRow none 5601 = false ∧
      refundableAt 5600 unpaidRow = false ∧ refundableAt 5601 unpaidRow = true ∧
      RefundTimely unpaidTrade 5601 ∧
      Escrow.Contract.refundOpensAt unpaidTrade.toTerms = .ok 5600 := by
  obtain ⟨⟨opensAt, hopens, heq⟩, hfilter, -⟩ := deadlines_agree sampleWorld_deployed sample_run
    (show sampleFinal.contents.config = some sampleConfig from rfl)
    (show sampleFinal.trade unpaidRow.tradeId = some unpaidTrade from unpaidTrade_stored)
    (by decide) (by decide)
  obtain rfl : opensAt = 5600 := by
    have hvalue : refundOpensAt unpaidRow.toOrderBindingFields = 5600 := rfl
    omega
  exact ⟨rfl, rfl, rfl, rfl, ((hfilter 5601).1.mp rfl).2, hopens⟩

end Lolipay.Coordinator.Windows
