import Lolipay.Escrow.Lifecycle

namespace Lolipay.Escrow.Deadlines

open Lolipay.Ledger.Calls Lolipay.Ledger.Storage Lolipay.Ledger.Invocation Lolipay.Ledger.Runs
open Lolipay.Escrow.Types Lolipay.Escrow.Contract Lolipay.Escrow.System Lolipay.Escrow.Payout
open Lolipay.Escrow.Transitions Lolipay.Escrow.Effects Lolipay.Escrow.Invariant
open Lolipay.Escrow.Custody Lolipay.Escrow.Lifecycle

variable {self : Address} {cfg cfg₀ : Config} {id : TradeId} {t t' : Trade} {start now τ τ' : ℕ}
  {w w₀ w' : World} {tr tr' : History}

def MarkTimely (cfg : Config) (t : Trade) (caller : Address) (τ : ℕ) : Prop :=
  ∃ deadline, markDeadline cfg t caller = .ok deadline ∧ τ ≤ deadline

def ReleaseTimely (t : Trade) (τ : ℕ) : Prop :=
  ∃ deadline, gracedDeadline t.toTerms = .ok deadline ∧ τ ≤ deadline

def RefundTimely (t : Trade) (τ : ℕ) : Prop :=
  ∃ opensAt, refundOpensAt t.toTerms = .ok opensAt ∧ opensAt < τ

/-- Anybody can refund the trade at this time, under any configuration, paused
or not, as soon as the token lets the principal go back. -/
def RefundEnabled (self : Address) (id : TradeId) (t : Trade) (τ : ℕ) : Prop :=
  ∀ (env : Env) (cfg : Config) (h : EscrowHost), env.contract = self → env.timestamp = τ →
    env.accepts ⟨t.usdcToken, self, t.usdcProvider, t.usdcAmount⟩ = true →
    h.storage.config = some cfg → h.storage.trades.lookup id = some t →
    ∃ h', refund env h id = .ok h'

/-- An unpaused contract accepts the payment mark at this time, from the
attestor on a deposit and from the recipient on a withdrawal. -/
def MarkEnabled (id : TradeId) (t : Trade) (τ : ℕ) : Prop :=
  ∀ (env : Env) (cfg : Config) (h : EscrowHost) (caller : Address), env.timestamp = τ →
    h.storage.config = some cfg → cfg.paused = false → h.storage.trades.lookup id = some t →
    caller = (if t.flow = .topUp then cfg.fiatAttestor else t.usdcRecipient) →
    caller ∈ env.signers → ∃ h', markFiatPaid env h id caller = .ok h'

def lastInstant (t : Terms) : ℕ :=
  if t.flow = .topUp then min t.confirmDeadline (t.payDeadline + attestGraceSecs)
  else t.confirmDeadline

def GraceFits (t : Terms) : Prop := t.flow = .topUp → t.payDeadline + attestGraceSecs < u64Limit

theorem gracedDeadline_eq_ok (t : Terms) (deadline : ℕ) :
    gracedDeadline t = .ok deadline ↔ t.payDeadline + attestGraceSecs < u64Limit ∧
      deadline = min t.confirmDeadline (t.payDeadline + attestGraceSecs) := by
  simp only [gracedDeadline, bind_eq_ok, addU64_eq_ok, Except.ok.injEq]
  constructor
  · rintro ⟨g, ⟨hg, rfl⟩, rfl⟩
    exact ⟨hg, rfl⟩
  · rintro ⟨hg, rfl⟩
    exact ⟨_, ⟨hg, rfl⟩, rfl⟩

theorem refundOpensAt_eq_ok (t : Terms) (opensAt : ℕ) :
    refundOpensAt t = .ok opensAt ↔ GraceFits t ∧ opensAt = lastInstant t := by
  unfold refundOpensAt lastInstant GraceFits
  by_cases hflow : t.flow = .topUp
  · rw [if_pos hflow, if_pos hflow, gracedDeadline_eq_ok]
    simp only [hflow, true_imp_iff]
  · rw [if_neg hflow, if_neg hflow]
    simp only [hflow, false_imp_iff, true_and, Except.ok.injEq, eq_comm]

theorem markDeadline_le (hpc : t.payDeadline < t.confirmDeadline) {caller : Address} {deadline : ℕ}
    (h : markDeadline cfg t caller = .ok deadline) : deadline ≤ lastInstant t.toTerms := by
  rw [markDeadline] at h
  rw [lastInstant]
  split at h
  next hc =>
    obtain ⟨-, hflow⟩ := hc
    simp only [bind_eq_ok, rejectIf_eq_ok] at h
    obtain ⟨-, -, h⟩ := h
    rw [if_pos hflow, ((gracedDeadline_eq_ok _ _).mp h).2]
  next =>
    split at h
    next =>
      obtain rfl := Except.ok.inj h
      by_cases hflow : t.flow = .topUp
      · rw [if_pos hflow, if_pos hflow]
        omega
      · rw [if_neg hflow, if_neg hflow]
    next => cases h

theorem gracedDeadline_le {deadline : ℕ} (h : gracedDeadline t.toTerms = .ok deadline) :
    deadline ≤ lastInstant t.toTerms := by
  rw [((gracedDeadline_eq_ok _ _).mp h).2, lastInstant]
  split
  next => exact le_rfl
  next => exact min_le_left _ _

/-- The refund is open to anybody exactly from the second after the last
instant for marking, as long as the contract's own sums fit its 64-bit clock. -/
theorem refundEnabled_iff (hs : Sound cfg₀ start now t) (hst : t.status = .funded) :
    RefundEnabled self id t τ ↔
      GraceFits t.toTerms ∧ lastInstant t.toTerms < τ ∧ τ + t.disputeWindow < u64Limit := by
  constructor
  · intro h
    let env : Env := ⟨self, τ, [], fun _ => true, List.not_mem_nil⟩
    let host : EscrowHost := enter ⟨some cfg₀, AList.insert id t ∅⟩ fun _ _ => 0
    obtain ⟨h', hx⟩ := h env cfg₀ host rfl rfl rfl rfl (AList.lookup_insert _)
    simp only [refund, getConfig, getTrade, storageGetTrade, bind_eq_ok, okOr_eq_ok,
      rejectIf_eq_ok, not_not, not_le] at hx
    obtain ⟨-, -, t₁, hlook, -, -, opensAt, hopens, -, hlate, hpay⟩ := hx
    obtain rfl := Option.some.inj ((AList.lookup_insert _).symm.trans hlook)
    obtain ⟨hfit, rfl⟩ := (refundOpensAt_eq_ok _ _).mp hopens
    exact ⟨hfit, hlate, ((doRefund_eq_ok _ _ _ _ _).mp hpay).1⟩
  · rintro ⟨hfit, hlate, hwin⟩ env cfg h rfl rfl hacc hcfg hlook
    have hopens := (refundOpensAt_eq_ok t.toTerms _).mpr ⟨hfit, rfl⟩
    obtain ⟨h', hpay⟩ : ∃ h', doRefund env h id t = .ok h' :=
      ⟨_, (doRefund_eq_ok env h _ id t).mpr ⟨hwin, ⟨hs.terms.amount_pos.le, hacc⟩, rfl⟩⟩
    refine ⟨h', ?_⟩
    simp only [refund, getConfig, getTrade, storageGetTrade, bind_eq_ok, okOr_eq_ok,
      rejectIf_eq_ok, not_not, not_le]
    exact ⟨cfg, hcfg, t, hlook, (), hst, _, hopens, (), hlate, hpay⟩

theorem mark_enabled (hst : t.status = .funded) (hfit : GraceFits t.toTerms)
    (hτ : τ ≤ lastInstant t.toTerms) : MarkEnabled id t τ := by
  rintro env cfg h caller rfl hcfg hp hlook rfl hsig
  have hdeadline : markDeadline cfg t
      (if t.flow = .topUp then cfg.fiatAttestor else t.usdcRecipient) =
      .ok (lastInstant t.toTerms) := by
    by_cases hflow : t.flow = .topUp
    · have hg := (gracedDeadline_eq_ok t.toTerms _).mpr ⟨hfit hflow, rfl⟩
      simp only [markDeadline, hflow, if_true, and_self, lastInstant]
      exact (bind_eq_ok _ _ _).mpr ⟨(), (rejectIf_eq_ok _ _ _).mpr (by simp [hp]), hg⟩
    · simp only [markDeadline, lastInstant, hflow, and_false, if_false, if_true]
  refine ⟨(setTrade h id { t with status := .fiatPaid }).publish (.fiatPaid id), ?_⟩
  simp only [markFiatPaid, getConfig, getTrade, storageGetTrade, bind_eq_ok, okOr_eq_ok,
    rejectIf_eq_ok, requireAuth_eq_ok, not_not, not_lt]
  exact ⟨cfg, hcfg, t, hlook, (), hst, _, hdeadline, (), hτ, (), hsig, rfl⟩

/-- Marking a payment and refunding exclude each other at every time. Wherever
the sums that the refund forms fit 64 bits there is no gap between them, and
the refund stays open once it is. -/
theorem marking_and_refund_never_race (hd : Deployed self cfg₀ w₀)
    (hr : Run (machine self) w₀ tr w) (ht : w.trade id = some t) (hst : t.status = .funded) :
    (∀ cfg caller τ, MarkTimely cfg t caller τ ∨ ReleaseTimely t τ → ¬RefundTimely t τ) ∧
    (∀ τ, GraceFits t.toTerms → τ + t.disputeWindow < u64Limit →
      RefundEnabled self id t τ ∨ (τ ≤ lastInstant t.toTerms ∧ MarkEnabled id t τ)) ∧
    (∀ τ τ' tr' w' t', RefundEnabled self id t τ → τ ≤ τ' → τ' + t.disputeWindow < u64Limit →
      Run (machine self) w tr' w' → w'.trade id = some t' → t'.status = .funded →
      RefundEnabled self id t' τ') := by
  have hi := (Coherent.deployed hd).run hr
  have hs := hi.trades id t ht
  refine ⟨?_, ?_, ?_⟩
  · rintro cfg caller τ hopen ⟨opensAt, hopens, hlate⟩
    have hle : τ ≤ lastInstant t.toTerms := by
      obtain ⟨deadline, hdl, hle⟩ | ⟨deadline, hdl, hle⟩ := hopen
      · exact hle.trans (markDeadline_le hs.terms.pay_lt hdl)
      · exact hle.trans (gracedDeadline_le hdl)
    rw [((refundOpensAt_eq_ok _ _).mp hopens).2] at hlate
    omega
  · intro τ hfit hwin
    by_cases hle : τ ≤ lastInstant t.toTerms
    · exact .inr ⟨hle, mark_enabled hst hfit hle⟩
    · exact .inl ((refundEnabled_iff hs hst).mpr ⟨hfit, by omega, hwin⟩)
  · intro τ τ' tr' w' t' henabled hle hwin hr' ht' hst'
    obtain ⟨t₁, ht₁, hterms⟩ := run_toTerms hr' ht
    obtain rfl := Option.some.inj (ht'.symm.trans ht₁)
    obtain ⟨hfit, hlate, -⟩ := (refundEnabled_iff hs hst).mp henabled
    rw [← hterms] at hfit hlate hwin
    exact (refundEnabled_iff ((hi.run hr').trades id t' ht') hst').mpr ⟨hfit, by omega, hwin⟩

def unpaidTrade : Trade := openingTrade sampleConfig 1200 sampleArgs

theorem unpaidTrade_stored : sampleFinal.trade 2 = some unpaidTrade := by decide

theorem unpaidTrade_sound : Sound sampleConfig 1000 1700 unpaidTrade :=
  ((Coherent.deployed sampleWorld_deployed).run sample_run).trades 2 unpaidTrade unpaidTrade_stored

theorem sample_marking_and_refund_never_race :
    MarkEnabled 2 unpaidTrade 5600 ∧ RefundEnabled ⟨0⟩ 2 unpaidTrade 5601 ∧
      ¬RefundTimely unpaidTrade 5600 := by
  obtain ⟨hexcl, hgap, -⟩ := marking_and_refund_never_race sampleWorld_deployed sample_run
    unpaidTrade_stored rfl
  have hearly : ¬RefundEnabled ⟨0⟩ 2 unpaidTrade 5600 := by
    rw [refundEnabled_iff unpaidTrade_sound rfl]
    rintro ⟨-, hlate, -⟩
    exact absurd hlate (by decide)
  obtain hopen | ⟨-, hmark⟩ := hgap 5600 (fun _ => by decide) (by decide)
  · exact absurd hopen hearly
  obtain hopen | ⟨hle, -⟩ := hgap 5601 (fun _ => by decide) (by decide)
  · exact ⟨hmark, hopen, hexcl sampleConfig ⟨5⟩ 5600 (.inr ⟨5600, by decide, le_rfl⟩)⟩
  · exact absurd hle (by decide)

/-- At the last second of the 64-bit clock the settlement's own deadline does
not fit: the refund that was open is shut, and marking ended long before. -/
theorem refund_shut_at_last_second :
    Deployed ⟨0⟩ sampleConfig sampleWorld ∧
    Run (machine ⟨0⟩) sampleWorld sampleHistory sampleFinal ∧
    sampleFinal.trade 2 = some unpaidTrade ∧ unpaidTrade.status = .funded ∧
    RefundEnabled ⟨0⟩ 2 unpaidTrade 5601 ∧ ¬RefundEnabled ⟨0⟩ 2 unpaidTrade (u64Limit - 1) ∧
    ¬(u64Limit - 1 ≤ lastInstant unpaidTrade.toTerms) := by
  refine ⟨sampleWorld_deployed, sample_run, unpaidTrade_stored, rfl, ?_, ?_, by decide⟩
  · rw [refundEnabled_iff unpaidTrade_sound rfl]
    exact ⟨fun _ => by decide, by decide, by decide⟩
  · rw [refundEnabled_iff unpaidTrade_sound rfl]
    rintro ⟨-, -, hfit⟩
    exact absurd hfit (by decide)

end Lolipay.Escrow.Deadlines
