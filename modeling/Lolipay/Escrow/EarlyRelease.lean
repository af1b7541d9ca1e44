import Lolipay.Escrow.Deadlines
import Lolipay.Escrow.TwoRuns

namespace Lolipay.Escrow.EarlyRelease

open Lolipay.Ledger
open Lolipay.Ledger.Calls Lolipay.Ledger.Storage Lolipay.Ledger.Invocation
open Lolipay.Escrow.Types Lolipay.Escrow.Contract Lolipay.Escrow.System Lolipay.Escrow.Payout
open Lolipay.Escrow.Custody Lolipay.Escrow.Deadlines Lolipay.Escrow.TwoRuns

variable {env : Env} {h h' : EscrowHost} {id : TradeId} {cfg : Config} {t : Trade} {w : World}

/-- What a release asks of the ledger: its sums fit, and the token takes every payment. -/
structure Payable (env : Env) (t : Terms) : Prop where
  split : splitFees t.usdcAmount t.platformFeeBps t.lpFeeBps = .ok (feesOf t)
  window : env.timestamp + t.disputeWindow < u64Limit
  taken : ∀ u ∈ payout env.contract t .release, 0 ≤ u.amount ∧ env.accepts u

theorem payFee_eq_ok {u : Transfer} :
    payFee env h u = .ok h' ↔
      (∀ v ∈ feeTransfer u, 0 ≤ v.amount ∧ env.accepts v) ∧ h' = h.paid (feeTransfer u) := by
  rw [payFee, feeTransfer]
  split
  next => simp only [transfer_eq_ok, List.mem_singleton, forall_eq]
  next =>
    rw [paid_nil]
    constructor
    · intro hok
      exact ⟨by simp, (Except.ok.inj hok).symm⟩
    · rintro ⟨-, rfl⟩
      rfl

theorem payRelease_eq_ok {fees : FeeSplit} :
    payRelease env h id t = .ok (h', fees) ↔
      Payable env t.toTerms ∧ fees = feesOf t.toTerms ∧
      h' = (setTrade h id (t.settled .released env.timestamp
        (env.timestamp + t.disputeWindow))).paid (payout env.contract t.toTerms .release) := by
  constructor
  · intro hp
    obtain ⟨hfees, hhost⟩ := payRelease_ok hp
    refine ⟨?_, hfees, hhost⟩
    simp only [payRelease, bind_eq_ok, addU64_eq_ok, transfer_eq_ok, Except.ok.injEq,
      Prod.mk.injEq, payFee_eq_ok] at hp
    obtain ⟨f, hf, d, ⟨hd, rfl⟩, h₁, ⟨hplatform, -⟩, h₂, ⟨hlp, -⟩, h₃, ⟨hnet, -⟩, -, rfl⟩ := hp
    subst hfees
    refine ⟨hf, hd, fun u hu => ?_⟩
    simp only [payout, List.mem_append, List.mem_singleton] at hu
    obtain (hu | hu) | rfl := hu
    · exact hplatform u hu
    · exact hlp u hu
    · exact hnet
  · rintro ⟨⟨hsplit, hwindow, htaken⟩, rfl, rfl⟩
    simp only [payout, List.mem_append, List.mem_singleton] at htaken
    simp only [payRelease, bind_eq_ok, addU64_eq_ok, transfer_eq_ok, Except.ok.injEq,
      Prod.mk.injEq, payFee_eq_ok]
    refine ⟨_, hsplit, _, ⟨hwindow, rfl⟩, _, ⟨fun v hv => htaken v (.inl (.inl hv)), rfl⟩, _,
      ⟨fun v hv => htaken v (.inl (.inr hv)), rfl⟩, _, ⟨htaken _ (.inr rfl), rfl⟩, ?_, rfl⟩
    rw [paid_paid, paid_paid, payout, List.append_assoc]

def Timely (t : Terms) (now : ℕ) : Prop := ∃ deadline, gracedDeadline t = .ok deadline ∧ now ≤ deadline

/-- The trades that can take the early path. -/
structure Early (cfg : Config) (t : Trade) : Prop where
  funded : t.status = .funded
  unpaused : cfg.paused = false
  topUp : t.flow = .topUp
  listed : t.usdcProvider ∈ cfg.earlyReleaseProviders

theorem releaseFromFunded_iff (hcfg : h.storage.config = some cfg)
    (hlook : h.storage.trades.lookup id = some t) (he : Early cfg t)
    (hatt : cfg.fiatAttestor ∈ env.signers) (hconf : t.confirmer ∈ env.signers) :
    releaseFromFunded env h id = .ok h' ↔
      Timely t.toTerms env.timestamp ∧ Payable env t.toTerms ∧
      h' = ((setTrade h id (t.settled .released env.timestamp
        (env.timestamp + t.disputeWindow))).paid (payout env.contract t.toTerms .release)).publish
          (.earlyReleased id (feesOf t.toTerms).net (feesOf t.toTerms).platformFee
            (feesOf t.toTerms).lpFee) := by
  simp only [releaseFromFunded, getConfig, getTrade, storageGetTrade, bind_eq_ok, okOr_eq_ok,
    rejectIf_eq_ok, requireAuth_eq_ok, Except.ok.injEq, hcfg, hlook, Option.some.injEq,
    exists_eq_left', not_not, not_lt, Bool.not_eq_true, Prod.exists, payRelease_eq_ok, Timely]
  constructor
  · rintro ⟨-, -, -, -, -, -, -, -, d, hd, -, ht, -, -, -, -, h₁, fees, ⟨hp, rfl, rfl⟩, rfl⟩
    exact ⟨⟨d, hd, ht⟩, hp, rfl⟩
  · rintro ⟨⟨d, hd, ht⟩, hp, rfl⟩
    exact ⟨(), he.funded, (), he.unpaused, (), he.topUp, (), he.listed, d, hd, (), ht, (), hatt, (),
      hconf, _, _, ⟨hp, rfl, rfl⟩, rfl⟩

theorem markFiatPaid_by_attestor (hcfg : h.storage.config = some cfg)
    (hlook : h.storage.trades.lookup id = some t) (he : Early cfg t)
    (hatt : cfg.fiatAttestor ∈ env.signers) :
    markFiatPaid env h id cfg.fiatAttestor = .ok h' ↔
      Timely t.toTerms env.timestamp ∧
      h' = (setTrade h id { t with status := .fiatPaid }).publish (.fiatPaid id) := by
  simp only [markFiatPaid, markDeadline, getConfig, getTrade, storageGetTrade, bind_eq_ok, okOr_eq_ok,
    rejectIf_eq_ok, requireAuth_eq_ok, Except.ok.injEq, hcfg, hlook, Option.some.injEq,
    exists_eq_left', not_not, not_lt, Bool.not_eq_true, he.topUp, and_self, if_true, Timely]
  constructor
  · rintro ⟨-, -, d, ⟨-, -, hd⟩, -, ht, -, -, rfl⟩
    exact ⟨⟨d, hd, ht⟩, rfl⟩
  · rintro ⟨⟨d, hd, ht⟩, rfl⟩
    exact ⟨(), he.funded, d, ⟨(), he.unpaused, hd⟩, (), ht, (), hatt, rfl⟩

theorem confirmAndRelease_iff (hcfg : h.storage.config = some cfg)
    (hlook : h.storage.trades.lookup id = some t) (hst : t.status = .fiatPaid)
    (hconf : t.confirmer ∈ env.signers) :
    confirmAndRelease env h id = .ok h' ↔
      Payable env t.toTerms ∧
      h' = ((setTrade h id (t.settled .released env.timestamp
        (env.timestamp + t.disputeWindow))).paid (payout env.contract t.toTerms .release)).publish
          (.released id (feesOf t.toTerms).net (feesOf t.toTerms).platformFee
            (feesOf t.toTerms).lpFee) := by
  simp only [confirmAndRelease, getConfig, getTrade, storageGetTrade, bind_eq_ok, okOr_eq_ok,
    rejectIf_eq_ok, requireAuth_eq_ok, Except.ok.injEq, hcfg, hlook, Option.some.injEq,
    exists_eq_left', not_not, Prod.exists, payRelease_eq_ok]
  constructor
  · rintro ⟨-, -, -, -, h₁, fees, ⟨hp, rfl, rfl⟩, rfl⟩
    exact ⟨hp, rfl⟩
  · rintro ⟨hp, rfl⟩
    exact ⟨(), hst, (), hconf, _, _, ⟨hp, rfl, rfl⟩, rfl⟩

theorem receipt_ne_none (w : World) (env : Env) (op : Op) :
    receipt w (.call env op) ≠ none ↔ ∃ h', exec env (enter w.contents w.balances) op = .ok h' := by
  simp only [receipt, Deployment.receipt, Deployment.invoke]
  cases exec env (enter w.contents w.balances) op <;> simp

theorem next_of_ok {op : Op} (hx : exec env (enter w.contents w.balances) op = .ok h') :
    next w (.call env op) = ⟨h'.storage, h'.balances, env.timestamp⟩ := by
  simp only [next, Deployment.next, Deployment.invoke, hx]

/-- The early release, and the two calls that it stands for, all signed by whom
they need at one instant. The token decides the same on both paths, for the
mark moves nothing. -/
structure SameInstant (cfg : Config) (t : Trade) (early mark confirm : Env) : Prop where
  markTime : mark.timestamp = early.timestamp
  confirmTime : confirm.timestamp = early.timestamp
  contract : confirm.contract = early.contract
  accepts : confirm.accepts = early.accepts
  earlySigned : cfg.fiatAttestor ∈ early.signers ∧ t.confirmer ∈ early.signers
  markSigned : cfg.fiatAttestor ∈ mark.signers
  confirmSigned : t.confirmer ∈ confirm.signers

variable {early mark confirm : Env}

theorem SameInstant.payable (hs : SameInstant cfg t early mark confirm) (u : Terms) :
    Payable confirm u ↔ Payable early u := by
  constructor <;> rintro ⟨hsplit, hwindow, htaken⟩
  · rw [hs.confirmTime] at hwindow
    rw [hs.contract, hs.accepts] at htaken
    exact ⟨hsplit, hwindow, htaken⟩
  · rw [← hs.confirmTime] at hwindow
    rw [← hs.contract, ← hs.accepts] at htaken
    exact ⟨hsplit, hwindow, htaken⟩

def marked (w : World) (id : TradeId) (t : Trade) (now : ℕ) : World :=
  ⟨{ w.contents with trades := w.contents.trades.insert id { t with status := .fiatPaid } },
    w.balances, now⟩

def released (w : World) (id : TradeId) (t : Trade) (env : Env) : World :=
  let settled := t.settled .released env.timestamp (env.timestamp + t.disputeWindow)
  ⟨{ w.contents with trades := w.contents.trades.insert id settled },
    moveAll w.balances (payout env.contract t.toTerms .release), env.timestamp⟩

theorem early_call (hcfg : w.contents.config = some cfg) (hlook : w.trade id = some t)
    (he : Early cfg t) (hatt : cfg.fiatAttestor ∈ env.signers) (hconf : t.confirmer ∈ env.signers) :
    (receipt w (.call env (.releaseFromFunded id)) ≠ none ↔
      Timely t.toTerms env.timestamp ∧ Payable env t.toTerms) ∧
    (receipt w (.call env (.releaseFromFunded id)) ≠ none →
      next w (.call env (.releaseFromFunded id)) = released w id t env) := by
  have hiff (h' : EscrowHost) : releaseFromFunded env (enter w.contents w.balances) id = .ok h' ↔ _ :=
    releaseFromFunded_iff hcfg hlook he hatt hconf
  rw [receipt_ne_none]
  refine ⟨⟨?_, ?_⟩, ?_⟩
  · rintro ⟨h', hx⟩
    obtain ⟨htimely, hpayable, -⟩ := (hiff h').mp hx
    exact ⟨htimely, hpayable⟩
  · rintro ⟨htimely, hpayable⟩
    exact ⟨_, (hiff _).mpr ⟨htimely, hpayable, rfl⟩⟩
  · rintro ⟨h', hx⟩
    obtain ⟨-, -, rfl⟩ := (hiff h').mp hx
    rw [next_of_ok hx]
    rfl

theorem mark_call (hcfg : w.contents.config = some cfg) (hlook : w.trade id = some t)
    (he : Early cfg t) (hatt : cfg.fiatAttestor ∈ env.signers) :
    (receipt w (.call env (.markFiatPaid id cfg.fiatAttestor)) ≠ none ↔
      Timely t.toTerms env.timestamp) ∧
    (receipt w (.call env (.markFiatPaid id cfg.fiatAttestor)) ≠ none →
      next w (.call env (.markFiatPaid id cfg.fiatAttestor)) = marked w id t env.timestamp) := by
  have hiff (h' : EscrowHost) :
      markFiatPaid env (enter w.contents w.balances) id cfg.fiatAttestor = .ok h' ↔ _ :=
    markFiatPaid_by_attestor hcfg hlook he hatt
  rw [receipt_ne_none]
  refine ⟨⟨?_, ?_⟩, ?_⟩
  · rintro ⟨h', hx⟩
    exact ((hiff h').mp hx).1
  · intro htimely
    exact ⟨_, (hiff _).mpr ⟨htimely, rfl⟩⟩
  · rintro ⟨h', hx⟩
    obtain ⟨-, rfl⟩ := (hiff h').mp hx
    rw [next_of_ok hx]
    rfl

/-- Confirming a trade that was just marked leaves no trace of the mark. -/
theorem confirm_call (id : TradeId) (now : ℕ) (hcfg : w.contents.config = some cfg)
    (hconf : t.confirmer ∈ env.signers) :
    (receipt (marked w id t now) (.call env (.confirmAndRelease id)) ≠ none ↔
      Payable env t.toTerms) ∧
    (receipt (marked w id t now) (.call env (.confirmAndRelease id)) ≠ none →
      next (marked w id t now) (.call env (.confirmAndRelease id)) = released w id t env) := by
  have hiff (h' : EscrowHost) :
      confirmAndRelease env (enter (marked w id t now).contents w.balances) id = .ok h' ↔ _ :=
    confirmAndRelease_iff hcfg (AList.lookup_insert _) rfl hconf
  rw [receipt_ne_none]
  refine ⟨⟨?_, ?_⟩, ?_⟩
  · rintro ⟨h', hx⟩
    exact ((hiff h').mp hx).1
  · intro hpayable
    exact ⟨_, (hiff _).mpr ⟨hpayable, rfl⟩⟩
  · rintro ⟨h', hx⟩
    obtain ⟨-, rfl⟩ := (hiff h').mp hx
    rw [next_of_ok hx]
    simp only [released, marked, Host.publish, Host.paid, setTrade, enter, AList.insert_insert]
    rfl

/-- The early release of a trade succeeds at the same times as the attestor's mark
followed by the confirmation, and leaves the same world; other trades it does
not touch. -/
theorem early_release_eq_two_steps (hcfg : w.contents.config = some cfg)
    (hlook : w.trade id = some t) :
    (Early cfg t → ∀ early mark confirm, SameInstant cfg t early mark confirm →
      (receipt w (.call early (.releaseFromFunded id)) ≠ none ↔
        receipt w (.call mark (.markFiatPaid id cfg.fiatAttestor)) ≠ none ∧
        receipt (next w (.call mark (.markFiatPaid id cfg.fiatAttestor)))
          (.call confirm (.confirmAndRelease id)) ≠ none) ∧
      (receipt w (.call early (.releaseFromFunded id)) ≠ none →
        next w (.call early (.releaseFromFunded id)) =
          next (next w (.call mark (.markFiatPaid id cfg.fiatAttestor)))
            (.call confirm (.confirmAndRelease id)))) ∧
    (t.flow ≠ .topUp ∨ t.usdcProvider ∉ cfg.earlyReleaseProviders → ∀ env,
      receipt w (.call env (.releaseFromFunded id)) = none ∧
        next w (.call env (.releaseFromFunded id)) = { w with now := env.timestamp }) := by
  refine ⟨fun he early mark confirm hs => ?_, fun hnot env => ?_⟩
  · obtain ⟨hearly, hearlyNext⟩ := early_call hcfg hlook he hs.earlySigned.1 hs.earlySigned.2
    obtain ⟨hmark, hmarkNext⟩ := mark_call hcfg hlook he hs.markSigned
    obtain ⟨hconfirm, hconfirmNext⟩ :=
      confirm_call id mark.timestamp hcfg hs.confirmSigned
    rw [hs.payable] at hconfirm
    rw [hs.markTime] at hmark
    have hiff : receipt w (.call early (.releaseFromFunded id)) ≠ none ↔
        receipt w (.call mark (.markFiatPaid id cfg.fiatAttestor)) ≠ none ∧
        receipt (next w (.call mark (.markFiatPaid id cfg.fiatAttestor)))
          (.call confirm (.confirmAndRelease id)) ≠ none := by
      rw [hearly]
      constructor
      · rintro ⟨htimely, hpayable⟩
        refine ⟨hmark.mpr htimely, ?_⟩
        rw [hmarkNext (hmark.mpr htimely)]
        exact hconfirm.mpr hpayable
      · rintro ⟨hmarked, hconfirmed⟩
        rw [hmarkNext hmarked] at hconfirmed
        exact ⟨hmark.mp hmarked, hconfirm.mp hconfirmed⟩
    refine ⟨hiff, fun hok => ?_⟩
    obtain ⟨hmarked, hconfirmed⟩ := hiff.mp hok
    rw [hmarkNext hmarked] at hconfirmed ⊢
    rw [hearlyNext hok, hconfirmNext hconfirmed, released, released, hs.confirmTime, hs.contract]
  · obtain ⟨hnext, hnone⟩ | ⟨c, ts, evs, heff, -⟩ := Effects.call_cases w env (.releaseFromFunded id)
    · exact ⟨hnone, hnext⟩
    · generalize hop : Op.releaseFromFunded id = op at heff
      cases heff with
      | opened | configured | pauseSet => cases hop
      | moved hcfg' hlook' hm =>
        obtain rfl := Option.some.inj (hcfg'.symm.trans hcfg)
        cases hm with
        | releaseEarly _ _ hflow hlist =>
          obtain rfl := Op.releaseFromFunded.inj hop
          obtain rfl := Option.some.inj (hlook'.symm.trans hlook)
          exact (hnot.elim (fun hne => hne hflow) fun hne => hne hlist).elim
        | _ => cases hop

def listedConfig : Config := { sampleConfig with earlyReleaseProviders := [⟨6⟩] }

def listedActions : List Action := openedActions ++ [.call (sampleEnv 1100 [⟨1⟩]) (.setConfig listedConfig)]

def listedWorld : World := Runs.final (machine ⟨0⟩) sampleWorld listedActions

theorem sample_early_release :
    receipt listedWorld (.call (sampleEnv 1500 [⟨5⟩, ⟨6⟩]) (.releaseFromFunded 1)) ≠ none ∧
    next listedWorld (.call (sampleEnv 1500 [⟨5⟩, ⟨6⟩]) (.releaseFromFunded 1)) =
      next (next listedWorld (.call (sampleEnv 1500 [⟨5⟩]) (.markFiatPaid 1 ⟨5⟩)))
        (.call (sampleEnv 1500 [⟨6⟩]) (.confirmAndRelease 1)) := by
  have hcfg : listedWorld.contents.config = some listedConfig := by decide
  have hlook : listedWorld.trade 1 = some openedTrade := by decide
  have hinstant : SameInstant listedConfig openedTrade (sampleEnv 1500 [⟨5⟩, ⟨6⟩])
      (sampleEnv 1500 [⟨5⟩]) (sampleEnv 1500 [⟨6⟩]) :=
    ⟨rfl, rfl, rfl, rfl, by decide, by decide, by decide⟩
  obtain ⟨hiff, hsame⟩ := (early_release_eq_two_steps hcfg hlook).1
    ⟨rfl, rfl, rfl, by decide⟩ _ _ _ hinstant
  have hok : receipt listedWorld (.call (sampleEnv 1500 [⟨5⟩, ⟨6⟩]) (.releaseFromFunded 1)) ≠ none := by
    decide
  exact ⟨hok, hsame hok⟩

end Lolipay.Escrow.EarlyRelease
