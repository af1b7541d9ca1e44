import Lolipay.Coordinator.Desk
import Lolipay.Joint.Slash

namespace Lolipay.Coordinator.Exposure

open Lolipay.Ledger Lolipay.Ledger.Storage Lolipay.Ledger.Invocation Lolipay.Ledger.Runs
open Lolipay.Escrow.Types (TradeId Trade Status Flow ResolveOutcome)
open Lolipay.Escrow.Contract (resolverWindow)
open Lolipay.Escrow.Invariant (settlement direction Flagged settlement_of_unflagged)
open Lolipay.Joint.System Lolipay.Joint.Slash
open Lolipay.Joint.Bond (sampleSite sampleWorld sampleWorld_deployed)
open Lolipay.Coordinator.Orders Lolipay.Coordinator.Binding
open Lolipay.Coordinator.Creation Lolipay.Coordinator.Desk

/-- An order row that shows its trade as the chain has it. Of `disputeAt` and
of the deadlines of a trade that has not settled nothing is asked, and a
deadline of zero may be missing from the row. -/
structure InSync (row : Order) (t : Trade) : Prop where
  bound : verifyTradeMatchesOrder (decodeTradeStatus t) row.toOrderBindingFields = []
  status : row.status = statusMap t.status
  settledAt : row.settledAt = (settlement t).map fun _ => t.settledAt * 1000
  postSettle : settlement t ≠ none → row.postSettleDeadline = some (t.postSettleDeadline : ℤ)
  slash : settlement t ≠ none → row.slashDeadline.getD 0 = t.slashDeadline

variable {site : Site} {ecfg : Escrow.Types.Config} {scfg : Staking.Types.Config}
  {start : ℕ} {w₀ w w' : World} {tr₀ tr : History} {env : Env} {lp caller : Address}
  {amount : ℤ} {t : Trade} {d : ResolveOutcome} {id : TradeId} {row : Order} {lpId : LpId}

/-- The side that an order's provider can be slashed on. -/
def slashedWhen : Flow → ResolveOutcome
  | .topUp => .refund
  | .withdraw => .release

theorem direction_of_holder (hsync : InSync row t) (hwallet : row.lpWallet = some lp)
    (hne : t.usdcProvider ≠ t.usdcRecipient) (h : lp = holder t.toTerms d) :
    d = slashedWhen row.flow := by
  obtain ⟨lp', hlp', -, -, -, -, hprov, hrec, -⟩ := (verify_eq_nil_iff _ _).mp hsync.bound
  obtain rfl := Option.some.inj (hwallet.symm.trans hlp')
  have hprov' := Option.some.inj hprov
  have hrec' := Option.some.inj hrec
  cases hflow : row.flow with
  | topUp =>
    rw [hflow] at hprov'
    cases d with
    | refund => rfl
    | release => exact absurd (hprov'.trans h) hne
  | withdraw =>
    rw [hflow] at hrec'
    cases d with
    | release => rfl
    | refund => exact absurd (hrec'.trans h).symm hne

/-- Once the window for disputes has passed, a trade that is settled and not
in dispute never changes again. -/
theorem run_closed (hi : Escrow.Invariant.Coherent ecfg start w.escrowSide)
    (hr : Run (machine site) w tr w') (ht : w.trade id = some t) (hd : settlement t = some d)
    (hst : t.status ≠ .disputed) (hlate : t.postSettleDeadline < w.now) :
    w'.trade id = some t := by
  have hf : Flagged t := (hi.trades id t ht).flagged
  have hinv := (run_escrow hr).invariant
    (I := fun u => u.trade id = some t ∧ t.postSettleDeadline < u.now) ⟨ht, hlate⟩ ?_
  · exact hinv.1
  rintro u a ⟨hu, hnow⟩ ha
  have htime : u.now ≤ a.time := Deployment.admits_time ha
  have hnext : (Escrow.System.next u a).now = a.time := Deployment.now_next _ _ _
  refine ⟨?_, (hnow.trans_le htime).trans_eq hnext.symm⟩
  cases Escrow.Effects.trade_step ha id with
  | same hsame => exact hsame.trans hu
  | opened hact hself hcfg ho hnew => cases hnew.symm.trans hu
  | moved hact hself hcfg hlook hm =>
    obtain rfl := Option.some.inj (hu.symm.trans hlook)
    subst hact
    obtain ⟨-, -, -, hraise, -⟩ | ⟨-, -, -, -, -, hdisp, -⟩ :=
      Escrow.Lifecycle.moves_of_settled hf hd hm
    · simp only [Deployment.Action.time] at htime
      omega
    · exact absurd hdisp hst

theorem run_now_le (hr : Run (machine site) w tr w') : w.now ≤ w'.now :=
  hr.invariant (I := fun u => w.now ≤ u.now) le_rfl fun u a hu ha => by
    obtain ⟨hadm, hnext⟩ := escrow_follows ha
    have hnow : (Escrow.System.next u.escrowSide (escrowAction site u a)).now =
        (escrowAction site u a).time := Deployment.now_next _ _ _
    rw [hnext] at hnow
    have htime : u.now ≤ (escrowAction site u a).time := Deployment.admits_time hadm
    exact hu.trans (htime.trans hnow.ge)

/-- No slash on a settled trade comes later than the row allows for. -/
theorem slash_within_exposure (hi : Coherent site ecfg scfg start w)
    (hr : Run (machine site) w tr w') (ht : w.trade row.tradeId = some t)
    (hd : settlement t = some d) (hsync : InSync row t) {t' : Trade}
    (ht' : w'.trade row.tradeId = some t') (hslash : w.now ≤ t'.slashDeadline) (settledAt : ℕ) :
    (w.now : ℤ) ≤ exposedUntil row settledAt := by
  have hset : settlement t ≠ none := by simp [hd]
  have hpost := hsync.postSettle hset
  have hsl := hsync.slash hset
  have huntil : exposedUntil row settledAt = max (row.slashDeadline.getD 0)
      (t.postSettleDeadline + if row.status = .disputed ∨ row.disputeAt ≠ none then
        slashCeilingPastPostSettleSecs else 0) := by
    unfold exposedUntil
    split
    next hnone => cases hnone.symm.trans hpost
    next => rw [hpost, Option.getD_some]
  rw [huntil, hsl]
  by_cases hopen : t.status = .disputed
  · -- A verdict is still to come, and it leaves at most the ceiling.
    have hstatus : row.status = .disputed := by
      rw [hsync.status, hopen]
      rfl
    obtain ⟨t₁, ht₁, hsame⟩ := Escrow.Lifecycle.run_sameSettlement hi.escrow (run_escrow hr) ht hd
    obtain rfl := Option.some.inj (ht'.symm.trans ht₁)
    have hi' := (Coherent.escrow hi).run (run_escrow hr)
    have hle := ((hi'.trades _ _ ht').settled d hsame.direction).slash_le
    rw [hsame.postSettle] at hle
    rw [if_pos (.inl hstatus)]
    simp only [slashCeilingPastPostSettleSecs, resolverWindowSecs, postVerdictGraceSecs,
      resolverWindow] at *
    omega
  · by_cases hwindow : w.now ≤ t.postSettleDeadline
    · have hceiling : (0 : ℤ) ≤ if row.status = .disputed ∨ row.disputeAt ≠ none then
          slashCeilingPastPostSettleSecs else 0 := by
        split <;> decide
      omega
    · have hsame := run_closed hi.escrow hr ht hd hopen (by omega)
      obtain rfl := Option.some.inj (ht'.symm.trans hsame)
      omega

theorem exposes_of_slashable (hi : Coherent site ecfg scfg start w)
    (hr : Run (machine site) w tr w') (ht : w.trade row.tradeId = some t) (hsync : InSync row t)
    (hlp : row.lpId = some lpId) (hwallet : row.lpWallet = some lp)
    (ha : admits site w' (.staking env (.slash lp row.tradeId amount caller)))
    (hout : (out site w' (.staking env (.slash lp row.tradeId amount caller))).isSome = true) :
    exposes lpId w.now row = true := by
  obtain ⟨ts, hts⟩ := Option.isSome_iff_exists.mp hout
  have hi' : Coherent site ecfg scfg start w' :=
    ⟨hi.escrow.run (run_escrow hr), hi.staking.run (run_staking hi.escrow hr), hi.linked⟩
  obtain ⟨t', d', hs⟩ := slash_inversion hi' ha hts
  have hstatus := hsync.status
  have hsettledAt := hsync.settledAt
  cases hd : settlement t with
  | none =>
    -- The trade has not settled, so its status is one that always counts.
    rw [hd, Option.map_none] at hsettledAt
    have hopen : t.status ≠ .released ∧ t.status ≠ .refunded := by
      have hf := (hi.escrow.trades _ t ht).flagged
      constructor
      all_goals
        intro hst
        rw [settlement_of_unflagged (hf.unflagged (by simp [hst])), hst] at hd
        cases hd
    cases hst : t.status with
    | released => exact absurd hst hopen.1
    | refunded => exact absurd hst hopen.2
    | funded | fiatPaid | disputed =>
      simp [exposes, hlp, hstatus, hst, statusMap, hsettledAt]
  | some d =>
    obtain ⟨t₁, ht₁, hd₁, hterms⟩ := settled_stays hi hr ht hd
    obtain rfl := Option.some.inj (hs.trade.symm.trans ht₁)
    obtain rfl := Option.some.inj (hs.direction.symm.trans hd₁)
    have hculprit := hs.culprit
    rw [hterms] at hculprit
    have hside : d' = slashedWhen row.flow :=
      direction_of_holder hsync hwallet (hi.escrow.trades _ t ht).terms.parties_ne hculprit
    have hlater : w.now ≤ t'.slashDeadline :=
      ((run_now_le hr).trans ha.2.1).trans hs.timely
    have huntil := slash_within_exposure hi hr ht hd hsync hs.trade hlater (t.settledAt * 1000)
    rw [hd, Option.map_some] at hsettledAt
    -- A status that does not count is the settlement in the other direction.
    have hdir (hst : t.status ≠ .disputed) : direction t.status = some (slashedWhen row.flow) := by
      have hf := (hi.escrow.trades _ t ht).flagged
      rw [← settlement_of_unflagged (hf.unflagged hst), hd, hside]
    cases hst : t.status with
    | disputed => simp [exposes, hlp, hstatus, hst, statusMap, hsettledAt, huntil]
    | funded | fiatPaid =>
      have hnone := hdir (by simp [hst])
      rw [hst] at hnone
      cases hnone
    | released =>
      have hflow : row.flow = .withdraw := by
        have hcounted := hdir (by simp [hst])
        rw [hst] at hcounted
        cases hflow : row.flow with
        | withdraw => rfl
        | topUp =>
          rw [hflow] at hcounted
          cases hcounted
      simp [exposes, hlp, hstatus, hst, statusMap, hsettledAt, huntil, hflow]
    | refunded =>
      have hflow : row.flow = .topUp := by
        have hcounted := hdir (by simp [hst])
        rw [hst] at hcounted
        cases hflow : row.flow with
        | topUp => rfl
        | withdraw =>
          rw [hflow] at hcounted
          cases hcounted
      simp [exposes, hlp, hstatus, hst, statusMap, hsettledAt, huntil, hflow]

/-- Exposure covers everything that can still be slashed: for every row in sync
with its trade in any reachable state of the two contracts, and every further
history in which a slash against the order's provider goes through, the
exposure of the provider counts the order's amount. -/
theorem exposure_covers_slash (hd : Deployed site ecfg scfg w₀)
    (hr₀ : Run (machine site) w₀ tr₀ w) (hr : Run (machine site) w tr w')
    (ht : w.trade row.tradeId = some t) (hsync : InSync row t) (hlp : row.lpId = some lpId)
    (hwallet : row.lpWallet = some lp)
    (ha : admits site w' (.staking env (.slash lp row.tradeId amount caller)))
    (hout : (out site w' (.staking env (.slash lp row.tradeId amount caller))).isSome = true)
    {orders : Store OrderId Order} {order : OrderId} (hrow : orders.lookup order = some row) :
    lpExposure orders lpId w.now =
      lpExposure (orders.erase order) lpId w.now + row.usdcAmount := by
  have hexposes := exposes_of_slashable (Coherent.of_run hd hr₀) hr ht hsync hlp hwallet ha hout
  rw [lpExposure, total_erase hrow, if_pos hexposes]
  rfl

def refundedActions : List Action :=
  [.staking (Staking.Solvency.sampleEnv 1000 [⟨6⟩]) (.stake ⟨6⟩ 2000000),
    .escrow (Escrow.Custody.sampleEnv 1000 [⟨6⟩]) (.createTrade 1 Escrow.Custody.sampleArgs),
    .escrow (Escrow.Custody.sampleEnv 1500 [⟨6⟩, ⟨7⟩]) (.cancel 1)]

def refundedWorld : World := final (machine sampleSite) sampleWorld refundedActions

def disputedActions : List Action :=
  [.escrow (Escrow.Custody.sampleEnv 1700 [⟨7⟩]) (.raiseDispute 1 ⟨7⟩),
    .escrow (Escrow.Custody.sampleEnv 1800 [⟨3⟩]) (.resolve 1 .release ⟨3⟩)]

def liableWorld : World := final (machine sampleSite) refundedWorld disputedActions

theorem refunded_run : Run (machine sampleSite) sampleWorld
    (history (machine sampleSite) sampleWorld refundedActions)
    refundedWorld := by
  apply Run.of_actions
  refine ⟨⟨rfl, ?_⟩, ⟨rfl, ?_⟩, ⟨rfl, ?_⟩, trivial⟩ <;> decide

theorem disputed_run : Run (machine sampleSite) refundedWorld
    (history (machine sampleSite) refundedWorld disputedActions) liableWorld := by
  apply Run.of_actions
  refine ⟨⟨rfl, ?_⟩, ⟨rfl, ?_⟩, trivial⟩ <;> decide

def refundedTrade : Trade := (refundedWorld.trade 1).get (by decide)

def refundedRow : Order :=
  { samplePlacement.opened with
    status := .refunded
    settledAt := some 1500000
    settledStatus := some .refunded
    postSettleDeadline := some 5100
    slashDeadline := some 5100 }

theorem refundedRow_inSync : InSync refundedRow refundedTrade where
  bound := by decide
  status := by decide
  settledAt := by decide
  postSettle _ := by decide
  slash _ := by decide

def lateSlash : Action :=
  .staking (Staking.Solvency.sampleEnv 2000 [⟨3⟩]) (.slash ⟨6⟩ 1 400000 ⟨3⟩)

theorem sample_exposure_covers_slash :
    (out sampleSite liableWorld lateSlash).isSome = true ∧
    lpExposure ((∅ : Store OrderId Order).insert 0 refundedRow) 0 refundedWorld.now =
      lpExposure (((∅ : Store OrderId Order).insert 0 refundedRow).erase 0) 0 refundedWorld.now +
        1000000 := by
  have hadm : admits sampleSite liableWorld lateSlash := ⟨rfl, by decide, by decide⟩
  have hout : (out sampleSite liableWorld lateSlash).isSome = true := by decide
  exact ⟨hout, exposure_covers_slash sampleWorld_deployed refunded_run disputed_run
    (Option.some_get _).symm refundedRow_inSync rfl rfl hadm hout rfl⟩

end Lolipay.Coordinator.Exposure
