import Lolipay.Coordinator.Steps

namespace Lolipay.Coordinator.Footprint

open Lolipay.Ledger.Storage Lolipay.Ledger.Invocation
open Lolipay.Async.Process Lolipay.Async.Scheduling
open Lolipay.Escrow.Types
open Lolipay.Coordinator.Orders Lolipay.Coordinator.Writes Lolipay.Coordinator.Database
open Lolipay.Coordinator.Services Lolipay.Coordinator.Indexer Lolipay.Coordinator.Creation
open Lolipay.Coordinator.Desk Lolipay.Coordinator.Steps

variable {α β : Type} {P : Effect → Prop} {e : Effect} {id : OrderId} {order : Order}

theorem every_ask {q : Query} {k : q.Reply → Service α} (hq : P (.ask q))
    (hk : ∀ r, Every P (k r)) : Every P (ask q >>= k) :=
  ⟨hq, hk⟩

theorem every_update {w : RowWrite} {k : ℕ → Service α} (hw : P (.write id w))
    (hk : ∀ n, Every P (k n)) : Every P (update id w >>= k) := by
  refine Every.bind ⟨hw, fun r => ?_⟩ hk
  cases (r : Option ℕ) <;> trivial

theorem every_forEach {f : β → Service Unit} (xs : List β) (hf : ∀ x, Every P (f x)) :
    Every P (forEach xs f) := by
  induction xs with
  | nil => trivial
  | cons x xs ih => exact (hf x).bind fun _ => ih

section

variable (home : Address) (hask : ∀ q, P (.ask q))
include hask

theorem refreshOrderStatus_every (hw : ∀ a stamps, P (.write id (.refresh a stamps))) :
    Every P (refreshOrderStatus home id order) := by
  rw [refreshOrderStatus]
  split
  next =>
    refine every_ask (hask _) fun onChain => ?_
    split
    next => trivial
    next =>
      split
      next =>
        split
        next => exact every_update (hw _ _) fun _ => every_ask (hask _) fun _ => trivial
        next => trivial
      next => trivial
  next => trivial

theorem getOrder_every (hw : ∀ a stamps, P (.write id (.refresh a stamps))) :
    Every P (getOrder home id) := by
  refine every_ask (hask _) fun order => ?_
  split
  next => trivial
  next => exact (refreshOrderStatus_every home hask hw).bind fun _ => trivial

theorem cancelOrder_every (hp : ∀ a, P (.write id (.promote a))) (hc : P (.write id .cancel))
    (caller : Address) : Every P (cancelOrder home id caller) := by
  refine every_ask (hask _) fun order => ?_
  split
  next => trivial
  next order _ =>
    refine Every.bind ?_ fun lp => ?_
    · rw [providerOf]
      split
      next => trivial
      next => exact ⟨hask _, fun _ => trivial⟩
    · split
      next => trivial
      next =>
        refine Every.bind ?_ fun status => ?_
        · rw [statusForCancel]
          split
          next =>
            refine every_ask (hask _) fun onChain => ?_
            split
            next => trivial
            next => trivial
            next =>
              split
              next =>
                split
                next =>
                  refine every_update (hp _) fun count => ?_
                  split <;> trivial
                next => trivial
              next => trivial
          next => trivial
        · split
          next =>
            refine every_update hc fun count => ?_
            split <;> trivial
          next => trivial

theorem expireStaleOrders_every (hw : ∀ id, P (.write id .expire)) :
    Every P (expireStaleOrders home) := by
  refine every_ask (hask _) fun ledgerSeenAt => ?_
  split
  next => trivial
  next =>
    refine every_ask (hask _) fun now => every_ask (hask _) fun candidates => ?_
    refine every_forEach _ fun c => every_ask (hask _) fun onChain => ?_
    split
    next => trivial
    next => exact every_issue (hw _) fun _ => trivial
    next =>
      split
      next => trivial
      next => exact every_issue (hw _) fun _ => trivial

theorem autoRefundExpired_every (hw : ∀ id hash after, P (.write id (.autoRefund hash after))) :
    Every P (autoRefundExpired home) := by
  refine every_ask (hask _) fun config => ?_
  split
  next =>
    refine every_ask (hask _) fun now => every_ask (hask _) fun candidates => ?_
    refine every_forEach _ fun c => every_ask (hask _) fun onChain => ?_
    split
    next =>
      split
      next =>
        refine every_ask (hask _) fun result => ?_
        split
        next => trivial
        next => exact every_ask (hask _) fun _ => every_issue (hw _ _ _) fun _ => trivial
      next => trivial
    next => trivial
  next => trivial

theorem attestFiatPaid_every (hw : P (.write id .attest)) : Every P (attestFiatPaid home id) := by
  refine every_ask (hask _) fun order => ?_
  split
  next => trivial
  next =>
    split
    next => trivial
    next =>
      split
      next => trivial
      next =>
        refine every_ask (hask _) fun result => ?_
        split
        next => trivial
        next => exact every_update hw fun _ => trivial

theorem setStatus_every {lp : LpId} {status : LpStatus} {note : Option String}
    (hw : ∀ seen reachable, P (.setLpStatus lp seen status note reachable)) :
    Every P (setStatus lp status note) := by
  refine every_ask (hask _) fun seen => ?_
  split
  next => trivial
  next =>
    split
    next => trivial
    next =>
      refine Every.bind ?_ fun reachable => every_issue (hw _ _) fun done => ?_
      · rw [reachableOrders]
        split
        next => exact ⟨hask _, fun _ => trivial⟩
        next => trivial
      · exact every_demand done

end

def target : Effect → Option OrderId
  | .write id _ | .verdict _ id _ | .accrueProviderLoss id | .recordDisputeLost _ id => some id
  | _ => none

theorem hashAfterLostRace_every (hask : ∀ q, P (.ask q))
    (hback : ∀ outcome hash, P (.write id (.backfillSettlementHash outcome hash))) (status : Status)
    (hash : Option TxHash) : Every P (hashAfterLostRace id status hash) := by
  unfold hashAfterLostRace
  split
  next =>
    refine every_ask (hask _) fun fresh => ?_
    split
    next => trivial
    next =>
      split
      next => exact every_update (hback _ _) fun _ => trivial
      next => trivial
  next => trivial

theorem applyStatusEvent_every (hask : ∀ q, P (.ask q))
    (hland : ∀ target onChain hash, P (.write id (.land target onChain hash)))
    (hback : ∀ outcome hash, P (.write id (.backfillSettlementHash outcome hash))) (c : Address)
    (hash : Option TxHash) (status : Status) :
    Every P (applyStatusEvent c hash id order status) := by
  have hadvance : Every P (applyStatusEvent.advance c hash id order status) := by
    rw [applyStatusEvent.advance]
    split
    next =>
      refine Every.bind ?_ fun onChain => every_update (hland _ _ _) fun count => ?_
      · rw [settlementRead]
        split
        next => exact ⟨hask _, fun _ => trivial⟩
        next => trivial
      · split
        next => exact hashAfterLostRace_every hask hback _ _
        next => trivial
    next => trivial
  unfold applyStatusEvent
  split
  next =>
    split
    next => exact every_update (hback _ _) fun _ => trivial
    next => exact hadvance
  next => exact hadvance

theorem enterDispute_every {w : RowWrite} (hask : ∀ q, P (.ask q)) (hw : P (.write id w))
    (hrec : ∀ raiser role, P (.write id (.reconcileDisputeMetadata raiser role)))
    (raiser : Option Address) : Every P (enterDispute id w raiser) := by
  refine every_update hw fun count => ?_
  split
  next => trivial
  next =>
    refine Every.bind ?_ fun _ => trivial
    unfold reconcileDisputeMetadata
    split
    next => trivial
    next =>
      refine every_ask (hask _) fun fresh => ?_
      split
      next => trivial
      next => exact every_update (hrec _ _) fun _ => trivial

theorem accrueDisputeLoss_every (hlp : P (.accrueProviderLoss id))
    (huser : P (.recordDisputeLost order.userAddress id)) (outcome : ResolveOutcome) :
    Every P (accrueDisputeLossIfApplicable id order outcome) := by
  rw [accrueDisputeLossIfApplicable]
  split
  next => exact ⟨hlp, fun _ => trivial⟩
  next =>
    split
    next => exact ⟨huser, fun _ => trivial⟩
    next => trivial

theorem applyVerdict_every {event : EventId} {v : Verdict} (hv : P (.verdict event id v))
    (hlp : P (.accrueProviderLoss id)) (huser : P (.recordDisputeLost order.userAddress id)) :
    Every P (applyVerdict event id order v) := by
  refine every_issue hv fun res => ?_
  split
  next => trivial
  next =>
    split
    next => trivial
    next => exact (accrueDisputeLoss_every hlp huser _).bind fun _ => trivial

section

variable (hask : ∀ q, P (.ask q)) (hclaim : ∀ event, P (.claimEvent event))
  (hid : ∀ e, target e = some id → e ≠ .write id .expire →
    (∀ a, e = .recordDisputeLost a id → a = order.userAddress) → P e)
include hask hid

theorem applyDisputedEvent_every (c : Address) (raiser : Option Address) :
    Every P (applyDisputedEvent c raiser id order) := by
  have hrec (raiser : Address) (role : Disputer) :
      P (.write id (.reconcileDisputeMetadata raiser role)) := hid _ rfl (by simp) (by simp)
  rw [applyDisputedEvent]
  split
  next =>
    refine every_ask (hask _) fun onChain => ?_
    split
    next => trivial
    next =>
      split
      next => exact enterDispute_every hask (hid _ rfl (by simp) (by simp)) hrec _
      next => trivial
  next => exact enterDispute_every hask (hid _ rfl (by simp) (by simp)) hrec _

include hclaim

theorem applyResolvedEvent_every (c : Address) (ev : RpcEvent) (released : Option Bool)
    (postSettle : Bool) : Every P (applyResolvedEvent c ev released postSettle id order) := by
  have hverdict (event : EventId) (v : Verdict) : Every P (applyVerdict event id order v) :=
    applyVerdict_every (hid _ rfl (by simp) (by simp)) (hid _ rfl (by simp) (by simp))
      (hid _ rfl (by simp) (by simp))
  unfold applyResolvedEvent
  split
  next => trivial
  next => trivial
  next =>
    split
    next =>
      refine every_ask (hask _) fun settled => ?_
      split
      next => trivial
      next => trivial
      next =>
        split
        next =>
          refine Every.bind ⟨hclaim _, fun r => ?_⟩ fun _ => trivial
          cases (r : Option Bool) <;> trivial
        next => exact hverdict _ _
    next => exact every_ask (hask _) fun _ => hverdict _ _

/-- Behind its checks, the indexer touches the one order that the event names,
never expires it, and books a loss of its user under that user's address. -/
theorem handleEvent_every (c : Address) (ev : RpcEvent) :
    Every P (handleEvent c ev id order) := by
  unfold handleEvent
  split
  next => exact applyResolvedEvent_every hask hclaim hid _ _ _ _
  next => exact applyDisputedEvent_every hask hid _ _
  next =>
    split
    next => trivial
    next =>
      exact applyStatusEvent_every hask (fun _ _ _ => hid _ rfl (by simp) (by simp))
        (fun _ _ => hid _ rfl (by simp) (by simp)) _ _ _

end

theorem applyEvent_every (home : Address) (hask : ∀ q, P (.ask q))
    (hclaim : ∀ event, P (.claimEvent event))
    (hid : ∀ e id, target e = some id → e ≠ .write id .expire → P e)
    (ev : RpcEvent) : Every P (applyEvent home ev) := by
  rw [applyEvent]
  split
  next => trivial
  next =>
    refine every_ask (hask _) fun found => ?_
    split
    next id order c _ =>
      have hhandle : Every P (handleEvent c ev id order) :=
        handleEvent_every hask hclaim (fun e he hne _ => hid e id he hne) c ev
      split
      next =>
        split
        next =>
          refine Every.bind (every_ask (hask _) fun trade => ?_) fun bound => ?_
          · split <;> trivial
          · split
            next => exact hhandle
            next => trivial
        next => exact hhandle
      next => trivial
    next => trivial

/-- The rows that a creation inserts are those of `orderData`. -/
def FromQuote (y : Settings) (data : Placement) : Prop :=
  ∃ quote config user personId tradeId lp now,
    data = orderData y quote config user personId tradeId lp now

section

variable (y : Settings) (hask : ∀ q, P (.ask q))
  (htx : ∀ e, isTx e = true →
    (∀ data needsRef, e = .createOrderRow data needsRef → FromQuote y data) → P e)
include hask htx

omit hask in
theorem rollback_every : Every P (failAfter .rollback : Service Unit) :=
  every_failAfter (htx _ rfl fun _ _ h => by cases h)

theorem createLocked_every (r : Request) (hr : FromQuote y r.data) {retry : Service Unit}
    (h : Every P retry) : Every P (createLocked r retry) := by
  have hfail : Every P (failAfter .rollback : Service Unit) := rollback_every y htx
  refine every_ask (hask _) fun now => every_ask (hask _) fun committed => ?_
  split
  next => exact hfail
  next =>
    refine every_ask (hask _) fun used => ?_
    split
    next => exact hfail
    next =>
      refine every_ask (hask _) fun verified => ?_
      split
      next =>
        refine every_issue (htx _ rfl fun _ _ h => by cases h) fun consumed => ?_
        split
        next => exact hfail
        next => exact hfail
        next =>
          have hrow : P (.createOrderRow r.data r.needsRef) := by
            refine htx _ rfl fun data needsRef h => ?_
            cases h
            exact hr
          refine every_issue hrow fun inserted => ?_
          split
          next => exact hfail
          next => exact every_issue (htx _ rfl fun _ _ h => by cases h) fun _ => h
          next =>
            exact every_issue (htx _ rfl fun _ _ h => by cases h) fun done => every_demand done
      next => exact hfail

theorem createAttempts_every (r : Request) (hr : FromQuote y r.data) (n : ℕ) :
    Every P (createAttempts y r n) := by
  induction n with
  | zero => trivial
  | succ n ih =>
    refine every_issue (htx _ rfl fun _ _ h => by cases h) fun _ => ?_
    refine every_issue (htx _ rfl fun _ _ h => by cases h) fun _ => ?_
    refine every_issue (htx _ rfl fun _ _ h => by cases h) fun _ => ?_
    exact createLocked_every y hask htx r hr ih

omit htx in
theorem tryLps_every (amount : ℤ) (person : PersonId) (nowSec : ℤ) (lps : List Candidate) :
    Every P (tryLps amount person nowSec lps) := by
  induction lps with
  | nil => trivial
  | cons lp others ih =>
    refine every_ask (hask _) fun stake => ?_
    split
    next => exact ih
    next =>
      split
      next =>
        refine every_ask (hask _) fun committed => ?_
        split
        next => exact ih
        next =>
          refine every_ask (hask _) fun owner => ?_
          split <;> trivial
      next => exact ih

omit htx in
theorem trustlinesReady_every (as : List Address) : Every P (trustlinesReady as) := by
  induction as with
  | nil => trivial
  | cons a as ih =>
    refine every_ask (hask _) fun has => ?_
    split
    next => trivial
    next => exact ih.bind fun _ => trivial

theorem placeOrder_every (user : Address) (quoteId : QuoteId) (quote : Quote)
    (config : PlatformConfig) (personId : PersonId) (limitBase : ℤ) :
    Every P (placeOrder y user quoteId quote config personId limitBase) := by
  refine every_ask (hask _) fun now => every_ask (hask _) fun tradeId => Every.bind ?_ fun lp => ?_
  · refine every_ask (hask _) fun candidates => every_ask (hask _) fun own => ?_
    exact every_ask (hask _) fun now => tryLps_every hask _ _ _ _
  · refine (trustlinesReady_every hask _).bind fun ready => ?_
    split
    next => exact createAttempts_every y hask htx _ ⟨_, _, _, _, _, _, _, rfl⟩ _
    next => trivial

theorem createFromQuote_every (user : Address) (quoteId : QuoteId) (destination : Option String) :
    Every P (createFromQuote y user quoteId destination) := by
  refine every_ask (hask _) fun quote => ?_
  split
  next => trivial
  next =>
    refine every_ask (hask _) fun now => ?_
    split
    next => trivial
    next =>
      split
      next => trivial
      next =>
        split
        next => trivial
        next =>
          refine every_ask (hask _) fun config => ?_
          split
          next => trivial
          next =>
            refine every_ask (hask _) fun person => ?_
            split
            next => trivial
            next =>
              refine every_ask (hask _) fun tier => every_ask (hask _) fun used => ?_
              split
              next => trivial
              next =>
                refine every_ask (hask _) fun verified => every_ask (hask _) fun enabled => ?_
                split
                next => exact placeOrder_every y hask htx _ _ _ _ _ _
                next => trivial

end

end Lolipay.Coordinator.Footprint
