import Lolipay.Escrow.Custody
import Lolipay.Coordinator.Steps

namespace Lolipay.Coordinator.Guards

open Lolipay.Ledger.Storage Lolipay.Ledger.Invocation Lolipay.Ledger.Runs
open Lolipay.Async.Process Lolipay.Async.Scheduling
open Lolipay.Escrow.Types Lolipay.Escrow.System Lolipay.Escrow.Custody
open Lolipay.Coordinator.Orders Lolipay.Coordinator.Writes Lolipay.Coordinator.Database
open Lolipay.Coordinator.Indexer Lolipay.Coordinator.Creation Lolipay.Coordinator.Desk
open Lolipay.Coordinator.Steps

variable {y : Settings} {allowed : Call → Prop} {s : Shared} {pid : Pid} {e : Effect}
  {id : OrderId} {row row' : Order} {w : Office} {tr : DeskHistory}

/-- A settled or disputed order goes back to being open, or a paid one to unpaid. -/
def Backwards (before after : OrderStatus) : Prop :=
  ((before = .released ∨ before = .refunded ∨ before = .disputed) ∧
    (after = .funded ∨ after = .fiatPaid)) ∨ (before = .fiatPaid ∧ after = .funded)

instance (before after : OrderStatus) : Decidable (Backwards before after) :=
  inferInstanceAs (Decidable (_ ∨ _))

/-- The state of the row that a writer decided from. It is in the `where`
clause of every update but one. -/
def decidedFrom : RowWrite → Order → Bool
  | .promote a, row => row.status = a.seen
  | w, row => w.matchesRow row

def Lost (s : Shared) (row : Order) : Effect → Prop
  | .write _ w => decidedFrom w row = false
  | .verdict event _ v => s.db.indexedEvents.lookup event ≠ none ∨ v.matchesRow row = false
  | .accrueProviderLoss _ | .recordDisputeLost _ _ => row.disputeLossAccrued = true
  | .setLpStatus _ _ _ _ _ => preChainStatuses.contains row.status = false
  | _ => False

/-- A promotion by `cancelOrder` finds the row in the status that the call has read. -/
def PromotesFresh (s : Shared) : Option (Pid × Effect) → Prop
  | some (_, .write id (.promote a)) =>
    ∀ row, s.db.orders.lookup id = some row → row.status = a.seen
  | _ => True

theorem ahead_not_backwards {st : Status} {seen : OrderStatus}
    (h : isAhead (statusMap st) seen = true) : ¬Backwards seen (statusMap st) := by
  revert h
  cases st <;> cases seen <;> decide

theorem before_not_backwards {target : Status} {status : OrderStatus}
    (h : (statusBefore target).contains status = true) : ¬Backwards status (statusMap target) := by
  revert h
  cases target <;> cases status <;> decide

theorem settled_not_backwards (status : OrderStatus) (outcome : ResolveOutcome) :
    ¬Backwards status (statusMap (settledAs outcome)) := by
  cases outcome <;> cases status <;> decide

theorem same_not_backwards (status : OrderStatus) : ¬Backwards status status := by
  cases status <;> decide

theorem settlementFieldsFrom_status (onChain : TradeOnChain) (now : ℕ) (row : Order) :
    (settlementFieldsFrom onChain now row).status = row.status := by
  rw [settlementFieldsFrom]
  split <;> rfl

def landsOn : RowWrite → OrderStatus → OrderStatus
  | .refresh a _, _ | .promote a, _ => statusMap a.onChain.status
  | .cancel, _ => .cancelled
  | .expire, _ => .expired
  | .autoRefund _ _, _ => .refunded
  | .attest, _ => .fiatPaid
  | .land target _ _, _ => statusMap target
  | .dispute _, _ | .reopen _, _ => .disputed
  | .backfillSettlementHash _ _, status | .reconcileDisputeMetadata _ _, status => status

theorem write_status (now : ℕ) (u : RowWrite) (row : Order) :
    (u.data now row).status = landsOn u row.status := by
  cases u with
  | refresh a stamps =>
    simp only [RowWrite.data]
    split <;> exact settlementFieldsFrom_status _ _ _
  | promote a => exact settlementFieldsFrom_status _ _ _
  | autoRefund hash settlement =>
    cases settlement with
    | none => rfl
    | some settlement => exact settlementFieldsFrom_status _ _ _
  | land target onChain hash =>
    simp only [RowWrite.data]
    split <;> rfl
  | cancel | expire | attest | backfillSettlementHash | dispute | reopen
  | reconcileDisputeMetadata => rfl

theorem closeDisputeRound_status (now : ℕ) (row : Order) :
    (closeDisputeRound now row).status = row.status := by
  rw [closeDisputeRound]
  split <;> rfl

theorem verdict_status (now : ℕ) (v : Verdict) (row : Order) :
    (v.data now row).status = statusMap v.target := by
  cases v with
  | preSettle => rfl
  | postSettle outcome settled =>
    simp only [Verdict.data]
    split <;> rfl

theorem target_settled (v : Verdict) : ∃ outcome, v.target = settledAs outcome := by
  cases v with
  | preSettle outcome onChain hash => exact ⟨outcome, rfl⟩
  | postSettle outcome settled => exact ⟨settled.outcome, settled.settled⟩

/-- An update that finds what it was decided from never takes a row back. -/
theorem write_not_backwards {u : RowWrite} (h : decidedFrom u row = true)
    (hm : u.matchesRow row = true) : ¬Backwards row.status (landsOn u row.status) := by
  cases u with
  | refresh a stamps =>
    have hseen : row.status = a.seen := by simpa [RowWrite.matchesRow] using hm
    rw [hseen]
    exact ahead_not_backwards a.ahead
  | promote a =>
    have hseen : row.status = a.seen := by simpa [decidedFrom] using h
    rw [hseen]
    exact ahead_not_backwards a.ahead
  | land target onChain hash => exact before_not_backwards hm
  | dispute stamp =>
    have hbefore : (statusBefore .disputed).contains row.status = true := hm
    exact before_not_backwards hbefore
  | attest =>
    have hfunded : row.status = .funded := by simpa [RowWrite.matchesRow] using hm
    rw [hfunded]
    decide
  | cancel | expire | autoRefund | reopen =>
    simp [Backwards, landsOn]
  | backfillSettlementHash | reconcileDisputeMetadata => exact same_not_backwards _

theorem step_not_backwards (h : RowStep s pid e id (some row) (some row'))
    (hrow : s.db.orders.lookup id = some row) (hf : PromotesFresh s (some (pid, e))) :
    ¬Backwards row.status row'.status := by
  cases h with
  | same => exact same_not_backwards _
  | @wrote u row he hm =>
    subst he
    rw [write_status]
    refine write_not_backwards ?_ hm
    cases u with
    | promote a => simpa [decidedFrom] using hf row hrow
    | _ => exact hm
  | judged he hnew hm =>
    rw [closeDisputeRound_status, verdict_status]
    obtain ⟨outcome, ht⟩ := target_settled _
    rw [ht]
    exact settled_not_backwards _ _
  | accrued he hf => exact same_not_backwards _
  | stoodDown he hp => simp [Backwards, Order.setStatus]

theorem step_lost (h : RowStep s pid e id (some row) (some row'))
    (hrow : s.db.orders.lookup id = some row) (hf : PromotesFresh s (some (pid, e)))
    (hl : Lost s row e) : row' = row := by
  cases h with
  | same => rfl
  | @wrote u row he hm =>
    subst he
    cases u with
    | promote a =>
      have hseen := hf row hrow
      simp [Lost, decidedFrom, hseen] at hl
    | _ => exact absurd (hl.symm.trans hm) Bool.false_ne_true
  | judged he hnew hm =>
    subst he
    obtain hl | hl := hl
    · exact absurd hnew hl
    · exact absurd (hl.symm.trans hm) Bool.false_ne_true
  | accrued he hacc =>
    obtain rfl | ⟨a, rfl⟩ := he <;> exact absurd (hacc.symm.trans hl) Bool.false_ne_true
  | stoodDown he hp =>
    subst he
    exact absurd (hl.symm.trans hp) Bool.false_ne_true

/-- In every run in which no promotion by `cancelOrder` meets a row that has
moved, no update takes an order back, and whoever lost a race changes nothing. -/
theorem guarded_writes_keep_progress (hs : Opening s)
    (hr : Run (machine (desk y allowed)) (idle s) tr w)
    (hfresh : ∀ e ∈ tr, PromotesFresh e.pre.shared e.out) (e : DeskEntry) (he : e ∈ tr)
    (id : OrderId) (row row' : Order) (hrow : e.pre.shared.db.orders.lookup id = some row)
    (hrow' : e.post.shared.db.orders.lookup id = some row') :
    ¬Backwards row.status row'.status ∧
      ∀ pid effect, e.out = some (pid, effect) → Lost e.pre.shared row effect → row' = row := by
  have hf := hfresh e he
  obtain ⟨tr₁, tr₂, -, hpre, ha, hentry, -⟩ := hr.of_mem he
  have hstep := step_of_next ha
  have hclean := run_clean hs hpre
  rw [entry_post hentry] at hrow'
  rw [entry_out hentry] at hf ⊢
  obtain hsame | ⟨pid, eff, hout, hstep⟩ := row_of_step hclean hstep id
  · obtain rfl := Option.some.inj (hrow'.symm.trans (hsame.trans hrow))
    exact ⟨same_not_backwards _, fun _ _ _ _ => rfl⟩
  · rw [hout] at hf ⊢
    rw [hrow, hrow'] at hstep
    refine ⟨step_not_backwards hstep hrow hf, ?_⟩
    rintro pid' eff' hsame hl
    obtain ⟨rfl, rfl⟩ := Prod.mk.inj (Option.some.inj hsame)
    exact step_lost hstep hrow hf hl

def office : Machine Office DeskAct (Option (Pid × Effect)) :=
  machine (desk sampleSettings fun _ => True)

theorem sampleDesk_opening (orders : Store OrderId Order) : Opening (sampleDesk orders) :=
  ⟨fun _ => rfl, fun _ => rfl⟩

def promoteActions : List DeskAct :=
  [fundSample, .spawn 0 (.cancelOrder 0 ⟨7⟩), .go 0 {}, .go 0 {},
    .go 0 { onChain := some (decodeTradeStatus sampleFunded) }, .go 0 {}]

theorem promoteActions_admitted :
    Admitted office (idle (sampleDesk sampleOrders)) promoteActions := by
  exact ⟨⟨rfl, by decide⟩, ⟨rfl, trivial⟩, trivial, trivial, .inr ⟨_, .head _, rfl⟩, trivial,
    trivial⟩

theorem promoteActions_fresh :
    ∀ e ∈ history office (idle (sampleDesk sampleOrders)) promoteActions,
      PromotesFresh e.pre.shared e.out := by
  simp only [promoteActions, history, List.forall_mem_cons, List.not_mem_nil, false_implies,
    implies_true, and_true]
  refine ⟨trivial, trivial, trivial, trivial, trivial, fun row hrow => ?_⟩
  obtain rfl := Option.some.inj hrow
  rfl

theorem sample_guarded_writes :
    Opening (sampleDesk sampleOrders) ∧
    (∀ e ∈ history office (idle (sampleDesk sampleOrders)) promoteActions,
      PromotesFresh e.pre.shared e.out) ∧
    ((final office (idle (sampleDesk sampleOrders)) promoteActions).shared.db.orders.lookup 0).map
      (·.status) = some .funded ∧
    ∀ e ∈ history office (idle (sampleDesk sampleOrders)) promoteActions, ∀ id row row',
      e.pre.shared.db.orders.lookup id = some row → e.post.shared.db.orders.lookup id = some row' →
        ¬Backwards row.status row'.status :=
  ⟨sampleDesk_opening _, promoteActions_fresh, by decide, fun e he id row row' h h' =>
    (guarded_writes_keep_progress (sampleDesk_opening _)
      (Run.of_actions _ _ promoteActions_admitted) promoteActions_fresh e he id row row' h h').1⟩

def paidEvent : RpcEvent := ⟨some 2, .fiatPaid, 1, some ⟨0⟩, none⟩

/-- `cancelOrder` reads the row and the funded trade; the payment is marked and
the indexer records it; then `cancelOrder` writes what it has read. -/
def raceActions : List DeskAct :=
  [fundSample, .spawn 0 (.cancelOrder 0 ⟨7⟩), .go 0 {}, .go 0 {},
    .go 0 { onChain := some (decodeTradeStatus sampleFunded) }, paySample,
    .spawn 1 (.applyEvent paidEvent), .go 1 {},
    .go 1 { onChain := some (decodeTradeStatus samplePaid) }, .go 1 {}, .go 0 {}]

theorem raceActions_admitted : Admitted office (idle (sampleDesk sampleOrders)) raceActions := by
  refine ⟨⟨rfl, by decide⟩, ⟨rfl, trivial⟩, trivial, trivial, .inr ⟨_, .head _, rfl⟩,
    ⟨rfl, by decide⟩, ⟨rfl, trivial⟩, trivial, .inr ⟨_, .head _, rfl⟩, trivial, trivial, trivial⟩

/-- A cancellation takes a paid order back to funded: it overwrites what the
indexer has recorded since it read the row. -/
theorem cancel_overwrites_payment :
    Opening (sampleDesk sampleOrders) ∧
    Run office (idle (sampleDesk sampleOrders))
      (history office (idle (sampleDesk sampleOrders)) raceActions)
      (final office (idle (sampleDesk sampleOrders)) raceActions) ∧
    ∃ e ∈ history office (idle (sampleDesk sampleOrders)) raceActions,
      (e.pre.shared.db.orders.lookup 0).map (·.status) = some .fiatPaid ∧
      (e.post.shared.db.orders.lookup 0).map (·.status) = some .funded ∧
      Backwards .fiatPaid .funded :=
  ⟨sampleDesk_opening _, Run.of_actions _ _ raceActions_admitted,
    _, List.getLast_mem (by simp [history, raceActions]), by decide, by decide, by decide⟩

end Lolipay.Coordinator.Guards
