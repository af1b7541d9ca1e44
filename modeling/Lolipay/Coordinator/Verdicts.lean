import Lolipay.Ledger.Latch
import Lolipay.Coordinator.Guards

namespace Lolipay.Coordinator.Verdicts

open Lolipay.Ledger.Storage Lolipay.Ledger.Invocation Lolipay.Ledger.Runs Lolipay.Ledger.Latch
open Lolipay.Async.Process Lolipay.Async.Scheduling
open Lolipay.Escrow.Types Lolipay.Escrow.Custody
open Lolipay.Coordinator.Orders Lolipay.Coordinator.Writes Lolipay.Coordinator.Database
open Lolipay.Coordinator.Indexer Lolipay.Coordinator.Creation Lolipay.Coordinator.Desk
open Lolipay.Coordinator.Steps Lolipay.Coordinator.Guards

variable {y : Settings} {allowed : Call → Prop} {s t : Shared} {pid : Pid} {e : Effect}
  {o : Choice} {id : OrderId} {row : Order} {event : EventId} {out : Option (Pid × Effect)}
  {w : Office} {tr : DeskHistory}

/-- The rows that a step writes as the verdict of an event, with the closing of the round. -/
def verdictRows (event : EventId) (e : DeskEntry) : ℤ :=
  match e.act, e.out with
  | .go _ o, some (_, .verdict ev id v) =>
    if ev = event ∧ o.fails = false then (runVerdict ev id v e.pre.shared).2.2 else 0
  | _, _ => 0

def losses (s : Shared) : ℤ :=
  total (·.disputesLost) s.db.lps + total (fun n => n) s.db.userProfiles

def lossesFor (id : OrderId) (e : DeskEntry) : ℤ :=
  match e.out with
  | some (_, .accrueProviderLoss id') | some (_, .recordDisputeLost _ id') =>
    if id' = id then losses e.post.shared - losses e.pre.shared else 0
  | _ => 0

/-- Whether the indexer has decided an event, be its record kept or pruned. -/
def decided (event : EventId) (s : Shared) : Bool :=
  (s.db.indexedEvents.lookup event).isSome || s.forgotten.contains event

theorem decided_moved (a : Move) (h : decided event s = true) :
    decided event (moved s a) = true := by
  cases a with
  | chain | tick => exact h
  | prune =>
    simp only [decided, moved, Bool.or_eq_true, lookup_erases] at h ⊢
    by_cases hp : event ∈ prunable s
    · exact .inr (by simp [hp])
    · obtain h | h := h
      · exact .inl (by simpa [hp] using h)
      · right
        simp only [List.contains_eq_mem, List.mem_append, decide_eq_true_eq] at h ⊢
        exact .inr h

theorem decided_claim (ev : EventId) (h : decided event s = true ∨ ev = event) :
    decided event (claimEvent ev s) = true := by
  simp only [decided, claimEvent, Bool.or_eq_true] at h ⊢
  by_cases hev : ev = event
  · subst hev
    exact .inl (by simp)
  · rw [AList.lookup_insert_ne (Ne.symm hev)]
    exact h.resolve_right hev

theorem decided_after (h : decided event s = true) : decided event (after pid e o s) = true := by
  obtain ⟨-, -, -, hforgotten⟩ := after_outside pid e o s
  simp only [decided, hforgotten]
  obtain hsame | ⟨ev, -, hclaim⟩ := indexedEvents_after pid e o s
  · rw [hsame]
    exact h
  · rw [hclaim]
    exact decided_claim ev (.inl h)

theorem verdict_charge (v : Verdict) (hp : event ∉ s.forgotten) :
    (runVerdict event id v s).2.2 + spent (decided event s) ≤
      spent (decided event (runVerdict event id v s).1) := by
  rw [runVerdict]
  split
  next h => simp
  next hnew =>
    have hfresh : decided event s = false := by simp [decided, hnew, hp]
    have hclaim : decided event (claimEvent event s) = true := decided_claim event (.inr rfl)
    split
    next row' h =>
      have hset : decided event ((claimEvent event s).setOrder id row') = true := hclaim
      simp [hfresh, hset, spent]
    next => simp [hfresh, hclaim, spent]

theorem decided_step (hstep : Step (desk y allowed) s out t) (h : decided event s = true) :
    decided event t = true := by
  cases hstep with
  | same => exact h
  | effect pid e o hp => exact decided_after h
  | dies pid => exact h
  | moved m hm => exact decided_moved m h

/-- A step that writes the rows of a verdict decides its event. -/
theorem verdictRows_charge {a : DeskAct} (ha : (machine (desk y allowed)).admits w a) :
    verdictRows event ((machine (desk y allowed)).entry w a) + spent (decided event w.shared) ≤
      spent (decided event ((machine (desk y allowed)).next w a).shared) := by
  have hmono : spent (decided event w.shared) ≤
      spent (decided event ((machine (desk y allowed)).next w a).shared) :=
    spent_mono (decided_step (step_of_next ha))
  cases a with
  | spawn | kill | outside => simpa [verdictRows, Machine.entry] using hmono
  | go pid o =>
    obtain ⟨eff, k, -, hp, hout, hnext⟩ := go_cases ha
    rw [hnext] at hmono ⊢
    simp only [verdictRows, Machine.entry, hout]
    split
    next pid' o' pid'' ev id v hact hev =>
      obtain ⟨-, rfl⟩ := Prod.mk.inj (Option.some.inj hev)
      obtain ⟨rfl, rfl⟩ := Act.go.inj hact
      split
      next happlies =>
        obtain ⟨rfl, hf⟩ := happlies
        simp only [desk, after, hf, if_false, Bool.false_eq_true]
        exact verdict_charge v hp
      next => simpa using hmono
    next => simpa using hmono

def flagged (id : OrderId) (s : Shared) : Bool :=
  (s.db.orders.lookup id).any (·.disputeLossAccrued)

theorem settlementFieldsFrom_flag (onChain : TradeOnChain) (now : ℕ) (row : Order) :
    (settlementFieldsFrom onChain now row).disputeLossAccrued = row.disputeLossAccrued := by
  rw [settlementFieldsFrom]
  split <;> rfl

theorem write_flag (now : ℕ) (u : RowWrite) (row : Order) :
    (u.data now row).disputeLossAccrued = row.disputeLossAccrued := by
  cases u with
  | refresh a stamps =>
    simp only [RowWrite.data]
    split <;> exact settlementFieldsFrom_flag _ _ _
  | promote a => exact settlementFieldsFrom_flag _ _ _
  | autoRefund hash settlement =>
    cases settlement with
    | none => rfl
    | some settlement => exact settlementFieldsFrom_flag _ _ _
  | land target onChain hash =>
    simp only [RowWrite.data]
    split <;> rfl
  | cancel | expire | attest | backfillSettlementHash | dispute | reopen
  | reconcileDisputeMetadata => rfl

theorem verdict_flag (now : ℕ) (v : Verdict) (row : Order) :
    (closeDisputeRound now (v.data now row)).disputeLossAccrued = row.disputeLossAccrued := by
  have hclose (row : Order) :
      (closeDisputeRound now row).disputeLossAccrued = row.disputeLossAccrued := by
    rw [closeDisputeRound]
    split <;> rfl
  rw [hclose]
  cases v with
  | preSettle => rfl
  | postSettle outcome settled =>
    simp only [Verdict.data]
    split <;> rfl

theorem flagged_step (hc : Clean s) (hstep : Step (desk y allowed) s out t)
    (h : flagged id s = true) : flagged id t = true := by
  obtain ⟨row, hrow, hflag⟩ : ∃ row, s.db.orders.lookup id = some row ∧
      row.disputeLossAccrued = true := by
    simpa [flagged, Option.any_eq_true] using h
  obtain hsame | ⟨pid, eff, -, hrowStep⟩ := row_of_step hc hstep id
  · rw [flagged, hsame]
    exact h
  · rw [hrow] at hrowStep
    rw [flagged]
    generalize t.db.orders.lookup id = r at hrowStep ⊢
    cases hrowStep with
    | same => exact hflag
    | wrote he hm => exact (write_flag _ _ _).trans hflag
    | judged he hnew hm => exact (verdict_flag _ _ _).trans hflag
    | accrued he hf => rfl
    | stoodDown he hp => exact hflag

theorem flagged_setOrder (s : Shared) (id : OrderId) (row : Order) :
    flagged id (s.setOrder id row) = row.disputeLossAccrued := by
  simp [flagged, Shared.setOrder]

theorem providerLoss_charge (id : OrderId) (s : Shared) :
    losses (runProviderLoss id s) - losses s + spent (flagged id s) ≤
      spent (flagged id (runProviderLoss id s)) := by
  rw [runProviderLoss]
  split
  next => omega
  next row h =>
    obtain ⟨hrow, hf⟩ := Option.filter_eq_some_iff.mp h
    have hfree : flagged id s = false := by simpa [flagged, hrow] using hf
    have hset : flagged id (s.setOrder id { row with disputeLossAccrued := true }) = true :=
      flagged_setOrder _ _ _
    split
    next =>
      have hsame : losses (s.setOrder id { row with disputeLossAccrued := true }) = losses s := rfl
      simp [hfree, hset, hsame, spent]
    next lpId hlp =>
      split
      next =>
        change losses s - losses s + spent (flagged id s) ≤ spent (flagged id s)
        omega
      next lp hlookup =>
        have htotal := total_insert (·.disputesLost) s.db.lps lpId
          { lp with disputesLost := lp.disputesLost + 1 }
        rw [measureAt_of_lookup hlookup] at htotal
        rw [hfree]
        simp only [losses, Shared.setOrder, flagged, AList.lookup_insert, Option.any_some, spent,
          htotal, if_true, Bool.false_eq_true, if_false]
        omega

theorem disputeLost_charge (a : Address) (id : OrderId) (s : Shared) :
    losses (Desk.recordDisputeLost a id s) - losses s + spent (flagged id s) ≤
      spent (flagged id (Desk.recordDisputeLost a id s)) := by
  rw [Desk.recordDisputeLost]
  split
  next => omega
  next row h =>
    obtain ⟨hrow, hf⟩ := Option.filter_eq_some_iff.mp h
    have hfree : flagged id s = false := by simpa [flagged, hrow] using hf
    have htotal := total_insert (fun n : ℤ => n) s.db.userProfiles a
      ((s.db.userProfiles.lookup a).getD 0 + 1)
    have hmeasure : measureAt (fun n : ℤ => n) s.db.userProfiles a =
        (s.db.userProfiles.lookup a).getD 0 := by
      cases hlookup : s.db.userProfiles.lookup a <;> simp [measureAt, hlookup]
    rw [hmeasure] at htotal
    rw [hfree]
    simp only [losses, Shared.setOrder, flagged, AList.lookup_insert, Option.any_some, spent,
      htotal, if_true, Bool.false_eq_true, if_false]
    omega

theorem lossesFor_charge (hc : Clean w.shared) {a : DeskAct}
    (ha : (machine (desk y allowed)).admits w a) :
    lossesFor id ((machine (desk y allowed)).entry w a) + spent (flagged id w.shared) ≤
      spent (flagged id ((machine (desk y allowed)).next w a).shared) := by
  have hmono : spent (flagged id w.shared) ≤
      spent (flagged id ((machine (desk y allowed)).next w a).shared) :=
    spent_mono (flagged_step hc (step_of_next ha))
  cases a with
  | spawn | kill | outside => simpa [lossesFor, Machine.entry, machine] using hmono
  | go pid o =>
    obtain ⟨eff, k, -, hp, hout, hnext⟩ := go_cases ha
    rw [hnext] at hmono ⊢
    have hbook (id' : OrderId) (t : Shared) (h : t = after pid eff o w.shared)
        (hcharge : losses t - losses w.shared + spent (flagged id' w.shared) ≤
          spent (flagged id' t)) :
        (if id' = id then losses t - losses w.shared else 0) + spent (flagged id w.shared) ≤
          spent (flagged id (after pid eff o w.shared)) := by
      subst h
      split
      next hid => exact hid ▸ hcharge
      next =>
        rw [zero_add]
        exact hmono
    simp only [lossesFor, Machine.entry, hout]
    split
    next pid' id' hev =>
      obtain ⟨-, rfl⟩ := Prod.mk.inj (Option.some.inj hev)
      rw [hnext]
      apply hbook id' _ rfl
      simp only [after]
      split
      next => omega
      next => exact providerLoss_charge id' _
    next pid' a' id' hev =>
      obtain ⟨-, rfl⟩ := Prod.mk.inj (Option.some.inj hev)
      rw [hnext]
      apply hbook id' _ rfl
      simp only [after]
      split
      next => omega
      next => exact disputeLost_charge a' id' _
    next => simpa using hmono

theorem uncounted_verdict {e : DeskEntry} {v : Verdict}
    (ha : (machine (desk y allowed)).admits e.pre e.act)
    (he : e = (machine (desk y allowed)).entry e.pre e.act)
    (hout : e.out = some (pid, .verdict event id v)) (h0 : verdictRows event e = 0) :
    e.post.shared.db.orders = e.pre.shared.db.orders := by
  rw [entry_post he]
  rw [entry_out he] at hout
  obtain ⟨pre, act, out, post⟩ := e
  cases act with
  | spawn | kill | outside => cases hout
  | go q o =>
    obtain ⟨eff, k, -, -, hout', hnext⟩ := go_cases ha
    obtain ⟨rfl, rfl⟩ := Prod.mk.inj (Option.some.inj (hout'.symm.trans hout))
    rw [hnext]
    rw [he] at h0
    simp only [verdictRows, Machine.entry, hout', true_and] at h0
    simp only [desk, after]
    split
    next => rfl
    next hf =>
      rw [if_pos (by simpa using hf)] at h0
      rw [runVerdict] at h0 ⊢
      split at h0
      next => rfl
      next =>
        split at h0
        next => simp at h0
        next => rfl

/-- Over every run, with any number of deliveries, crashes and replays, the
verdict of one event writes at most one row once, and one order costs its
provider and its customer together at most one loss. -/
theorem verdicts_apply_once (hs : Opening s)
    (hr : Run (machine (desk y allowed)) (idle s) tr w) :
    (∀ event, (tr.map (verdictRows event)).sum ≤ 1 ∧
      ∀ e ∈ tr, ∀ pid id v, e.out = some (pid, .verdict event id v) → verdictRows event e = 0 →
        e.post.shared.db.orders = e.pre.shared.db.orders) ∧
    ∀ id, (tr.map (lossesFor id)).sum ≤ 1 := by
  refine ⟨fun event => ⟨?_, fun e he pid id v hout h0 => ?_⟩, fun id => ?_⟩
  · exact charged_once (I := fun w : Office => Clean w.shared) (verdictRows event)
      (fun w => decided event w.shared) hr hs.clean
      (fun _ _ hc ha => hc.step (step_of_next ha)) fun _ _ _ ha => verdictRows_charge ha
  · obtain ⟨tr₁, tr₂, -, -, ha, hentry, -⟩ := hr.of_mem he
    exact uncounted_verdict ha hentry hout h0
  · exact charged_once (I := fun w : Office => Clean w.shared) (lossesFor id)
      (fun w => flagged id w.shared) hr hs.clean
      (fun _ _ hc ha => hc.step (step_of_next ha)) fun _ _ hc ha => lossesFor_charge hc ha

def judgedCalls : List Escrow.System.Action :=
  [.call (sampleEnv 1000 [⟨6⟩]) (.createTrade 1 sampleArgs),
    .call (sampleEnv 1500 [⟨7⟩]) (.markFiatPaid 1 ⟨7⟩),
    .call (sampleEnv 1600 [⟨7⟩]) (.raiseDispute 1 ⟨7⟩),
    .call (sampleEnv 1700 [⟨3⟩]) (.resolve 1 .release ⟨3⟩)]

def judgedRead : Choice :=
  { onChain := ((final (Escrow.System.machine ⟨0⟩) sampleWorld judgedCalls).trade 1).map
      decodeTradeStatus }

def verdictEvent : RpcEvent := ⟨some 4, .resolved (some true) false, 1, some ⟨0⟩, none⟩

/-- The verdict is handled, and then delivered and handled again. -/
def verdictActions : List DeskAct :=
  judgedCalls.map (fun a => .outside (.chain ⟨0⟩ a)) ++
    [.spawn 0 (.applyEvent verdictEvent), .go 0 {}, .go 0 judgedRead, .go 0 judgedRead, .go 0 {},
      .go 0 {}, .spawn 1 (.applyEvent verdictEvent), .go 1 {}, .go 1 judgedRead, .go 1 {}]

theorem verdictActions_admitted :
    Admitted office (idle (sampleDesk sampleOrders)) verdictActions := by
  refine ⟨⟨rfl, by decide⟩, ⟨rfl, by decide⟩, ⟨rfl, by decide⟩, ⟨rfl, by decide⟩, ⟨rfl, trivial⟩,
    trivial, .inr ⟨_, .head _, rfl⟩, .inr ⟨_, .head _, rfl⟩, List.not_mem_nil, trivial,
    ⟨rfl, trivial⟩, trivial, .inr ⟨_, .head _, rfl⟩, List.not_mem_nil, trivial⟩

theorem sample_verdicts_apply_once :
    Opening (sampleDesk sampleOrders) ∧
    losses (final office (idle (sampleDesk sampleOrders)) verdictActions).shared = 1 ∧
    ((history office (idle (sampleDesk sampleOrders)) verdictActions).map
      (verdictRows 4)).sum ≤ 1 ∧
    ((history office (idle (sampleDesk sampleOrders)) verdictActions).map (lossesFor 0)).sum ≤ 1 :=
  have h := verdicts_apply_once (sampleDesk_opening sampleOrders)
    (Run.of_actions _ _ verdictActions_admitted)
  ⟨sampleDesk_opening _, by decide, (h.1 4).1, h.2 0⟩

end Lolipay.Coordinator.Verdicts
