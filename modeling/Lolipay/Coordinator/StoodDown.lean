import Lolipay.Coordinator.Capacity
import Lolipay.Coordinator.Guards
import Lolipay.Coordinator.Standing

namespace Lolipay.Coordinator.StoodDown

open Lolipay.Ledger.Storage Lolipay.Ledger.Invocation Lolipay.Ledger.Runs
open Lolipay.Async.Process Lolipay.Async.Scheduling
open Lolipay.Escrow.Types
open Lolipay.Coordinator.Orders Lolipay.Coordinator.Writes Lolipay.Coordinator.Database
open Lolipay.Coordinator.Creation Lolipay.Coordinator.Desk Lolipay.Coordinator.Steps
open Lolipay.Coordinator.Guards Lolipay.Coordinator.Capacity
open Lolipay.Coordinator.Standing (standsDown)

variable {y : Settings} {allowed : Call → Prop} {s t : Shared} {pid : Pid} {e : Effect} {o : Choice}
  {lp : LpId} {id : OrderId} {row row' : Order} {w : Office} {a : DeskAct} {tr : DeskHistory}

def unfunded (lp : LpId) (row : Order) : Bool :=
  row.lpId = some lp && preChainStatuses.contains row.status

def isStoodDown (lp : LpId) (s : Shared) : Bool :=
  (s.db.lps.lookup lp).any fun p => standsDown p.status

/-- What the two transactions do not check again: the standing of the provider
when an order is created, and whether the orders that a decision has read are
still all that it has to cancel. -/
def Rechecked (pid : Pid) (o : Choice) (s : Shared) : Effect → Prop
  | .commit => o.fails = true ∨
      ∀ tx ∈ s.txs pid, ∀ c ∈ tx.created, ∀ lp ∈ c.2.lpId, isStoodDown lp s = false
  | .setLpStatus lp _ status _ reachable => o.fails = true ∨ (standsDown status = true →
      ∀ id ∈ s.db.orders.keys, (s.db.orders.lookup id).any (unfunded lp) = true → id ∈ reachable)
  | _ => True

instance (pid : Pid) (o : Choice) (s : Shared) : (e : Effect) → Decidable (Rechecked pid o s e)
  | .commit => inferInstanceAs (Decidable (_ ∨ ∀ tx ∈ s.txs pid, ∀ c ∈ tx.created, _))
  | .setLpStatus _ _ _ _ _ => inferInstanceAs (Decidable (_ ∨ (_ → ∀ id ∈ s.db.orders.keys, _)))
  | .ask _ | .write _ _ | .claimEvent _ | .verdict _ _ _ | .accrueProviderLoss _
  | .recordDisputeLost _ _ | .begin | .lock _ | .consumeQuote _ | .createOrderRow _ _
  | .rollback => .isTrue trivial

def StepsRechecked : Office → DeskAct → Prop :=
  Heeds (fun pid e o s => Rechecked pid o s e) fun _ _ => True

instance (w : Office) (a : DeskAct) : Decidable (StepsRechecked w a) :=
  inferInstanceAs (Decidable (Heeds _ _ w a))

/-- A step in which a `setStatus` for the provider commits. -/
def Decides (lp : LpId) (status : LpStatus) (w : Office) (a : DeskAct) : Prop :=
  ∃ pid o seen note reachable k, a = .go pid o ∧
    w.running pid = some (.step (.setLpStatus lp seen status note reachable) k) ∧
    reply pid (.setLpStatus lp seen status note reachable) o w.shared = true

/-- A step that rechecks what it has read and does not approve the provider. -/
def Unreversed (lp : LpId) (w : Office) (a : DeskAct) : Prop :=
  StepsRechecked w a ∧ ∀ status, Decides lp status w a → standsDown status = true

/-- The provider is stood down and has no unfunded orders. -/
structure Dormant (lp : LpId) (s : Shared) : Prop where
  stoodDown : isStoodDown lp s = true
  orders : ∀ id row, s.db.orders.lookup id = some row → unfunded lp row = false

theorem lookup_cancelRows_mem {ids : List OrderId} {orders : Store OrderId Order} (hid : id ∈ ids)
    (hrow : orders.lookup id = some row) :
    (ids.foldl cancelRow orders).lookup id = some (row.setStatus .cancelled) := by
  induction ids generalizing orders row with
  | nil => cases hid
  | cons id' ids ih =>
    rw [List.foldl_cons]
    obtain rfl | hmem := List.mem_cons.mp hid
    · have hhead : (cancelRow orders id).lookup id = some (row.setStatus .cancelled) := by
        simp [cancelRow, hrow]
      obtain hrest | ⟨row', -, hrow', hrest⟩ := lookup_cancelRows ids (cancelRow orders id) id
      · exact hrest.trans hhead
      · obtain rfl := Option.some.inj (hhead.symm.trans hrow')
        rw [hrest, setStatus_setStatus]
    · obtain hhead | ⟨row', rfl, hrow', hhead⟩ := lookup_cancelRow orders id' id
      · exact ih hmem (hhead.trans hrow)
      · obtain rfl := Option.some.inj (hrow.symm.trans hrow')
        rw [ih hmem hhead, setStatus_setStatus]

theorem onChain_not_preChain (st : Status) : preChainStatuses.contains (statusMap st) = false := by
  cases st <;> decide

theorem preChain_of_step (h : RowStep s pid e id (some row) (some row'))
    (hpre : preChainStatuses.contains row'.status = true) :
    preChainStatuses.contains row.status = true := by
  cases h with
  | same | accrued => exact hpre
  | @wrote u row he hm =>
    rw [write_status] at hpre
    cases u with
    | backfillSettlementHash | reconcileDisputeMetadata => exact hpre
    | refresh | promote | land =>
      simp only [landsOn, onChain_not_preChain] at hpre
      cases hpre
    | cancel | expire | autoRefund | attest | dispute | reopen => cases hpre
  | judged he hnew hm =>
    rw [closeDisputeRound_status, verdict_status, onChain_not_preChain] at hpre
    cases hpre
  | stoodDown => cases hpre

theorem unfunded_of_step (h : RowStep s pid e id (some row) (some row'))
    (hrow : unfunded lp row' = true) : unfunded lp row = true := by
  obtain ⟨row₁, hrow₁, hplace⟩ := h.kept
  obtain rfl := Option.some.inj hrow₁
  have hlp : row.lpId = row'.lpId := congrArg (·.lpId) hplace.symm
  obtain ⟨hmine, hpre⟩ := Bool.and_eq_true_iff.mp hrow
  exact Bool.and_eq_true_iff.mpr ⟨hlp ▸ hmine, preChain_of_step h hpre⟩

theorem lps_after (hset : ∀ lp seen status note ids, e ≠ .setLpStatus lp seen status note ids)
    (hloss : ∀ id, e ≠ .accrueProviderLoss id) : (after pid e o s).db.lps = s.db.lps := by
  cases e with
  | setLpStatus lp seen status note ids => exact absurd rfl (hset lp seen status note ids)
  | accrueProviderLoss id => exact absurd rfl (hloss id)
  | commit =>
    simp only [after, runCommit]
    split
    next => rfl
    next => cases s.txs pid <;> rfl
  | ask | claimEvent | «begin» | lock | rollback | write | verdict | recordDisputeLost
  | consumeQuote | createOrderRow =>
    simp only [after, runWrite, runVerdict, Desk.recordDisputeLost, runConsumeQuote,
      runCreateOrderRow]
    repeat' split
    all_goals rfl

theorem standing_of_loss (id : OrderId) (h : isStoodDown lp s = true) :
    isStoodDown lp (runProviderLoss id s) = true := by
  rw [runProviderLoss]
  split
  next => exact h
  next row _ =>
    dsimp only
    split
    next => exact h
    next lp' _ =>
      split
      next => exact h
      next p hp =>
        by_cases hlp : lp = lp'
        · subst hlp
          simpa [isStoodDown, hp] using h
        · simpa [isStoodDown, AList.lookup_insert_ne hlp] using h

theorem decision_cases {seen : Lp} {status : LpStatus} {note : Option String} {ids : List OrderId}
    (h : reply pid (.setLpStatus lp seen status note ids) o s = true) :
    ∃ p, s.db.lps.lookup lp = some p ∧
      after pid (.setLpStatus lp seen status note ids) o s =
        { s with db := { s.db with
          lps := s.db.lps.insert lp
            { p with status, approvalNote := note.orElse fun _ => p.approvalNote }
          orders := ids.foldl cancelRow s.db.orders } } := by
  simp only [reply, after] at h ⊢
  split at h
  next => cases h
  next hf =>
    rw [runSetLpStatus] at h
    split at h
    next => cases h
    next p hp =>
      split at h
      next hguard =>
        refine ⟨p, hp, ?_⟩
        rw [if_neg hf, runSetLpStatus]
        simp only [hp, if_pos hguard]
      next => cases h

theorem undecided_same {seen : Lp} {status : LpStatus} {note : Option String} {ids : List OrderId}
    (h : reply pid (.setLpStatus lp seen status note ids) o s ≠ true) :
    after pid (.setLpStatus lp seen status note ids) o s = s := by
  simp only [reply, after] at h ⊢
  split
  next => rfl
  next hf =>
    rw [if_neg hf, runSetLpStatus] at h
    rw [runSetLpStatus]
    split
    next => rfl
    next p hp =>
      split
      next hguard =>
        rw [hp] at h
        simp only [if_pos hguard] at h
        exact absurd rfl h
      next => rfl

theorem standing_after (hdec : ∀ seen status note ids, e = .setLpStatus lp seen status note ids →
      reply pid (.setLpStatus lp seen status note ids) o s = true → standsDown status = true)
    (h : isStoodDown lp s = true) : isStoodDown lp (after pid e o s) = true := by
  cases e with
  | setLpStatus lp' seen status note ids =>
    by_cases hdone : reply pid (.setLpStatus lp' seen status note ids) o s = true
    · obtain ⟨p, hp, hafter⟩ := decision_cases hdone
      rw [hafter]
      by_cases hlp : lp = lp'
      · subst hlp
        simpa [isStoodDown] using hdec seen status note ids rfl hdone
      · simpa [isStoodDown, AList.lookup_insert_ne hlp] using h
    · rw [undecided_same hdone]
      exact h
  | accrueProviderLoss id =>
    simp only [after]
    split
    next => exact h
    next => exact standing_of_loss id h
  | ask | claimEvent | «begin» | lock | rollback | write | verdict | recordDisputeLost
  | consumeQuote | createOrderRow | commit =>
    rw [isStoodDown, lps_after (by simp) (by simp)]
    exact h

/-- A dormant provider stays so until he is approved again. -/
theorem Dormant.after (hc : Clean s) (h : Dormant lp s) (hok : Rechecked pid o s e)
    (hdec : ∀ seen status note ids, e = .setLpStatus lp seen status note ids →
      reply pid (.setLpStatus lp seen status note ids) o s = true → standsDown status = true) :
    Dormant lp (after pid e o s) := by
  refine ⟨standing_after hdec h.stoodDown, fun id row' hrow' => ?_⟩
  have hstep : RowStep s pid e id _ _ := row_step hc o id
  rw [hrow'] at hstep
  cases hrow : s.db.orders.lookup id with
  | some row =>
    rw [hrow] at hstep
    have hnot := h.orders id row hrow
    cases hun : unfunded lp row' with
    | false => rfl
    | true =>
      rw [unfunded_of_step hstep hun] at hnot
      cases hnot
  | none =>
    -- A new row is that of a transaction which has looked at its provider.
    rw [hrow] at hstep
    cases hstep with
    | @created tx p he htx hp =>
      subst he
      have hfails : o.fails = false := by
        cases hf : o.fails with
        | false => rfl
        | true =>
          have hsame : (Desk.after pid .commit o s).db.orders = s.db.orders := by
            simp only [Desk.after, hf]
            rfl
          rw [hsame, hrow] at hrow'
          cases hrow'
      have hchecked := hok.resolve_left (by simp [hfails])
      cases hun : unfunded lp p.opened with
      | false => rfl
      | true =>
        have hmine : p.opened.lpId = some lp := by
          simpa using (Bool.and_eq_true_iff.mp hun).1
        have hstanding := h.stoodDown
        rw [hchecked tx htx _ hp lp hmine] at hstanding
        cases hstanding

theorem dormant_of_decision {seen : Lp} {status : LpStatus} {note : Option String}
    {ids : List OrderId} (hdone : reply pid (.setLpStatus lp seen status note ids) o s = true)
    (hok : Rechecked pid o s (.setLpStatus lp seen status note ids))
    (hdown : standsDown status = true) :
    Dormant lp (after pid (.setLpStatus lp seen status note ids) o s) := by
  have hfails : o.fails = false := by
    cases hf : o.fails with
    | false => rfl
    | true => simp [reply, hf] at hdone
  have hread := hok.resolve_left (by simp [hfails]) hdown
  obtain ⟨p, hp, hafter⟩ := decision_cases hdone
  rw [hafter]
  refine ⟨by simpa [isStoodDown] using hdown, fun id row' hrow' => ?_⟩
  change (ids.foldl cancelRow s.db.orders).lookup id = some row' at hrow'
  obtain hsame | ⟨row, hmem, hrow, hset⟩ := lookup_cancelRows ids s.db.orders id
  · rw [hsame] at hrow'
    cases hun : unfunded lp row' with
    | false => rfl
    | true =>
      -- The row was listed, so it is cancelled.
      have hkey : id ∈ s.db.orders.keys := by
        refine AList.mem_keys.mp (AList.lookup_isSome.mp ?_)
        rw [hrow']
        rfl
      have hset := lookup_cancelRows_mem (hread id hkey (by rw [hrow']; exact hun)) hrow'
      rw [hsame, hrow'] at hset
      rw [Option.some.inj hset] at hun
      simp [unfunded, Order.setStatus, preChainStatuses] at hun
  · rw [hset] at hrow'
    obtain rfl := Option.some.inj hrow'
    simp [unfunded, Order.setStatus, preChainStatuses]

theorem Dormant.step (hc : Clean w.shared) (h : Dormant lp w.shared)
    (ha : (machine (desk y allowed)).admits w a) (hok : Unreversed lp w a) :
    Dormant lp ((machine (desk y allowed)).next w a).shared := by
  cases a with
  | spawn | kill => exact ⟨h.stoodDown, h.orders⟩
  | outside a =>
    refine ⟨?_, fun id row hrow => ?_⟩
    · cases a <;> exact h.stoodDown
    · cases a <;> exact h.orders id row hrow
  | go pid o =>
    obtain ⟨e, k, hrun, -, -, hnext⟩ := go_cases ha
    rw [hnext]
    have hchecked : Rechecked pid o w.shared e := by
      simpa [StepsRechecked, Heeds, hrun] using hok.1
    apply h.after hc hchecked
    intro seen status note ids he hdone
    subst he
    exact hok.2 status ⟨pid, o, seen, note, ids, k, rfl, hrun, hdone⟩

variable {e : DeskEntry} {tr₁ tr₂ : DeskHistory} {status : LpStatus}

/-- If every commit looks at the standing of its provider and every decision at
all the orders there are, then a provider who was stood down and not approved
since holds no unfunded orders. -/
theorem stood_down_holds_no_unfunded (hs : Opening s)
    (hr : Run (machine (desk y allowed)) (idle s) (tr₁ ++ e :: tr₂) w)
    (hsteps : ∀ e' ∈ tr₁ ++ e :: tr₂, StepsRechecked e'.pre e'.act)
    (he : Decides lp status e.pre e.act) (hdown : standsDown status = true)
    (hlater : ∀ e' ∈ tr₂, ∀ status', Decides lp status' e'.pre e'.act → standsDown status' = true)
    (id : OrderId) (row : Order) (hrow : w.shared.db.orders.lookup id = some row)
    (hlp : row.lpId = some lp) :
    row.status ≠ .created ∧ row.status ≠ .matched ∧ row.status ≠ .awaitingOnchain := by
  obtain ⟨hpre, ha, hentry, hpost⟩ := hr.at_entry
  have hfirst : Dormant lp e.post.shared := by
    obtain ⟨pid, o, seen, note, ids, k, hact, hrun, hdone⟩ := he
    have hok := hsteps e (by simp)
    rw [entry_post hentry]
    rw [hact] at ha hok ⊢
    obtain ⟨e', k', hrun', -, -, hnext⟩ := go_cases ha
    obtain ⟨rfl, -⟩ : e' = .setLpStatus lp seen status note ids ∧ True := by
      rw [hrun] at hrun'
      cases hrun'
      exact ⟨rfl, trivial⟩
    rw [hnext]
    have hchecked : Rechecked pid o e.pre.shared (.setLpStatus lp seen status note ids) := by
      simpa [StepsRechecked, Heeds, hrun] using hok
    exact dormant_of_decision hdone hchecked hdown
  have hclean : Clean e.post.shared := by
    rw [entry_post hentry]
    exact (run_clean hs hpre).step (step_of_next ha)
  have hrest (e' : DeskEntry) (he' : e' ∈ tr₂) : Unreversed lp e'.pre e'.act :=
    ⟨hsteps e' (by simp [he']), hlater e' he'⟩
  have hlast : Clean w.shared ∧ Dormant lp w.shared := by
    refine (hpost.narrow hrest).invariant (I := fun w => Clean w.shared ∧ Dormant lp w.shared)
      ⟨hclean, hfirst⟩ ?_
    rintro u a ⟨hcu, hdu⟩ ⟨hadm, hok⟩
    exact ⟨hcu.step (step_of_next hadm), hdu.step hcu hadm hok⟩
  have hnone := hlast.2.orders id row hrow
  simpa [unfunded, hlp, preChainStatuses] using hnone

def CreatesOrDecides : Call → Prop
  | .createFromQuote _ _ _ | .setStatus _ _ _ => True
  | _ => False

abbrev smallOffice : Machine Office DeskAct (Option (Pid × Effect)) :=
  machine (desk smallSettings CreatesOrDecides)

def uncommittedActions : List DeskAct :=
  .spawn 0 (.createFromQuote ⟨7⟩ 1 none) ::
    List.replicate 15 (.go 0 (creationChoice (some 1) 1)) ++
      List.replicate 13 (.go 0 (creationChoice none 1))

def commitActions : List DeskAct := [.go 0 (creationChoice none 1)]

theorem creation_admitted :
    Admitted smallOffice (idle quotedDesk) (uncommittedActions ++ commitActions) := by
  refine admitted_widen (fun c hc => ?_) creationActions_admitted
  cases c with
  | createFromQuote => trivial
  | _ => cases hc

def suspendActions : List DeskAct := [.spawn 1 (.setStatus 0 .suspended none), .go 1 {}, .go 1 {}]

def orderlyActions : List DeskAct := uncommittedActions ++ commitActions ++ suspendActions

def beforeDecision : Office := final smallOffice (idle quotedDesk) orderlyActions

theorem orderlyActions_admitted : Admitted smallOffice (idle quotedDesk) orderlyActions :=
  creation_admitted.append ⟨⟨rfl, trivial⟩, trivial, trivial, trivial⟩

theorem beforeDecision_decides : Decides 0 .suspended beforeDecision (.go 1 {}) :=
  ⟨1, {}, sampleLp, none, [1], _, rfl, rfl, by decide +kernel⟩

theorem sample_stood_down : ∃ tr e w,
    Run smallOffice (idle quotedDesk) (tr ++ [e]) w ∧ Decides 0 .suspended e.pre e.act ∧
    (e.pre.shared.db.orders.lookup 1).map (·.status) = some .matched ∧
    ∀ id row, w.shared.db.orders.lookup id = some row → row.lpId = some 0 →
      row.status ≠ .created ∧ row.status ≠ .matched ∧ row.status ≠ .awaitingOnchain := by
  have hrun := (Run.of_actions _ _ orderlyActions_admitted).snoc (.go 1 {}) trivial
  have hsteps : ∀ e ∈ history smallOffice (idle quotedDesk) orderlyActions,
      StepsRechecked e.pre e.act := by
    apply history_meets
    decide +kernel
  have hlast : StepsRechecked beforeDecision (.go 1 {}) := by decide +kernel
  refine ⟨_, _, _, hrun, beforeDecision_decides, by decide +kernel, ?_⟩
  refine stood_down_holds_no_unfunded quotedDesk_opening hrun (fun e he => ?_)
    beforeDecision_decides rfl (by simp)
  obtain he | he := List.mem_append.mp he
  · exact hsteps e he
  · rw [List.mem_singleton] at he
    subst he
    exact hlast

/-- The provider is suspended while the order that was matched with him has yet
to be committed. -/
def overtakenActions : List DeskAct := uncommittedActions ++ suspendActions

def beforeRace : Office := final smallOffice (idle quotedDesk) overtakenActions

theorem order_for_suspended_provider : ∃ tr₁ e tr₂ w,
    Run smallOffice (idle quotedDesk) (tr₁ ++ e :: tr₂) w ∧ Decides 0 .suspended e.pre e.act ∧
    (w.shared.db.lps.lookup 0).map (·.status) = some .suspended ∧
    ∃ row, w.shared.db.orders.lookup 1 = some row ∧ row.lpId = some 0 ∧ row.status = .matched := by
  have hadmitted : Admitted smallOffice (idle quotedDesk) overtakenActions :=
    creation_admitted.of_append.1.append ⟨⟨rfl, trivial⟩, trivial, trivial, trivial⟩
  have hdecides : Decides 0 .suspended beforeRace (.go 1 {}) :=
    ⟨1, {}, sampleLp, none, [], _, rfl, rfl, by decide +kernel⟩
  have hrun := ((Run.of_actions _ _ hadmitted).snoc (.go 1 {}) trivial).snoc
    (.go 0 (creationChoice none 1)) trivial
  rw [List.append_assoc] at hrun
  exact ⟨_, _, _, _, hrun, hdecides, by decide +kernel, _, rfl, rfl, rfl⟩

end Lolipay.Coordinator.StoodDown
