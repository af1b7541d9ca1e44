import Lolipay.Coordinator.Desk

namespace Lolipay.Coordinator.Steps

open Lolipay.Ledger.Storage Lolipay.Ledger.Invocation Lolipay.Ledger.Runs
open Lolipay.Async.Process Lolipay.Async.Scheduling
open Lolipay.Escrow.Types
open Lolipay.Coordinator.Orders Lolipay.Coordinator.Writes Lolipay.Coordinator.Database
open Lolipay.Coordinator.Creation Lolipay.Coordinator.Desk

variable {y : Settings} {s : Shared} {pid : Pid} {e : Effect} {o : Choice} {id : OrderId}
  {row : Order}

theorem lookup_setOrder (s : Shared) (id' : OrderId) (row : Order) (id : OrderId) :
    (s.setOrder id' row).db.orders.lookup id =
      if id = id' then some row else s.db.orders.lookup id := by
  by_cases h : id = id'
  · subst h
    simp [Shared.setOrder]
  · simp [Shared.setOrder, h, AList.lookup_insert_ne h]

/-- What one effect can do to one order row. -/
inductive RowStep (s : Shared) (pid : Pid) (e : Effect) (id : OrderId) :
    Option Order → Option Order → Prop
  | same (r : Option Order) : RowStep s pid e id r r
  | wrote {w : RowWrite} {row : Order} (he : e = .write id w) (hm : w.matchesRow row = true) :
      RowStep s pid e id (some row) (some (w.data s.now row))
  | judged {event : EventId} {v : Verdict} {row : Order} (he : e = .verdict event id v)
      (hnew : s.db.indexedEvents.lookup event = none) (hm : v.matchesRow row = true) :
      RowStep s pid e id (some row) (some (closeDisputeRound s.now (v.data s.now row)))
  | accrued {row : Order} (he : e = .accrueProviderLoss id ∨ ∃ a, e = .recordDisputeLost a id)
      (hf : row.disputeLossAccrued = false) :
      RowStep s pid e id (some row) (some { row with disputeLossAccrued := true })
  | stoodDown {row : Order} {lp : LpId} {seen : Lp} {status : LpStatus} {note : Option String}
      {ids : List OrderId} (he : e = .setLpStatus lp seen status note ids)
      (hp : preChainStatuses.contains row.status = true) :
      RowStep s pid e id (some row) (some (row.setStatus .cancelled))
  | created {tx : Tx} {p : Placement} (he : e = .commit) (htx : s.txs pid = some tx)
      (hp : tx.created = some (id, p)) : RowStep s pid e id none (some p.opened)

theorem lookup_cancelRow (orders : Store OrderId Order) (id' id : OrderId) :
    (cancelRow orders id').lookup id = orders.lookup id ∨
      ∃ row, id = id' ∧ orders.lookup id = some row ∧
        (cancelRow orders id').lookup id = some (row.setStatus .cancelled) := by
  rw [cancelRow]
  split
  next row h =>
    by_cases hid : id = id'
    · subst hid
      exact .inr ⟨row, rfl, h, by simp⟩
    · exact .inl (AList.lookup_insert_ne hid)
  next => exact .inl rfl

theorem setStatus_setStatus (row : Order) (st : OrderStatus) :
    (row.setStatus st).setStatus st = row.setStatus st := by
  simp [Order.setStatus]

theorem lookup_cancelRows (ids : List OrderId) (orders : Store OrderId Order) (id : OrderId) :
    (ids.foldl cancelRow orders).lookup id = orders.lookup id ∨
      ∃ row, id ∈ ids ∧ orders.lookup id = some row ∧
        (ids.foldl cancelRow orders).lookup id = some (row.setStatus .cancelled) := by
  induction ids generalizing orders with
  | nil => exact .inl rfl
  | cons id' ids ih =>
    rw [List.foldl_cons]
    obtain hhead | ⟨row, hid, hrow, hhead⟩ := lookup_cancelRow orders id' id
    · obtain hrest | ⟨row, hmem, hrow, hrest⟩ := ih (cancelRow orders id')
      · exact .inl (hrest.trans hhead)
      · exact .inr ⟨row, List.mem_cons_of_mem _ hmem, hhead ▸ hrow, hrest⟩
    · refine .inr ⟨row, hid ▸ List.mem_cons_self, hrow, ?_⟩
      obtain hrest | ⟨row', -, hrow', hrest⟩ := ih (cancelRow orders id')
      · exact hrest.trans hhead
      · obtain rfl := Option.some.inj (hhead.symm.trans hrow')
        rw [hrest, setStatus_setStatus]

/-- The rows that open transactions have inserted collide with no row and not
with each other. -/
structure Clean (s : Shared) : Prop where
  fresh : ∀ pid tx c, s.txs pid = some tx → tx.created = some c →
    ∀ id row, s.db.orders.lookup id = some row → collides c.1 c.2 id row.toPlacement = false
  apart : ∀ pid q tx tx' c c', pid ≠ q → s.txs pid = some tx → tx.created = some c →
    s.txs q = some tx' → tx'.created = some c' → collides c.1 c.2 c'.1 c'.2 = false

theorem Clean.id_fresh (hc : Clean s) {tx : Tx} {p : Placement} (htx : s.txs pid = some tx)
    (hp : tx.created = some (id, p)) : s.db.orders.lookup id = none := by
  by_contra h
  obtain ⟨row, hrow⟩ := Option.ne_none_iff_exists'.mp h
  have := hc.fresh pid tx _ htx hp id row hrow
  simp [collides] at this

theorem RowStep.at_row {id' : OrderId} {row' : Order} (hrow : s.db.orders.lookup id' = some row)
    (h : RowStep s pid e id' (some row) (some row')) :
    RowStep s pid e id (s.db.orders.lookup id) ((s.setOrder id' row').db.orders.lookup id) := by
  rw [lookup_setOrder]
  by_cases hid : id = id'
  · subst hid
    rw [if_pos rfl, hrow]
    exact h
  · rw [if_neg hid]
    exact .same _

theorem row_write (id' : OrderId) (w : RowWrite) :
    RowStep s pid (.write id' w) id (s.db.orders.lookup id)
      ((runWrite id' w s).1.db.orders.lookup id) := by
  rw [runWrite]
  split
  next row' h =>
    obtain ⟨row, hrow, hrun⟩ := Option.bind_eq_some_iff.mp h
    rw [RowWrite.run] at hrun
    split at hrun
    next hm =>
      obtain rfl := Option.some.inj hrun
      exact .at_row hrow (.wrote rfl hm)
    next => cases hrun
  next => exact .same _

theorem row_verdict (event : EventId) (id' : OrderId) (v : Verdict) :
    RowStep s pid (.verdict event id' v) id (s.db.orders.lookup id)
      ((runVerdict event id' v s).1.db.orders.lookup id) := by
  rw [runVerdict]
  split
  next => exact .same _
  next hnew =>
    split
    next row' h =>
      obtain ⟨row, hrow, hrun⟩ := Option.bind_eq_some_iff.mp h
      rw [Verdict.run] at hrun
      split at hrun
      next hm =>
        obtain rfl := Option.some.inj hrun
        exact .at_row hrow (.judged rfl hnew hm)
      next => cases hrun
    next => exact .same _

theorem row_providerLoss (id' : OrderId) :
    RowStep s pid (.accrueProviderLoss id') id (s.db.orders.lookup id)
      ((runProviderLoss id' s).db.orders.lookup id) := by
  rw [runProviderLoss]
  split
  next => exact .same _
  next row h =>
    obtain ⟨hrow, hf⟩ := Option.filter_eq_some_iff.mp h
    have hstep : RowStep s pid (.accrueProviderLoss id') id (s.db.orders.lookup id)
        ((s.setOrder id' { row with disputeLossAccrued := true }).db.orders.lookup id) :=
      .at_row hrow (.accrued (.inl rfl) (by simpa using hf))
    split
    next => exact hstep
    next =>
      split
      next => exact .same _
      next => exact hstep

theorem row_disputeLost (a : Address) (id' : OrderId) :
    RowStep s pid (.recordDisputeLost a id') id (s.db.orders.lookup id)
      ((recordDisputeLost a id' s).db.orders.lookup id) := by
  rw [recordDisputeLost]
  split
  next => exact .same _
  next row h =>
    obtain ⟨hrow, hf⟩ := Option.filter_eq_some_iff.mp h
    exact .at_row hrow (.accrued (.inr ⟨a, rfl⟩) (by simpa using hf))

theorem row_setLpStatus (lp : LpId) (seen : Lp) (status : LpStatus) (note : Option String)
    (ids : List OrderId) :
    RowStep s pid (.setLpStatus lp seen status note ids) id (s.db.orders.lookup id)
      ((runSetLpStatus lp seen status note ids s).1.db.orders.lookup id) := by
  rw [runSetLpStatus]
  split
  next => exact .same _
  next =>
    split
    next h =>
      obtain hsame | ⟨row, hmem, hrow, hset⟩ := lookup_cancelRows ids s.db.orders id
      · rw [hsame]
        exact .same _
      · rw [hset, hrow]
        refine .stoodDown rfl ?_
        have hpre := List.all_eq_true.mp h.2.2.2.2 id hmem
        simpa [isPreChain, hrow] using hpre
    next => exact .same _

theorem row_commit (hc : Clean s) :
    RowStep s pid .commit id (s.db.orders.lookup id) ((runCommit pid s).db.orders.lookup id) := by
  simp only [runCommit, release, Shared.setTx]
  cases htx : s.txs pid with
  | none => exact .same _
  | some tx =>
    simp only [Option.elim_some, applyTx]
    cases hp : tx.created with
    | none => exact .same _
    | some c =>
      obtain ⟨id', p⟩ := c
      by_cases hid : id = id'
      · subst hid
        simp only [Option.elim_some, AList.lookup_insert, hc.id_fresh htx hp]
        exact .created rfl htx hp
      · simp only [Option.elim_some, AList.lookup_insert_ne hid]
        exact .same _

/-- One effect does to every row one of the things that rows go through. Only
a commit needs to know that its row is new. -/
theorem row_step_unless (hc : e = .commit → Clean s) (o : Choice) (id : OrderId) :
    RowStep s pid e id (s.db.orders.lookup id) ((after pid e o s).db.orders.lookup id) := by
  cases e with
  | ask q => exact .same _
  | write id' w =>
    simp only [after]
    split
    next => exact .same _
    next => exact row_write id' w
  | claimEvent event =>
    simp only [after]
    split <;> exact .same _
  | verdict event id' v =>
    simp only [after]
    split
    next => exact .same _
    next => exact row_verdict event id' v
  | accrueProviderLoss id' =>
    simp only [after]
    split
    next => exact .same _
    next => exact row_providerLoss id'
  | recordDisputeLost a id' =>
    simp only [after]
    split
    next => exact .same _
    next => exact row_disputeLost a id'
  | setLpStatus lp seen status note ids =>
    simp only [after]
    split
    next => exact .same _
    next => exact row_setLpStatus lp seen status note ids
  | «begin» | lock key | rollback => exact .same _
  | consumeQuote q =>
    simp only [after]
    split
    next => exact .same _
    next =>
      rw [runConsumeQuote]
      split <;> exact .same _
  | createOrderRow data needsRef =>
    simp only [after]
    split
    next => exact .same _
    next =>
      simp only [runCreateOrderRow]
      split <;> exact .same _
  | commit =>
    simp only [after]
    split
    next => exact .same _
    next => exact row_commit (hc rfl)

theorem row_step (hc : Clean s) (o : Choice) (id : OrderId) :
    RowStep s pid e id (s.db.orders.lookup id) ((after pid e o s).db.orders.lookup id) :=
  row_step_unless (fun _ => hc) o id

theorem settlementFieldsFrom_toPlacement (onChain : TradeOnChain) (now : ℕ) (row : Order) :
    (settlementFieldsFrom onChain now row).toPlacement = row.toPlacement := by
  rw [settlementFieldsFrom]
  split <;> rfl

theorem write_toPlacement (now : ℕ) (w : RowWrite) (row : Order) :
    (w.data now row).toPlacement = row.toPlacement := by
  cases w with
  | refresh a stamps =>
    simp only [RowWrite.data]
    split <;> exact settlementFieldsFrom_toPlacement _ _ _
  | promote a => exact settlementFieldsFrom_toPlacement _ _ _
  | autoRefund hash settlement =>
    cases settlement with
    | none => rfl
    | some settlement => exact settlementFieldsFrom_toPlacement _ _ _
  | land target onChain hash =>
    simp only [RowWrite.data]
    split <;> rfl
  | cancel | expire | attest | backfillSettlementHash | dispute | reopen
  | reconcileDisputeMetadata => rfl

theorem closeDisputeRound_toPlacement (now : ℕ) (row : Order) :
    (closeDisputeRound now row).toPlacement = row.toPlacement := by
  rw [closeDisputeRound]
  split <;> rfl

theorem verdict_toPlacement (now : ℕ) (v : Verdict) (row : Order) :
    (v.data now row).toPlacement = row.toPlacement := by
  cases v with
  | preSettle => rfl
  | postSettle outcome settled =>
    simp only [Verdict.data]
    split <;> rfl

theorem RowStep.kept {r : Option Order} (h : RowStep s pid e id (some row) r) :
    ∃ row', r = some row' ∧ row'.toPlacement = row.toPlacement := by
  cases h with
  | same => exact ⟨row, rfl, rfl⟩
  | wrote he hm => exact ⟨_, rfl, write_toPlacement _ _ _⟩
  | judged he hnew hm =>
    exact ⟨_, rfl, (closeDisputeRound_toPlacement _ _).trans (verdict_toPlacement _ _ _)⟩
  | accrued he hf => exact ⟨_, rfl, rfl⟩
  | stoodDown he hp => exact ⟨_, rfl, rfl⟩

def isTx : Effect → Bool
  | .begin | .lock _ | .consumeQuote _ | .createOrderRow _ _ | .commit | .rollback => true
  | _ => false

theorem after_outside (pid : Pid) (e : Effect) (o : Choice) (s : Shared) :
    (after pid e o s).now = s.now ∧ (after pid e o s).chain = s.chain ∧
      (after pid e o s).past = s.past ∧ (after pid e o s).forgotten = s.forgotten := by
  cases e <;>
    simp only [after, runWrite, runVerdict, runProviderLoss, Desk.recordDisputeLost,
      runSetLpStatus, runConsumeQuote, runCreateOrderRow, runCommit, release] <;>
    repeat' split
  all_goals trivial

def claims : Effect → Option EventId
  | .claimEvent event | .verdict event _ _ => some event
  | _ => none

theorem indexedEvents_after (pid : Pid) (e : Effect) (o : Choice) (s : Shared) :
    (after pid e o s).db.indexedEvents = s.db.indexedEvents ∨
      ∃ event, claims e = some event ∧
        (after pid e o s).db.indexedEvents = (claimEvent event s).db.indexedEvents := by
  cases e <;>
    simp only [after, runWrite, runVerdict, runProviderLoss, Desk.recordDisputeLost,
      runSetLpStatus, runConsumeQuote, runCreateOrderRow, runCommit, release] <;>
    repeat' split
  all_goals
    first
    | exact .inl rfl
    | exact .inl trivial
    | exact .inr ⟨_, rfl, rfl⟩
    | (cases s.txs pid <;> exact .inl rfl)

theorem after_of_not_tx (h : isTx e = false) :
    (after pid e o s).txs = s.txs ∧ (after pid e o s).locks = s.locks ∧
      (after pid e o s).db.quotes = s.db.quotes := by
  cases e <;> cases h <;>
    simp only [after, runWrite, runVerdict, runProviderLoss, Desk.recordDisputeLost,
      runSetLpStatus] <;>
    repeat' split
  all_goals trivial

theorem txs_setTx (s : Shared) (pid q : Pid) (tx : Option Tx) :
    (s.setTx pid tx).txs q = if q = pid then tx else s.txs q := rfl

theorem txs_release (s : Shared) (pid q : Pid) :
    (release pid s).txs q = if q = pid then none else s.txs q := rfl

/-- What an effect leaves open of the transaction of its own process. -/
inductive TxStep (s : Shared) (pid : Pid) (o : Choice) : Effect → Tx → Prop
  | kept {e : Effect} {tx : Tx} (he : e ≠ .commit ∧ e ≠ .rollback ∧ e ≠ .begin)
      (h : s.txs pid = some tx) : TxStep s pid o e tx
  | begun : TxStep s pid o .begin ⟨none, none⟩
  | consumed {id : QuoteId} {quote : Quote} {tx : Tx} (h : s.txs pid = some tx)
      (hquote : s.db.quotes.lookup id = some quote) (hnew : quote.usedAt = none) :
      TxStep s pid o (.consumeQuote id) { tx with consumed := some (id, s.now) }
  | created {data : Placement} {needsRef : Bool} {tx : Tx} (h : s.txs pid = some tx)
      (hno : ∀ id row, s.db.orders.lookup id = some row →
        collides o.orderId (stamped data needsRef s.now o.ref) id row.toPlacement = false) :
      TxStep s pid o (.createOrderRow data needsRef)
        { tx with created := some (o.orderId, stamped data needsRef s.now o.ref) }

theorem tx_step {tx : Tx} (h : (after pid e o s).txs pid = some tx) : TxStep s pid o e tx := by
  by_cases ht : isTx e = true
  · cases e with
    | «begin» =>
      simp only [after, txs_setTx, if_true, Option.some.injEq] at h
      subst h
      exact .begun
    | lock key => exact .kept (by simp) h
    | consumeQuote q =>
      simp only [after, runConsumeQuote] at h
      split at h
      next => exact .kept (by simp) h
      next =>
        split at h
        next => exact .kept (by simp) h
        next quote hquote =>
          rw [txs_setTx, if_pos rfl] at h
          obtain ⟨tx₀, h₀, rfl⟩ := Option.map_eq_some_iff.mp h
          obtain ⟨hlook, hnew⟩ := Option.filter_eq_some_iff.mp hquote
          exact .consumed h₀ hlook (by simpa using hnew)
    | createOrderRow data needsRef =>
      simp only [after, runCreateOrderRow] at h
      split at h
      next => exact .kept (by simp) h
      next =>
        split at h
        next => exact .kept (by simp) h
        next hno =>
          rw [txs_setTx, if_pos rfl] at h
          obtain ⟨tx₀, h₀, rfl⟩ := Option.map_eq_some_iff.mp h
          refine .created h₀ fun id row hrow => ?_
          have hmem : (⟨id, row⟩ : Sigma fun _ : OrderId => Order) ∈ s.db.orders.entries :=
            AList.mem_lookup_iff.mp hrow
          exact Bool.eq_false_iff.mpr fun hcol => hno (List.any_eq_true.mpr ⟨_, hmem, hcol⟩)
    | commit =>
      simp only [after, runCommit] at h
      split at h <;> simp [txs_release] at h
    | rollback => simp [after, txs_release] at h
    | ask | write | claimEvent | verdict | accrueProviderLoss | recordDisputeLost
    | setLpStatus => cases ht
  · rw [(after_of_not_tx (by simpa using ht)).1] at h
    refine .kept ⟨?_, ?_, ?_⟩ h
    all_goals
      rintro rfl
      exact ht rfl

theorem created_after {tx : Tx} {c : OrderId × Placement}
    (h : (after pid e o s).txs pid = some tx) (hc : tx.created = some c) :
    (e ≠ .commit ∧ ∃ tx₀, s.txs pid = some tx₀ ∧ tx₀.created = some c) ∨
      ∃ data needsRef, e = .createOrderRow data needsRef ∧
        c = (o.orderId, stamped data needsRef s.now o.ref) ∧
        ∀ id row, s.db.orders.lookup id = some row → collides c.1 c.2 id row.toPlacement = false := by
  cases tx_step h with
  | kept he h₀ => exact .inl ⟨he.1, tx, h₀, hc⟩
  | begun => cases hc
  | consumed h₀ hquote hnew => exact .inl ⟨by simp, _, h₀, hc⟩
  | created h₀ hno =>
    obtain rfl := Option.some.inj hc
    exact .inr ⟨_, _, rfl, rfl, hno⟩

theorem txs_other {q : Pid} (hq : q ≠ pid) : (after pid e o s).txs q = s.txs q := by
  by_cases ht : isTx e = true
  · cases e with
    | «begin» => simp [after, txs_setTx, hq]
    | lock key => rfl
    | consumeQuote q' =>
      simp only [after, runConsumeQuote]
      repeat' split
      all_goals simp [txs_setTx, hq]
    | createOrderRow data needsRef =>
      simp only [after, runCreateOrderRow]
      repeat' split
      all_goals simp [txs_setTx, hq]
    | commit =>
      simp only [after, runCommit]
      split <;> simp [txs_release, hq]
    | rollback => simp [after, txs_release, hq]
    | ask | write | claimEvent | verdict | accrueProviderLoss | recordDisputeLost
    | setLpStatus => cases ht
  · rw [(after_of_not_tx (by simpa using ht)).1]

theorem Clean.of {t : Shared} (hc : Clean s)
    (htx : ∀ pid tx c, t.txs pid = some tx → tx.created = some c →
      ∃ tx₀, s.txs pid = some tx₀ ∧ tx₀.created = some c)
    (hrows : t.db.orders = s.db.orders) : Clean t where
  fresh pid tx c h hcr := by
    obtain ⟨tx₀, h₀, hcr₀⟩ := htx pid tx c h hcr
    rw [hrows]
    exact hc.fresh pid tx₀ c h₀ hcr₀
  apart pid q tx tx' c c' hne h hcr h' hcr' := by
    obtain ⟨tx₀, h₀, hcr₀⟩ := htx pid tx c h hcr
    obtain ⟨tx₀', h₀', hcr₀'⟩ := htx q tx' c' h' hcr'
    exact hc.apart pid q tx₀ tx₀' c c' hne h₀ hcr₀ h₀' hcr₀'

theorem Clean.release (hc : Clean s) : Clean (release pid s) := by
  refine hc.of (fun q tx c h hcr => ?_) rfl
  rw [txs_release] at h
  split at h
  next => cases h
  next => exact ⟨tx, h, hcr⟩

theorem Clean.moved (hc : Clean s) (a : Move) : Clean (moved s a) := by
  cases a with
  | chain | tick | prune => exact hc.of (fun q tx c h hcr => ⟨tx, h, hcr⟩) rfl

theorem collides_comm (id id' : OrderId) (p p' : Placement) :
    collides id p id' p' = collides id' p' id p := by
  rw [Bool.eq_iff_iff]
  simp only [collides, Bool.or_eq_true, Bool.and_eq_true, decide_eq_true_eq,
    Option.isSome_iff_exists]
  constructor
  · rintro ((h | h) | ⟨⟨r, h⟩, h'⟩)
    · exact .inl (.inl h.symm)
    · exact .inl (.inr h.symm)
    · exact .inr ⟨⟨r, h' ▸ h⟩, h'.symm⟩
  · rintro ((h | h) | ⟨⟨r, h⟩, h'⟩)
    · exact .inl (.inl h.symm)
    · exact .inl (.inr h.symm)
    · exact .inr ⟨⟨r, h' ▸ h⟩, h'.symm⟩

/-- A row after an effect has a row with the same placement before it, or was
inserted by the transaction that commits. -/
theorem row_origin (hc : Clean s) (h : (after pid e o s).db.orders.lookup id = some row) :
    (∃ row₀, s.db.orders.lookup id = some row₀ ∧ row.toPlacement = row₀.toPlacement) ∨
      ∃ tx p, e = .commit ∧ s.txs pid = some tx ∧ tx.created = some (id, p) ∧
        row = p.opened := by
  have hstep : RowStep s pid e id _ _ := row_step hc o id
  rw [h] at hstep
  generalize hrow₀ : s.db.orders.lookup id = r at hstep
  cases r with
  | some row₀ =>
    obtain ⟨row', hrow', hp⟩ := hstep.kept
    obtain rfl := Option.some.inj hrow'
    exact .inl ⟨row₀, rfl, hp⟩
  | none =>
    cases hstep with
    | created he htx hp => exact .inr ⟨_, _, he, htx, hp, rfl⟩

theorem Clean.after (hc : Clean s) (hp : Permits y pid e o s) : Clean (after pid e o s) where
  fresh q tx c h hcr id row hrow := by
    have horigin := row_origin hc hrow
    by_cases hq : q = pid
    · subst hq
      obtain ⟨hne, tx₀, h₀, hcr₀⟩ | ⟨data, needsRef, he, -, hno⟩ := created_after h hcr
      · obtain ⟨row₀, hrow₀, hpl⟩ | ⟨tx', p, he, -⟩ := horigin
        · rw [hpl]
          exact hc.fresh q tx₀ c h₀ hcr₀ id row₀ hrow₀
        · exact absurd he hne
      · obtain ⟨row₀, hrow₀, hpl⟩ | ⟨tx', p, he', -⟩ := horigin
        · rw [hpl]
          exact hno id row₀ hrow₀
        · cases he.symm.trans he'
    · rw [txs_other hq] at h
      obtain ⟨row₀, hrow₀, hpl⟩ | ⟨tx', p, -, h', hcr', rfl⟩ := horigin
      · rw [hpl]
        exact hc.fresh q tx c h hcr id row₀ hrow₀
      · exact hc.apart q pid tx tx' c (id, p) hq h hcr h' hcr'
  apart q q' tx tx' c c' hne h hcr h' hcr' := by
    -- An insertion of the process itself waits for those of the others.
    have hwait (q : Pid) (tx tx' : Tx) (c c' : OrderId × Placement) (hq : q ≠ pid)
        (hown : (Desk.after pid e o s).txs pid = some tx) (hc₁ : tx.created = some c)
        (hthat : s.txs q = some tx') (hc₂ : tx'.created = some c') :
        collides c.1 c.2 c'.1 c'.2 = false := by
      obtain ⟨-, tx₀, h₀, hcr₀⟩ | ⟨data, needsRef, rfl, rfl, -⟩ := created_after hown hc₁
      · exact hc.apart pid q tx₀ tx' c c' (Ne.symm hq) h₀ hcr₀ hthat hc₂
      · exact hp q hq tx' c' hthat hc₂
    by_cases hq : q = pid
    · subst hq
      rw [txs_other (Ne.symm hne)] at h'
      exact hwait q' tx tx' c c' (Ne.symm hne) h hcr h' hcr'
    · rw [txs_other hq] at h
      by_cases hq' : q' = pid
      · subst hq'
        rw [collides_comm]
        exact hwait q tx' tx c' c hq h' hcr' h hcr
      · rw [txs_other hq'] at h'
        exact hc.apart q q' tx tx' c c' hne h hcr h' hcr'

variable {allowed : Call → Prop} {t : Shared} {out : Option (Pid × Effect)} {w : Office}
  {tr : DeskHistory}

theorem Clean.step (hc : Clean s) (h : Step (desk y allowed) s out t) : Clean t := by
  cases h with
  | same => exact hc
  | effect pid e o hp => exact hc.after hp
  | dies pid => exact hc.release
  | moved a h => exact hc.moved a

theorem orders_moved (s : Shared) (a : Move) : (moved s a).db.orders = s.db.orders := by
  cases a <;> rfl

/-- Rows change only by the effects of services. -/
theorem row_of_step (hc : Clean s) (h : Step (desk y allowed) s out t) (id : OrderId) :
    t.db.orders.lookup id = s.db.orders.lookup id ∨
      ∃ pid e, out = some (pid, e) ∧
        RowStep s pid e id (s.db.orders.lookup id) (t.db.orders.lookup id) := by
  cases h with
  | same => exact .inl rfl
  | effect pid e o hp => exact .inr ⟨pid, e, rfl, row_step hc o id⟩
  | dies pid => exact .inl rfl
  | moved a h =>
    left
    change (Desk.moved s a).db.orders.lookup id = _
    rw [orders_moved]

/-- Where every run starts: nothing runs and no transaction is open. -/
structure Opening (s : Shared) : Prop where
  idle : ∀ pid, s.txs pid = none
  unlocked : ∀ key, s.locks key = none

theorem Opening.clean (h : Opening s) : Clean s where
  fresh pid tx c htx := by simp [h.idle] at htx
  apart pid q tx tx' c c' _ htx := by simp [h.idle] at htx

theorem run_clean (hs : Opening s) (hr : Run (machine (desk y allowed)) (idle s) tr w) :
    Clean w.shared :=
  hr.invariant (I := fun w => Clean w.shared) hs.clean fun _ _ hc ha => hc.step (step_of_next ha)

end Lolipay.Coordinator.Steps
