import Lolipay.Coordinator.Notices
import Lolipay.Coordinator.Following
import Lolipay.Coordinator.Footprint

namespace Lolipay.Coordinator.Announcements

open Lolipay.Ledger.Storage Lolipay.Ledger.Invocation Lolipay.Ledger.Runs
open Lolipay.Async.Process
open Lolipay.Escrow.Types Lolipay.Escrow.System Lolipay.Escrow.Phases
open Lolipay.Coordinator.Orders Lolipay.Coordinator.Writes Lolipay.Coordinator.Database
open Lolipay.Coordinator.Services Lolipay.Coordinator.Indexer Lolipay.Coordinator.Desk
open Lolipay.Coordinator.Steps Lolipay.Coordinator.Footprint Lolipay.Coordinator.Replica
open Lolipay.Coordinator.Notices
open Lolipay.Escrow.Custody (sampleEnv sampleArgs)

/-- What the indexer does, with its announcements. -/
inductive Deed where
  | own (e : Effect)
  | notify (id : OrderId) (order : Order) (status : Status)

@[reducible] def Answer : Deed → Type
  | .own e => Reply e
  | .notify _ _ _ => Unit

abbrev Reporter (α : Type) := Program Deed Answer α

variable {α β : Type}

/-- A disputed event that moved the row is announced, with the row from before. -/
def announceDispute (id : OrderId) (order : Order) (n : ℕ) : Reporter ℕ :=
  if n = 0 then .pure n else .step (.notify id order .disputed) fun _ => .pure n

def handleEvent (contractId : Address) (ev : RpcEvent) (id : OrderId) (order : Order) : Reporter ℕ :=
  match ev.body with
  | .disputed raiser =>
    (applyDisputedEvent contractId raiser id order).embed .own >>= announceDispute id order
  | _ => (Indexer.handleEvent contractId ev id order).embed .own

/-- `applyEvent` with what it tells the parties of a dispute. What it tells
them of other statuses has other keys, and is left to the environment. -/
def applyEvent (home : Address) (ev : RpcEvent) : Reporter ℕ :=
  if ev.body = .other then .pure 0
  else do
    let found ← (ask (.findOrderByTradeId ev.tradeId)).embed .own
    match found, ev.contractId with
    | some (id, order), some contractId =>
      if contractId = contractIdFor order.toPlacement home then
        if notYetBoundOnChain order.status then do
          let bound ← (bindTradeToOrder contractId order).embed .own
          if bound then handleEvent contractId ev id order else .pure 0
        else handleEvent contractId ev id order
      else .pure 0
    | _, _ => .pure 0

def silent : Reporter α → Service α
  | .pure a => .pure a
  | .fail => .fail
  | .step (.own e) k => .step e fun r => silent (k r)
  | .step (.notify _ _ _) k => silent (k ())

theorem silent_embed (p : Service α) : silent (p.embed .own) = p := by
  induction p with
  | pure | fail => rfl
  | step e k ih => exact congrArg (Program.step e) (funext ih)

theorem silent_bind (p : Reporter α) (f : α → Reporter β) :
    silent (p >>= f) = silent p >>= fun a => silent (f a) := by
  induction p with
  | pure | fail => rfl
  | step d k ih =>
    cases d with
    | own e => exact congrArg (Program.step e) (funext fun r => ih r)
    | notify => exact ih ()

theorem silent_handleEvent (c : Address) (ev : RpcEvent) (id : OrderId) (order : Order) :
    silent (handleEvent c ev id order) = Indexer.handleEvent c ev id order := by
  have hannounce (n : ℕ) : silent (announceDispute id order n) = .pure n := by
    rw [announceDispute]
    split <;> rfl
  have hpure (p : Service ℕ) : (p >>= fun n => (.pure n : Service ℕ)) = p := by
    induction p with
    | pure | fail => rfl
    | step e k ih => exact congrArg (Program.step e) (funext fun r => ih r)
  rw [handleEvent]
  split
  next raiser hbody =>
    rw [silent_bind, silent_embed, funext hannounce, hpure, Indexer.handleEvent, hbody]
  next => exact silent_embed _

/-- But for the announcements this is the indexer's own program. -/
theorem silent_applyEvent (home : Address) (ev : RpcEvent) :
    silent (applyEvent home ev) = Indexer.applyEvent home ev := by
  rw [applyEvent, Indexer.applyEvent]
  split
  next => rfl
  next =>
    rw [silent_bind, silent_embed]
    congr 1
    funext found
    rcases found with _ | ⟨id, order⟩
    · rfl
    cases hc : ev.contractId with
    | none => rfl
    | some c =>
      dsimp only
      by_cases hplace : c = contractIdFor order.toPlacement home
      · rw [if_pos hplace, if_pos hplace]
        by_cases hbound : notYetBoundOnChain order.status = true
        · rw [if_pos hbound, if_pos hbound, silent_bind, silent_embed]
          congr 1
          funext bound
          cases bound with
          | true => exact silent_handleEvent _ _ _ _
          | false => rfl
        · rw [if_neg hbound, if_neg hbound]
          exact silent_handleEvent _ _ _ _
      · rw [if_neg hplace, if_neg hplace]
        rfl

/-- The coordinator and the chain with the events of the trade, the indexer's
cursor, and the mailroom. -/
structure Newsroom extends View where
  cursor : ℕ
  mail : Mailroom

/-- What goes wrong while an event is handled: the effects at which the work ends,
because they throw or the service stops, and the wallets whose look-up throws. -/
structure Mishap where
  ends : Deed → Bool := fun _ => false
  throws : Address → Bool := fun _ => false

/-- What may happen next: a call on the escrow, time, the indexer with the next
event from its read to wherever it ends, a whole `refreshOrderStatus`, an
announcement by anybody else, and the care for the outbox and for the addresses
on file. -/
inductive Turn where
  | chain (a : Action)
  | tick (time : ℕ)
  | index (hash : Option TxHash) (o : Effect → Choice) (x : Mishap)
  | refresh (order : Order) (o : Choice) (throws : Address → Bool)
  | announce (id : OrderId) (order : Order) (status : Status)
  | prune (keep : Mail → Bool)
  | contacts (lookupPerson : Address → Option Person) (alertEmail : LpId → Option String)

def under (o : Effect → Choice) (e : Effect) (s : Shared) : Shared × Reply e :=
  (after 0 e (o e) s, reply 0 e (o e) s)

/-- The handlers catch what an announcement throws. -/
def perform (o : Effect → Choice) (throws : Address → Bool) (d : Deed) (w : Shared × Mailroom) :
    (Shared × Mailroom) × Answer d :=
  match d with
  | .own e => ((after 0 e (o e) w.1, w.2), reply 0 e (o e) w.1)
  | .notify id order status => ((w.1, notifyOrderStatus w.2 id order status throws), ())

variable (q : Docket)

def indexed (w : Newsroom) (hash : Option TxHash) (o : Effect → Choice) (x : Mishap) :
    List Deed × (Shared × Mailroom) × Option ℕ :=
  match w.log[w.cursor]? with
  | none => ([], (w.shared, w.mail), none)
  | some ev =>
    complete (perform o x.throws) ((applyEvent q.home (q.rpcEvent w.cursor ev hash)).cutAt x.ends)
      (w.shared, w.mail)

/-- A refresh announces the status that it has moved the row to. -/
def refreshNotice (w : Newsroom) (order : Order) (o : Choice) : Option Status :=
  if (refreshed q order o w.shared).db.orders.lookup q.order = w.shared.db.orders.lookup q.order then none
  else o.onChain.map (·.status)

/-- Nobody but the indexer and the refresh announces a dispute of the order. -/
def admits (w : Newsroom) : Turn → Prop
  | .chain a =>
    Escrow.System.admits q.contract (w.shared.chain q.contract) a ∧
      ∀ t, (next (w.shared.chain q.contract) a).trade q.placement.tradeId = some t → q.Fits t
  | .tick time => w.shared.now ≤ time
  | .index _ o _ => w.cursor < w.log.length ∧ ∀ e, Fresh w.shared (o e) e
  | .refresh order o _ =>
    order.toPlacement = q.placement ∧ (o.onChain = none ∨ Stale q w.shared o.onChain)
  | .announce id _ status => id ≠ q.order ∨ status ≠ .disputed
  | .prune _ | .contacts _ _ => True

def turn (w : Newsroom) : Turn → Newsroom
  | .chain a =>
    { w with
      shared := moved w.shared (.chain q.contract a)
      log := w.log ++ news q.placement.tradeId (w.shared.chain q.contract) a }
  | .tick time => { w with shared := moved w.shared (.tick time) }
  | .index hash o x =>
    { w with
      shared := (indexed q w hash o x).2.1.1
      mail := (indexed q w hash o x).2.1.2
      cursor := if (indexed q w hash o x).2.2.isSome then w.cursor + 1 else w.cursor }
  | .refresh order o throws =>
    { w with
      shared := refreshed q order o w.shared
      mail := (refreshNotice q w order o).elim w.mail fun status =>
        notifyOrderStatus w.mail q.order order status throws }
  | .announce id order status => { w with mail := announce w.mail id order status }
  | .prune keep => { w with mail := { w.mail with outbox := w.mail.outbox.filter keep } }
  | .contacts lookupPerson alertEmail =>
    { w with mail := { w.mail with lookupPerson := lookupPerson, alertEmail := alertEmail } }

def noticeOf (id : OrderId) (order : Order) (status : Status) (throws : Address → Bool) :
    Option (OrderId × Status) :=
  if lookupsThrow order status throws then none else some (id, status)

def Deed.notice (throws : Address → Bool) : Deed → Option (OrderId × Status)
  | .own _ => none
  | .notify id order status => noticeOf id order status throws

/-- The notices that a turn sends out, with the order and the status. -/
def notices (w : Newsroom) : Turn → List (OrderId × Status)
  | .index hash o x => (indexed q w hash o x).1.filterMap (Deed.notice x.throws)
  | .refresh order o throws =>
    (refreshNotice q w order o).toList.filterMap fun status => noticeOf q.order order status throws
  | .announce id _ status => [(id, status)]
  | _ => []

def newsroom : Machine Newsroom Turn (List (OrderId × Status)) where
  admits := admits q
  next := turn q
  out := notices q

/-- Before the trade: the row is the order's own, and no dispute is announced. -/
structure Opens (w : Newsroom) : Prop where
  row : ∃ row, w.shared.db.orders.lookup q.order = some row ∧ row.toPlacement = q.placement ∧
    notYetBoundOnChain row.status = true
  unique : ∀ id row, w.shared.db.orders.lookup id = some row →
    row.tradeId = q.placement.tradeId → id = q.order
  untold : ∀ a, ¬ w.mail.told q.order .disputed a
  unqueued : ∀ recipient, ¬ w.mail.queued ⟨q.order, .disputed, recipient⟩

variable {q} {s : Shared} {m : Mailroom} {o : Effect → Choice} {x : Mishap} {row : Order} {id : OrderId}

/-- A settled row says when it settled. -/
def Dated (row : Order) : Prop :=
  row.status = .released ∨ row.status = .refunded → row.settledAt.isSome = true

theorem dated_setStatus (row : Order) (st : OrderStatus) (h : st ≠ .released) (h' : st ≠ .refunded) :
    Dated (row.setStatus st) := by
  rintro (hr | hr)
  · exact absurd hr h
  · exact absurd hr h'

theorem dated_settlementFieldsFrom (row : Order) (onChain : TradeOnChain) (now : ℕ) :
    Dated (settlementFieldsFrom onChain now (row.setStatus (statusMap onChain.status))) := by
  rw [settlementFieldsFrom]
  split
  next => exact fun _ => rfl
  next h =>
    apply dated_setStatus
    · cases hst : onChain.status <;> simp_all [statusMap]
    · cases hst : onChain.status <;> simp_all [statusMap]

theorem Dated.write {now : ℕ} (h : Dated row) (w : RowWrite) : Dated (w.data now row) := by
  cases w with
  | refresh a stamps =>
    have hdated := dated_settlementFieldsFrom row a.onChain now
    simp only [RowWrite.data]
    split <;> exact hdated
  | promote a => exact dated_settlementFieldsFrom row a.onChain now
  | cancel => exact dated_setStatus row .cancelled (by simp) (by simp)
  | expire => exact dated_setStatus row .expired (by simp) (by simp)
  | attest => exact dated_setStatus row .fiatPaid (by simp) (by simp)
  | autoRefund hash settlement =>
    intro _
    cases settlement with
    | none => rfl
    | some onChain =>
      simp only [RowWrite.data, Option.elim_some, settlementFieldsFrom]
      split <;> rfl
  | land target onChain hash =>
    cases target with
    | released | refunded => exact fun _ => rfl
    | funded => exact dated_setStatus row .funded (by simp) (by simp)
    | fiatPaid => exact dated_setStatus row .fiatPaid (by simp) (by simp)
    | disputed => exact dated_setStatus row .disputed (by simp) (by simp)
  | backfillSettlementHash | reconcileDisputeMetadata => exact h
  | dispute stamp | reopen stamp =>
    exact dated_setStatus row .disputed (by simp) (by simp)

theorem dated_verdict {now : ℕ} (v : Verdict) : Dated (closeDisputeRound now (v.data now row)) := by
  have hsettled : (v.data now row).settledAt.isSome = true := by
    cases v with
    | preSettle => rfl
    | postSettle outcome settled =>
      simp only [Verdict.data]
      split <;> rfl
  intro _
  rw [closeDisputeRound]
  split <;> exact hsettled

theorem Dated.step {pid : Async.Scheduling.Pid} {e : Effect} {row' : Order} (h : Dated row)
    (hstep : RowStep s pid e id (some row) (some row')) : Dated row' := by
  cases hstep with
  | same => exact h
  | wrote _ _ => exact h.write _
  | judged _ _ _ => exact dated_verdict _
  | accrued _ _ => exact h
  | stoodDown _ _ => exact dated_setStatus row .cancelled (by simp) (by simp)

structure Has (q : Docket) (s : Shared) : Prop where
  row : ∃ row, s.db.orders.lookup q.order = some row ∧ row.toPlacement = q.placement ∧ Dated row
  unique : ∀ id row, s.db.orders.lookup id = some row → row.tradeId = q.placement.tradeId → id = q.order

theorem Has.after {e : Effect} (h : Has q s) (he : e ≠ .commit) (o : Choice) :
    Has q (after 0 e o s) := by
  have hstep (id : OrderId) : RowStep s 0 e id (s.db.orders.lookup id)
      ((Desk.after 0 e o s).db.orders.lookup id) := row_step_unless (fun hc => absurd hc he) o id
  refine ⟨?_, fun id row hrow htrade => ?_⟩
  · obtain ⟨row, hrow, hplace, hdated⟩ := h.row
    have hown := hstep q.order
    rw [hrow] at hown
    obtain ⟨row', hrow', hplace'⟩ := hown.kept
    rw [hrow'] at hown
    exact ⟨row', hrow', hplace'.trans hplace, hdated.step hown⟩
  · have hother := hstep id
    cases hold : s.db.orders.lookup id with
    | none =>
      rw [hold, hrow] at hother
      cases hother with
      | created hcommit => exact absurd hcommit he
    | some old =>
      rw [hold] at hother
      obtain ⟨row', hrow', hplace'⟩ := hother.kept
      obtain rfl := Option.some.inj (hrow.symm.trans hrow')
      exact h.unique id old hold (by rw [← htrade, hplace'])

theorem every_of_silent {P : Effect → Prop} {p : Reporter α} (h : Every P (silent p)) :
    Every (fun d => ∀ e, d = .own e → P e) p := by
  induction p with
  | pure | fail => trivial
  | step d k ih =>
    cases d with
    | own e =>
      refine ⟨fun e' he => ?_, fun r => ih r (h.2 r)⟩
      obtain rfl := Deed.own.inj he
      exact h.1
    | notify id order status => exact ⟨fun e he => (by cases he), fun r => ih r h⟩

theorem Has.report {throws : Address → Bool} {p : Reporter α} {w : Shared × Mailroom} (h : Has q w.1)
    (hp : Every (fun d => ∀ e, d = .own e → e ≠ .commit) p) :
    Has q (complete (perform o throws) p w).2.1.1 := by
  induction p generalizing w with
  | pure | fail => exact h
  | step d k ih =>
    cases d with
    | own e => exact ih _ (w := (Desk.after 0 e (o e) w.1, w.2)) (h.after (hp.1 e rfl) (o e)) (hp.2 _)
    | notify id order status => exact ih () (w := (w.1, _)) h (hp.2 _)

variable (o) in
theorem complete_embed (throws : Address → Bool) (p : Service α) (w : Shared × Mailroom) :
    complete (perform o throws) (p.embed .own) w =
      ((complete (under o) p w.1).1.map .own, ((complete (under o) p w.1).2.1, w.2),
        (complete (under o) p w.1).2.2) := by
  induction p generalizing w with
  | pure | fail => rfl
  | step e k ih =>
    have hk := ih (reply 0 e (o e) w.1) (after 0 e (o e) w.1, w.2)
    change complete (perform o throws) (.step (.own e) fun r => (k r).embed .own) w = _
    simp only [complete, perform, hk, List.map_cons]
    rfl

theorem Has.found (h : Has q s) (hrow : s.db.orders.lookup q.order = some row) :
    findByTradeId s.db.orders q.placement.tradeId = some (q.order, row) := by
  obtain ⟨row', hrow', hplace, -⟩ := h.row
  obtain rfl := Option.some.inj (hrow.symm.trans hrow')
  exact Following.findByTradeId_of_unique hrow (by rw [hplace]) h.unique

def attribution (p : Placement) (raiser : Address) : RowWrite :=
  .reconcileDisputeMetadata raiser (attributeDisputer raiser p.userAddress p.lpWallet)

structure Attributed (o : Effect → Choice) (ends : Effect → Bool) (id : OrderId) (p : Placement)
    (raiser : Address) : Prop where
  read : ends (.ask (.findOrder id)) = false
  update : ends (.write id (attribution p raiser)) = false
  stored : (o (.write id (attribution p raiser))).fails = false

instance (o : Effect → Choice) (ends : Effect → Bool) (id : OrderId) (p : Placement)
    (raiser : Address) : Decidable (Attributed o ends id p raiser) :=
  decidable_of_iff (ends (.ask (.findOrder id)) = false ∧ ends (.write id (attribution p raiser)) = false ∧
      (o (.write id (attribution p raiser))).fails = false)
    ⟨fun h => ⟨h.1, h.2.1, h.2.2⟩, fun h => ⟨h.read, h.update, h.stored⟩⟩

variable {ends : Effect → Bool}

theorem update_cutAt {w : RowWrite} (he : ends (.write id w) = false) :
    (update id w).cutAt ends = update id w := by
  refine (cutAt_step he _).trans (congrArg (Program.step _) (funext fun r => ?_))
  cases (r : Option ℕ) <;> rfl

theorem complete_update_fails {w : RowWrite} {k : ℕ → Service α}
    (hf : ends (.write id w) = true ∨ (o (.write id w)).fails = true) :
    (complete (under o) ((update id w >>= k).cutAt ends) s).2 = (s, none) := by
  rw [cutAt_bind]
  cases he : ends (.write id w) with
  | true =>
    have hcut : (update id w).cutAt ends = .fail := cutAt_ends he _
    rw [hcut]
    rfl
  | false =>
    rw [update_cutAt he]
    have hf' : (o (.write id w)).fails = true := hf.resolve_left (by simp [he])
    have hunder : under o (.write id w) s = (s, none) := by simp [under, after, reply, hf']
    change (complete (under o) (Program.bind (update id w) _) s).2 = _
    simp only [update, attempt, Program.bind, complete, hunder]

theorem complete_update {w : RowWrite} {k : ℕ → Service α} {s' : Shared} {n : ℕ}
    (he : ends (.write id w) = false) (hf : (o (.write id w)).fails = false)
    (hrun : runWrite id w s = (s', n)) :
    (complete (under o) ((update id w >>= k).cutAt ends) s).2 =
      (complete (under o) ((k n).cutAt ends) s').2 := by
  have hunder : under o (.write id w) s = (s', some n) := by simp [under, after, reply, hf, hrun]
  rw [cutAt_bind, update_cutAt he]
  change (complete (under o) (Program.bind (update id w) _) s).2 = _
  simp only [update, attempt, Program.bind, complete, hunder]

theorem runWrite_of_match {w : RowWrite} (hrow : s.db.orders.lookup id = some row)
    (hm : w.matchesRow row = true) :
    runWrite id w s = (s.setOrder id (w.data s.now row), 1) := by
  simp [runWrite, hrow, RowWrite.run, hm]

theorem runWrite_of_no_match {w : RowWrite} (hrow : s.db.orders.lookup id = some row)
    (hm : w.matchesRow row = false) : runWrite id w s = (s, 0) := by
  simp [runWrite, hrow, RowWrite.run, hm]

theorem complete_ask {query : Query} {k : query.Reply → Service α} (he : ends (.ask query) = false) :
    (complete (under o) ((ask query >>= k).cutAt ends) s).2 =
      (complete (under o) ((k (answer s (o (.ask query)) query)).cutAt ends) s).2 := by
  have hask : (ask query >>= k).cutAt ends = .step (.ask query) fun r => (k r).cutAt ends :=
    cutAt_step he _
  rw [hask]
  rfl

theorem complete_ask_ends {query : Query} {k : query.Reply → Service α} (he : ends (.ask query) = true) :
    (complete (under o) ((ask query >>= k).cutAt ends) s).2 = (s, none) := by
  have hask : (ask query >>= k).cutAt ends = .fail := cutAt_ends he _
  rw [hask]
  rfl

variable (o ends) in
theorem reconcile_ends (raiser : Address) (hrow : s.db.orders.lookup id = some row) :
    (complete (under o) ((reconcileDisputeMetadata id (some raiser)).cutAt ends) s).2.2 =
      if Attributed o ends id row.toPlacement raiser then some () else none := by
  have hprog : reconcileDisputeMetadata id (some raiser) = ask (.findOrder id) >>= fun fresh =>
      fresh.elim (.pure ()) fun fresh =>
        update id (attribution fresh.toPlacement raiser) >>= fun _ => .pure () := by
    apply congrArg (Program.bind _)
    funext fresh
    cases fresh <;> rfl
  have hread : answer s (o (.ask (.findOrder id))) (.findOrder id) = some row := hrow
  rw [hprog]
  cases hask : ends (.ask (.findOrder id)) with
  | true =>
    have hnot : ¬Attributed o ends id row.toPlacement raiser := fun h => by
      cases h.read.symm.trans hask
    rw [complete_ask_ends hask, if_neg hnot]
  | false =>
    rw [complete_ask hask, hread, Option.elim_some]
    cases he : ends (.write id (attribution row.toPlacement raiser)) with
    | true =>
      have hnot : ¬Attributed o ends id row.toPlacement raiser := fun h => by
        cases h.update.symm.trans he
      rw [complete_update_fails (.inl he), if_neg hnot]
    | false =>
      cases hf : (o (.write id (attribution row.toPlacement raiser))).fails with
      | true =>
        have hnot : ¬Attributed o ends id row.toPlacement raiser := fun h => by
          cases h.stored.symm.trans hf
        rw [complete_update_fails (.inr hf), if_neg hnot]
      | false =>
        rw [complete_update he hf rfl, if_pos ⟨hask, he, hf⟩]
        rfl

/-- A handler of a disputed event that moves the row is through with it exactly
if the attribution goes through. -/
theorem enterDispute_ends {w : RowWrite} {raiser : Address}
    (hrow : s.db.orders.lookup id = some row) :
    ((complete (under o) ((enterDispute id w (some raiser)).cutAt ends) s).2.1 = s ∧
        ((complete (under o) ((enterDispute id w (some raiser)).cutAt ends) s).2.2 = none ∨
          (complete (under o) ((enterDispute id w (some raiser)).cutAt ends) s).2.2 = some 0)) ∨
      (complete (under o) ((enterDispute id w (some raiser)).cutAt ends) s).2.2 =
        if Attributed o ends id row.toPlacement raiser then some 1 else none := by
  rw [enterDispute]
  by_cases hstops : ends (.write id w) = true ∨ (o (.write id w)).fails = true
  · rw [complete_update_fails hstops]
    exact .inl ⟨rfl, .inl rfl⟩
  · obtain ⟨he, hf⟩ := not_or.mp hstops
    rw [Bool.not_eq_true] at he hf
    cases hm : w.matchesRow row with
    | false =>
      rw [complete_update he hf (runWrite_of_no_match hrow hm)]
      exact .inl ⟨rfl, .inr rfl⟩
    | true =>
      right
      rw [complete_update he hf (runWrite_of_match hrow hm), ← write_toPlacement s.now w row]
      have hwritten : (s.setOrder id (w.data s.now row)).db.orders.lookup id =
          some (w.data s.now row) := by simp [lookup_setOrder]
      have hends := reconcile_ends o ends raiser hwritten
      change (complete (under o) ((reconcileDisputeMetadata id (some raiser) >>= fun _ =>
        (.pure 1 : Service ℕ)).cutAt ends) _).2.2 = _
      rw [cutAt_bind]
      split at hends
      next h =>
        rw [if_pos h, complete_bind (Prod.ext rfl (Prod.ext rfl hends))]
        rfl
      next h => rw [if_neg h, complete_bind_fail (Prod.ext rfl (Prod.ext rfl hends))]

variable (o ends) in
theorem applyDisputedEvent_ends (c raiser : Address) (hrow : s.db.orders.lookup id = some row) :
    ((complete (under o) ((applyDisputedEvent c (some raiser) id row).cutAt ends) s).2.1 = s ∧
        ((complete (under o) ((applyDisputedEvent c (some raiser) id row).cutAt ends) s).2.2 = none ∨
          (complete (under o) ((applyDisputedEvent c (some raiser) id row).cutAt ends) s).2.2 =
            some 0)) ∨
      (complete (under o) ((applyDisputedEvent c (some raiser) id row).cutAt ends) s).2.2 =
        if Attributed o ends id row.toPlacement raiser then some 1 else none := by
  rw [applyDisputedEvent]
  split
  next =>
    cases he : ends (.ask (.getTradeStatusStrict c row.tradeId)) with
    | true =>
      rw [complete_ask_ends he]
      exact .inl ⟨rfl, .inl rfl⟩
    | false =>
      rw [complete_ask he]
      cases answer s _ (.getTradeStatusStrict c row.tradeId) with
      | none => exact .inl ⟨rfl, .inl rfl⟩
      | some onChain =>
        dsimp only
        split
        next => exact enterDispute_ends hrow
        next => exact .inl ⟨rfl, .inr rfl⟩
  next => exact enterDispute_ends hrow

abbrev Result := List Deed × (Shared × Mailroom) × Option ℕ

structure Quiet (m : Mailroom) (x : Mishap) (r : Result) : Prop where
  mail : r.2.1.2 = m
  notices : r.1.filterMap (Deed.notice x.throws) = []

structure Loud (m : Mailroom) (x : Mishap) (id : OrderId) (row : Order) (r : Result) : Prop where
  mail : r.2.1.2 = announce m id row .disputed
  notices : r.1.filterMap (Deed.notice x.throws) = [(id, .disputed)]

/-- Nothing that follows the move of the row ends the work or throws: the read and
the update of the attribution, and the look-ups of the announcement. -/
structure Unhindered (o : Effect → Choice) (x : Mishap) (id : OrderId) (row : Order)
    (raiser : Address) : Prop where
  attributed : Attributed o (fun e => x.ends (.own e)) id row.toPlacement raiser
  reached : x.ends (.notify id row .disputed) = false
  found : lookupsThrow row .disputed x.throws = false

theorem notice_own (throws : Address → Bool) (es : List Effect) :
    (es.map Deed.own).filterMap (Deed.notice throws) = [] := by
  rw [List.filterMap_map]
  exact List.filterMap_none es

theorem quiet_embed (p : Service ℕ) :
    Quiet m x (complete (perform o x.throws) ((p.embed .own).cutAt x.ends) (s, m)) := by
  rw [cutAt_embed, complete_embed]
  exact ⟨rfl, notice_own _ _⟩

/-- What comes of an event: nothing is told, or both parties are told of the
dispute that was entered. -/
def Reports (o : Effect → Choice) (x : Mishap) (body : EventBody) (id : OrderId) (row : Order)
    (s : Shared) (m : Mailroom) (r : Result) : Prop :=
  (Quiet m x r ∧ ∀ raiser, body = .disputed (some raiser) →
    r.2.1.1 = s ∨ ¬Unhindered o x id row raiser) ∨
  (∃ raiser, body = .disputed (some raiser) ∧ Unhindered o x id row raiser ∧ Loud m x id row r)

theorem announceDispute_reports {body : EventBody} {raiser : Address} {es : List Effect} {s' : Shared}
    (hbody : body = .disputed (some raiser))
    (hattr : Attributed o (fun e => x.ends (.own e)) id row.toPlacement raiser) :
    Reports o x body id row s m
      (es.map .own ++ (complete (perform o x.throws) ((announceDispute id row 1).cutAt x.ends) (s', m)).1,
        (complete (perform o x.throws) ((announceDispute id row 1).cutAt x.ends) (s', m)).2) := by
  have hprog : announceDispute id row 1 = .step (.notify id row .disputed) fun _ => .pure 1 := rfl
  rw [hprog]
  cases he : x.ends (.notify id row .disputed) with
  | true =>
    rw [cutAt_ends he]
    refine .inl ⟨⟨rfl, by simp [complete, Deed.notice]⟩, fun raiser' h => .inr fun hgoes => ?_⟩
    cases hgoes.reached.symm.trans he
  | false =>
    rw [cutAt_step he]
    cases hthrow : lookupsThrow row .disputed x.throws with
    | true =>
      refine .inl ⟨?_, fun raiser' h => .inr fun hgoes => ?_⟩
      · constructor
        · simp [complete, perform, notifyOrderStatus, hthrow, Program.cutAt]
        · simp [complete, perform, Program.cutAt, Deed.notice, noticeOf, hthrow]
      · cases hgoes.found.symm.trans hthrow
    | false =>
      refine .inr ⟨raiser, hbody, ⟨hattr, he, hthrow⟩, ?_, ?_⟩
      · simp [complete, perform, notifyOrderStatus, hthrow, Program.cutAt]
      · simp [complete, perform, Program.cutAt, Deed.notice, noticeOf, hthrow]

theorem handleEvent_reports (c : Address) (ev : RpcEvent) (hrow : s.db.orders.lookup id = some row)
    (hbody : ev.body ≠ .disputed none) :
    Reports o x ev.body id row s m
      (complete (perform o x.throws) ((handleEvent c ev id row).cutAt x.ends) (s, m)) := by
  rw [handleEvent]
  split
  next raiser hraiser =>
    cases raiser with
    | none => exact absurd hraiser hbody
    | some raiser =>
      rw [cutAt_bind, cutAt_embed]
      have hlift := complete_embed o x.throws
        ((applyDisputedEvent c (some raiser) id row).cutAt fun e => x.ends (.own e)) (s, m)
      have hends := applyDisputedEvent_ends o (fun e => x.ends (.own e)) c raiser hrow
      obtain ⟨⟨es, s', n⟩, hr⟩ : ∃ r, r = complete (under o)
          ((applyDisputedEvent c (some raiser) id row).cutAt fun e => x.ends (.own e)) s := ⟨_, rfl⟩
      rw [← hr] at hlift hends
      dsimp only at hlift hends
      obtain ⟨rfl, rfl | rfl⟩ | hn := hends
      · rw [complete_bind_fail hlift]
        exact .inl ⟨⟨rfl, notice_own _ _⟩, fun _ _ => .inl rfl⟩
      · rw [complete_bind hlift]
        exact .inl ⟨⟨rfl, by simp [announceDispute, Program.cutAt, complete, Deed.notice]⟩,
          fun _ _ => .inl rfl⟩
      · split at hn
        next hattr =>
          subst hn
          rw [complete_bind hlift]
          exact announceDispute_reports hraiser hattr
        next hattr =>
          subst hn
          rw [complete_bind_fail hlift]
          refine .inl ⟨⟨rfl, notice_own _ _⟩, fun raiser' h => .inr fun hgoes => ?_⟩
          rw [hraiser] at h
          obtain rfl : raiser = raiser' := by simpa using h
          exact hattr hgoes.attributed
  next hnot =>
    exact .inl ⟨quiet_embed _, fun raiser h => absurd h (hnot _)⟩

theorem reports_nothing {body : EventBody} (n : Option ℕ) :
    Reports o x body id row s m ([], (s, m), n) :=
  .inl ⟨⟨rfl, rfl⟩, fun _ _ => .inl rfl⟩

theorem Reports.ask {body : EventBody} (query : Query) {k : query.Reply → Reporter ℕ}
    (h : Reports o x body id row s m
      (complete (perform o x.throws) ((k (answer s (o (.ask query)) query)).cutAt x.ends) (s, m))) :
    Reports o x body id row s m
      (complete (perform o x.throws) (((Database.ask query).embed .own >>= k : Reporter ℕ).cutAt x.ends) (s, m)) := by
  cases he : x.ends (.own (.ask query)) with
  | true =>
    have hprog : ((Database.ask query).embed .own >>= k).cutAt x.ends = .fail := cutAt_ends he _
    rw [hprog]
    exact reports_nothing _
  | false =>
    have hprog : ((Database.ask query).embed .own >>= k).cutAt x.ends =
        .step (.own (.ask query)) fun r => (k r).cutAt x.ends := cutAt_step he _
    rw [hprog]
    obtain ⟨hquiet, hsame⟩ | ⟨raiser, hbody, hattr, hloud⟩ := h
    · exact .inl ⟨⟨hquiet.mail, hquiet.notices⟩, hsame⟩
    · exact .inr ⟨raiser, hbody, hattr, hloud.mail, hloud.notices⟩

theorem bodyOf_ne_disputed_none (ev : Event) : bodyOf ev ≠ .disputed none := by
  cases ev <;> simp [bodyOf]

def boundBy (row : Order) : Option (Option TradeOnChain) → Service Bool
  | none => .fail
  | some none => .pure false
  | some (some trade) => .pure (Binding.verifyTradeMatchesOrder trade row.toOrderBindingFields = [])

/-- What the indexer's whole work on an event reports. -/
theorem applyEvent_reports {i : ℕ} {ev : Event} {hash : Option TxHash} (h : Has q s)
    (hrow : s.db.orders.lookup q.order = some row) :
    Reports o x (bodyOf ev) q.order row s m
      (complete (perform o x.throws) ((applyEvent q.home (q.rpcEvent i ev hash)).cutAt x.ends) (s, m)) := by
  rw [applyEvent]
  split
  next => exact reports_nothing _
  next =>
    apply Reports.ask
    have hread : answer s (o (.ask (.findOrderByTradeId (q.rpcEvent i ev hash).tradeId)))
        (.findOrderByTradeId (q.rpcEvent i ev hash).tradeId) = some (q.order, row) := h.found hrow
    have hhandle := handleEvent_reports (o := o) (x := x) (m := m) q.contract
      (q.rpcEvent i ev hash) hrow (bodyOf_ne_disputed_none ev)
    have hcontract : q.contract = contractIdFor row.toPlacement q.home := by
      obtain ⟨row', hrow', hplace, -⟩ := h.row
      obtain rfl := Option.some.inj (hrow.symm.trans hrow')
      rw [hplace]
      rfl
    rw [hread]
    simp only [Docket.rpcEvent, if_pos hcontract] at hhandle ⊢
    split
    next =>
      generalize handleEvent q.contract _ q.order row = rest at hhandle ⊢
      have hprog : ((bindTradeToOrder q.contract row).embed .own >>= fun bound : Bool =>
          if bound = true then rest else .pure 0) =
          (ask (.getTradeStatusStrict q.contract row.tradeId)).embed .own >>= fun trade =>
            (boundBy row trade).embed .own >>= fun bound : Bool => if bound = true then rest else .pure 0 := by
        refine congrArg (Program.step _) (funext fun trade => ?_)
        obtain _ | _ | trade := (trade : Option (Option TradeOnChain)) <;> rfl
      rw [hprog]
      apply Reports.ask
      cases answer s _ (.getTradeStatusStrict q.contract row.tradeId) with
      | none => exact reports_nothing _
      | some trade =>
        cases trade with
        | none => exact reports_nothing _
        | some trade =>
          change Reports o x (bodyOf ev) q.order row s m (complete (perform o x.throws)
            (Program.cutAt x.ends (if _ then rest else .pure 0)) (s, m))
          split
          next => exact hhandle
          next => exact reports_nothing _
    next => exact hhandle

section News

variable {w w' : Newsroom} {a : Turn} {lp : Address}

theorem Has.index (h : Has q w.shared) (hash : Option TxHash) :
    Has q (indexed q w hash o x).2.1.1 := by
  rw [indexed]
  split
  next => exact h
  next ev _ =>
    have hindexer : Every (· ≠ .commit) (Indexer.applyEvent q.home (q.rpcEvent w.cursor ev hash)) := by
      refine applyEvent_every q.home (by simp) (by simp) (fun e id he _ hc => ?_) _
      subst hc
      cases he
    rw [← silent_applyEvent] at hindexer
    exact Has.report h ((every_of_silent hindexer).cutAt x.ends)

theorem Has.refresh (h : Has q s) (order : Order) (o : Choice) : Has q (refreshed q order o s) := by
  obtain hsame | ⟨a, stamps, hwrite, -⟩ := Following.refreshed_cases q order o s
  · rw [hsame]
    exact h
  · rw [hwrite]
    exact h.after (by simp) o

theorem Has.turn (h : Has q w.shared) (a : Turn) : Has q (turn q w a).shared := by
  cases a with
  | index hash o x => exact h.index hash
  | refresh order o throws => exact h.refresh order o
  | chain a | tick time | announce id order status | prune keep | contacts p e => exact ⟨h.row, h.unique⟩

theorem Has.of_opens (h : Opens q w) : Has q w.shared := by
  obtain ⟨row, hrow, hplace, hunbound⟩ := h.row
  refine ⟨⟨row, hrow, hplace, ?_⟩, h.unique⟩
  rintro (hst | hst)
  · rw [hst] at hunbound
    cases hunbound
  · rw [hst] at hunbound
    cases hunbound

/-- What the mailroom holds about disputes of the order, by whether one was announced. -/
structure Books (q : Docket) (lp : Address) (announced : Prop) (m : Mailroom) : Prop where
  user : m.told q.order .disputed q.placement.userAddress ↔ announced
  lp : m.told q.order .disputed lp ↔ announced
  mails : ¬ announced → ∀ recipient, ¬ m.queued ⟨q.order, .disputed, recipient⟩

variable {announced : Prop} {status : Status}

theorem Books.notify (h : Books q lp announced m) (hlp : q.placement.lpWallet = some lp)
    (hne : lp ≠ q.placement.userAddress) (hplace : row.toPlacement = q.placement) (status : Status) :
    Books q lp (announced ∨ status = .disputed) (announce m q.order row status) := by
  have hrows : (rowsFor row status).map (·.1) = [q.placement.userAddress, lp] := by
    simp [rowsFor, hplace, hlp, hne]
  refine ⟨?_, ?_, fun hnot recipient hq => ?_⟩
  · rw [told_announce, hrows, h.user]
    simp [eq_comm]
  · rw [told_announce, hrows, h.lp]
    simp [eq_comm]
  · obtain hq | ⟨-, hst⟩ := queued_announce hq
    · exact h.mails (fun ha => hnot (.inl ha)) recipient hq
    · exact hnot (.inr hst.symm)

theorem Books.elsewhere (h : Books q lp announced m) (hother : id ≠ q.order ∨ status ≠ .disputed)
    (row : Order) : Books q lp announced (announce m id row status) := by
  have hnot : ¬ (q.order = id ∧ Status.disputed = status) := by
    rintro ⟨rfl, rfl⟩
    simp at hother
  refine ⟨?_, ?_, fun ha recipient hq => ?_⟩
  · rw [told_announce, h.user]
    exact or_iff_left fun hx => hnot hx.2
  · rw [told_announce, h.lp]
    exact or_iff_left fun hx => hnot hx.2
  · obtain hq | hx := queued_announce hq
    · exact h.mails ha recipient hq
    · exact hnot hx

theorem index_reports (h : Has q w.shared) (hash : Option TxHash) {ev : Event}
    (hev : w.log[w.cursor]? = some ev) (hrow : w.shared.db.orders.lookup q.order = some row) :
    Reports o x (bodyOf ev) q.order row w.shared w.mail (indexed q w hash o x) := by
  simp only [indexed, hev]
  exact applyEvent_reports h hrow

theorem Books.turn (hb : Books q lp announced w.mail) (hlp : q.placement.lpWallet = some lp)
    (hne : lp ≠ q.placement.userAddress) (hw : Has q w.shared) (ha : admits q w a) :
    Books q lp (announced ∨ (q.order, .disputed) ∈ notices q w a) (turn q w a).mail := by
  cases a with
  | chain | tick | contacts =>
    simp only [notices, List.not_mem_nil, or_false]
    exact ⟨hb.user, hb.lp, hb.mails⟩
  | prune keep =>
    simp only [notices, List.not_mem_nil, or_false]
    refine ⟨hb.user, hb.lp, fun hnot recipient hq => ?_⟩
    obtain ⟨mail, hmem, hkey⟩ := hq
    exact hb.mails hnot recipient ⟨mail, (List.mem_filter.mp hmem).1, hkey⟩
  | announce id order status =>
    have hout : (q.order, Status.disputed) ∉ notices q w (.announce id order status) := by
      simp only [notices, List.mem_singleton, Prod.mk.injEq]
      rintro ⟨rfl, rfl⟩
      simp [admits] at ha
    simp only [hout, or_false]
    exact hb.elsewhere ha order
  | refresh order o throws =>
    simp only [notices, Announcements.turn]
    cases refreshNotice q w order o with
    | none => simpa using hb
    | some status =>
      have hnotify := hb.notify hlp hne ha.1 status
      cases hthrow : lookupsThrow order status throws with
      | true => simpa [noticeOf, notifyOrderStatus, hthrow] using hb
      | false =>
        have hnotice : noticeOf q.order order status throws = some (q.order, status) := by
          simp [noticeOf, hthrow]
        have hmail : notifyOrderStatus w.mail q.order order status throws =
            announce w.mail q.order order status := by
          simp [notifyOrderStatus, hthrow]
        simpa [hnotice, hmail, eq_comm] using hnotify
  | index hash o x =>
    obtain ⟨ev, hev⟩ : ∃ ev, w.log[w.cursor]? = some ev := ⟨_, List.getElem?_eq_getElem ha.1⟩
    obtain ⟨row, hrow, hplace, -⟩ := hw.row
    simp only [notices, Announcements.turn]
    obtain ⟨hquiet, -⟩ | ⟨raiser, -, -, hloud⟩ := index_reports hw (o := o) (x := x) hash hev hrow
    · rw [hquiet.mail, hquiet.notices]
      simpa using hb
    · rw [hloud.mail, hloud.notices]
      simpa using hb.notify hlp hne hplace .disputed

theorem books_run {tr : List (Entry Newsroom Turn (List (OrderId × Status)))} (hw : Opens q w)
    (hlp : q.placement.lpWallet = some lp) (hne : lp ≠ q.placement.userAddress)
    (hr : Run (newsroom q) w tr w') :
    Has q w'.shared ∧ Books q lp ((q.order, .disputed) ∈ tr.flatMap (·.out)) w'.mail := by
  induction hr with
  | nil =>
    refine ⟨.of_opens hw, ?_⟩
    simp only [List.flatMap_nil, List.not_mem_nil]
    exact ⟨iff_false_intro (hw.untold _), iff_false_intro (hw.untold _), fun _ => hw.unqueued⟩
  | @snoc tr u _ a ha ih =>
    refine ⟨ih.1.turn a, ?_⟩
    have hb := ih.2.turn hlp hne ih.1 ha
    simpa [List.flatMap_append, Machine.entry, newsroom] using hb

structure Round (q : Docket) (e : Entry Newsroom Turn (List (OrderId × Status)))
    (o : Effect → Choice) (x : Mishap) (raiser : Address) (row : Order) : Prop where
  act : ∃ hash, e.act = .index hash o x
  event : ∃ tradeId, e.pre.log[e.pre.cursor]? = some (.disputed tradeId raiser)
  found : e.pre.shared.db.orders.lookup q.order = some row
  before : row.status ≠ .disputed
  after : ∃ row', e.post.shared.db.orders.lookup q.order = some row' ∧ row'.status = .disputed

/-- Both wallets learn of the dispute, in the words for a settled order if it was one. -/
structure Announced (q : Docket) (lp : Address) (before after : Mailroom) (row : Order) : Prop where
  user : Learns before after q.order row q.placement.userAddress
  lp : Learns before after q.order row lp
  settled : row.status = .released ∨ row.status = .refunded → disputeText row.settledAt =
    ⟨"Post-settlement dispute opened", "A dispute was raised after this order settled — it is under review by the platform."⟩

theorem Dated.text (h : Dated row) (hst : row.status = .released ∨ row.status = .refunded) :
    disputeText row.settledAt =
      ⟨"Post-settlement dispute opened", "A dispute was raised after this order settled — it is under review by the platform."⟩ := by
  simp [disputeText, messageFor, h hst]

/-- A round reaches both parties if and only if no dispute of the order was
announced before and nothing that follows the move of the row ends the work or throws. -/
theorem round_announced_iff {tr₁ tr₂ : List (Entry Newsroom Turn (List (OrderId × Status)))}
    {e : Entry Newsroom Turn (List (OrderId × Status))} {raiser : Address} (hw : Opens q w)
    (hlp : q.placement.lpWallet = some lp) (hne : lp ≠ q.placement.userAddress)
    (hr : Run (newsroom q) w (tr₁ ++ e :: tr₂) w') (hround : Round q e o x raiser row) :
    Announced q lp e.pre.mail e.post.mail row ↔
      (q.order, .disputed) ∉ tr₁.flatMap (·.out) ∧ Unhindered o x q.order row raiser := by
  obtain ⟨hpre, ha, he, -⟩ := hr.at_entry
  obtain ⟨hhas, hbooks⟩ := books_run hw hlp hne hpre
  obtain ⟨hash, hact⟩ := hround.act
  obtain ⟨tid, hev⟩ := hround.event
  obtain ⟨row', hrow', hplace, hdated⟩ := hhas.row
  obtain rfl := Option.some.inj (hround.found.symm.trans hrow')
  have hpost : e.post = turn q e.pre (.index hash o x) := hact ▸ entry_post he
  have hmail : e.post.mail = (indexed q e.pre hash o x).2.1.2 := by rw [hpost]; rfl
  have hmoved : (indexed q e.pre hash o x).2.1.1 ≠ e.pre.shared := by
    intro hsame
    obtain ⟨row', hrow', hst⟩ := hround.after
    rw [hpost] at hrow'
    change (indexed q e.pre hash o x).2.1.1.db.orders.lookup q.order = _ at hrow'
    rw [hsame, hround.found] at hrow'
    obtain rfl := Option.some.inj hrow'
    exact hround.before hst
  have huser : row.userAddress = q.placement.userAddress := by rw [hplace]
  have hlpRow : row.lpWallet = some lp := by rw [hplace, hlp]
  rw [hmail]
  obtain ⟨hquiet, hlost⟩ | ⟨raiser', hbody, hgoes, hloud⟩ :=
    index_reports hhas (o := o) (x := x) hash hev hround.found
  · obtain hsame | hlost := hlost raiser rfl
    · exact absurd hsame hmoved
    · rw [hquiet.mail]
      refine iff_of_false (fun h => ?_) fun h => hlost h.2
      obtain ⟨n, hmem, hnew, -⟩ := h.user.notified
      exact hnew hmem
  · obtain rfl : raiser = raiser' := by simpa [bodyOf] using hbody
    rw [hloud.mail]
    constructor
    · intro h
      refine ⟨fun hmem => ?_, hgoes⟩
      exact not_learns_of_told (hbooks.user.mpr hmem) h.user
    · rintro ⟨hfirst, -⟩
      have hboth := both_learn (m := e.pre.mail) hlpRow (huser ▸ hne)
        (huser ▸ mt hbooks.user.mp hfirst) (mt hbooks.lp.mp hfirst) (hbooks.mails hfirst)
      exact ⟨huser ▸ hboth.1, hboth.2, hdated.text⟩

end News

def followed : List Action → Newsroom → List Turn
  | [], _ => []
  | a :: as, w =>
    let w' := turn sampleDocket w (.chain a)
    let follow := .index none (asItIs w'.shared) {}
    .chain a :: follow :: followed as (turn sampleDocket w' follow)

def sampleMail : Mailroom :=
  ⟨[], [], fun address => if address = ⟨7⟩ then some ⟨1, some "user"⟩ else none, fun _ => some "lp", 0⟩

def sampleNewsroom : Newsroom := ⟨⟨sampleDesk sampleOrders, []⟩, 0, sampleMail⟩

theorem sampleNewsroom_opens : Opens sampleDocket sampleNewsroom where
  row := ⟨samplePlacement.opened, rfl, rfl, rfl⟩
  unique := sampleFollower_starts.unique
  untold a := by simp [Mailroom.told, sampleNewsroom, sampleMail]
  unqueued recipient := by simp [Mailroom.queued, sampleNewsroom, sampleMail]

/-- A dispute of a paid trade, its verdict, and one more dispute after that. -/
def twoRounds : List Action :=
  [.call (sampleEnv 1000 [⟨6⟩]) (.createTrade 1 sampleArgs),
    .call (sampleEnv 1500 [⟨7⟩]) (.markFiatPaid 1 ⟨7⟩),
    .call (sampleEnv 1600 [⟨7⟩]) (.raiseDispute 1 ⟨7⟩),
    .call (sampleEnv 1700 [⟨3⟩]) (.resolve 1 .release ⟨3⟩),
    .call (sampleEnv 1800 [⟨6⟩]) (.raiseDispute 1 ⟨6⟩)]

def twoRoundTurns : List Turn := followed twoRounds sampleNewsroom

theorem twoRoundTurns_admitted : Admitted (newsroom sampleDocket) sampleNewsroom twoRoundTurns := by
  refine ⟨⟨?_, fits_of_all ?_⟩, ⟨?_, asItIs_fresh _⟩, ⟨?_, fits_of_all ?_⟩, ⟨?_, asItIs_fresh _⟩,
    ⟨?_, fits_of_all ?_⟩, ⟨?_, asItIs_fresh _⟩, ⟨?_, fits_of_all ?_⟩, ⟨?_, asItIs_fresh _⟩,
    ⟨?_, fits_of_all ?_⟩, ⟨?_, asItIs_fresh _⟩, trivial⟩
  all_goals decide +kernel

def sampleBefore (n : ℕ) : Newsroom :=
  final (newsroom sampleDocket) sampleNewsroom (twoRoundTurns.take n)

def sampleRow (n : ℕ) : Order :=
  ((sampleBefore n).shared.db.orders.lookup 0).getD samplePlacement.opened

def sampleIndexed (n : ℕ) : Entry Newsroom Turn (List (OrderId × Status)) :=
  (newsroom sampleDocket).entry (sampleBefore n) (.index none (asItIs (sampleBefore n).shared) {})

def sampleHistory (n : ℕ) : List (Entry Newsroom Turn (List (OrderId × Status))) :=
  history (newsroom sampleDocket) sampleNewsroom (twoRoundTurns.take n)

theorem sampleIndexed_run (n : ℕ) (h : (sampleBefore n).cursor < (sampleBefore n).log.length) :
    Run (newsroom sampleDocket) sampleNewsroom (sampleHistory n ++ [sampleIndexed n])
      (sampleIndexed n).post := by
  have hsplit : twoRoundTurns.take n ++ twoRoundTurns.drop n = twoRoundTurns := List.take_append_drop _ _
  have hadmitted := (Admitted.of_append (hsplit.symm ▸ twoRoundTurns_admitted)).1
  exact (Run.of_actions _ _ hadmitted).snoc _ ⟨h, asItIs_fresh _⟩

theorem sample_round (n : ℕ) (raiser : Address)
    (hev : (sampleBefore n).log[(sampleBefore n).cursor]? = some (.disputed 1 raiser))
    (hfound : (sampleBefore n).shared.db.orders.lookup 0 = some (sampleRow n))
    (hbefore : (sampleRow n).status ≠ .disputed)
    (hafter : ((sampleIndexed n).post.shared.db.orders.lookup 0).map (·.status) = some .disputed) :
    Round sampleDocket (sampleIndexed n) (asItIs (sampleBefore n).shared) {} raiser (sampleRow n) := by
  obtain ⟨row', hrow', hst⟩ := Option.map_eq_some_iff.mp hafter
  exact ⟨⟨none, rfl⟩, ⟨1, hev⟩, hfound, hbefore, ⟨row', hrow', hst⟩⟩

theorem sample_round_announced :
    Announced sampleDocket ⟨6⟩ (sampleBefore 5).mail (sampleIndexed 5).post.mail (sampleRow 5) := by
  have hround := sample_round 5 ⟨7⟩ (by decide +kernel) (by decide +kernel) (by decide +kernel)
    (by decide +kernel)
  have hrun := sampleIndexed_run 5 (by decide +kernel)
  exact (round_announced_iff sampleNewsroom_opens rfl (by decide) hrun hround).mpr
    ⟨by decide +kernel, ⟨rfl, rfl, rfl⟩, rfl, by decide +kernel⟩

/-- The round after the verdict is announced to nobody. -/
theorem second_round_unannounced :
    Opens sampleDocket sampleNewsroom ∧
    Run (newsroom sampleDocket) sampleNewsroom (sampleHistory 9 ++ [sampleIndexed 9])
      (sampleIndexed 9).post ∧
    Round sampleDocket (sampleIndexed 9) (asItIs (sampleBefore 9).shared) {} ⟨6⟩ (sampleRow 9) ∧
    (sampleRow 9).status = .released ∧
    (sampleIndexed 9).post.mail.notifications = (sampleBefore 9).mail.notifications ∧
    (sampleIndexed 9).post.mail.outbox = (sampleBefore 9).mail.outbox ∧
    ¬ Announced sampleDocket ⟨6⟩ (sampleBefore 9).mail (sampleIndexed 9).post.mail (sampleRow 9) := by
  have hsame : (sampleIndexed 9).post.mail.notifications = (sampleBefore 9).mail.notifications := by
    decide +kernel
  refine ⟨sampleNewsroom_opens, sampleIndexed_run 9 (by decide +kernel),
    sample_round 9 ⟨6⟩ (by decide +kernel) (by decide +kernel) (by decide +kernel) (by decide +kernel),
    by decide +kernel, hsame, by decide +kernel, fun h => ?_⟩
  obtain ⟨n, hmem, hnew, -⟩ := h.user.notified
  exact hnew (hsame ▸ hmem)

end Lolipay.Coordinator.Announcements
