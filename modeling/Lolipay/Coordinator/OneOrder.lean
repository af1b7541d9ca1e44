import Lolipay.Coordinator.SubmissionStages
import Lolipay.Coordinator.DailyLimit

namespace Lolipay.Coordinator.OneOrder

open Lolipay.Ledger.Storage Lolipay.Ledger.Invocation Lolipay.Ledger.Runs Lolipay.Ledger.Latch
open Lolipay.Async.Process Lolipay.Async.Scheduling Lolipay.Async.Stages
open Lolipay.Escrow.Types hiding Config
open Lolipay.Escrow.Custody (sampleEnv)
open Lolipay.Coordinator.Database hiding Effect Reply
open Lolipay.Coordinator.Desk hiding Call Choice Move body moved
open Lolipay.Coordinator.Orders Lolipay.Coordinator.Writes Lolipay.Coordinator.Steps
open Lolipay.Coordinator.Submission Lolipay.Coordinator.SubmissionStages

variable {x : Config} {v v' : Counter} {pid p : Pid} {e : Effect} {o : Choice} {q q' : Stage}
  {f : Phase} {host : Host} {id txn : TxnId} {orderId : OrderId} {row : Sep24Transaction}

/-- An order is as its creator left it, unless somebody else has moved it. -/
def Stands (v : Counter) (p : Pid) (orderId : OrderId) : Prop :=
  ∃ order, v.shared.db.orders.lookup orderId = some order ∧
    (order.status = .matched ∨ ∃ q ≠ p, v.movedBy orderId = some q)

/-- What the state has to say about a submission in each phase. -/
def PhaseFits (v : Counter) (p : Pid) (id : TxnId) : Phase → Prop
  | .reading | .fresh _ | .settled => True
  | .began _ => ∃ tx, v.shared.txs p = some tx
  | .inserted _ orderId =>
    ∃ tx data, v.shared.txs p = some tx ∧ tx.created = some (orderId, data)
  | .committed _ orderId =>
    v.opened p = orderId ∧ (orderId, p) ∈ v.created id ∧ Stands v p orderId
  | .named _ orderId | .refused orderId => (orderId, p) ∈ v.created id ∧ Stands v p orderId

def Fits (v : Counter) (p : Pid) : Stage → Prop
  | .outside | .arriving _ _ => True
  | .inside host id f => v.inFlight host id = some p ∧ PhaseFits v p id f

/-- What the others, the deaths and the world leave to a process. -/
structure Keeps (p : Pid) (v v' : Counter) : Prop where
  inFlight : ∀ host id, v.inFlight host id = some p → v'.inFlight host id = some p
  txs : v'.shared.txs p = v.shared.txs p
  opened : v'.opened p = v.opened p
  created : ∀ id, v.created id ⊆ v'.created id
  stands : ∀ orderId, Stands v p orderId → Stands v' p orderId

theorem Keeps.refl (p : Pid) (v : Counter) : Keeps p v v :=
  ⟨fun _ _ h => h, rfl, rfl, fun _ => List.Subset.refl _, fun _ h => h⟩

theorem Keeps.fits (h : Keeps p v v') (hf : Fits v p q) : Fits v' p q := by
  cases q with
  | outside | arriving => trivial
  | inside host id f =>
    refine ⟨h.inFlight host id hf.1, ?_⟩
    have hphase := hf.2
    cases f with
    | reading | fresh | settled => trivial
    | began | inserted =>
      simp only [PhaseFits, h.txs] at hphase ⊢
      exact hphase
    | committed row orderId =>
      obtain ⟨hopened, hmem, hstands⟩ := hphase
      exact ⟨h.opened.trans hopened, h.created id hmem, h.stands orderId hstands⟩
    | named | refused => exact ⟨h.created id hphase.1, h.stands _ hphase.2⟩

theorem isMatched_eq_true {s : Shared} {order : Order}
    (h : s.db.orders.lookup orderId = some order) :
    isMatched s orderId = true ↔ order.status = .matched := by
  rw [isMatched, h]
  simp

theorem stands_write {s : Shared} (hne : p ≠ pid)
    (hrows : ∀ id order, v.shared.db.orders.lookup id = some order →
      ∃ order', s.db.orders.lookup id = some order')
    (h : Stands v p orderId) : Stands (v.write pid s) p orderId := by
  obtain ⟨order, horder, hst⟩ := h
  obtain ⟨order', horder'⟩ := hrows orderId order horder
  refine ⟨order', horder', ?_⟩
  by_cases hmoved : (isMatched v.shared orderId && !isMatched s orderId) = true
  · exact .inr ⟨pid, hne.symm, by simp only [Counter.write, hmoved, if_true]⟩
  · have hsame : (v.write pid s).movedBy orderId = v.movedBy orderId := if_neg hmoved
    obtain hst | ⟨q, hq, hby⟩ := hst
    · left
      rw [← isMatched_eq_true horder']
      by_contra hnot
      apply hmoved
      rw [(isMatched_eq_true horder).mpr hst, Bool.not_eq_true _ |>.mp hnot]
      rfl
    · exact .inr ⟨q, hq, hsame.trans hby⟩

theorem keeps_write {s : Shared} (hne : p ≠ pid)
    (hrows : ∀ id order, v.shared.db.orders.lookup id = some order →
      ∃ order', s.db.orders.lookup id = some order')
    (htxs : s.txs p = v.shared.txs p) : Keeps p v (v.write pid s) where
  inFlight _ _ h := h
  txs := htxs
  opened := rfl
  created _ := List.Subset.refl _
  stands _ h := stands_write hne hrows h

theorem rows_after {s : Shared} (hc : Clean s) (pid : Pid) (e : Database.Effect) (o : Desk.Choice)
    (id : OrderId) (order : Order) (h : s.db.orders.lookup id = some order) :
    ∃ order', (after pid e o s).db.orders.lookup id = some order' := by
  have hstep : RowStep s pid e id _ _ := row_step hc o id
  rw [h] at hstep
  obtain ⟨order', horder', -⟩ := hstep.kept
  exact ⟨order', horder'⟩

theorem keeps_after (hc : Clean v.shared) (hne : p ≠ pid) (e : Database.Effect) (o : Desk.Choice) :
    Keeps p v (v.write pid (after pid e o v.shared)) :=
  keeps_write hne (rows_after hc pid e o) (txs_other hne)

theorem keeps_noteCreated (hne : p ≠ pid) (h : Keeps p v v') :
    Keeps p v (v'.noteCreated pid id orderId) where
  inFlight := h.inFlight
  txs := h.txs
  opened := (if_neg hne).trans h.opened
  created i := by
    simp only [Counter.noteCreated]
    split
    next => exact List.Subset.trans (h.created i) (List.subset_cons_self _ _)
    next => exact h.created i
  stands := h.stands

theorem keeps_setInFlight {run : Option Pid} (h : v.inFlight host id ≠ some p) :
    Keeps p v (v.setInFlight host id run) where
  inFlight host' id' hp := by
    simp only [Counter.setInFlight]
    split
    next heq =>
      obtain ⟨rfl, rfl⟩ := heq
      exact absurd hp h
    next => exact hp
  txs := rfl
  opened := rfl
  created _ := List.Subset.refl _
  stands _ h := h

theorem quiet_effect (he : quiet e = true) : (effect pid e o v).1 = v := by
  cases e <;> first | rfl | cases he

theorem createQuote_shared (user : Address) (flow : Flow) (amount : ℕ) (s : Shared) :
    (createQuote user flow amount o s).1.db.orders = s.db.orders ∧
      (createQuote user flow amount o s).1.txs = s.txs := by
  rw [createQuote]
  repeat' split
  all_goals exact ⟨rfl, rfl⟩

theorem keeps_orders {s : Shared} (horders : s.db.orders = v.shared.db.orders)
    (htxs : s.txs p = v.shared.txs p) : Keeps p v { v with shared := s } where
  inFlight _ _ h := h
  txs := htxs
  opened := rfl
  created _ := List.Subset.refl _
  stands orderId h := by
    rw [Stands, horders]
    exact h

theorem link_cases (id : TxnId) (orderId : OrderId) (account : String) (v : Counter) :
    (∃ row, v.transactions id = some row ∧ row.orderId = none ∧ row.stellarAccount = account ∧
      link id orderId account v = ({ v with
        transactions := fun i =>
          if i = id then some { row with orderId := some orderId } else v.transactions i }, 1)) ∨
      (link id orderId account v = (v, 0) ∧
        ∀ row, v.transactions id = some row → row.orderId = none →
          row.stellarAccount ≠ account) := by
  rw [link]
  split
  next hnone => exact .inr ⟨rfl, fun row hrow => by rw [hnone] at hrow; cases hrow⟩
  next row hrow =>
    split
    next h => exact .inl ⟨row, hrow, h.1, h.2, rfl⟩
    next h =>
      refine .inr ⟨rfl, fun row' hrow' hnone hacc => h ?_⟩
      rw [hrow] at hrow'
      obtain rfl := Option.some.inj hrow'
      exact ⟨hnone, hacc⟩

theorem undo_cases (pid : Pid) (orderId : OrderId) (v : Counter) :
    v.shared.db.orders.lookup orderId = none ∧ undo pid orderId v = (v, 0) ∨
      (∃ order, v.shared.db.orders.lookup orderId = some order ∧ order.status = .matched ∧
        undo pid orderId v = ({ v.write pid (v.shared.setOrder orderId (order.setStatus .cancelled))
          with cancelled := (orderId, pid) :: v.cancelled }, 1)) ∨
      ∃ order, v.shared.db.orders.lookup orderId = some order ∧ order.status ≠ .matched ∧
        undo pid orderId v =
          ({ v with late := (orderId, pid, v.movedBy orderId) :: v.late }, 0) := by
  rw [undo]
  split
  next hnone => exact .inl ⟨hnone, rfl⟩
  next order horder =>
    split
    next hst => exact .inr (.inl ⟨order, horder, hst, rfl⟩)
    next hst => exact .inr (.inr ⟨order, horder, hst, rfl⟩)

theorem link_frame (id : TxnId) (orderId : OrderId) (account : String) (v : Counter) :
    (link id orderId account v).1.shared = v.shared ∧
      (link id orderId account v).1.inFlight = v.inFlight ∧
      (link id orderId account v).1.created = v.created := by
  rw [link]
  repeat' split
  all_goals exact ⟨rfl, rfl, rfl⟩

theorem undo_frame (pid : Pid) (orderId : OrderId) (v : Counter) :
    (undo pid orderId v).1.transactions = v.transactions ∧
      (undo pid orderId v).1.inFlight = v.inFlight ∧
      (undo pid orderId v).1.created = v.created := by
  rw [undo]
  repeat' split
  all_goals exact ⟨rfl, rfl, rfl⟩

theorem rows_setOrder {s : Shared} {order : Order} (id : OrderId) (order' : Order)
    (h : s.db.orders.lookup id = some order') :
    ∃ order'', (s.setOrder orderId order).db.orders.lookup id = some order'' := by
  rw [lookup_setOrder]
  split
  next => exact ⟨order, rfl⟩
  next => exact ⟨order', h⟩

theorem keeps_effect (hc : Clean v.shared) (hne : p ≠ pid)
    (hleave : ∀ host id, e = .leave host id → v.inFlight host id = some pid) :
    Keeps p v (effect pid e o v).1 := by
  cases e with
  | desk e => exact keeps_after hc hne e _
  | within id e =>
    simp only [effect]
    cases commits pid e o.toChoice v.shared with
    | none => exact keeps_after hc hne e _
    | some orderId => exact keeps_noteCreated hne (keeps_after hc hne e _)
  | enter host id =>
    simp only [effect]
    split
    next => exact Keeps.refl p v
    next hfree => exact keeps_setInFlight (by rw [hfree]; simp)
  | leave host id =>
    apply keeps_setInFlight
    rw [hleave host id rfl]
    simpa using hne.symm
  | wait | findTransaction | lookupPerson | screenFor | created => exact Keeps.refl p v
  | createQuote user flow amount =>
    obtain ⟨horders, htxs⟩ := createQuote_shared (o := o) user flow amount v.shared
    exact keeps_orders horders (congrFun htxs p)
  | link id orderId account =>
    obtain ⟨row, -, -, -, heq⟩ | ⟨heq, -⟩ := link_cases id orderId account v
    · simp only [effect, heq]
      exact ⟨fun _ _ h => h, rfl, rfl, fun _ => List.Subset.refl _, fun _ h => h⟩
    · simp only [effect, heq]
      exact Keeps.refl p v
  | undo orderId =>
    obtain ⟨-, heq⟩ | ⟨order, -, -, heq⟩ | ⟨order, -, -, heq⟩ := undo_cases pid orderId v
    · simp only [effect, heq]
      exact Keeps.refl p v
    · simp only [effect, heq]
      have hkeep : Keeps p v (v.write pid (v.shared.setOrder orderId (order.setStatus .cancelled))) :=
        keeps_write hne rows_setOrder rfl
      exact ⟨hkeep.inFlight, hkeep.txs, hkeep.opened, hkeep.created, hkeep.stands⟩
    · simp only [effect, heq]
      exact ⟨fun _ _ h => h, rfl, rfl, fun _ => List.Subset.refl _, fun _ h => h⟩

theorem Clean.setOrder {s : Shared} {order order' : Order} (hc : Clean s)
    (horder : s.db.orders.lookup orderId = some order)
    (hsame : order'.toPlacement = order.toPlacement) : Clean (s.setOrder orderId order') where
  fresh q tx c h hcr id row hrow := by
    rw [lookup_setOrder] at hrow
    split at hrow
    next heq =>
      obtain rfl := Option.some.inj hrow
      rw [hsame, heq]
      exact hc.fresh q tx c h hcr orderId order horder
    next => exact hc.fresh q tx c h hcr id row hrow
  apart := hc.apart

theorem clean_effect (hc : Clean v.shared) (hp : (anchor x).permits pid e o v) :
    Clean (effect pid e o v).1.shared := by
  cases e with
  | desk e => exact hc.after hp
  | within id e =>
    simp only [effect]
    cases commits pid e o.toChoice v.shared with
    | none => exact hc.after hp
    | some orderId => exact hc.after hp
  | enter host id =>
    simp only [effect]
    split <;> exact hc
  | leave | wait | findTransaction | lookupPerson | screenFor | created => exact hc
  | createQuote user flow amount =>
    obtain ⟨horders, htxs⟩ := createQuote_shared (o := o) user flow amount v.shared
    refine hc.of (fun q tx c h hcr => ⟨tx, ?_, hcr⟩) horders
    rw [← htxs]
    exact h
  | link id orderId account =>
    obtain ⟨row, -, -, -, heq⟩ | ⟨heq, -⟩ := link_cases id orderId account v <;>
      simp only [effect, heq] <;> exact hc
  | undo orderId =>
    obtain ⟨-, heq⟩ | ⟨order, horder, -, heq⟩ | ⟨order, -, -, heq⟩ := undo_cases pid orderId v
    · simp only [effect, heq]
      exact hc
    · simp only [effect, heq]
      exact Clean.setOrder hc horder rfl
    · simp only [effect, heq]
      exact hc

theorem write_self (v : Counter) (pid : Pid) : v.write pid v.shared = v := by
  have hby : (fun id => if isMatched v.shared id && !isMatched v.shared id then some pid
      else v.movedBy id) = v.movedBy := by
    funext id
    simp
  simp only [Counter.write, hby]

theorem calm_fits (hq : q.calm = true) (hin : v'.inFlight = v.inFlight) (hf : Fits v p q) :
    Fits v' p q := by
  cases q with
  | outside | arriving => trivial
  | inside host id f =>
    refine ⟨by rw [hin]; exact hf.1, ?_⟩
    cases f with
    | reading | fresh => trivial
    | began | inserted | committed | named | refused | settled => cases hq

theorem within_inFlight (e : Database.Effect) :
    (effect pid (.within id e) o v).1.inFlight = v.inFlight := by
  simp only [effect]
  cases commits pid e o.toChoice v.shared <;> rfl

theorem within_shared (e : Database.Effect) :
    (effect pid (.within id e) o v).1.shared = after pid e o.toChoice v.shared := by
  simp only [effect]
  cases commits pid e o.toChoice v.shared <;> rfl

theorem txs_open {s : Shared} {tx : Tx} {e : Database.Effect} {o : Desk.Choice}
    (h : s.txs pid = some tx) (hcommit : e ≠ .commit) (hrollback : e ≠ .rollback) :
    ∃ tx', (after pid e o s).txs pid = some tx' := by
  by_cases ht : isTx e = true
  · cases e with
    | «begin» => exact ⟨_, by rw [after, txs_setTx, if_pos rfl]⟩
    | lock key => exact ⟨tx, h⟩
    | consumeQuote id =>
      simp only [after, runConsumeQuote]
      repeat' split
      all_goals simp [txs_setTx, h]
    | createOrderRow data needsRef =>
      simp only [after, runCreateOrderRow]
      repeat' split
      all_goals simp [txs_setTx, h]
    | commit => exact absurd rfl hcommit
    | rollback => exact absurd rfl hrollback
    | ask | write | claimEvent | verdict | accrueProviderLoss | recordDisputeLost
    | setLpStatus => cases ht
  · rw [(after_of_not_tx (by simpa using ht)).1]
    exact ⟨tx, h⟩

theorem txs_inserted {s : Shared} {tx : Tx} {data : Placement} {needsRef : Bool} {o : Desk.Choice}
    (h : s.txs pid = some tx)
    (hreply : Desk.reply pid (.createOrderRow data needsRef) o s = some (.row orderId)) :
    ∃ tx' data', (after pid (.createOrderRow data needsRef) o s).txs pid = some tx' ∧
      tx'.created = some (orderId, data') := by
  simp only [Desk.reply, after, runCreateOrderRow] at hreply ⊢
  split at hreply
  next => cases hreply
  next hok =>
    rw [if_neg hok]
    split at hreply
    next => cases hreply
    next hfree =>
      rw [if_neg hfree]
      obtain rfl : o.orderId = orderId := by simpa using hreply
      exact ⟨_, _, by rw [txs_setTx, if_pos rfl, h]; rfl, rfl⟩

section Commit

variable {tx : Tx} {data : Placement} (h : v.shared.txs pid = some tx)
  (hcr : tx.created = some (orderId, data)) (hok : o.fails = false)
include h hcr hok

theorem commits_eq : commits pid .commit o.toChoice v.shared = some orderId := by
  simp [commits, hok, h, hcr]

theorem committed_created :
    (effect pid (.within id .commit) o v).1.created =
      fun i => if i = id then (orderId, pid) :: v.created i else v.created i := by
  simp only [effect, commits_eq h hcr hok, Option.elim_some]
  rfl

theorem committed_fits :
    PhaseFits (effect pid (.within id .commit) o v).1 pid id (.committed row orderId) := by
  simp only [effect, commits_eq h hcr hok, Option.elim_some]
  refine ⟨if_pos rfl, ?_, data.opened, ?_, .inl rfl⟩
  · simp [Counter.noteCreated]
  · simp [Counter.noteCreated, Counter.write, after, hok, runCommit, release, Shared.setTx, h,
      applyTx, hcr]

end Commit

theorem creating_fits {f' : Phase} {e : Database.Effect}
    (h : Creating f e (Desk.reply pid e o.toChoice v.shared) f') (hf : PhaseFits v pid id f) :
    PhaseFits (effect pid (.within id e) o v).1 pid id f' := by
  generalize hr : Desk.reply pid e o.toChoice v.shared = r at h
  cases h with
  | ask e r =>
    change PhaseFits (v.write pid v.shared) pid id f
    rw [write_self]
    exact hf
  | «begin» =>
    rw [PhaseFits, within_shared]
    exact ⟨_, by rw [after, txs_setTx, if_pos rfl]⟩
  | rollback | abort => trivial
  | lock key | consume id r | collide data needsRef r =>
    obtain ⟨tx, htx⟩ := hf
    rw [PhaseFits, within_shared]
    exact txs_open htx (by simp) (by simp)
  | insert data needsRef orderId =>
    obtain ⟨tx, htx⟩ := hf
    rw [PhaseFits, within_shared]
    exact txs_inserted htx hr
  | commit =>
    obtain ⟨tx, data, htx, hcr⟩ := hf
    have hok : o.fails = false := by simpa [Desk.reply] using hr
    exact committed_fits htx hcr hok

theorem fits_turn (h : Turn q e (effect pid e o v).2 q') (hf : Fits v pid q) :
    Fits (effect pid e o v).1 pid q' := by
  generalize hr : (effect pid e o v).2 = r at h
  cases h with
  | quiet he r =>
    rw [quiet_effect he]
    exact hf
  | desk hq e r => exact calm_fits hq (v := v) rfl hf
  | quote hq user flow amount r => exact calm_fits hq (v := v) rfl hf
  | @enter host id =>
    simp only [effect] at hr ⊢
    split at hr
    next => cases hr
    next => exact ⟨if_pos ⟨rfl, rfl⟩, trivial⟩
  | join run => trivial
  | read hnone status => exact ⟨hf.1, trivial⟩
  | within hturn =>
    subst hr
    exact ⟨by rw [within_inFlight]; exact hf.1, creating_fits hturn hf.2⟩
  | name r =>
    obtain ⟨hin, rfl, hmem, hstands⟩ := hf
    obtain rfl : v.opened pid = r := hr
    exact ⟨hin, hmem, hstands⟩
  | @link host id row orderId =>
    refine ⟨?_, trivial⟩
    rw [effect, (link_frame _ _ _ _).2.1]
    exact hf.1
  | @refuse host id row orderId n hn =>
    obtain ⟨row', -, -, -, heq⟩ | ⟨heq, -⟩ := link_cases id orderId row.stellarAccount v
    · simp only [effect, heq] at hr
      exact absurd hr.symm hn
    · simp only [effect, heq]
      exact ⟨hf.1, hf.2⟩
  | undo n =>
    refine ⟨?_, trivial⟩
    rw [effect, (undo_frame _ _ _).2.1]
    exact hf.1
  | leave hover => trivial

def held : Stage → Option (TxnId × OrderId)
  | .inside _ id (.committed _ orderId) | .inside _ id (.named _ orderId)
  | .inside _ id (.refused orderId) => some (id, orderId)
  | _ => none

theorem created_turn (h : Turn q e (effect pid e o v).2 q') (hf : Fits v pid q) :
    (effect pid e o v).1.created = v.created ∨
      ∃ host id row orderId, q = .inside host id (.inserted row orderId) ∧
        q' = .inside host id (.committed row orderId) ∧
        (effect pid e o v).1.created =
          fun i => if i = id then (orderId, pid) :: v.created i else v.created i := by
  generalize hr : (effect pid e o v).2 = r at h
  cases h with
  | quiet he r => exact .inl (by rw [quiet_effect he])
  | desk | quote | read | name | leave => exact .inl rfl
  | enter | join =>
    left
    simp only [effect]
    split <;> rfl
  | @within host id f f' e r hturn =>
    cases hturn with
    | @commit row orderId =>
      obtain ⟨tx, data, htx, hcr⟩ := hf.2
      have hok : o.fails = false := by simpa [effect, Desk.reply] using hr
      exact .inr ⟨host, id, row, orderId, rfl, rfl, committed_created htx hcr hok⟩
    | abort =>
      have hfails : o.fails = true := by simpa [effect, Desk.reply] using hr
      exact .inl (by simp [effect, commits, hfails, Counter.write])
    | ask | «begin» | rollback | lock | consume | collide | insert => exact .inl rfl
  | link | refuse => exact .inl (link_frame _ _ _ _).2.2
  | undo => exact .inl (undo_frame _ _ _).2.2

def orderIdOf (id : TxnId) (v : Counter) : Option OrderId := (v.transactions id).bind (·.orderId)

theorem orderId_effect (pid : Pid) (e : Effect) (o : Choice) (v : Counter) (i : TxnId) :
    (effect pid e o v).1.transactions i = v.transactions i ∨
      ∃ orderId account, e = .link i orderId account ∧ orderIdOf i v = none ∧
        orderIdOf i (effect pid e o v).1 = some orderId := by
  cases e with
  | desk | leave | wait | findTransaction | lookupPerson | screenFor | createQuote | created =>
    exact .inl rfl
  | within id e =>
    left
    simp only [effect]
    cases commits pid e o.toChoice v.shared <;> rfl
  | enter host id =>
    left
    simp only [effect]
    split <;> rfl
  | undo orderId => exact .inl (congrFun (undo_frame _ _ _).1 i)
  | link id orderId account =>
    obtain ⟨row, hrow, hnone, -, heq⟩ | ⟨heq, -⟩ := link_cases id orderId account v
    · by_cases hi : i = id
      · subst hi
        refine .inr ⟨orderId, account, rfl, ?_, ?_⟩
        · rw [orderIdOf, hrow]
          exact hnone
        · simp [effect, heq, orderIdOf]
      · left
        simp only [effect, heq, if_neg hi]
    · left
      simp only [effect, heq]

theorem orderIdOf_stays (pid : Pid) (e : Effect) (o : Choice) {i : TxnId}
    (h : orderIdOf i v = some orderId) : orderIdOf i (effect pid e o v).1 = some orderId := by
  obtain hsame | ⟨orderId', account, -, hnone, -⟩ := orderId_effect pid e o v i
  · rw [orderIdOf, hsame]
    exact h
  · rw [hnone] at h
    cases h

theorem orderId_turn (h : Turn q e (effect pid e o v).2 q') (hf : Fits v pid q) (i : TxnId) :
    orderIdOf i (effect pid e o v).1 = orderIdOf i v ∨
      orderIdOf i v = none ∧ ∃ orderId, orderIdOf i (effect pid e o v).1 = some orderId ∧
        (orderId, pid) ∈ v.created i := by
  obtain hsame | ⟨orderId, account, rfl, hnone, hlinked⟩ := orderId_effect pid e o v i
  · left
    rw [orderIdOf, hsame]
    rfl
  · refine .inr ⟨hnone, orderId, hlinked, ?_⟩
    generalize (effect pid (.link i orderId account) o v).2 = r at h
    cases h with
    | quiet he r => cases he
    | link => exact hf.2.1
    | refuse => exact hf.2.1

/-- What becomes of an order: it is linked, or its creator cancelled it, or
somebody else had moved it when the creator tried to. -/
def Accounted (v : Counter) (id : TxnId) (orderId : OrderId) (p : Pid) : Prop :=
  orderIdOf id v = some orderId ∨ (orderId, p) ∈ v.cancelled ∨
    ∃ q ≠ p, (orderId, p, some q) ∈ v.late

theorem Accounted.mono (h : Accounted v id orderId p)
    (hlinked : orderIdOf id v = some orderId → orderIdOf id v' = some orderId)
    (hcancelled : v.cancelled ⊆ v'.cancelled) (hlate : v.late ⊆ v'.late) :
    Accounted v' id orderId p := by
  obtain h | h | ⟨q, hq, h⟩ := h
  · exact .inl (hlinked h)
  · exact .inr (.inl (hcancelled h))
  · exact .inr (.inr ⟨q, hq, hlate h⟩)

theorem records_effect (pid : Pid) (e : Effect) (o : Choice) (v : Counter) :
    v.cancelled ⊆ (effect pid e o v).1.cancelled ∧ v.late ⊆ (effect pid e o v).1.late := by
  have hself : v.cancelled ⊆ v.cancelled ∧ v.late ⊆ v.late :=
    ⟨List.Subset.refl _, List.Subset.refl _⟩
  cases e with
  | desk | leave | wait | findTransaction | lookupPerson | screenFor | createQuote | created =>
    exact hself
  | within id e =>
    simp only [effect]
    cases commits pid e o.toChoice v.shared <;> exact hself
  | enter host id =>
    simp only [effect]
    split <;> exact hself
  | link id orderId account =>
    obtain ⟨row, -, -, -, heq⟩ | ⟨heq, -⟩ := link_cases id orderId account v <;>
      simp only [effect, heq] <;> exact hself
  | undo orderId =>
    obtain ⟨-, heq⟩ | ⟨order, -, -, heq⟩ | ⟨order, -, -, heq⟩ := undo_cases pid orderId v
    · simp only [effect, heq]
      exact hself
    · simp only [effect, heq]
      exact ⟨List.subset_cons_self _ _, List.Subset.refl _⟩
    · simp only [effect, heq]
      exact ⟨List.Subset.refl _, List.subset_cons_self _ _⟩

theorem Accounted.effect (h : Accounted v id orderId p) (pid : Pid) (e : Effect) (o : Choice) :
    Accounted (effect pid e o v).1 id orderId p :=
  h.mono (orderIdOf_stays pid e o) (records_effect pid e o v).1 (records_effect pid e o v).2

theorem held_of_calm (hq : q.calm = true) : held q = none := by
  cases q with
  | outside | arriving => rfl
  | inside host id f =>
    cases f with
    | reading | fresh | settled => rfl
    | began | inserted | committed | named | refused => cases hq

theorem held_of_over (hover : f.over = true) : held (.inside host id f) = none := by
  cases f with
  | reading | fresh | settled => rfl
  | began | inserted | committed | named | refused => cases hover

theorem undo_accounted (h : Stands v pid orderId) :
    Accounted (undo pid orderId v).1 id orderId pid := by
  obtain ⟨order, horder, hst⟩ := h
  obtain ⟨hnone, -⟩ | ⟨order', -, -, heq⟩ | ⟨order', horder', hne, heq⟩ := undo_cases pid orderId v
  · rw [hnone] at horder
    cases horder
  · rw [heq]
    exact .inr (.inl List.mem_cons_self)
  · rw [horder] at horder'
    obtain rfl := Option.some.inj horder'
    obtain ⟨q, hq, hby⟩ := hst.resolve_left hne
    rw [heq]
    refine .inr (.inr ⟨q, hq, ?_⟩)
    rw [← hby]
    exact List.mem_cons_self

/-- A submission gives up its order only when that is accounted for. -/
theorem held_turn (h : Turn q e (effect pid e o v).2 q') (hf : Fits v pid q)
    (hheld : held q = some (id, orderId)) :
    held q' = some (id, orderId) ∨ Accounted (effect pid e o v).1 id orderId pid := by
  generalize hr : (effect pid e o v).2 = r at h
  cases h with
  | quiet he r => exact .inl hheld
  | desk hq | quote hq =>
    rw [held_of_calm hq] at hheld
    cases hheld
  | enter | join | read => cases hheld
  | within hturn =>
    cases hturn with
    | ask => exact .inl hheld
    | «begin» | rollback | lock | consume | collide | insert | commit | abort => cases hheld
  | name r =>
    obtain ⟨-, rfl, -⟩ := hf
    obtain rfl : v.opened pid = r := hr
    exact .inl hheld
  | @link host id' row orderId' =>
    cases hheld
    right
    obtain ⟨row', hrow', -, -, heq⟩ | ⟨heq, -⟩ := link_cases id orderId row.stellarAccount v
    · left
      simp [effect, heq, orderIdOf]
    · simp [effect, heq] at hr
  | refuse => exact .inl hheld
  | undo n =>
    cases hheld
    exact .inr (undo_accounted hf.2.2)
  | leave hover =>
    rw [held_of_over hover] at hheld
    cases hheld

/-- A call for the transaction, in that process, which has not ended yet. -/
def Serves (txn : TxnId) (host : Host) : Stage → Prop
  | .outside => False
  | .arriving host' id | .inside host' id _ => host' = host ∧ id = txn

theorem serves_turn {r : Reply e} (h : Turn q e r q') (hs : Serves txn host q') :
    Serves txn host q := by
  cases h with
  | join | leave => cases hs
  | quiet | desk | quote | enter | read | within | name | link | refuse | undo => exact hs

/-- What holds of a transaction in every run: `submits` are the calls for it and
their processes, `lives` those that the run does not kill. -/
structure Kept (txn : TxnId) (submits : Pid → Host → Prop) (lives : Pid → Prop) (v : Counter)
    (stage : Pid → Stage) : Prop where
  clean : Clean v.shared
  fits : ∀ p, Fits v p (stage p)
  callers : ∀ p host, Serves txn host (stage p) → submits p host
  creators : ∀ orderId p, (orderId, p) ∈ v.created txn → ∃ host, submits p host
  accounted : ∀ orderId p, (orderId, p) ∈ v.created txn → lives p →
    Accounted v txn orderId p ∨ held (stage p) = some (txn, orderId)

variable {submits : Pid → Host → Prop} {lives : Pid → Prop} {stage : Pid → Stage}

def Submits (txn : TxnId) (submits : Pid → Host → Prop) (pid : Pid) (c : Call) : Prop :=
  ∀ host token amount destination, c = .submitAmount host txn token amount destination →
    submits pid host

theorem Kept.spawn {c : Call} (h : Kept txn submits lives v stage) (hrest : stage pid = .outside)
    (hok : Submits txn submits pid c) :
    Kept txn submits lives v (place stage pid (start c)) where
  clean := h.clean
  fits := forall_place (by cases c <;> trivial) fun p _ => h.fits p
  callers := by
    refine forall_place (P := fun p q => ∀ host, Serves txn host q → submits p host)
      (fun host hs => ?_) fun p _ => h.callers p
    cases c with
    | submitAmount host' id token amount destination =>
      obtain ⟨rfl, rfl⟩ := hs
      exact hok _ token amount destination rfl
    | other c => cases hs
  creators := h.creators
  accounted orderId p hmem hlives := by
    apply (h.accounted orderId p hmem hlives).imp_right
    intro hheld
    have hp : p ≠ pid := by
      rintro rfl
      rw [hrest] at hheld
      cases hheld
    rw [place_other hp]
    exact hheld

theorem leaves_own {r : Reply e} (h : Turn q e r q') (hf : Fits v pid q) (host : Host)
    (id : TxnId) (he : e = .leave host id) : v.inFlight host id = some pid := by
  subst he
  cases h with
  | quiet he => cases he
  | leave => exact hf.1

theorem created_step (h : Kept txn submits lives v stage)
    (hturn : Turn (stage pid) e (effect pid e o v).2 q) {orderId : OrderId}
    (hmem : (orderId, p) ∈ (effect pid e o v).1.created txn) :
    (orderId, p) ∈ v.created txn ∨
      p = pid ∧ (∃ host, Serves txn host (stage pid)) ∧ held q = some (txn, orderId) := by
  obtain hsame | ⟨host, id, row, orderId', hq, rfl, hnew⟩ := created_turn hturn (h.fits pid)
  · rw [hsame] at hmem
    exact .inl hmem
  · rw [hnew] at hmem
    simp only at hmem
    split at hmem
    next hid =>
      subst hid
      obtain heq | hmem := List.mem_cons.mp hmem
      · obtain ⟨rfl, rfl⟩ := Prod.mk.inj heq
        exact .inr ⟨rfl, ⟨host, by rw [hq]; exact ⟨rfl, rfl⟩⟩, rfl⟩
      · exact .inl hmem
    next => exact .inl hmem

theorem Kept.go (h : Kept txn submits lives v stage)
    (hturn : Turn (stage pid) e (effect pid e o v).2 q) (hp : (anchor x).permits pid e o v) :
    Kept txn submits lives (effect pid e o v).1 (place stage pid q) where
  clean := clean_effect h.clean hp
  fits := forall_place (fits_turn hturn (h.fits pid)) fun p hpid =>
    (keeps_effect h.clean hpid (leaves_own hturn (h.fits pid))).fits (h.fits p)
  callers := forall_place (P := fun p q => ∀ host, Serves txn host q → submits p host)
    (fun host hs => h.callers pid host (serves_turn hturn hs)) fun p _ => h.callers p
  creators orderId p hmem := by
    obtain hold | ⟨rfl, ⟨host, hs⟩, -⟩ := created_step h hturn hmem
    · exact h.creators orderId p hold
    · exact ⟨host, h.callers p host hs⟩
  accounted orderId p hmem hlives := by
    obtain hold | ⟨rfl, -, hheld⟩ := created_step h hturn hmem
    · obtain hacc | hheld := h.accounted orderId p hold hlives
      · exact .inl (hacc.effect pid e o)
      · by_cases hpid : p = pid
        · subst hpid
          rw [place_self]
          exact (held_turn hturn (h.fits p) hheld).symm
        · rw [place_other hpid]
          exact .inr hheld
    · rw [place_self]
      exact .inr hheld

theorem Kept.dies (h : Kept txn submits lives v stage) (hok : ¬lives pid) :
    Kept txn submits lives ((anchor x).dies pid v) (place stage pid .outside) where
  clean := h.clean.release
  fits := by
    refine forall_place trivial fun p hpid => ?_
    have htxs : (release pid v.shared).txs p = v.shared.txs p := by
      rw [txs_release, if_neg hpid]
    exact (keeps_orders (s := release pid v.shared) rfl htxs).fits (h.fits p)
  callers := forall_place (P := fun p q => ∀ host, Serves txn host q → submits p host)
    (fun _ hs => hs.elim) fun p _ => h.callers p
  creators := h.creators
  accounted orderId p hmem hlives := by
    have hpid : p ≠ pid := by
      rintro rfl
      exact hok hlives
    rw [place_other hpid]
    exact h.accounted orderId p hmem hlives

theorem orderIdOf_moved {a : Move} (ha : (anchor x).moves v a) (id : TxnId) :
    orderIdOf id (moved v a) = orderIdOf id v := by
  cases a with
  | desk a => rfl
  | interactive id' account flow =>
    have hnone : v.transactions id' = none := ha
    simp only [orderIdOf, moved]
    split
    next heq =>
      rw [heq, hnone]
      rfl
    next => rfl

theorem Kept.moved {a : Move} (h : Kept txn submits lives v stage) (ha : (anchor x).moves v a) :
    Kept txn submits lives (moved v a) stage := by
  have hacc (orderId : OrderId) (p : Pid) (hmem : (orderId, p) ∈ v.created txn) (hlives : lives p) :
      Accounted (Submission.moved v a) txn orderId p ∨ held (stage p) = some (txn, orderId) := by
    refine (h.accounted orderId p hmem hlives).imp_left fun hacc => hacc.mono ?_ ?_ ?_
    · rw [orderIdOf_moved ha]
      exact fun h => h
    · cases a <;> exact List.Subset.refl _
    · cases a <;> exact List.Subset.refl _
  cases a with
  | desk a =>
    refine ⟨h.clean.moved a, fun p => ?_, h.callers, h.creators, hacc⟩
    refine (keeps_orders (orders_moved _ a) ?_).fits (h.fits p)
    cases a <;> rfl
  | interactive id account flow =>
    refine ⟨h.clean, fun p => ?_, h.callers, h.creators, hacc⟩
    have hkeep : Keeps p v (Submission.moved v (.interactive id account flow)) :=
      ⟨fun _ _ h => h, rfl, rfl, fun _ => List.Subset.refl _, fun _ h => h⟩
    exact hkeep.fits (h.fits p)

theorem kept_maintains : Maintains Turn (anchor x) start .outside (Submits txn submits)
    (fun p => ¬lives p) (Kept txn submits lives) where
  spawn _ _ _ _ h hrest hok := h.spawn hrest hok
  go _ _ _ _ _ _ h hturn hp := h.go hturn hp
  dies _ _ _ h hok := h.dies hok
  moved _ _ _ h ha := h.moved ha

/-- What the row of a transaction says, in each phase of the only call that is
inside for it. -/
def PhaseApt (v : Counter) (txn : TxnId) : Phase → Prop
  | .reading => True
  | .fresh row | .began row | .inserted row _ | .committed row _ | .named row _ =>
    v.transactions txn = some row ∧ row.orderId = none
  | .refused _ => False
  | .settled => orderIdOf txn v ≠ none

def Apt (v : Counter) (txn : TxnId) : Stage → Prop
  | .outside | .arriving _ _ => True
  | .inside _ id f => id = txn → PhaseApt v txn f

def before : Phase → Bool
  | .reading | .fresh _ | .began _ | .inserted _ _ => true
  | .committed _ _ | .named _ _ | .refused _ | .settled => false

/-- Not a call for the transaction that can still open an order. -/
def Past (txn : TxnId) : Stage → Prop
  | .outside | .arriving _ _ => True
  | .inside _ id f => id = txn → before f = false

/-- What holds besides when all calls for the transaction are in one process. -/
structure Alone (txn : TxnId) (host : Host) (v : Counter) (stage : Pid → Stage) : Prop where
  one : (v.created txn).length ≤ 1
  pending : v.created txn = [] ∨ orderIdOf txn v ≠ none ∨
    ∃ p, v.inFlight host txn = some p ∧ Past txn (stage p)
  apt : ∀ p, Apt v txn (stage p)

structure SameFor (txn : TxnId) (host : Host) (v v' : Counter) : Prop where
  transaction : v'.transactions txn = v.transactions txn
  created : v'.created txn = v.created txn
  inFlight : v'.inFlight host txn = v.inFlight host txn

theorem SameFor.refl (v : Counter) : SameFor txn host v v := ⟨rfl, rfl, rfl⟩

theorem SameFor.orderIdOf_eq (h : SameFor txn host v v') : orderIdOf txn v' = orderIdOf txn v := by
  rw [orderIdOf, h.transaction]
  rfl

theorem SameFor.apt (h : SameFor txn host v v') (hq : Apt v txn q) : Apt v' txn q := by
  cases q with
  | outside | arriving => trivial
  | inside host' id f =>
    intro hid
    have hphase := hq hid
    cases f with
    | reading => trivial
    | fresh | began | inserted | committed | named =>
      simp only [PhaseApt, h.transaction] at hphase ⊢
      exact hphase
    | refused => exact hphase
    | settled =>
      simp only [PhaseApt, h.orderIdOf_eq] at hphase ⊢
      exact hphase

theorem Alone.advance (h : Alone txn host v stage) (hsame : SameFor txn host v v')
    (hapt : Apt v txn q) (hpast : Past txn (stage pid) → Past txn q) :
    Alone txn host v' (place stage pid q) where
  one := by
    rw [hsame.created]
    exact h.one
  pending := by
    rw [hsame.created, hsame.orderIdOf_eq, hsame.inFlight]
    refine h.pending.imp_right (Or.imp_right ?_)
    rintro ⟨p, hp, hp'⟩
    refine ⟨p, hp, ?_⟩
    by_cases hpid : p = pid
    · subst hpid
      rw [place_self]
      exact hpast hp'
    · rw [place_other hpid]
      exact hp'
  apt := forall_place (hsame.apt hapt) fun p _ => hsame.apt (h.apt p)

theorem creating_apt {host' : Host} {f' : Phase} {e : Database.Effect} {r : Database.Reply e}
    (hturn : Creating f e r f') (h : Apt v txn (.inside host' id f)) :
    Apt v txn (.inside host' id f') := by
  cases hturn <;> exact h

theorem creating_past {host' : Host} {f' : Phase} {e : Database.Effect} {r : Database.Reply e}
    (hturn : Creating f e r f') (h : Past txn (.inside host' id f)) :
    Past txn (.inside host' id f') := by
  cases hturn with
  | ask | lock | consume | collide | «begin» | rollback | insert | abort => exact h
  | commit => exact fun _ => rfl

theorem sameFor_desk (pid : Pid) (s : Shared) : SameFor txn host v (v.write pid s) :=
  ⟨rfl, rfl, rfl⟩

theorem sameFor_within {e : Database.Effect}
    (h : commits pid e o.toChoice v.shared = none ∨ id ≠ txn) :
    SameFor txn host v (effect pid (.within id e) o v).1 := by
  simp only [effect]
  cases hc : commits pid e o.toChoice v.shared with
  | none => exact ⟨rfl, rfl, rfl⟩
  | some orderId =>
    have hid : id ≠ txn := h.resolve_left (by rw [hc]; simp)
    exact ⟨rfl, if_neg (Ne.symm hid), rfl⟩

theorem setInFlight_other {host' : Host} {run : Option Pid} (h : ¬(host = host' ∧ txn = id)) :
    SameFor txn host v (v.setInFlight host' id run) :=
  ⟨rfl, rfl, if_neg h⟩

theorem sameFor_link {account : String} (h : id ≠ txn) :
    SameFor txn host v (link id orderId account v).1 := by
  obtain ⟨row, -, -, -, heq⟩ | ⟨heq, -⟩ := link_cases id orderId account v
  · rw [heq]
    exact ⟨if_neg (Ne.symm h), rfl, rfl⟩
  · rw [heq]
    exact .refl v

theorem Alone.enter (h : Alone txn host v stage) (hfree : v.inFlight host txn = none) :
    Alone txn host (v.setInFlight host txn (some pid))
      (place stage pid (.inside host txn .reading)) where
  one := h.one
  pending := by
    refine h.pending.imp_right fun hpending => .inl (hpending.resolve_right ?_)
    rintro ⟨p, hp, -⟩
    rw [hfree] at hp
    cases hp
  apt := forall_place (fun _ => trivial) fun p _ => h.apt p

section Solo

variable (hsolo : ∀ p host', submits p host' → host' = host)
include hsolo

/-- Only one call for the transaction can be inside. -/
theorem Kept.seat (h : Kept txn submits lives v stage) {host' : Host}
    (hp : stage p = .inside host' txn f) : host' = host ∧ v.inFlight host txn = some p := by
  have hhost : host' = host := hsolo p host' (h.callers p host' (by rw [hp]; exact ⟨rfl, rfl⟩))
  have hfits := h.fits p
  rw [hp, hhost] at hfits
  exact ⟨hhost, hfits.1⟩

theorem Alone.created_nil (h : Alone txn host v stage) (hk : Kept txn submits lives v stage)
    {host' : Host} (hp : stage pid = .inside host' txn (.inserted row orderId)) :
    v.created txn = [] := by
  have hapt := h.apt pid
  rw [hp] at hapt
  obtain ⟨hrow, hnone⟩ := hapt rfl
  obtain hnil | hlinked | ⟨p, hin, hpast⟩ := h.pending
  · exact hnil
  · refine absurd ?_ hlinked
    rw [orderIdOf, hrow]
    exact hnone
  · obtain ⟨-, hseat⟩ := hk.seat hsolo hp
    obtain rfl : pid = p := Option.some.inj (hseat.symm.trans hin)
    rw [hp] at hpast
    cases hpast rfl

theorem Alone.commit (h : Alone txn host v stage) (hk : Kept txn submits lives v stage)
    {host' : Host} (hp : stage pid = .inside host' txn (.inserted row orderId))
    (htransactions : v'.transactions = v.transactions) (hin : v'.inFlight = v.inFlight)
    (hcreated : v'.created txn = (orderId, pid) :: v.created txn) :
    Alone txn host v' (place stage pid (.inside host' txn (.committed row orderId))) := by
  have hsame (q : Stage) (hq : Apt v txn q) : Apt v' txn q := by
    have hthis : SameFor txn host v { v with transactions := v'.transactions } :=
      ⟨by rw [htransactions], rfl, rfl⟩
    exact hthis.apt hq
  obtain ⟨rfl, hseat⟩ := hk.seat hsolo hp
  have hapt := h.apt pid
  rw [hp] at hapt
  refine ⟨?_, .inr (.inr ⟨pid, ?_, ?_⟩), ?_⟩
  · rw [hcreated, h.created_nil hsolo hk hp]
    rfl
  · rw [hin]
    exact hseat
  · rw [place_self]
    exact fun _ => rfl
  · exact forall_place (hsame _ hapt) fun p _ => hsame _ (h.apt p)

theorem Alone.link (h : Alone txn host v stage) (hk : Kept txn submits lives v stage)
    {host' : Host} (hp : stage pid = .inside host' txn (.named row orderId)) :
    (Submission.link txn orderId row.stellarAccount v).2 = 1 ∧
      Alone txn host (Submission.link txn orderId row.stellarAccount v).1
        (place stage pid (.inside host' txn .settled)) := by
  have hapt := h.apt pid
  rw [hp] at hapt
  obtain ⟨hrow, hnone⟩ := hapt rfl
  obtain ⟨hhost, hseat⟩ := hk.seat hsolo hp
  obtain ⟨row', -, -, -, heq⟩ | ⟨-, hno⟩ := link_cases txn orderId row.stellarAccount v
  · rw [heq]
    have hlinked : orderIdOf txn { v with
        transactions := fun i => if i = txn then some { row' with orderId := some orderId }
          else v.transactions i } ≠ none := by
      simp [orderIdOf]
    refine ⟨rfl, h.one, .inr (.inl hlinked), ?_⟩
    refine forall_place (fun _ => hlinked) fun p hpid => ?_
    generalize hq : stage p = q
    cases q with
    | outside | arriving => trivial
    | inside host'' id f =>
      rintro rfl
      obtain ⟨-, hseat'⟩ := hk.seat hsolo hq
      exact absurd (Option.some.inj (hseat'.symm.trans hseat)) hpid
  · exact absurd rfl (hno row hrow hnone)

theorem Alone.leave (h : Alone txn host v stage) (hk : Kept txn submits lives v stage)
    {host' : Host} (hp : stage pid = .inside host' txn f) (hover : f.over = true) :
    Alone txn host (v.setInFlight host' txn none) (place stage pid .outside) := by
  obtain ⟨-, hseat⟩ := hk.seat hsolo hp
  refine ⟨h.one, ?_, forall_place trivial fun p _ => h.apt p⟩
  refine h.pending.imp_right fun hpending => .inl (hpending.elim (fun hl => hl) ?_)
  rintro ⟨p, hin, hpast⟩
  obtain rfl : pid = p := Option.some.inj (hseat.symm.trans hin)
  have hapt := h.apt pid
  rw [hp] at hpast hapt
  cases f with
  | settled => exact hapt rfl
  | reading | fresh => cases hpast rfl
  | began | inserted | committed | named | refused => cases hover

theorem Alone.arrive (h : Alone txn host v stage) (hk : Kept txn submits lives v stage)
    {host' : Host} (hp : stage pid = .arriving host' id) (hfree : v.inFlight host' id = none) :
    Alone txn host (v.setInFlight host' id (some pid))
      (place stage pid (.inside host' id .reading)) := by
  by_cases hid : id = txn
  · subst hid
    obtain rfl : host' = host :=
      hsolo pid host' (hk.callers pid host' (by rw [hp]; exact ⟨rfl, rfl⟩))
    exact h.enter hfree
  · exact h.advance (setInFlight_other fun heq => hid heq.2.symm) (fun heq => absurd heq hid)
      fun _ heq => absurd heq hid

theorem Alone.creating (h : Alone txn host v stage) (hk : Kept txn submits lives v stage)
    {host' : Host} {f' : Phase} {e : Database.Effect} (hp : stage pid = .inside host' id f)
    (hturn : Creating f e (Desk.reply pid e o.toChoice v.shared) f') :
    Alone txn host (effect pid (.within id e) o v).1 (place stage pid (.inside host' id f')) := by
  have hapt := h.apt pid
  rw [hp] at hapt
  have hapt' : Apt v txn (.inside host' id f') := creating_apt hturn hapt
  have hpast : Past txn (stage pid) → Past txn (.inside host' id f') := by
    rw [hp]
    exact creating_past hturn
  by_cases hcommits : commits pid e o.toChoice v.shared = none ∨ id ≠ txn
  · exact h.advance (sameFor_within hcommits) hapt' hpast
  · obtain ⟨hsome, hid⟩ := not_or.mp hcommits
    obtain rfl : id = txn := not_not.mp hid
    generalize hr : Desk.reply pid e o.toChoice v.shared = r at hturn
    cases hturn with
    | commit =>
      have hfits := hk.fits pid
      rw [hp] at hfits
      obtain ⟨-, tx, data, htx, hcr⟩ := hfits
      have hok : o.fails = false := by simpa [Desk.reply] using hr
      have hcreated : (effect pid (.within id .commit) o v).1.created id = _ :=
        congrFun (committed_created htx hcr hok) id
      rw [if_pos rfl] at hcreated
      refine h.commit hsolo hk hp ?_ (within_inFlight _) hcreated
      simp only [effect, commits_eq htx hcr hok, Option.elim_some]
      rfl
    | abort =>
      have hfails : o.fails = true := by simpa [Desk.reply] using hr
      exact absurd (by simp [commits, hfails]) hsome
    | ask | «begin» | rollback | lock | consume | collide | insert => exact absurd rfl hsome

theorem Alone.go (h : Alone txn host v stage) (hk : Kept txn submits lives v stage)
    (hturn : Turn (stage pid) e (effect pid e o v).2 q) :
    Alone txn host (effect pid e o v).1 (place stage pid q) := by
  have hapt := h.apt pid
  generalize hr : (effect pid e o v).2 = r at hturn
  generalize hstage : stage pid = q₀ at hturn hapt
  -- Most steps leave the transaction alone.
  have hadvance (v' : Counter) (q : Stage) (hsame : SameFor txn host v v') (hq : Apt v txn q)
      (hpast : Past txn q₀ → Past txn q) : Alone txn host v' (place stage pid q) :=
    h.advance hsame hq (by rw [hstage]; exact hpast)
  cases hturn with
  | quiet he r =>
    rw [quiet_effect he]
    exact hadvance v _ (.refl v) hapt fun hp => hp
  | desk hq e r => exact hadvance _ _ (sameFor_desk pid _) hapt fun hp => hp
  | quote hq user flow amount r => exact hadvance _ _ ⟨rfl, rfl, rfl⟩ hapt fun hp => hp
  | @enter host' id =>
    simp only [effect] at hr ⊢
    split at hr
    next => cases hr
    next hfree => exact h.arrive hsolo hk hstage hfree
  | @join host' id run =>
    simp only [effect] at hr ⊢
    split at hr
    next => exact hadvance _ _ (.refl v) trivial fun _ => trivial
    next => cases hr
  | @read host' id row hnone status =>
    refine hadvance _ _ (.refl v) (fun hid => ?_) fun hp => hp
    subst hid
    simp only [effect, Option.map_eq_some_iff] at hr
    obtain ⟨row', hrow', heq⟩ := hr
    cases heq
    exact ⟨hrow', hnone⟩
  | within hcreating =>
    subst hr
    exact h.creating hsolo hk hstage hcreating
  | name r => exact hadvance _ _ (.refl v) hapt fun hp => hp
  | @link host' id row orderId =>
    by_cases hid : id = txn
    · subst hid
      exact (h.link hsolo hk hstage).2
    · exact hadvance _ _ (sameFor_link hid) (fun heq => absurd heq hid) fun hp => hp
  | @refuse host' id row orderId n hn =>
    by_cases hid : id = txn
    · subst hid
      exact absurd (hr.symm.trans (h.link hsolo hk hstage).1) hn
    · exact hadvance _ _ (sameFor_link hid) (fun heq => absurd heq hid) fun hp => hp
  | @undo host' id orderId n =>
    have hid : id ≠ txn := fun heq => hapt heq
    obtain ⟨htransactions, hin, hcreated⟩ := undo_frame pid orderId v
    exact hadvance _ _ ⟨congrFun htransactions txn, congrFun hcreated txn, by rw [effect, hin]⟩
      (fun heq => absurd heq hid) fun hp => hp
  | @leave host' id f hover =>
    by_cases hid : id = txn
    · subst hid
      exact h.leave hsolo hk hstage hover
    · exact hadvance _ _ (setInFlight_other fun heq => hid heq.2.symm) trivial fun _ => trivial

theorem alone_maintains : Maintains Turn (anchor x) start .outside (Submits txn submits)
    (fun p => ¬lives p) fun v stage => Kept txn submits lives v stage ∧ Alone txn host v stage where
  spawn v stage pid c h hrest hok := by
    refine ⟨h.1.spawn hrest hok, h.2.advance (.refl v) ?_ fun _ => ?_⟩
    · cases c <;> trivial
    · cases c <;> trivial
  go _ _ _ _ _ _ h hturn hp := ⟨h.1.go hturn hp, h.2.go hsolo h.1 hturn⟩
  dies _ _ _ h hok :=
    ⟨h.1.dies hok, h.2.advance ⟨rfl, rfl, rfl⟩ trivial fun _ => trivial⟩
  moved v stage a h ha := by
    refine ⟨h.1.moved ha, ?_⟩
    have hlinked := orderIdOf_moved ha txn
    cases a with
    | desk a => exact ⟨h.2.one, h.2.pending, h.2.apt⟩
    | interactive id account flow =>
      refine ⟨h.2.one, ?_, fun p => ?_⟩
      · change _ ∨ orderIdOf txn (moved v (.interactive id account flow)) ≠ none ∨ _
        rw [hlinked]
        exact h.2.pending
      · have hapt := h.2.apt p
        generalize hq : stage p = q at hapt
        cases q with
        | outside | arriving => trivial
        | inside host' i f =>
          intro hi
          have hphase := hapt hi
          cases f with
          | reading => trivial
          | refused => exact hphase
          | settled =>
            change orderIdOf txn (moved v (.interactive id account flow)) ≠ none
            rw [hlinked]
            exact hphase
          | fresh | began | inserted | committed | named =>
            obtain ⟨hrow, hnone⟩ := hphase
            refine ⟨?_, hnone⟩
            have hne : txn ≠ id := by
              rintro rfl
              rw [show v.transactions txn = none from ha] at hrow
              cases hrow
            exact (if_neg hne).trans hrow

end Solo

/-- No transaction of the database is open, and nothing has been opened yet for
any SEP-24 transaction. -/
structure Starts (s : Counter) : Prop where
  opening : Opening s.shared
  created : ∀ id, s.created id = []

def Called (txn : TxnId) (tr : CounterHistory) (pid : Pid) (host : Host) : Prop :=
  ∃ e ∈ tr, ∃ token amount destination,
    e.act = .spawn pid (.submitAmount host txn token amount destination)

def ended : Option (Handler Unit) → Bool
  | some (.pure _) | some .fail => true
  | _ => false

def Finished (txn : TxnId) (tr : CounterHistory) (w : CounterPool) : Prop :=
  ∀ pid host, Called txn tr pid host →
    (∀ e ∈ tr, e.act ≠ .kill pid) ∧ ended (w.running pid) = true

def changes (txn : TxnId) (e : Entry CounterPool CounterAct (Option (Pid × Effect))) : ℤ :=
  if orderIdOf txn e.post.shared = orderIdOf txn e.pre.shared then 0 else 1

variable {s : Counter} {w : CounterPool} {tr tr' : CounterHistory}

theorem Starts.kept (hs : Starts s) : Kept txn submits lives s fun _ => .outside where
  clean := hs.opening.clean
  fits _ := trivial
  callers _ _ h := h.elim
  creators _ _ h := by
    rw [hs.created] at h
    cases h
  accounted _ _ h := by
    rw [hs.created] at h
    cases h

theorem Starts.alone (hs : Starts s) : Alone txn host s fun _ => .outside where
  one := by simp [hs.created]
  pending := .inl (hs.created txn)
  apt _ := trivial

theorem among_called (hsub : ∀ e ∈ tr', e ∈ tr)
    (hkill : ∀ e ∈ tr', ∀ p, e.act = .kill p → ¬lives p) :
    ∀ e ∈ tr', Among (Submits txn (Called txn tr)) (fun p => ¬lives p) e.act := by
  intro e he
  cases hact : e.act with
  | spawn pid c =>
    rintro host token amount destination rfl
    exact ⟨e, hsub e he, token, amount, destination, hact⟩
  | kill pid => exact hkill e he pid hact
  | go | outside => trivial

theorem run_kept (hs : Starts s) (hr : Run (machine (anchor x)) (idle s) tr' w) (txn : TxnId)
    (lives : Pid → Prop) (hsub : ∀ e ∈ tr', e ∈ tr)
    (hkill : ∀ e ∈ tr', ∀ p, e.act = .kill p → ¬lives p) :
    ∃ stage, Underway Turn (fun q => q = .outside) .outside w stage ∧
      Kept txn (Called txn tr) lives w.shared stage :=
  run_underway kept_maintains body_follows hr hs.kept (among_called hsub hkill)

/-- The order of a transaction changes only by the link of an order that one of
the calls has opened for it. -/
theorem orderId_step (hs : Starts s) (hr : Run (machine (anchor x)) (idle s) tr w) (txn : TxnId) :
    ∀ e ∈ tr, orderIdOf txn e.post.shared = orderIdOf txn e.pre.shared ∨
      orderIdOf txn e.pre.shared = none ∧ ∃ orderId p, orderIdOf txn e.post.shared = some orderId ∧
        (orderId, p) ∈ e.pre.shared.created txn ∧ ∃ host, Called txn tr p host := by
  intro e he
  obtain ⟨tr₁, tr₂, rfl, hpre, ha, hentry, -⟩ := hr.of_mem he
  obtain ⟨stage, hunder, hkept⟩ := run_kept hs hpre txn (fun _ => False)
    (fun e' he' => List.mem_append_left (e :: tr₂) he') fun _ _ _ _ h => h
  rw [entry_post hentry]
  cases hact : e.act with
  | spawn pid c => exact .inl rfl
  | kill pid => exact .inl rfl
  | outside a =>
    rw [hact] at ha
    have hmoves : (anchor x).moves e.pre.shared a := ha
    exact .inl (orderIdOf_moved hmoves txn)
  | go pid o =>
    rw [hact] at ha
    obtain ⟨e', k, hrun, hp, -, hnext⟩ := go_cases ha
    obtain ⟨q, hturn, -⟩ := hunder.follows pid _ hrun ((anchor x).effect pid e' o e.pre.shared).2
    rw [hnext]
    apply (orderId_turn hturn (hkept.fits pid) txn).imp_right
    rintro ⟨hnone, orderId, hlinked, hmem⟩
    exact ⟨hnone, orderId, pid, hlinked, hmem, hkept.creators orderId pid hmem⟩

theorem change_le {a b : Option OrderId} (h : b = a ∨ a = none ∧ b ≠ none) :
    (if b = a then 0 else 1) + spent a.isSome ≤ spent b.isSome := by
  obtain rfl | ⟨rfl, hb⟩ := h
  · rw [if_pos rfl, zero_add]
  · obtain ⟨orderId, rfl⟩ := Option.ne_none_iff_exists'.mp hb
    exact le_rfl

theorem orderId_changes_once (hr : Run (machine (anchor x)) (idle s) tr w) (txn : TxnId) :
    (tr.map (changes txn)).sum ≤ 1 := by
  refine charged_once (I := fun _ => True) (changes txn)
    (fun w => (orderIdOf txn w.shared).isSome) hr trivial (fun _ _ _ _ => trivial) ?_
  intro w a _ ha
  apply change_le
  cases a with
  | spawn | kill => exact .inl rfl
  | outside a =>
    have hmoves : (anchor x).moves w.shared a := ha
    exact .inl (orderIdOf_moved hmoves txn)
  | go pid o =>
    obtain ⟨e, k, -, -, -, hnext⟩ := go_cases ha
    have heffect : ((machine (anchor x)).next w (.go pid o)).shared = (effect pid e o w.shared).1 :=
      hnext
    rw [Machine.entry, heffect]
    obtain heq | ⟨orderId, account, -, hnone, hlinked⟩ := orderId_effect pid e o w.shared txn
    · left
      rw [orderIdOf, heq]
      rfl
    · exact .inr ⟨hnone, by rw [hlinked]; simp⟩

/-- Whatever runs in how many processes: the order of a SEP-24 transaction is set
once, to an order opened for it; calls in one process open no more than one; and
when all calls are done, each order opened is the linked one, or was cancelled by
its creator, or had been moved by somebody else when its creator tried to. -/
theorem one_order (hs : Starts s) (hr : Run (machine (anchor x)) (idle s) tr w) (txn : TxnId) :
    ((∀ e ∈ tr, orderIdOf txn e.post.shared = orderIdOf txn e.pre.shared ∨
        orderIdOf txn e.pre.shared = none ∧ ∃ orderId p,
          orderIdOf txn e.post.shared = some orderId ∧
          (orderId, p) ∈ e.pre.shared.created txn ∧ ∃ host, Called txn tr p host) ∧
      (tr.map (changes txn)).sum ≤ 1) ∧
    (∀ host, (∀ pid host', Called txn tr pid host' → host' = host) →
      (w.shared.created txn).length ≤ 1) ∧
    (Finished txn tr w → ∀ orderId p, (orderId, p) ∈ w.shared.created txn →
      Accounted w.shared txn orderId p) := by
  refine ⟨⟨orderId_step hs hr txn, orderId_changes_once hr txn⟩, fun host hsolo => ?_,
    fun hfinished orderId p hmem => ?_⟩
  · have hmaintains : Maintains Turn (anchor x) start .outside (Submits txn (Called txn tr))
        (fun _ => ¬False) fun v stage =>
          Kept txn (Called txn tr) (fun _ => False) v stage ∧ Alone txn host v stage :=
      alone_maintains hsolo
    obtain ⟨stage, -, -, halone⟩ := run_underway hmaintains body_follows hr ⟨hs.kept, hs.alone⟩
      (among_called (fun _ h => h) fun _ _ _ _ h => h)
    exact halone.one
  · let lives (p : Pid) : Prop := ∀ e ∈ tr, e.act ≠ .kill p
    obtain ⟨stage, hunder, hkept⟩ := run_kept hs hr txn lives (fun _ h => h)
      fun e he p hact hlives => hlives e he hact
    obtain ⟨host, hcalled⟩ := hkept.creators orderId p hmem
    obtain ⟨hlives, hdone⟩ := hfinished p host hcalled
    have hout : stage p = .outside := by
      cases hrun : w.running p with
      | none => exact hunder.atRest p hrun
      | some prog =>
        rw [hrun] at hdone
        cases prog with
        | pure | fail => exact hunder.follows p _ hrun
        | step => cases hdone
    obtain hacc | hheld := hkept.accounted orderId p hmem hlives
    · exact hacc
    · rw [hout] at hheld
      cases hheld

def sampleConfig : Config := { Capacity.smallSettings with accountOf := fun _ => ⟨7⟩ }

def sampleCounter : Counter where
  shared := sampleDesk ∅
  transactions id := if id = 0 then some ⟨"G7", .topUp, none⟩ else none
  inFlight _ _ := none
  opened _ := 0
  created _ := []
  movedBy _ := none
  cancelled := []
  late := []

def submitSample (pid : Pid) (host : Host) : CounterAct :=
  .spawn pid (.submitAmount host 0 (some "G7") (some 96000) none)

/-- What the environment answers to the submission that opens order `n`. -/
def submissionChoice (person : Option PersonId) (n : ℕ) (usdcAmount : ℤ) : Choice :=
  { toChoice := Capacity.creationChoice person n
    quoteId := n
    priced := some ⟨usdcAmount, 50, 100⟩ }

def openingActions (pid : Pid) (host : Host) (n : ℕ) (usdcAmount : ℤ) : List CounterAct :=
  submitSample pid host ::
    List.replicate 20 (.go pid (submissionChoice (some 1) n usdcAmount)) ++
      List.replicate 15 (.go pid (submissionChoice none n usdcAmount))

def sampleAnchor : Machine CounterPool CounterAct (Option (Pid × Effect)) :=
  machine (anchor sampleConfig)

/-- The transaction that was signed for the first order lands, and the indexer sees it. -/
def landingActions : List CounterAct :=
  [.outside (.desk (.chain ⟨0⟩
      (.call (sampleEnv 1000 [⟨6⟩]) (.createTrade 1 DailyLimit.smallArgs)))),
    .spawn 3 (.other (.applyEvent ⟨some 1, .tradeCreated, 1, some ⟨0⟩, none⟩)), .go 3 {},
    .go 3 { toChoice := DailyLimit.smallRead }, .go 3 { toChoice := DailyLimit.smallRead }]

def firstOpened : CounterPool :=
  final sampleAnchor (idle sampleCounter) (openingActions 0 0 1 6000000)

/-- Two processes open an order for the same transaction at once. The second is
linked, and the first is cancelled before its trade is seen. -/
def twiceActions : List CounterAct :=
  openingActions 0 0 1 6000000 ++ openingActions 1 1 2 3000000 ++
    (List.replicate 2 (.go 1 {}) ++ List.replicate 3 (.go 0 {}) ++ landingActions)

def twiceOpened : CounterPool := final sampleAnchor (idle sampleCounter) twiceActions

theorem opening_first :
    Admitted sampleAnchor (idle sampleCounter) (openingActions 0 0 1 6000000) := by
  refine ⟨⟨rfl, trivial⟩, trivial, trivial, trivial, trivial, trivial, trivial, trivial, rfl,
    trivial, rfl, trivial, trivial, trivial, trivial, trivial, trivial, trivial, trivial, ?_,
    trivial, trivial, trivial, trivial, trivial, trivial, .inl rfl, .inl rfl, trivial, trivial,
    trivial, trivial, ?_, ?_, trivial, trivial, trivial⟩
  · intro stake h
    obtain rfl := Option.some.inj h
    rfl
  · intro q hq tx c htx
    change (if q = 0 then some (⟨none, none⟩ : Tx) else none) = some tx at htx
    cases (if_neg hq).symm.trans htx
  · intro q hq tx c htx
    change (if q = 0 then some (⟨some (1, 1000000), none⟩ : Tx)
      else if q = 0 then some (⟨none, none⟩ : Tx) else none) = some tx at htx
    cases (if_neg hq).symm.trans ((if_neg hq).symm.trans htx)

theorem firstOpened_txs (q : Pid) : firstOpened.shared.shared.txs q = none := by
  by_cases hq : q = 0
  · subst hq
    rfl
  · change (if q = 0 then none else if q = 0 then some _ else if q = 0 then some _ else
      if q = 0 then some _ else none) = none
    simp only [hq, if_false]

set_option maxRecDepth 8000 in
theorem opening_second : Admitted sampleAnchor firstOpened (openingActions 1 1 2 3000000) := by
  refine ⟨⟨rfl, trivial⟩, trivial, trivial, trivial, trivial, trivial, trivial, trivial, rfl,
    trivial, rfl, trivial, trivial, trivial, trivial, trivial, trivial, trivial, trivial, ?_,
    trivial, trivial, trivial, trivial, trivial, trivial, .inl rfl, .inl rfl, trivial, trivial,
    trivial, trivial, ?_, ?_, trivial, trivial, trivial⟩
  · intro stake h
    obtain rfl := Option.some.inj h
    rfl
  · intro q hq tx c htx
    change (if q = 1 then some (⟨none, none⟩ : Tx) else firstOpened.shared.shared.txs q) = some tx
      at htx
    rw [if_neg hq, firstOpened_txs] at htx
    cases htx
  · intro q hq tx c htx
    change (if q = 1 then some (⟨some (2, 1000000), none⟩ : Tx)
      else if q = 1 then some (⟨none, none⟩ : Tx) else firstOpened.shared.shared.txs q) = some tx
      at htx
    rw [if_neg hq, if_neg hq, firstOpened_txs] at htx
    cases htx

set_option maxRecDepth 8000 in
theorem twiceActions_admitted : Admitted sampleAnchor (idle sampleCounter) twiceActions :=
  (opening_first.append opening_second).append
    ⟨trivial, trivial, trivial, trivial, trivial, ⟨rfl, by decide⟩, ⟨rfl, trivial⟩, trivial,
      .inr ⟨_, .head _, rfl⟩, trivial, trivial⟩

def twiceHistory : CounterHistory := history sampleAnchor (idle sampleCounter) twiceActions

theorem twice_run : Run sampleAnchor (idle sampleCounter) twiceHistory twiceOpened :=
  Run.of_actions _ _ twiceActions_admitted

theorem sampleCounter_starts : Starts sampleCounter :=
  ⟨⟨fun _ => rfl, fun _ => rfl⟩, fun _ => rfl⟩

/-- Nobody dies, and only the first two processes submit. -/
def isOfTwo : CounterAct → Bool
  | .spawn pid (.submitAmount _ _ _ _ _) => pid = 0 || pid = 1
  | .kill _ => false
  | _ => true

theorem isOfTwo_of_history : ∀ e ∈ twiceHistory, isOfTwo e.act = true := by
  have hall : twiceActions.all isOfTwo = true := by decide +kernel
  exact fun e he => List.all_eq_true.mp hall e.act (act_of_history he)

theorem twice_finished : Finished 0 twiceHistory twiceOpened := by
  rintro pid host ⟨e, he, token, amount, destination, hact⟩
  refine ⟨fun e' he' hkill => ?_, ?_⟩
  · have hof := isOfTwo_of_history e' he'
    rw [hkill] at hof
    cases hof
  · have hof := isOfTwo_of_history e he
    rw [hact] at hof
    obtain rfl | rfl : pid = 0 ∨ pid = 1 := by simpa [isOfTwo] using hof
    · decide +kernel
    · decide +kernel

theorem sample_one_order :
    Starts sampleCounter ∧ orderIdOf 0 twiceOpened.shared = some 2 ∧
    Run (machine (anchor sampleConfig)) (idle sampleCounter) twiceHistory twiceOpened ∧
    (twiceHistory.map (changes 0)).sum ≤ 1 ∧
    Accounted twiceOpened.shared 0 2 1 ∧ Accounted twiceOpened.shared 0 1 0 := by
  obtain ⟨⟨-, honce⟩, -, hall⟩ := one_order sampleCounter_starts twice_run 0
  refine ⟨sampleCounter_starts, by decide +kernel, twice_run, honce, ?_, ?_⟩
  · exact hall twice_finished 2 1 (by decide +kernel)
  · exact hall twice_finished 1 0 (by decide +kernel)

/-- An order that its creator has cancelled does not stay so: a late funding of
its trade takes it on from there. -/
theorem cancelled_order_goes_on :
    Starts sampleCounter ∧
    Run (machine (anchor sampleConfig)) (idle sampleCounter) twiceHistory twiceOpened ∧
    Finished 0 twiceHistory twiceOpened ∧ (1, 0) ∈ twiceOpened.shared.created 0 ∧
    orderIdOf 0 twiceOpened.shared ≠ some 1 ∧
    (twiceOpened.shared.shared.db.orders.lookup 1).map (·.status) = some .funded ∧
    twiceOpened.shared.late = [] :=
  ⟨sampleCounter_starts, twice_run, twice_finished, by decide +kernel, by decide +kernel,
    by decide +kernel, by decide +kernel⟩

end Lolipay.Coordinator.OneOrder
