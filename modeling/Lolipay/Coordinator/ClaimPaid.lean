import Lolipay.Async.RowLock
import Lolipay.Coordinator.Desk

namespace Lolipay.Coordinator.ClaimPaid

open Lolipay.Ledger.Runs Lolipay.Ledger.Invocation Lolipay.Escrow.Types
open Lolipay.Async.Process Lolipay.Async.Scheduling Lolipay.Async.RowLock
open Lolipay.Coordinator.Orders Lolipay.Coordinator.Database
open Lolipay.Coordinator.Services (refundOpensAt)
open Lolipay.Coordinator.Desk (samplePlacement)

structure Row extends Order where
  userClaimedPaidAt : Option ℕ
  rail : Rail
  deriving DecidableEq, Repr

structure Provider where
  stellarAddress : Address
  alertEmail : Option String
  deriving DecidableEq, Repr

/-- What prints ids, references, amounts and times; a time that is none throws. -/
structure Printing where
  orderId : OrderId → String
  lpId : LpId → String
  ref : ℕ → String
  formatFiat : ℤ → String
  toISOString : ℤ → Option String

def railWords : Rail → String
  | .bank => "bank account"
  | .ewallet => "e-wallet"
  | .qris => "QRIS code"

structure Mail where
  lpId : LpId
  subject : String
  text : String
  dedupeKey : String
  deriving DecidableEq, Repr

structure Notice where
  address : Address
  title : String
  body : String
  deriving DecidableEq, Repr

def claimSubject : String := "A depositor says they have sent your rupiah"

section Texts

variable (p : Printing) (id : OrderId) (claimed : Row) (refundAtIso : String)

def claimedAmount : String := p.formatFiat claimed.fiatAmount ++ " " ++ claimed.fiatCurrency

def refPart : String :=
  match claimed.ref with
  | none => ""
  | some ref => ", reference " ++ p.ref ref

def claimText : String :=
  "A depositor on order " ++ p.orderId id ++ " says they have sent " ++ claimedAmount p claimed ++
    " to your account" ++ refPart p claimed ++
    ". That is their claim, not proof — check your own account.\n\n" ++
    "Nothing has moved on chain. If the money is in your account, open lp.lolipay.app/assignments and press Confirm receipt & release before " ++
    refundAtIso ++
    " and approve both requests in your wallet: that records the payment on chain and releases the USDC to the depositor. If it is not there, do not press it. After that time it can no longer be confirmed; the escrow can be returned to you — the route is open on chain to anyone, including you — and the order closes."

def claimMail (lpId : LpId) : Mail where
  lpId
  subject := claimSubject
  text := claimText p id claimed refundAtIso
  dedupeKey := "email:" ++ p.orderId id ++ ":USER_CLAIMED_PAID:" ++ p.lpId lpId

def claimNotice (lp : Provider) : Notice where
  address := lp.stellarAddress
  title := claimSubject
  body :=
    "Check your " ++ railWords claimed.rail ++ " for " ++ claimedAmount p claimed ++
      ". That is their claim, not proof. If it is there, open Assignments and press Confirm receipt & release before " ++
      refundAtIso ++ ". If it is not, do not press it."

end Texts

def refundAt (claimed : Row) : ℤ :=
  refundOpensAt { claimed.toOrderBindingFields with flow := .topUp }

def hasAlertEmail (lp : Provider) : Bool := lp.alertEmail.any (· ≠ "")

/-- What `interactiveState` shows of the transaction and its order. -/
structure Seen where
  flow : Flow
  order : Option Row

/-- The effects of a claim, from `claim` on inside one transaction. The reading
`asked`, with which the deadline was checked, is no data of the statement. -/
inductive Effect where
  | interactiveState
  | clock
  | claim (asked claimedAt : ℕ)
  | findClaimed
  | findLp (id : LpId)
  | createMail (mail : Mail)
  | createNotice (notice : Notice)
  | commit
  | rollback

/-- An outer `none`, and `false`, is a call that threw. -/
@[reducible] def Reply : Effect → Type
  | .interactiveState => Option Seen
  | .clock => ℕ
  | .claim _ _ => Option Bool
  | .findClaimed => Option Row
  | .findLp _ => Option (Option Provider)
  | .createMail _ | .createNotice _ | .commit => Bool
  | .rollback => Unit

abbrev Service (α : Type) := Program Effect Reply α

def conclude : Service Unit := do
  let done : Bool ← issue Effect.commit
  demand done

section Service

variable (p : Printing) (id : OrderId)

def createNotice (notice : Notice) : Service Unit := do
  let noticed : Bool ← issue (Effect.createNotice notice)
  if noticed then conclude else failAfter .rollback

def tellProvider (claimed : Row) (lpId : LpId) (lp : Provider) : Service Unit :=
  match p.toISOString (refundAt claimed * 1000) with
  | none => failAfter .rollback
  | some refundAtIso =>
    if hasAlertEmail lp then do
      let mailed : Bool ← issue (Effect.createMail (claimMail p id claimed refundAtIso lpId))
      if mailed then createNotice (claimNotice p claimed refundAtIso lp) else failAfter .rollback
    else createNotice (claimNotice p claimed refundAtIso lp)

def findProvider (claimed : Row) (lpId : LpId) : Service Unit := do
  let lp : Option (Option Provider) ← issue (Effect.findLp lpId)
  match lp with
  | some (some lp) => tellProvider p id claimed lpId lp
  | _ => failAfter .rollback

def followClaim : Service Unit := do
  let claimed : Option Row ← issue Effect.findClaimed
  match claimed with
  | none => failAfter .rollback
  | some claimed =>
    match claimed.lpId with
    | none => failAfter .rollback
    | some lpId => findProvider p id claimed lpId

def recordClaim (asked : ℕ) : Service Unit := do
  let claimedAt : ℕ ← issue Effect.clock
  let updated : Option Bool ← issue (Effect.claim asked claimedAt)
  match updated with
  | none => failAfter .rollback
  | some false => conclude
  | some true => followClaim p id

def claimSeen (row : Seen) : Service Unit :=
  match row.order with
  | none => .pure ()
  | some o =>
    if row.flow ≠ .topUp ∨ o.status ≠ .funded ∨ o.userClaimedPaidAt.isSome then .pure ()
    else do
      let asked : ℕ ← issue Effect.clock
      if refundOpensAt o.toOrderBindingFields < (asked / 1000 : ℕ) then .pure ()
      else recordClaim p id asked

def claimPaid : Service Unit := do
  let row ← (attempt .interactiveState fun r => r : Service Seen)
  claimSeen p id row

end Service

/-- A transaction that has claimed the order. What it has found and read, that
is all but its new rows and the time it writes, is no data of the program. -/
structure Tx where
  found : Row
  asked : ℕ
  claimedAt : ℕ
  provider : Option (LpId × Provider)
  mails : List Mail
  notices : List Notice
  deriving DecidableEq, Repr

def Tx.row (tx : Tx) : Row := { tx.found with userClaimedPaidAt := some tx.claimedAt }

/-- One SEP-24 transaction with its order, the providers, and the rows that
claims have put into the outbox and the notifications. `told`, the transactions
that were committed, and `queued`, their mails, are no data of the program. -/
structure Desk where
  flow : Flow
  linked : Bool
  order : Row
  lps : LpId → Option Provider
  outbox : List Mail
  notices : List Notice
  held : Option (Pid × Tx)
  now : ℕ
  told : List Tx
  queued : List Mail

/-- `fresh` is what the refresh inside `interactiveState` makes of the status. -/
structure Choice where
  fails : Bool := false
  lost : Bool := false
  fresh : Option OrderStatus := none

def claimable (row : Row) : Bool :=
  row.flow = .topUp && row.status = .funded && row.userClaimedPaidAt = none

def Desk.seen (s : Desk) (fresh : Option OrderStatus) : Seen where
  flow := s.flow
  order :=
    if s.linked then some { s.order with status := fresh.getD s.order.status } else none

def amend (pid : Pid) (f : Tx → Tx) (s : Desk) : Desk :=
  { s with held := s.held.map fun h => if h.1 = pid then (h.1, f h.2) else h }

def unhold (pid : Pid) (s : Desk) : Desk := { s with held := release pid s.held }

def runCommit (pid : Pid) (s : Desk) : Desk :=
  match own pid s.held with
  | none => s
  | some tx =>
    { s with
      order := tx.row
      outbox := s.outbox ++ tx.mails
      notices := s.notices ++ tx.notices
      held := none
      told := s.told ++ [tx]
      queued := s.queued ++ tx.mails }

def effect (pid : Pid) (e : Effect) (o : Choice) (s : Desk) : Desk × Reply e :=
  match e with
  | .interactiveState => (s, if o.fails then none else some (s.seen o.fresh))
  | .clock => (s, s.now)
  | .claim asked claimedAt =>
    if o.fails then (s, none)
    else if claimable s.order then
      ({ s with held := some (pid, ⟨s.order, asked, claimedAt, none, [], []⟩) }, some true)
    else (s, some false)
  | .findClaimed => (s, if o.fails then none else some (((own pid s.held).map Tx.row).getD s.order))
  | .findLp id =>
    if o.fails then (s, none)
    else (amend pid (fun tx => { tx with provider := (s.lps id).map fun lp => (id, lp) }) s,
      some (s.lps id))
  | .createMail mail =>
    if o.fails then (s, false)
    else if s.outbox.any (·.dedupeKey = mail.dedupeKey) then (s, true)
    else (amend pid (fun tx => { tx with mails := tx.mails ++ [mail] }) s, true)
  | .createNotice notice =>
    if o.fails then (s, false)
    else if s.notices.any (·.address = notice.address) then (s, true)
    else (amend pid (fun tx => { tx with notices := tx.notices ++ [notice] }) s, true)
  | .commit => if o.fails then (unhold pid s, false) else (runCommit pid s, !o.lost)
  | .rollback => (unhold pid s, ())

/-- Time passes, another service writes the order's row, a provider's row
changes, the transaction gets its order, or a sent mail is pruned. -/
inductive Move where
  | clock (time : ℕ)
  | write (row : Row)
  | lp (id : LpId) (lp : Option Provider)
  | link
  | prune (mail : Mail)

def moved (s : Desk) : Move → Desk
  | .clock time => { s with now := time }
  | .write row => { s with order := row }
  | .lp id lp => { s with lps := fun q => if q = id then lp else s.lps q }
  | .link => { s with linked := true }
  | .prune mail => { s with outbox := s.outbox.erase mail }

/-- No other service writes what creation or a claim has written. -/
def moves (s : Desk) : Move → Prop
  | .clock time => s.now ≤ time
  | .write row => s.held.isNone ∧ row.toPlacement = s.order.toPlacement ∧
    row.userClaimedPaidAt = s.order.userClaimedPaidAt ∧ row.rail = s.order.rail
  | .lp _ _ | .link | .prune _ => True

/-- Any number of requests for one transaction. An update that finds the row as
it wants it waits for the transaction that has written to it. -/
def depositors (p : Printing) (id : OrderId) : System Unit Choice Move Effect Reply Desk where
  body _ := claimPaid p id
  delivers _ _ := True
  permits _ e o s :=
    match e with
    | .claim _ _ => o.fails = true ∨ s.held.isNone ∨ claimable s.order = false
    | _ => True
  effect := effect
  dies := unhold
  moves
  moved

variable {p : Printing} {id : OrderId} {s t u : Desk} {pid q : Pid} {tx : Tx}

/-- The transaction has told the provider of the order, once and at the address
on file, of a claim that was made while the order waited for the payment. -/
structure Complete (p : Printing) (id : OrderId) (tx : Tx) : Prop where
  claimable : claimable tx.found = true
  asked : (tx.asked / 1000 : ℕ) ≤ refundOpensAt tx.found.toOrderBindingFields
  later : tx.asked ≤ tx.claimedAt
  told : ∃ lpId lp refundAtIso, tx.found.lpId = some lpId ∧ tx.provider = some (lpId, lp) ∧
    p.toISOString (refundAt tx.found * 1000) = some refundAtIso ∧
    tx.notices = [claimNotice p tx.row refundAtIso lp] ∧
    tx.mails = if hasAlertEmail lp then [claimMail p id tx.row refundAtIso lpId] else []

/-- Either nobody has claimed and nobody was told, or one claim was committed and
all that there is comes from its transaction. -/
structure Sound (p : Printing) (id : OrderId) (s : Desk) : Prop where
  held : ∀ h, s.held = some h → h.2.found = s.order ∧ claimable s.order = true
  pruned : ∀ mail ∈ s.outbox, mail ∈ s.queued
  untold : s.order.userClaimedPaidAt = none → s.told = [] ∧ s.notices = [] ∧ s.queued = []
  told : ∀ time, s.order.userClaimedPaidAt = some time → ∃ tx, s.told = [tx] ∧ Complete p id tx ∧
    tx.claimedAt = time ∧ tx.found.toPlacement = s.order.toPlacement ∧
    s.notices = tx.notices ∧ s.queued = tx.mails

def rowLock : Lock Desk Tx where
  held := Desk.held
  same s t := t.order = s.order
  refl _ := rfl
  trans h h' := h'.trans h

structure Later (s t : Desk) : Prop where
  placement : t.order.toPlacement = s.order.toPlacement
  now : s.now ≤ t.now

theorem Later.of_same (horder : t.order = s.order) (hnow : t.now = s.now) : Later s t := by
  refine ⟨?_, hnow.ge⟩
  rw [horder]

def Relies (pid : Pid) (s t : Desk) : Prop := rowLock.Keeps pid s t ∧ Later s t

theorem Relies.refl (pid : Pid) (s : Desk) : Relies pid s s := ⟨.refl pid s, .of_same rfl rfl⟩

theorem Relies.trans (h : Relies pid s t) (h' : Relies pid t u) : Relies pid s u :=
  ⟨h.1.trans h'.1, h'.2.placement.trans h.2.placement, h.2.now.trans h'.2.now⟩

theorem unclaimed (h : claimable s.order = true) : s.order.userClaimedPaidAt = none := by
  simp only [claimable, Bool.and_eq_true, decide_eq_true_eq] at h
  exact h.2

theorem Sound.unhold (h : Sound p id s) (pid : Pid) : Sound p id (unhold pid s) :=
  ⟨fun x hx => h.held x (eq_of_release hx), h.pruned, h.untold, h.told⟩

theorem unhold_relies (hq : pid ≠ q) (s : Desk) : Relies q s (unhold pid s) :=
  ⟨.of_release hq rfl rfl, .of_same rfl rfl⟩

theorem moved_relies {m : Move} (hm : moves s m) (q : Pid) : Relies q s (moved s m) := by
  cases m with
  | clock time => exact ⟨.of_held rfl rfl, rfl, hm⟩
  | write row =>
    have hfree : s.held = none := Option.isNone_iff_eq_none.mp hm.1
    refine ⟨.of_none ?_ ?_, hm.2.1, le_rfl⟩
    · exact congrArg (own q) hfree
    · exact congrArg (own q) hfree
  | lp | link | prune => exact ⟨.of_held rfl rfl, .of_same rfl rfl⟩

theorem Sound.moved {m : Move} (h : Sound p id s) (hm : moves s m) : Sound p id (moved s m) := by
  cases m with
  | write row =>
    obtain ⟨hfree, hplace, hclaimed, -⟩ := hm
    refine ⟨fun x hx => ?_, h.pruned, fun hnone => h.untold (hclaimed ▸ hnone), fun time htime => ?_⟩
    · change s.held = some x at hx
      rw [Option.isNone_iff_eq_none.mp hfree] at hx
      cases hx
    · obtain ⟨tx, htold, hcomplete, hat, hfound, hrest⟩ := h.told time (hclaimed ▸ htime)
      exact ⟨tx, htold, hcomplete, hat, hfound.trans hplace.symm, hrest⟩
  | prune mail =>
    exact ⟨h.held, fun m hm => h.pruned m (List.mem_of_mem_erase hm), h.untold, h.told⟩
  | clock | lp | link => exact ⟨h.held, h.pruned, h.untold, h.told⟩

def claims (p : Printing) (id : OrderId) : Protocol (depositors p id) where
  rely := Relies
  guar pid s t := ∀ q, pid ≠ q → Relies q s t
  inv := Sound p id
  refl := Relies.refl
  trans _ _ _ _ h h' := h.trans h'
  shares _ q _ _ hne _ h := h q hne
  dies pid s hs := ⟨hs.unhold pid, fun _ hq => unhold_relies hq s⟩
  moved _ _ hs hm := ⟨hs.moved hm, moved_relies hm⟩

variable {α : Type} {Q : α → Desk → Prop}

theorem Sound.amended {tx' : Tx} (h : Sound p id s) (hown : own pid s.held = some tx)
    (hfound : tx'.found = tx.found) :
    (∀ q, pid ≠ q → Relies q s { s with held := some (pid, tx') }) ∧
      Sound p id { s with held := some (pid, tx') } := by
  have hheld : s.held = some (pid, tx) := own_eq_some.mp hown
  constructor
  · intro q hq
    refine ⟨.of_none ?_ (own_of_ne hq), .of_same rfl rfl⟩
    change own q s.held = none
    rw [hheld]
    exact own_of_ne hq
  · refine ⟨fun x hx => ?_, h.pruned, h.untold, h.told⟩
    obtain rfl := Option.some.inj hx
    obtain ⟨hrow, hclaimable⟩ := h.held _ hheld
    exact ⟨hfound.trans hrow, hclaimable⟩

theorem held_step {e : Effect} {k : Reply e → Service α} (hown : own pid s.held = some tx)
    (h : ∀ t o, Sound p id t → own pid t.held = some tx → ∃ tx', tx'.found = tx.found ∧
      (effect pid e o t).1 = { t with held := some (pid, tx') } ∧
      Safe ((claims p id).of pid) Q (k (effect pid e o t).2) { t with held := some (pid, tx') }) :
    Safe ((claims p id).of pid) Q (.step e k) s := by
  apply safe_step
  intro t o hst ht _
  have hown' : own pid t.held = some tx := hst.1.own.trans hown
  obtain ⟨tx', hfound, heq, hk⟩ := h t o ht hown'
  obtain ⟨hguar, hsound⟩ := ht.amended hown' hfound
  change (∀ q, pid ≠ q → Relies q t (effect pid e o t).1) ∧ Sound p id (effect pid e o t).1 ∧
    Safe _ Q (k (effect pid e o t).2) (effect pid e o t).1
  rw [heq]
  exact ⟨hguar, hsound, hk⟩

theorem held_same (hown : own pid s.held = some tx) : s = { s with held := some (pid, tx) } := by
  have hheld : s.held = some (pid, tx) := own_eq_some.mp hown
  rw [← hheld]

theorem amend_own (f : Tx → Tx) (hown : own pid s.held = some tx) :
    amend pid f s = { s with held := some (pid, f tx) } := by
  have hheld : s.held = some (pid, tx) := own_eq_some.mp hown
  simp [amend, hheld]

theorem rollback_safe (s : Desk) :
    Safe ((claims p id).of pid) (fun _ _ => True) (failAfter .rollback : Service Unit) s :=
  safe_failAfter (claims p id) fun t _ _ ht => ⟨fun _ hq => unhold_relies hq t, ht.unhold pid⟩

theorem Sound.committed (h : Sound p id s) (hown : own pid s.held = some tx)
    (hcomplete : Complete p id tx) :
    (∀ q, pid ≠ q → Relies q s (runCommit pid s)) ∧ Sound p id (runCommit pid s) := by
  have hheld : s.held = some (pid, tx) := own_eq_some.mp hown
  obtain ⟨hfound, hclaimable⟩ := h.held _ hheld
  obtain ⟨htold, hnotices, hqueued⟩ := h.untold (unclaimed hclaimable)
  have houtbox : ∀ mail ∈ s.outbox, mail ∈ tx.mails := by
    intro mail hmail
    have hnone := h.pruned mail hmail
    rw [hqueued] at hnone
    cases hnone
  have hplace : tx.found.toPlacement = s.order.toPlacement := by
    rw [hfound]
  simp only [runCommit, hown, htold, hnotices, hqueued, List.nil_append]
  constructor
  · intro q hq
    refine ⟨.of_none ?_ rfl, hplace, le_rfl⟩
    change own q s.held = none
    rw [hheld]
    exact own_of_ne hq
  · refine ⟨fun x hx => (by cases hx), fun mail hmail => ?_, fun hnone => (by cases hnone),
      fun time htime => ?_⟩
    · obtain hmail | hmail := List.mem_append.mp hmail
      · exact houtbox mail hmail
      · exact hmail
    · exact ⟨tx, rfl, hcomplete, Option.some.inj htime, rfl, rfl, rfl⟩

theorem conclude_safe (h : ∀ tx, own pid s.held = some tx → Complete p id tx) :
    Safe ((claims p id).of pid) (fun _ _ => True) conclude s := by
  apply safe_last (claims p id) fun done _ => safe_demand done
  intro t o hst ht
  change (∀ q, pid ≠ q → Relies q t (effect pid .commit o t).1) ∧
    Sound p id (effect pid .commit o t).1
  simp only [effect]
  cases o.fails with
  | true => exact ⟨fun _ hq => unhold_relies hq t, ht.unhold pid⟩
  | false =>
    cases hown : own pid t.held with
    | none =>
      simp only [runCommit, hown]
      exact ⟨fun q _ => .refl q t, ht⟩
    | some tx => exact ht.committed hown (h tx (hst.1.own.symm.trans hown))

/-- A transaction that has claimed the order in time. -/
structure Begun (tx : Tx) : Prop where
  claimable : claimable tx.found = true
  asked : (tx.asked / 1000 : ℕ) ≤ refundOpensAt tx.found.toOrderBindingFields
  later : tx.asked ≤ tx.claimedAt

theorem createNotice_safe {notice : Notice} (hown : own pid s.held = some tx) (hnone : tx.notices = [])
    (hcomplete : Complete p id { tx with notices := [notice] }) :
    Safe ((claims p id).of pid) (fun _ _ => True) (createNotice notice) s := by
  apply held_step hown
  intro t o ht hown'
  obtain ⟨-, hclaimable⟩ := ht.held _ (own_eq_some.mp hown')
  obtain ⟨-, hnotices, -⟩ := ht.untold (unclaimed hclaimable)
  cases hf : o.fails with
  | true =>
    refine ⟨tx, rfl, ?_, ?_⟩
    · simp only [effect, hf, if_true]
      exact held_same hown'
    · simp only [effect, hf, if_true]
      exact rollback_safe _
  | false =>
    refine ⟨{ tx with notices := [notice] }, rfl, ?_, ?_⟩
    · simp [effect, hf, hnotices, amend_own _ hown', hnone]
    · simp only [effect, hf, hnotices, List.any_nil, Bool.false_eq_true, if_false]
      apply conclude_safe
      intro tx' htx'
      obtain rfl := Option.some.inj (own_self.symm.trans htx')
      exact hcomplete

theorem tellProvider_safe {lpId : LpId} {lp : Provider} (hown : own pid s.held = some tx)
    (hbegun : Begun tx) (hlpId : tx.found.lpId = some lpId) (hlp : tx.provider = some (lpId, lp))
    (hmails : tx.mails = []) (hnone : tx.notices = []) :
    Safe ((claims p id).of pid) (fun _ _ => True) (tellProvider p id tx.row lpId lp) s := by
  have hrefund : refundAt tx.row = refundAt tx.found := rfl
  rw [tellProvider, hrefund]
  cases hiso : p.toISOString (refundAt tx.found * 1000) with
  | none => exact rollback_safe s
  | some refundAtIso =>
    dsimp only
    by_cases hemail : hasAlertEmail lp = true
    · rw [if_pos hemail]
      apply held_step hown
      intro t o ht hown'
      obtain ⟨-, hclaimable⟩ := ht.held _ (own_eq_some.mp hown')
      have houtbox : t.outbox = [] := by
        apply List.eq_nil_iff_forall_not_mem.mpr
        intro mail hmail
        have hqueued := ht.pruned mail hmail
        rw [(ht.untold (unclaimed hclaimable)).2.2] at hqueued
        cases hqueued
      cases hf : o.fails with
      | true =>
        refine ⟨tx, rfl, ?_, ?_⟩
        · simp only [effect, hf, if_true]
          exact held_same hown'
        · simp only [effect, hf, if_true]
          exact rollback_safe _
      | false =>
        refine ⟨{ tx with mails := [claimMail p id tx.row refundAtIso lpId] }, rfl, ?_, ?_⟩
        · simp [effect, hf, houtbox, amend_own _ hown', hmails]
        · simp only [effect, hf, houtbox, List.any_nil, Bool.false_eq_true, if_false]
          refine createNotice_safe own_self hnone ?_
          refine ⟨hbegun.claimable, hbegun.asked, hbegun.later, lpId, lp, refundAtIso, hlpId, hlp, hiso,
            rfl, ?_⟩
          rw [if_pos hemail]
          rfl
    · rw [if_neg hemail]
      refine createNotice_safe hown hnone ?_
      refine ⟨hbegun.claimable, hbegun.asked, hbegun.later, lpId, lp, refundAtIso, hlpId, hlp, hiso,
        rfl, ?_⟩
      rw [if_neg hemail]
      exact hmails

theorem findProvider_safe {lpId : LpId} (hown : own pid s.held = some tx) (hbegun : Begun tx)
    (hlpId : tx.found.lpId = some lpId) (hmails : tx.mails = []) (hnone : tx.notices = []) :
    Safe ((claims p id).of pid) (fun _ _ => True) (findProvider p id tx.row lpId) s := by
  apply held_step hown
  intro t o _ hown'
  cases hf : o.fails with
  | true =>
    refine ⟨tx, rfl, ?_, ?_⟩
    · simp only [effect, hf, if_true]
      exact held_same hown'
    · simp only [effect, hf, if_true]
      exact rollback_safe _
  | false =>
    refine ⟨{ tx with provider := (t.lps lpId).map fun lp => (lpId, lp) }, rfl, ?_, ?_⟩
    · simp only [effect, hf, Bool.false_eq_true, if_false]
      exact amend_own _ hown'
    · simp only [effect, hf, Bool.false_eq_true, if_false]
      cases t.lps lpId with
      | none => exact rollback_safe _
      | some lp =>
        change Safe _ _ (tellProvider p id (Tx.row { tx with provider := some (lpId, lp) }) lpId lp) _
        exact tellProvider_safe own_self ⟨hbegun.claimable, hbegun.asked, hbegun.later⟩ hlpId rfl hmails
          hnone

theorem followClaim_safe (hown : own pid s.held = some tx) (hbegun : Begun tx)
    (hmails : tx.mails = []) (hnone : tx.notices = []) :
    Safe ((claims p id).of pid) (fun _ _ => True) (followClaim p id) s := by
  apply held_step hown
  intro t o _ hown'
  refine ⟨tx, rfl, held_same hown', ?_⟩
  rw [← held_same hown']
  cases hf : o.fails with
  | true =>
    simp only [effect, hf, if_true]
    exact rollback_safe t
  | false =>
    simp only [effect, hf, hown', Option.map_some, Option.getD_some, Bool.false_eq_true, if_false]
    change Safe _ _ (match tx.found.lpId with
      | none => failAfter .rollback
      | some lpId => findProvider p id tx.row lpId) t
    cases hlpId : tx.found.lpId with
    | none => exact rollback_safe t
    | some lpId => exact findProvider_safe hown' hbegun hlpId hmails hnone

theorem recordClaim_safe {asked : ℕ} (hasked : asked ≤ s.now)
    (htime : (asked / 1000 : ℕ) ≤ refundOpensAt s.order.toOrderBindingFields) :
    Safe ((claims p id).of pid) (fun _ _ => True) (recordClaim p id asked) s := by
  apply safe_quiet (claims p id) (fun t q _ => .refl q t) fun _ _ => rfl
  intro t o hst ht
  apply safe_step
  intro u o' htu hu hp
  have hplace : u.order.toPlacement = s.order.toPlacement :=
    htu.2.placement.trans hst.2.placement
  have hbinding : u.order.toOrderBindingFields = s.order.toOrderBindingFields := by
    rw [hplace]
  cases hf : o'.fails with
  | true =>
    simp only [depositors, effect, hf, if_true]
    exact ⟨fun q _ => .refl q u, hu, rollback_safe u⟩
  | false =>
    cases hclaimable : claimable u.order with
    | true =>
      have hfree : u.held = none := by
        obtain hfails | hnone | hfalse := hp
        · rw [hf] at hfails
          cases hfails
        · exact Option.isNone_iff_eq_none.mp hnone
        · rw [hclaimable] at hfalse
          cases hfalse
      simp only [depositors, effect, hf, hclaimable, if_true, Bool.false_eq_true, if_false]
      refine ⟨fun q hq => ⟨.of_none ?_ (own_of_ne hq), .of_same rfl rfl⟩,
        ⟨fun x hx => ?_, hu.pruned, hu.untold, hu.told⟩, ?_⟩
      · exact congrArg (own q) hfree
      · obtain rfl := Option.some.inj hx
        exact ⟨rfl, hclaimable⟩
      · refine followClaim_safe own_self ⟨hclaimable, ?_, hasked.trans hst.2.now⟩ rfl rfl
        rw [hbinding]
        exact htime
    | false =>
      have hfree : u.held = none := by
        cases hheld : u.held with
        | none => rfl
        | some x =>
          rw [(hu.held x hheld).2] at hclaimable
          cases hclaimable
      simp only [depositors, effect, hf, hclaimable, Bool.false_eq_true, if_false]
      refine ⟨fun q _ => .refl q u, hu, conclude_safe fun tx htx => ?_⟩
      have hnone : own pid u.held = none := congrArg (own pid) hfree
      rw [hnone] at htx
      cases htx

/-- What the page shows of the deadline is what the row says for good. -/
theorem claimSeen_safe (fresh : Option OrderStatus) (s : Desk) :
    Safe ((claims p id).of pid) (fun _ _ => True) (claimSeen p id (s.seen fresh)) s := by
  rw [claimSeen]
  cases hrow : (s.seen fresh).order with
  | none => exact fun _ _ _ => trivial
  | some row =>
    have hbinding : row.toOrderBindingFields = s.order.toOrderBindingFields := by
      simp only [Desk.seen] at hrow
      split at hrow
      · obtain rfl := Option.some.inj hrow
        rfl
      · cases hrow
    dsimp only
    split
    next => exact fun _ _ _ => trivial
    next =>
      apply safe_quiet (claims p id) (fun t q _ => .refl q t) fun _ _ => rfl
      intro t o hst _
      have hplace : t.order.toOrderBindingFields = s.order.toOrderBindingFields := by
        rw [hst.2.placement]
      change Safe _ _ (if refundOpensAt row.toOrderBindingFields < (t.now / 1000 : ℕ) then .pure ()
        else recordClaim p id t.now) t
      split
      next => exact fun _ _ _ => trivial
      next hlate =>
        apply recordClaim_safe le_rfl
        rw [hplace, ← hbinding]
        exact not_lt.mp hlate

theorem claimPaid_safe (s : Desk) :
    Safe ((claims p id).of pid) (fun _ _ => True) (claimPaid p id) s := by
  apply safe_quiet (claims p id) (fun t q _ => .refl q t) fun _ _ => rfl
  intro t o _ _
  have hreply : ((depositors p id).effect pid .interactiveState o t).2 =
      if o.fails then none else some (t.seen o.fresh) := rfl
  rw [hreply]
  cases o.fails with
  | true => trivial
  | false => exact claimSeen_safe o.fresh t

structure Starts (s : Desk) : Prop where
  order : s.order.userClaimedPaidAt = none
  notices : s.notices = []
  outbox : s.outbox = []
  held : s.held = none
  records : s.told = [] ∧ s.queued = []

theorem Starts.sound (h : Starts s) : Sound p id s where
  held x hx := by
    rw [h.held] at hx
    cases hx
  pruned mail hmail := by
    rw [h.outbox] at hmail
    cases hmail
  untold _ := ⟨h.records.1, h.notices, h.records.2⟩
  told time htime := by
    rw [h.order] at htime
    cases htime

abbrev Network := Pool Effect Reply Desk

abbrev Log := List (Entry Network (Act Unit Choice Move) (Option (Pid × Effect)))

theorem effect_told (pid : Pid) (e : Effect) (o : Choice) (s : Desk) :
    s.told <+: (effect pid e o s).1.told := by
  cases e with
  | commit =>
    simp only [effect, runCommit]
    split
    · exact List.prefix_refl _
    · split
      · exact List.prefix_refl _
      · exact List.prefix_append _ _
  | interactiveState | clock | findClaimed | rollback => exact List.prefix_refl _
  | claim | findLp | createMail | createNotice =>
    simp only [effect]
    split_ifs <;> exact List.prefix_refl _

theorem told_front {tr : Log} {w w' : Network} (hr : Run (machine (depositors p id)) w tr w') :
    w.shared.told <+: w'.shared.told := by
  refine hr.invariant (I := fun v => w.shared.told <+: v.shared.told) (List.prefix_refl _) ?_
  intro v a hv ha
  apply hv.trans
  have hstep := step_of_next ha
  generalize (machine (depositors p id)).out v a = out at hstep
  generalize ((machine (depositors p id)).next v a).shared = t at hstep
  cases hstep with
  | same | dies => exact List.prefix_refl _
  | moved m _ => cases m <;> exact List.prefix_refl _
  | effect pid e o _ => exact effect_told pid e o v.shared

theorem run_sound {tr : Log} {w : Network} (hs : Starts s)
    (hr : Run (machine (depositors p id)) (idle s) tr w) : Orderly (claims p id) w :=
  run_orderly (fun _ _ t _ _ => claimPaid_safe t) hr (.idle hs.sound)

/-- However many requests race, fail or die, and whatever else happens to the
order: without a claim nobody was told, and a claim is one for good, made in time
on an order that waited for the payment, with one notification for the order's
provider and one mail if that has an alert address. -/
theorem claim_told_once {tr tr' : Log} {w w' : Network} (hs : Starts s)
    (hr : Run (machine (depositors p id)) (idle s) tr w)
    (hr' : Run (machine (depositors p id)) w tr' w') :
    (w.shared.order.userClaimedPaidAt = none → w.shared.notices = [] ∧ w.shared.queued = []) ∧
    ∀ time, w.shared.order.userClaimedPaidAt = some time →
      (∃ tx, w.shared.told = [tx] ∧ Complete p id tx ∧ tx.claimedAt = time ∧
        w.shared.notices = tx.notices ∧ w.shared.queued = tx.mails) ∧
      w'.shared.order.userClaimedPaidAt = some time ∧ w'.shared.notices = w.shared.notices ∧
      w'.shared.queued = w.shared.queued := by
  have hsound : Sound p id w.shared := (run_sound hs hr).1
  have hsound' : Sound p id w'.shared := (run_sound hs (hr.trans hr')).1
  refine ⟨fun hnone => (hsound.untold hnone).2, fun time htime => ?_⟩
  obtain ⟨tx, htold, hcomplete, hat, -, hnotices, hqueued⟩ := hsound.told time htime
  refine ⟨⟨tx, htold, hcomplete, hat, hnotices, hqueued⟩, ?_⟩
  have hfront := told_front hr'
  rw [htold] at hfront
  cases hclaimed : w'.shared.order.userClaimedPaidAt with
  | none =>
    rw [(hsound'.untold hclaimed).1] at hfront
    cases List.prefix_nil.mp hfront
  | some time' =>
    obtain ⟨tx', htold', -, hat', -, hnotices', hqueued'⟩ := hsound'.told time' hclaimed
    rw [htold'] at hfront
    obtain ⟨rest, hrest⟩ := hfront
    obtain ⟨rfl, -⟩ := List.cons.inj hrest
    refine ⟨?_, hnotices'.trans hnotices.symm, hqueued'.trans hqueued.symm⟩
    rw [← hat', hat]

def samplePrinting : Printing := ⟨toString, toString, toString, toString, fun t => some (toString t)⟩

def sampleRow : Row := ⟨{ samplePlacement.opened with status := .funded }, none, .qris⟩

def sampleDesk : Desk where
  flow := .topUp
  linked := true
  order := sampleRow
  lps _ := some ⟨⟨6⟩, some "lp@lolipay.app"⟩
  outbox := []
  notices := []
  held := none
  now := 1000000
  told := []
  queued := []

/-- The button is pressed twice; the second request waits for the first. -/
def sampleClaims : List (Act Unit Choice Move) :=
  [.spawn 0 (), .spawn 1 ()] ++ (List.replicate 4 (.go 0 {}) ++ List.replicate 3 (.go 1 {}) ++
    (List.replicate 5 (.go 0 {}) ++ List.replicate 2 (.go 1 {})))

def sampleEnd : Network := final (machine (depositors samplePrinting 0)) (idle sampleDesk) sampleClaims

theorem sampleClaims_admitted :
    Admitted (machine (depositors samplePrinting 0)) (idle sampleDesk) sampleClaims :=
  ⟨⟨rfl, trivial⟩, ⟨rfl, trivial⟩, trivial, trivial, trivial, .inr (.inl rfl), trivial, trivial,
    trivial, trivial, trivial, trivial, trivial, trivial, .inr (.inl rfl), trivial, trivial⟩

theorem claim_told_once_sample : ∃ tx, sampleEnd.shared.told = [tx] ∧
    Complete samplePrinting 0 tx ∧ tx.claimedAt = 1000000 ∧
    sampleEnd.shared.notices = tx.notices ∧ sampleEnd.shared.queued = tx.mails := by
  have hstarts : Starts sampleDesk := ⟨rfl, rfl, rfl, rfl, rfl, rfl⟩
  have hrun := Run.of_actions _ _ sampleClaims_admitted
  obtain ⟨-, hclaimed⟩ := claim_told_once hstarts hrun .nil
  exact (hclaimed 1000000 rfl).1

end Lolipay.Coordinator.ClaimPaid
