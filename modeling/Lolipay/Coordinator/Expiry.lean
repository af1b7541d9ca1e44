import Lolipay.Coordinator.BoundRows

namespace Lolipay.Coordinator.Expiry

open Lolipay.Ledger Lolipay.Ledger.Storage Lolipay.Ledger.Invocation Lolipay.Ledger.Runs
open Lolipay.Async.Process Lolipay.Async.Scheduling
open Lolipay.Escrow.Types Lolipay.Escrow.System
open Lolipay.Escrow.Effects (trade_step)
open Lolipay.Escrow.Invariant (moves_toTerms)
open Lolipay.Escrow.Contract (minPayWindow)
open Lolipay.Escrow.Custody (sampleEnv sampleArgs)
open Lolipay.Coordinator.Orders Lolipay.Coordinator.Binding Lolipay.Coordinator.Writes
open Lolipay.Coordinator.Database Lolipay.Coordinator.Services Lolipay.Coordinator.Creation
open Lolipay.Coordinator.Desk Lolipay.Coordinator.Steps Lolipay.Coordinator.Footprint
open Lolipay.Coordinator.Guards Lolipay.Coordinator.BoundRows

/-- The office, with the close time of the last ledger that each process was told of. -/
structure Watch where
  desk : Shared
  seen : Pid → ℕ

/-- A strict read answers from a ledger that is not older than the one whose
close time the process was told just before. -/
def Dated (pid : Pid) (o : Choice) (s : Watch) : Effect → Prop
  | .ask (.getTradeStatusStrict contractId tradeId) =>
    o.fails = true ∨ ∃ c ∈ s.desk.chain :: s.desk.past, s.seen pid ≤ (c contractId).now * 1000 ∧
      o.onChain = ((c contractId).trade tradeId).map decodeTradeStatus
  | _ => True

def told (o : Choice) : Effect → Option ℕ
  | .ask .latestLedgerCloseTime => o.time
  | _ => none

def Watch.after (pid : Pid) (e : Effect) (o : Choice) (s : Watch) : Watch where
  desk := Desk.after pid e o s.desk
  seen q := if q = pid then (told o e).getD (s.seen pid) else s.seen q

/-- The services of the coordinator over a chain that answers in order. -/
def watched (y : Settings) (allowed : Call → Prop) :
    System Call Choice Move Effect Reply Watch where
  body := body y
  delivers _ := allowed
  permits pid e o s := Permits y pid e o s.desk ∧ Dated pid o s e
  effect pid e o s := (s.after pid e o, reply pid e o s.desk)
  dies pid s := ⟨release pid s.desk, fun q => if q = pid then 0 else s.seen q⟩
  moves s := Moves s.desk
  moved s a := ⟨moved s.desk a, s.seen⟩

abbrev WatchedEntry := Entry (Pool Effect Reply Watch) DeskAct (Option (Pid × Effect))

def watch (s : Shared) : Watch := ⟨s, fun _ => 0⟩

def unwatched (w : Pool Effect Reply Watch) : Office := ⟨w.shared.desk, w.running⟩

variable {y : Settings} {allowed : Call → Prop} {home : Address} {p : Placement}
  {s t u : Watch} {pid : Pid} {e : Effect} {o : Choice} {id : OrderId} {row row' order : Order}
  {α : Type}

theorem step_unwatched {w : Pool Effect Reply Watch} {a : DeskAct}
    (ha : (machine (watched y allowed)).admits w a) :
    (machine (desk y allowed)).admits (unwatched w) a ∧
      (machine (desk y allowed)).next (unwatched w) a =
        unwatched ((machine (watched y allowed)).next w a) := by
  cases a with
  | spawn pid call => exact ⟨ha, rfl⟩
  | kill pid => exact ⟨trivial, rfl⟩
  | outside a => exact ⟨ha, rfl⟩
  | go pid o =>
    simp only [Async.Scheduling.machine, Async.Scheduling.admits, Async.Scheduling.next,
      unwatched] at ha ⊢
    split at ha
    next => exact ⟨ha.1, rfl⟩
    next => cases ha

theorem run_unwatched {w w' : Pool Effect Reply Watch} {tr : List WatchedEntry}
    (hr : Run (machine (watched y allowed)) w tr w') :
    Run (machine (desk y allowed)) (unwatched w)
      (tr.map fun e => (machine (desk y allowed)).entry (unwatched e.pre) e.act)
      (unwatched w') :=
  hr.project unwatched (fun _ a => a) (I := fun _ => True) trivial (fun _ _ _ _ => trivial)
    fun _ _ _ ha => step_unwatched ha

/-- The order has no matching trade and will not get one: its id is taken, or
it is too late to open a trade with its deadline. -/
structure Barred (home : Address) (p : Placement) (c : Address → World) : Prop where
  unmatched : ¬BoundAt c home p
  closed : (c (contractIdFor p home)).trade p.tradeId ≠ none ∨
    p.payDeadline < (c (contractIdFor p home)).now + minPayWindow

theorem Barred.congr {c c' : Address → World} (h : Barred home p c)
    (heq : c' (contractIdFor p home) = c (contractIdFor p home)) : Barred home p c' := by
  refine ⟨fun hb => h.unmatched ?_, by rw [heq]; exact h.closed⟩
  rw [BoundAt, heq] at hb
  exact hb

theorem Barred.chain {a : Address} {act : Action} {s : Shared} (h : Barred home p s.chain)
    (ha : admits a (s.chain a) act) : Barred home p (Desk.moved s (.chain a act)).chain := by
  by_cases hb : contractIdFor p home = a
  · have hnext : (Desk.moved s (.chain a act)).chain (contractIdFor p home) =
        next (s.chain a) act := by
      simp [Desk.moved, hb]
    have hnow : (next (s.chain a) act).now = act.time := Deployment.now_next _ _ _
    have hlater : (s.chain a).now ≤ act.time := Deployment.admits_time ha
    have hclosed := h.closed
    have hun := h.unmatched
    rw [hb] at hclosed
    rw [BoundAt, hb] at hun
    cases trade_step ha p.tradeId with
    | same hsame =>
      refine ⟨?_, ?_⟩
      · rw [BoundAt, hnext, hsame]
        exact hun
      · rw [hnext, hsame, hnow]
        exact hclosed.imp_right fun hlt => by omega
    | @opened env cfg args hact hself hcfg ho hnew ht =>
      -- A trade can be opened only in time, so it has another deadline.
      have hlt : p.payDeadline < (s.chain a).now + minPayWindow :=
        hclosed.resolve_left fun hne => hne hnew
      subst hact
      refine ⟨?_, .inl (by rw [hnext, ht]; exact Option.some_ne_none _)⟩
      rintro ⟨t, htrade, hv⟩
      rw [hnext, ht] at htrade
      obtain rfl := Option.some.inj htrade
      obtain ⟨-, -, -, -, -, -, -, -, -, -, -, -, -, hpay, -⟩ := (verify_eq_nil_iff _ _).mp hv
      have hpay' : (args.payDeadline : ℤ) = p.payDeadline := Option.some.inj hpay
      have hge := ho.pay_ge
      simp only [Deployment.Action.time] at hlater
      omega
    | moved hact hself hcfg hlook hm ht =>
      refine ⟨?_, .inl (by rw [hnext, ht]; exact Option.some_ne_none _)⟩
      rintro ⟨t, htrade, hv⟩
      rw [hnext, ht] at htrade
      obtain rfl := Option.some.inj htrade
      exact hun ⟨_, hlook, (verify_toTerms (moves_toTerms hm) _).symm.trans hv⟩
  · exact h.congr (by simp [Desk.moved, hb])

theorem Barred.moved {s : Shared} {a : Move} (h : Barred home p s.chain) (ha : Moves s a) :
    Barred home p (Desk.moved s a).chain := by
  cases a with
  | chain contractId act => exact h.chain ha
  | tick | prune => exact h

section

variable {d d' : Shared} {out : Option (Pid × Effect)}

theorem Barred.step (h : Barred home p d.chain) (hstep : Step (desk y allowed) d out d') :
    Barred home p d'.chain := by
  cases hstep with
  | same => exact h
  | effect pid e o hp =>
    have hchain : (Desk.after pid e o d).chain = d.chain := (after_outside pid e o d).2.1
    exact h.congr (congrFun hchain _)
  | dies pid => exact h
  | moved a ha => exact h.moved ha

theorem rowStep_expired (h : RowStep d pid e id (some row) (some row'))
    (hexp : row.status = .expired) :
    row'.status = .expired ∨ notYetBoundOnChain row'.status = false := by
  cases h with
  | same => exact .inl hexp
  | @wrote w row he hm =>
    rw [write_status]
    cases w with
    | refresh | promote | land => exact .inr (bound_statusMap _)
    | dispute | reopen => exact .inr rfl
    | expire => exact .inl rfl
    | cancel | autoRefund | attest =>
      simp [RowWrite.matchesRow, hexp, preChainStatuses] at hm
    | backfillSettlementHash | reconcileDisputeMetadata => exact .inl hexp
  | judged he hnew hm =>
    rw [closeDisputeRound_status, verdict_status]
    exact .inr (bound_statusMap _)
  | accrued he hf => exact .inl hexp
  | stoodDown he hp =>
    rw [hexp] at hp
    cases hp

/-- Nothing but the sweep expires a row. -/
theorem rowStep_expires (h : RowStep d pid e id (some row) (some row'))
    (hexp : row'.status = .expired) : row.status = .expired ∨ e = .write id .expire := by
  have hmap (st : Status) : statusMap st ≠ .expired := by
    cases st <;> decide
  cases h with
  | same => exact .inl hexp
  | @wrote w row he hm =>
    rw [write_status] at hexp
    cases w with
    | refresh | promote | land => exact absurd hexp (hmap _)
    | expire => exact .inr he
    | backfillSettlementHash | reconcileDisputeMetadata => exact .inl hexp
    | _ => cases hexp
  | judged he hnew hm =>
    rw [closeDisputeRound_status, verdict_status] at hexp
    exact absurd hexp (hmap _)
  | accrued he hf => exact .inl hexp
  | stoodDown he hp => cases hexp

/-- The row of a barred order that has expired, or that somebody has bound. -/
structure Lapsed (home : Address) (p : Placement) (id : OrderId) (d : Shared) : Prop where
  clean : Clean d
  barred : Barred home p d.chain
  row : ∃ row, d.db.orders.lookup id = some row ∧ row.toPlacement = p ∧
    (row.status = .expired ∨ notYetBoundOnChain row.status = false)

theorem Lapsed.step (h : Lapsed home p id d) (hstep : Step (desk y allowed) d out d') :
    Lapsed home p id d' := by
  refine ⟨h.clean.step hstep, h.barred.step hstep, ?_⟩
  obtain ⟨row, hrow, hp, hstatus⟩ := h.row
  obtain hsame | ⟨pid, e, -, hrowstep⟩ := row_of_step h.clean hstep id
  · exact ⟨row, hsame.trans hrow, hp, hstatus⟩
  · rw [hrow] at hrowstep
    obtain ⟨row', hrow', hp'⟩ := hrowstep.kept
    rw [hrow'] at hrowstep
    refine ⟨row', hrow', hp'.trans hp, ?_⟩
    obtain hexp | hbound := hstatus
    · exact rowStep_expired hrowstep hexp
    · exact .inr ((rowStep_bound hrowstep).1 hbound)

/-- Along a run of the office a barred order keeps its row expired: only a
matching trade could bind it. -/
theorem run_lapsed {w w' : Office} {tr : DeskHistory}
    (hr : Run (machine (desk y allowed)) w tr w') (h : Lapsed home p id w.shared) :
    Lapsed home p id w'.shared :=
  hr.invariant (I := fun w => Lapsed home p id w.shared) h
    fun _ _ hw ha => hw.step (step_of_next ha)

end

/-- The deadline for signing that `computeWindows` gives an order: ten minutes
before the payment is due. -/
def Windowed (p : Placement) : Prop :=
  p.payDeadline * 1000 ≤ p.expiresAt + minPayWindowSecs * 1000

theorem windowed_of_quote {data : Placement} (h : FromQuote y data) : Windowed data := by
  obtain ⟨quote, config, user, personId, tradeId, lp, now, rfl⟩ := h
  simp only [Windowed, orderData, minPayWindowSecs]
  omega

/-- What keeps true of the office while the sweep runs. -/
structure Timely (y : Settings) (s : Watch) : Prop where
  clean : Clean s.desk
  past : ∀ c ∈ s.desk.past, ∀ p, Barred y.escrowContractId p c →
    Barred y.escrowContractId p s.desk.chain
  rows : ∀ id row, s.desk.db.orders.lookup id = some row → Windowed row.toPlacement
  txs : ∀ pid tx c, s.desk.txs pid = some tx → tx.created = some c → Windowed c.2

/-- What others leave to a process: its rows, the orders that are barred, and
what it was told. -/
structure Follows (y : Settings) (pid : Pid) (s t : Watch) : Prop where
  rows : ∀ id row, s.desk.db.orders.lookup id = some row →
    ∃ row', t.desk.db.orders.lookup id = some row' ∧ row'.toPlacement = row.toPlacement
  barred : ∀ p, Barred y.escrowContractId p s.desk.chain →
    Barred y.escrowContractId p t.desk.chain
  seen : t.seen pid = s.seen pid

theorem Follows.refl (pid : Pid) (s : Watch) : Follows y pid s s :=
  ⟨fun _ row h => ⟨row, h, rfl⟩, fun _ h => h, rfl⟩

theorem Follows.trans (h : Follows y pid s t) (h' : Follows y pid t u) : Follows y pid s u where
  rows id row hrow := by
    obtain ⟨row', hrow', hp⟩ := h.rows id row hrow
    obtain ⟨row'', hrow'', hp'⟩ := h'.rows id row' hrow'
    exact ⟨row'', hrow'', hp'.trans hp⟩
  barred p hp := h'.barred p (h.barred p hp)
  seen := h'.seen.trans h.seen

/-- What a process owes the others: it expires barred orders only. -/
structure Sweeps (y : Settings) (pid : Pid) (s t : Watch) : Prop where
  follows : ∀ q ≠ pid, Follows y q s t
  expires : ∀ id row row', s.desk.db.orders.lookup id = some row →
    t.desk.db.orders.lookup id = some row' → row'.status = .expired →
    row.status = .expired ∨ Barred y.escrowContractId row.toPlacement s.desk.chain

/-- What has to be known of an order before its row is inserted or expires. -/
def Warranted (y : Settings) (s : Watch) : Effect → Prop
  | .createOrderRow data _ => Windowed data
  | .write id .expire => ∀ row, s.desk.db.orders.lookup id = some row →
      Barred y.escrowContractId row.toPlacement s.desk.chain
  | _ => True

theorem follows_after (hs : Timely y s) {q : Pid} (hq : q ≠ pid ∨ told o e = none) :
    Follows y q s (s.after pid e o) where
  rows id row hrow := by
    have hstep : RowStep s.desk pid e id _ _ := row_step hs.clean o id
    rw [hrow] at hstep
    exact hstep.kept
  barred p hp := hp.congr (congrFun (after_outside pid e o s.desk).2.1 _)
  seen := by
    simp only [Watch.after]
    split
    next heq =>
      subst heq
      rw [hq.resolve_left fun hne => hne rfl]
      rfl
    next => rfl

theorem sweeps_after (hs : Timely y s) (hw : Warranted y s e) :
    Sweeps y pid s (s.after pid e o) where
  follows q hq := follows_after hs (.inl hq)
  expires id row row' hrow hrow' hexp := by
    have hstep : RowStep s.desk pid e id _ _ := row_step hs.clean o id
    rw [hrow] at hstep
    change RowStep s.desk pid e id _ ((s.after pid e o).desk.db.orders.lookup id) at hstep
    rw [hrow'] at hstep
    obtain hold | rfl := rowStep_expires hstep hexp
    · exact .inl hold
    · exact .inr (hw row hrow)

theorem Timely.after (hs : Timely y s) (hp : Permits y pid e o s.desk) (hw : Warranted y s e) :
    Timely y (s.after pid e o) where
  clean := hs.clean.after hp
  past c hc p hbar := by
    obtain ⟨-, hchain, hpast, -⟩ := after_outside pid e o s.desk
    simp only [Watch.after, hpast, hchain] at hc ⊢
    exact hs.past c hc p hbar
  rows id row hrow := by
    obtain ⟨row₀, hrow₀, hplace⟩ | ⟨tx, p, -, htx, hc, rfl⟩ := row_origin hs.clean hrow
    · rw [hplace]
      exact hs.rows id row₀ hrow₀
    · exact hs.txs pid tx _ htx hc
  txs q tx c htx hc := by
    simp only [Watch.after] at htx
    by_cases hq : q = pid
    · subst hq
      obtain ⟨-, tx₀, htx₀, hc₀⟩ | ⟨data, needsRef, rfl, rfl, -⟩ := created_after htx hc
      · exact hs.txs q tx₀ c htx₀ hc₀
      · exact hw
    · rw [txs_other hq] at htx
      exact hs.txs q tx c htx hc

theorem Timely.moved (hs : Timely y s) {a : Move} (ha : Moves s.desk a) :
    Timely y ⟨Desk.moved s.desk a, s.seen⟩ := by
  have hrows (id : OrderId) (row : Order)
      (hrow : (Desk.moved s.desk a).db.orders.lookup id = some row) : Windowed row.toPlacement := by
    rw [orders_moved] at hrow
    exact hs.rows id row hrow
  have hclean : Clean (Desk.moved s.desk a) := hs.clean.moved a
  cases a with
  | chain contractId act =>
    refine ⟨hclean, fun c hc p hbar => ?_, hrows, hs.txs⟩
    obtain rfl | hc := List.mem_cons.mp hc
    · exact hbar.chain ha
    · exact (hs.past c hc p hbar).chain ha
  | tick | prune => exact ⟨hclean, hs.past, hrows, hs.txs⟩

theorem follows_moved {a : Move} (ha : Moves s.desk a) :
    Follows y pid s ⟨Desk.moved s.desk a, s.seen⟩ where
  rows id row hrow := ⟨row, by rw [orders_moved]; exact hrow, rfl⟩
  barred _ hp := hp.moved ha
  seen := rfl

theorem Timely.dies (hs : Timely y s) : Timely y ((watched y allowed).dies pid s) where
  clean := hs.clean.release
  past := hs.past
  rows := hs.rows
  txs q tx c htx hc := by
    have hopen : (release pid s.desk).txs q = some tx := htx
    rw [txs_release] at hopen
    split at hopen
    next => cases hopen
    next => exact hs.txs q tx c hopen hc

def sweepProtocol (y : Settings) (allowed : Call → Prop) : Protocol (watched y allowed) where
  rely := Follows y
  guar := Sweeps y
  inv := Timely y
  refl := Follows.refl
  trans _ := Follows.trans
  shares _ q _ _ hne _ h := h.follows q (Ne.symm hne)
  dies pid s hs := by
    refine ⟨hs.dies, fun q hq => ⟨fun _ row h => ⟨row, h, rfl⟩, fun _ hp => hp, ?_⟩⟩
    simp [watched, Ne.symm hq]
  moved _ _ hs ha := ⟨hs.moved ha, fun _ => follows_moved ha⟩

theorem sweep_step {Q : α → Watch → Prop} {k : Reply e → Service α}
    (hw : ∀ t, Follows y pid s t → Warranted y t e)
    (hk : ∀ t o, Timely y t → Follows y pid s t → Dated pid o t e →
      Safe ((sweepProtocol y allowed).of pid) Q (k (reply pid e o t.desk)) (t.after pid e o)) :
    Safe ((sweepProtocol y allowed).of pid) Q (.step e k) s := by
  apply safe_step _
  intro t o hst ht hp
  exact ⟨sweeps_after ht (hw t hst), ht.after hp.1 (hw t hst), hk t o ht hst hp.2⟩

theorem sweep_of_every {p : Service α} (h : Every (fun e => ∀ t, Warranted y t e) p) :
    Safe ((sweepProtocol y allowed).of pid) (fun _ _ => True) p s :=
  safe_every (sweepProtocol y allowed)
    (fun _ hw t _ ht hp => ⟨sweeps_after ht (hw t), Timely.after ht hp.1 (hw t)⟩) h s

/-- What the sweep knows of a candidate: its row has the placement that was
read, and no trade with its deadline can be opened after the time it was told. -/
structure Candidate (pid : Pid) (s : Watch) (id : OrderId) (order : Order) : Prop where
  row : ∃ row, s.desk.db.orders.lookup id = some row ∧ row.toPlacement = order.toPlacement
  late : order.payDeadline * 1000 < s.seen pid + minPayWindow * 1000

theorem Candidate.follows (h : Candidate pid s id order) (hst : Follows y pid s t) :
    Candidate pid t id order := by
  obtain ⟨row, hrow, hp⟩ := h.row
  obtain ⟨row', hrow', hp'⟩ := hst.rows id row hrow
  exact ⟨⟨row', hrow', hp'.trans hp⟩, hst.seen ▸ h.late⟩

theorem Candidate.barred (h : Candidate pid s id order) (hs : Timely y s)
    (hd : Dated pid o s
      (.ask (.getTradeStatusStrict (contractIdFor order.toPlacement y.escrowContractId)
        order.tradeId)))
    (hf : o.fails = false)
    (hno : ∀ trade, o.onChain = some trade →
      verifyTradeMatchesOrder trade order.toOrderBindingFields ≠ []) :
    Barred y.escrowContractId order.toPlacement s.desk.chain := by
  obtain hfails | ⟨c, hc, htime, hread⟩ := hd
  · cases hfails.symm.trans hf
  have hbar : Barred y.escrowContractId order.toPlacement c := by
    refine ⟨?_, ?_⟩
    · rintro ⟨t, ht, hv⟩
      exact hno _ (by rw [hread, ht]; rfl) hv
    · have hlate := h.late
      right
      omega
  obtain rfl | hc := List.mem_cons.mp hc
  · exact hbar
  · exact hs.past c hc _ hbar

theorem expireOrder_safe (h : Candidate pid s id order) :
    Safe ((sweepProtocol y allowed).of pid) (fun _ t => Follows y pid s t)
      (expireOrder y.escrowContractId id order) s := by
  -- The update comes after a read that bars the order.
  have hexpire (t : Watch) (hst : Follows y pid s t)
      (hbar : Barred y.escrowContractId order.toPlacement t.desk.chain) :
      Safe ((sweepProtocol y allowed).of pid) (fun _ t => Follows y pid s t)
        (do let _ ← issue (Effect.write id .expire); .pure ()) t := by
    refine sweep_step (fun u htu row hrow => ?_) fun u o hu htu _ v huv _ => ?_
    · obtain ⟨row', hrow', hp⟩ := ((h.follows hst).follows htu).row
      obtain rfl := Option.some.inj (hrow'.symm.trans hrow)
      rw [hp]
      exact htu.barred _ hbar
    · exact ((hst.trans htu).trans (follows_after hu (.inr rfl))).trans huv
  refine sweep_step (fun _ _ => trivial) fun t o ht hst hdated => ?_
  have hquiet : Follows y pid t (t.after pid (.ask (.getTradeStatusStrict
      (contractIdFor order.toPlacement y.escrowContractId) order.tradeId)) o) :=
    follows_after ht (.inr rfl)
  have hst' := hst.trans hquiet
  simp only [reply, answer]
  cases hf : o.fails with
  | true => exact fun u hu _ => hst'.trans hu
  | false =>
    cases hread : o.onChain with
    | none =>
      refine hexpire _ hst' (hquiet.barred _ ?_)
      exact (h.follows hst).barred ht hdated hf fun trade htrade => by cases hread.symm.trans htrade
    | some trade =>
      change Safe _ _ (if verifyTradeMatchesOrder trade order.toOrderBindingFields = [] then .pure ()
        else do
          let _ ← issue (Effect.write id .expire)
          .pure ()) _
      split
      next => exact fun u hu _ => hst'.trans hu
      next hv =>
        refine hexpire _ hst' (hquiet.barred _ ?_)
        apply (h.follows hst).barred ht hdated hf
        intro trade' htrade
        obtain rfl := Option.some.inj (hread.symm.trans htrade)
        exact hv

theorem expireOrders_safe (candidates : List (OrderId × Order)) (hs : Timely y s)
    (h : ∀ c ∈ candidates, Candidate pid s c.1 c.2) :
    Safe ((sweepProtocol y allowed).of pid) (fun _ _ => True)
      (forEach candidates fun c => expireOrder y.escrowContractId c.1 c.2) s := by
  induction candidates generalizing s with
  | nil => exact fun _ _ _ => trivial
  | cons c rest ih =>
    refine Safe.bind (Follows.refl pid) (expireOrder_safe (h c (.head _))) hs
      fun _ t ht hst => ih ht fun c' hc' => ?_
    exact (h c' (.tail _ hc')).follows hst

theorem expireStaleOrders_safe :
    Safe ((sweepProtocol y allowed).of pid) (fun _ _ => True)
      (expireStaleOrders y.escrowContractId) s := by
  refine sweep_step (fun _ _ => trivial) fun t o ht hst _ => ?_
  simp only [reply, answer]
  cases htime : o.time with
  | none => exact fun _ _ _ => trivial
  | some ledgerSeenAt =>
    have hseen : (t.after pid (.ask .latestLedgerCloseTime) o).seen pid = ledgerSeenAt := by
      simp [Watch.after, told, htime]
    refine sweep_step (fun _ _ => trivial) fun u o' hu htu _ => ?_
    refine sweep_step (fun _ _ => trivial) fun v o'' hv huv _ => ?_
    have hseen' : v.seen pid = ledgerSeenAt := by
      rw [huv.seen, (follows_after hu (.inr rfl)).seen, htu.seen, hseen]
    have hv' := follows_after (e := .ask (.findStale
      (min ((u.desk.now : ℕ) : ℤ) ledgerSeenAt - staleOrderSweepGraceMs))) (o := o'') hv
      (.inr rfl : pid ≠ pid ∨ _)
    refine expireOrders_safe _ (hv.after trivial trivial) fun c hc => ?_
    simp only [reply, answer, rowsOf] at hc
    obtain ⟨id, -, hpick⟩ := List.mem_filterMap.mp hc
    obtain ⟨row, hrow, rfl⟩ := Option.map_eq_some_iff.mp hpick
    obtain ⟨hlook, hstale⟩ := Option.filter_eq_some_iff.mp hrow
    refine Candidate.follows ⟨⟨row, hlook, rfl⟩, ?_⟩ hv'
    have hwindow := hv.rows id row hlook
    simp only [Bool.and_eq_true] at hstale
    have hlate := of_decide_eq_true hstale.2
    simp only [Windowed, minPayWindowSecs, staleOrderSweepGraceMs, minPayWindow] at *
    omega

/-- Every service expires barred orders only. -/
theorem body_sweeps (pid : Pid) (c : Call) (s : Watch) :
    Safe ((sweepProtocol y allowed).of pid) (fun _ _ => True) (body y c) s := by
  cases c with
  | getOrder id =>
    exact sweep_of_every (getOrder_every _ (fun _ _ => trivial) fun _ _ _ => trivial)
  | cancelOrder id caller =>
    exact sweep_of_every (cancelOrder_every _ (fun _ _ => trivial) (fun _ _ => trivial)
      (fun _ => trivial) _)
  | expireStaleOrders => exact expireStaleOrders_safe
  | autoRefundExpired =>
    exact sweep_of_every (autoRefundExpired_every _ (fun _ _ => trivial) fun _ _ _ _ => trivial)
  | attestFiatPaid id =>
    exact sweep_of_every (attestFiatPaid_every _ (fun _ _ => trivial) fun _ => trivial)
  | setStatus id status note =>
    exact sweep_of_every (setStatus_every (fun _ _ => trivial) fun _ _ _ => trivial)
  | applyEvent ev =>
    refine sweep_of_every (Every.bind ?_ fun _ => trivial)
    refine applyEvent_every _ (fun _ _ => trivial) (fun _ _ => trivial) (fun e id he hne t => ?_) ev
    cases e with
    | write id' w =>
      cases w with
      | expire =>
        obtain rfl := Option.some.inj he
        exact absurd rfl hne
      | _ => trivial
    | createOrderRow => cases he
    | _ => trivial
  | createFromQuote user quoteId destination =>
    refine sweep_of_every (createFromQuote_every y (fun _ _ => trivial) (fun e he hdata t => ?_)
      _ _ _)
    cases e with
    | createOrderRow data needsRef => exact windowed_of_quote (hdata data needsRef rfl)
    | ask | write => cases he
    | _ => trivial

/-- An office whose orders are all still before the chain, with the windows
that their creation gives them. -/
structure Fresh (s : Shared) : Prop extends Unbound s where
  windows : ∀ id row, s.db.orders.lookup id = some row → Windowed row.toPlacement

theorem Fresh.timely {s : Shared} (h : Fresh s) : Timely y (watch s) where
  clean := h.clean
  past c hc := by simp [watch, h.past] at hc
  rows := h.windows
  txs pid tx c htx := by simp [watch, h.idle] at htx

theorem run_sweeps {d : Shared} {w : Pool Effect Reply Watch} {tr : List WatchedEntry}
    (hs : Fresh d) (hr : Run (machine (watched y allowed)) (idle (watch d)) tr w) :
    Orderly (sweepProtocol y allowed) w :=
  run_orderly (fun pid c s _ _ => body_sweeps pid c s) hr (.idle hs.timely)

theorem barred_of_expiring {d : Shared} {w : Pool Effect Reply Watch} {a : DeskAct}
    {tr : List WatchedEntry} (hs : Fresh d)
    (hr : Run (machine (watched y allowed)) (idle (watch d)) tr w)
    (ha : (machine (watched y allowed)).admits w a)
    (hrow : w.shared.desk.db.orders.lookup id = some row)
    (hrow' : ((machine (watched y allowed)).next w a).shared.desk.db.orders.lookup id = some row')
    (hlive : row.status ≠ .expired) (hexp : row'.status = .expired) :
    Barred y.escrowContractId row.toPlacement w.shared.desk.chain := by
  have hsame (h : some row' = some row) :
      Barred y.escrowContractId row.toPlacement w.shared.desk.chain :=
    absurd (Option.some.inj h ▸ hexp) hlive
  cases a with
  | spawn pid call => exact hsame (hrow'.symm.trans hrow)
  | kill pid => exact hsame (hrow'.symm.trans hrow)
  | outside a =>
    change (Desk.moved w.shared.desk a).db.orders.lookup id = some row' at hrow'
    rw [orders_moved] at hrow'
    exact hsame (hrow'.symm.trans hrow)
  | go pid o =>
    obtain ⟨e, k, hrun, -⟩ := go_cases ha
    have hguar := (run_sweeps hs hr).guar hrun ha
    exact (hguar.expires id row row' hrow hrow' hexp).resolve_left hlive

/-- An order that the sweep expires had no matching trade, and never gets one
in any later history of the chain: its row stays expired. -/
theorem expired_never_funded {d : Shared} {w : Pool Effect Reply Watch} {e : WatchedEntry}
    {tr₁ tr₂ : List WatchedEntry} (hs : Fresh d)
    (hr : Run (machine (watched y allowed)) (idle (watch d)) (tr₁ ++ e :: tr₂) w)
    (hrow : e.pre.shared.desk.db.orders.lookup id = some row)
    (hrow' : e.post.shared.desk.db.orders.lookup id = some row')
    (hlive : row.status ≠ .expired) (hexp : row'.status = .expired) :
    ¬BoundAt e.pre.shared.desk.chain y.escrowContractId row.toPlacement ∧
      ¬BoundAt w.shared.desk.chain y.escrowContractId row.toPlacement ∧
      ∃ row'', w.shared.desk.db.orders.lookup id = some row'' ∧ row''.status = .expired := by
  obtain ⟨hpre, ha, hentry, hpost⟩ := hr.at_entry
  rw [entry_post hentry] at hrow' hpost
  have hbar := barred_of_expiring hs hpre ha hrow hrow' hlive hexp
  have hclean : Clean e.pre.shared.desk := run_clean hs.toOpening (run_unwatched hpre)
  obtain ⟨hadm, hnext⟩ := step_unwatched ha
  have hstep := step_of_next hadm
  rw [hnext] at hstep
  have hplace : row'.toPlacement = row.toPlacement := by
    obtain hsame | ⟨pid, eff, -, hrowstep⟩ := row_of_step hclean hstep id
    · rw [← Option.some.inj (hrow'.symm.trans (hsame.trans hrow))]
    · have hrowstep' : RowStep e.pre.shared.desk pid eff id (some row) (some row') := by
        rw [← hrow, ← hrow']
        exact hrowstep
      obtain ⟨row₁, hrow₁, hp⟩ := hrowstep'.kept
      rw [Option.some.inj hrow₁, hp]
  -- From this step on, the office's own run keeps the row expired or bound.
  have hlapsed : Lapsed y.escrowContractId row.toPlacement id (unwatched w).shared :=
    run_lapsed (run_unwatched hpost)
      ⟨hclean.step hstep, hbar.step hstep, row', hrow', hplace, .inl hexp⟩
  refine ⟨hbar.unmatched, hlapsed.barred.unmatched, ?_⟩
  obtain ⟨row'', hrow'', hp, hstatus⟩ := hlapsed.row
  refine ⟨row'', hrow'', hstatus.resolve_right fun hbound => ?_⟩
  have hmatch := (run_orderly_bound hs.toUnbound (run_unwatched hr)).1.rows id row'' hrow'' hbound
  rw [hp] at hmatch
  exact hlapsed.barred.unmatched hmatch

theorem sampleDesk_fresh : Fresh (sampleDesk sampleOrders) where
  toUnbound := sampleDesk_unbound
  windows id row h := by
    by_cases hid : id = 0
    · subst hid
      obtain rfl := Option.some.inj h
      simp [Windowed, Placement.opened, samplePlacement, minPayWindowSecs]
    · simp only [sampleDesk, sampleOrders, AList.lookup_insert_ne hid, AList.lookup_empty] at h
      cases h

def watchedOffice : Machine (Pool Effect Reply Watch) DeskAct (Option (Pid × Effect)) :=
  machine (watched sampleSettings fun _ => True)

/-- A sweep, up to its update: the order could be signed until 1400, the ledger
that it is told of closed at 1500, and there is no trade. -/
def sweepActions : List DeskAct :=
  [.outside (.tick 1500000), .outside (.chain ⟨0⟩ (.other 1500 [])), .spawn 0 .expireStaleOrders,
    .go 0 { time := some 1500000 }, .go 0 {}, .go 0 { picks := [0] }, .go 0 {}]

def sweptOffice : Pool Effect Reply Watch :=
  final watchedOffice (idle (watch (sampleDesk sampleOrders))) sweepActions

def fundLate : DeskAct :=
  .outside (.chain ⟨0⟩ (.call (sampleEnv 1500 [⟨6⟩]) (.createTrade 1 sampleArgs)))

def lateOffice : Pool Effect Reply Watch :=
  watchedOffice.next (watchedOffice.next sweptOffice (.go 0 {})) fundLate

theorem sweepActions_admitted :
    Admitted watchedOffice (idle (watch (sampleDesk sampleOrders))) sweepActions := by
  have htick : (1000000 : ℕ) ≤ 1500000 := by decide
  exact ⟨htick, ⟨by decide, by simp⟩, ⟨rfl, trivial⟩, ⟨trivial, trivial⟩, ⟨trivial, trivial⟩,
    ⟨trivial, trivial⟩, ⟨.inr ⟨_, .head _, rfl⟩, .inr ⟨_, .head _, by decide, rfl⟩⟩, trivial⟩

theorem late_run : Run watchedOffice (idle (watch (sampleDesk sampleOrders)))
    (history watchedOffice (idle (watch (sampleDesk sampleOrders))) sweepActions ++
      watchedOffice.entry sweptOffice (.go 0 {}) ::
        [watchedOffice.entry (watchedOffice.next sweptOffice (.go 0 {})) fundLate]) lateOffice := by
  have hsweep : Run watchedOffice _ _ sweptOffice := Run.of_actions _ _ sweepActions_admitted
  have hexpire : watchedOffice.admits sweptOffice (.go 0 {}) := ⟨trivial, trivial⟩
  have hlate : watchedOffice.admits (watchedOffice.next sweptOffice (.go 0 {})) fundLate :=
    ⟨rfl, by decide⟩
  have hrun := (hsweep.snoc _ hexpire).snoc _ hlate
  rw [List.append_assoc, List.singleton_append] at hrun
  exact hrun

theorem sample_expired_never_funded :
    Fresh (sampleDesk sampleOrders) ∧
    (sweptOffice.shared.desk.db.orders.lookup 0).map (·.status) = some .matched ∧
    ¬BoundAt lateOffice.shared.desk.chain ⟨0⟩ samplePlacement ∧
    (lateOffice.shared.desk.db.orders.lookup 0).map (·.status) = some .expired := by
  have hrow : sweptOffice.shared.desk.db.orders.lookup 0 = some samplePlacement.opened := by
    decide
  have hrow' : (watchedOffice.next sweptOffice (.go 0 {})).shared.desk.db.orders.lookup 0 =
      some (samplePlacement.opened.setStatus .expired) := by
    decide
  obtain ⟨-, hlate, row, hlook, hstatus⟩ :=
    expired_never_funded sampleDesk_fresh late_run hrow hrow' (by decide) (by decide)
  exact ⟨sampleDesk_fresh, by rw [hrow]; rfl, hlate, by rw [hlook]; exact congrArg some hstatus⟩

end Lolipay.Coordinator.Expiry
