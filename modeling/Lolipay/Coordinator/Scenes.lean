import Lolipay.Coordinator.Following

namespace Lolipay.Coordinator.Scenes

open Lolipay.Ledger.Storage Lolipay.Ledger.Invocation Lolipay.Ledger.Runs
open Lolipay.Async.Process
open Lolipay.Escrow.Types Lolipay.Escrow.System Lolipay.Escrow.Phases
open Lolipay.Coordinator.Orders Lolipay.Coordinator.Binding Lolipay.Coordinator.Writes
open Lolipay.Coordinator.Database Lolipay.Coordinator.Services Lolipay.Coordinator.Indexer
open Lolipay.Coordinator.Desk Lolipay.Coordinator.Steps Lolipay.Coordinator.Replica
open Lolipay.Coordinator.Following

/-- The columns of an order row that follow the trade. `filed` says that
somebody has filed a dispute with the coordinator. -/
structure Face where
  status : OrderStatus
  settledStatus : Option OrderStatus
  resolution : Option ResolveOutcome
  disputedBy : Option Address
  resolverDisputed : Bool
  filed : Bool
  deriving DecidableEq, Repr

def faceOf (row : Order) : Face :=
  ⟨row.status, row.settledStatus, row.resolution, row.onChainDisputedBy, row.resolverDisputed,
    row.disputeBy.isSome⟩

/-- The row takes over a status of the chain, and keeps it apart if it is a settled one. -/
def Face.land (f : Face) (st : Status) : Face :=
  { f with
    status := statusMap st
    settledStatus := if (outcomeOf st).isSome then some (statusMap st) else f.settledStatus }

def Face.close (f : Face) : Face :=
  if f.filed = false ∧ f.disputedBy = none then f
  else { f with filed := false, disputedBy := none, resolverDisputed := false }

/-- A verdict under which the trade stands settled in the given status. -/
def Face.judge (f : Face) (st : Status) (outcome : ResolveOutcome) : Face :=
  Face.close { f.land st with resolution := some outcome }

theorem faceOf_land (now : ℕ) (target : Status) (onChain : Option TradeOnChain)
    (hash : Option TxHash) (row : Order) :
    faceOf ((RowWrite.land target onChain hash).data now row) = (faceOf row).land target := by
  cases target <;> rfl

theorem faceOf_refresh (now : ℕ) (a : Advance) (stamps : Bool) (row : Order) :
    faceOf ((RowWrite.refresh a stamps).data now row) = (faceOf row).land a.onChain.status := by
  simp only [RowWrite.data, settlementFieldsFrom]
  cases a.onChain.status <;> cases stamps <;> rfl

theorem faceOf_dispute (now : ℕ) (stamp : Option ℕ) (row : Order) :
    faceOf ((RowWrite.dispute stamp).data now row) = (faceOf row).land .disputed := rfl

theorem faceOf_reopen (now : ℕ) (stamp : Option ℕ) (row : Order) :
    faceOf ((RowWrite.reopen stamp).data now row) = (faceOf row).land .disputed := rfl

theorem faceOf_close (now : ℕ) (row : Order) :
    faceOf (closeDisputeRound now row) = (faceOf row).close := by
  rw [closeDisputeRound, Face.close]
  by_cases h : row.disputeBy = none ∧ row.onChainDisputedBy = none
  · rw [if_pos h, if_pos ⟨by simp [faceOf, h.1], h.2⟩]
  · rw [if_neg h, if_neg fun h' => h ⟨by simpa [faceOf] using h'.1, h'.2⟩]
    rfl

theorem faceOf_verdict (now : ℕ) (v : Verdict) (row : Order) :
    faceOf (closeDisputeRound now (v.data now row)) = (faceOf row).judge v.target v.outcome := by
  rw [faceOf_close, Face.judge]
  cases v with
  | preSettle outcome onChain hash => cases outcome <;> rfl
  | postSettle outcome settled =>
    obtain ⟨onChain, final, hfinal⟩ := settled
    have hland : (outcomeOf onChain.status).isSome = true := by
      rw [hfinal]
      cases final <;> rfl
    simp only [Verdict.data, Verdict.target, Verdict.outcome, Face.land, hland, if_true]
    split <;> rfl

/-- All that the fate of a trade's row depends on: its own columns, the events
of the trade, and which of them the indexer has a record of. -/
structure Scene extends Face where
  log : List Event
  claimed : ℕ → Bool

def Scene.claim (x : Scene) (i : ℕ) : Scene :=
  { x with claimed := fun j => j = i || x.claimed j }

def Scene.now (x : Scene) : Phase := phaseAt x.log x.log.length

variable (q : Docket) {v : View} {row : Order} {e : Effect} {o : Choice}

def scene (v : View) : Scene where
  toFace := faceOf ((v.shared.db.orders.lookup q.order).getD q.placement.opened)
  log := v.log
  claimed i := (v.shared.db.indexedEvents.lookup (q.eventId i)).isSome

variable {q}

theorem scene_of_row (hrow : v.shared.db.orders.lookup q.order = some row) :
    scene q v = ⟨faceOf row, v.log,
      fun i => (v.shared.db.indexedEvents.lookup (q.eventId i)).isSome⟩ := by
  simp [scene, hrow]

theorem scene_toFace (hrow : v.shared.db.orders.lookup q.order = some row) :
    (scene q v).toFace = faceOf row := by
  rw [scene_of_row hrow]

theorem scene_status (hrow : v.shared.db.orders.lookup q.order = some row) :
    (scene q v).status = row.status :=
  congrArg Face.status (scene_toFace hrow)

theorem scene_setOrder (s : Shared) (log : List Event) (row : Order) :
    scene q ⟨s.setOrder q.order row, log⟩ = { scene q ⟨s, log⟩ with toFace := faceOf row } := by
  simp [scene, Shared.setOrder]

theorem scene_claimEvent (s : Shared) (log : List Event) (i : ℕ) :
    scene q ⟨claimEvent (q.eventId i) s, log⟩ = (scene q ⟨s, log⟩).claim i := by
  have hclaimed (j : ℕ) : (((claimEvent (q.eventId i) s).db.indexedEvents.lookup
      (q.eventId j)).isSome : Bool) =
        (decide (j = i) || (s.db.indexedEvents.lookup (q.eventId j)).isSome) := by
    by_cases hj : j = i
    · subst hj
      simp [claimEvent]
    · have hne : q.eventId j ≠ q.eventId i := fun h => hj (q.eventId_injective h)
      simp [claimEvent, AList.lookup_insert_ne hne, hj]
  simp only [scene, Scene.claim, Scene.mk.injEq, true_and]
  exact ⟨rfl, funext hclaimed⟩

/-- One update of the order's row, as the row's face and the caller see it. -/
theorem scene_write (hrow : v.shared.db.orders.lookup q.order = some row) (w : RowWrite)
    (hf : o.fails = false) :
    (w.matchesRow row = false ∧ after 0 (.write q.order w) o v.shared = v.shared ∧
      reply 0 (.write q.order w) o v.shared = some 0) ∨
    (w.matchesRow row = true ∧
      scene q ⟨after 0 (.write q.order w) o v.shared, v.log⟩ =
        { scene q v with toFace := faceOf (w.data v.shared.now row) } ∧
      reply 0 (.write q.order w) o v.shared = some 1) := by
  cases hmatch : w.matchesRow row with
  | false =>
    left
    simp [after, reply, hf, runWrite, hrow, RowWrite.run, hmatch]
  | true =>
    right
    simp [after, reply, hf, runWrite, hrow, RowWrite.run, hmatch, scene_setOrder]

theorem scene_verdict (hrow : v.shared.db.orders.lookup q.order = some row) (i : ℕ) (d : Verdict)
    (hf : o.fails = false) :
    ((scene q v).claimed i = true ∧
      after 0 (.verdict (q.eventId i) q.order d) o v.shared = v.shared ∧
      reply 0 (.verdict (q.eventId i) q.order d) o v.shared = some (true, 0)) ∨
    ((scene q v).claimed i = false ∧ d.matchesRow row = false ∧
      scene q ⟨after 0 (.verdict (q.eventId i) q.order d) o v.shared, v.log⟩ =
        (scene q v).claim i ∧
      reply 0 (.verdict (q.eventId i) q.order d) o v.shared = some (false, 0)) ∨
    ((scene q v).claimed i = false ∧ d.matchesRow row = true ∧
      scene q ⟨after 0 (.verdict (q.eventId i) q.order d) o v.shared, v.log⟩ =
        { (scene q v).claim i with toFace := (scene q v).judge d.target d.outcome } ∧
      reply 0 (.verdict (q.eventId i) q.order d) o v.shared = some (false, 1)) := by
  have hface : (scene q v).toFace = faceOf row := scene_toFace hrow
  cases hclaim : v.shared.db.indexedEvents.lookup (q.eventId i) with
  | some createdAt =>
    left
    simp [after, reply, hf, runVerdict, hclaim, scene]
  | none =>
    right
    have hno : (scene q v).claimed i = false := by simp [scene, hclaim]
    cases hmatch : d.matchesRow row with
    | false =>
      left
      simp [after, reply, hf, runVerdict, hclaim, hrow, Verdict.run, hmatch, scene_claimEvent, hno]
    | true =>
      right
      simp [after, reply, hf, runVerdict, hclaim, hrow, Verdict.run, hmatch, scene_setOrder,
        scene_claimEvent, faceOf_verdict, hface, hno]

theorem scene_claim (i : ℕ) (hf : o.fails = false) :
    ((scene q v).claimed i = true ∧ after 0 (.claimEvent (q.eventId i)) o v.shared = v.shared ∧
      reply 0 (.claimEvent (q.eventId i)) o v.shared = some false) ∨
    ((scene q v).claimed i = false ∧
      scene q ⟨after 0 (.claimEvent (q.eventId i)) o v.shared, v.log⟩ = (scene q v).claim i ∧
      reply 0 (.claimEvent (q.eventId i)) o v.shared = some true) := by
  cases hclaim : v.shared.db.indexedEvents.lookup (q.eventId i) with
  | some createdAt =>
    left
    simp [after, reply, hf, hclaim, scene]
  | none =>
    have hno : (scene q v).claimed i = false := by simp [scene, hclaim]
    right
    simp [after, reply, hf, hclaim, scene_claimEvent, hno]

theorem scene_loss (he : e = .accrueProviderLoss q.order ∨ ∃ a, e = .recordDisputeLost a q.order) :
    scene q ⟨after 0 e o v.shared, v.log⟩ = scene q v := by
  have hflip (row : Order) (hrow : v.shared.db.orders.lookup q.order = some row) :
      scene q ⟨v.shared.setOrder q.order { row with disputeLossAccrued := true }, v.log⟩ =
        scene q v := by
    rw [scene_setOrder, scene_of_row hrow]
    rfl
  obtain rfl | ⟨a, rfl⟩ := he
  · simp only [after, runProviderLoss]
    split
    next => rfl
    next =>
      split
      next => rfl
      next row h =>
        have hrow := (Option.filter_eq_some_iff.mp h).1
        split
        next => exact hflip row hrow
        next =>
          split
          next => rfl
          next => exact hflip row hrow
  · simp only [after, Desk.recordDisputeLost]
    split
    next => rfl
    next =>
      split
      next => rfl
      next row h => exact hflip row (Option.filter_eq_some_iff.mp h).1

variable {sees : Shared → Option TradeOnChain → Prop} {R : Regime q sees}

/-- An update of the row under any rule: it fails, matches nothing or changes
the face of the row. -/
theorem safe_write (hmirrors : ∀ k v, R.inv k v → Mirrors q v) {α : Type} {k : ℕ} {ev : Event}
    {Q : α → View → Prop} {w : RowWrite} {f : ℕ → Service α}
    (hmiss : ∀ u row, R.rely v u → R.inv k u → u.log[k]? = some ev →
      R.meets k ev u (.write q.order w) → u.shared.db.orders.lookup q.order = some row →
      w.matchesRow row = false → Safe (R.handling k ev) Q (f 0) u)
    (hhit : ∀ u u' row, R.rely v u → R.inv k u → u.log[k]? = some ev →
      R.meets k ev u (.write q.order w) → Mirrors q u' →
      u.shared.db.orders.lookup q.order = some row → w.matchesRow row = true → u'.log = u.log →
      scene q u' = { scene q u with toFace := faceOf (w.data u.shared.now row) } →
      R.inv k u' ∧ Safe (R.handling k ev) Q (f 1) u') :
    Safe (R.handling k ev) Q (update q.order w >>= f) v := by
  rintro u hrely ⟨hinv, hev⟩ r u' ⟨o, ⟨-, hmeets⟩, rfl, rfl⟩
  obtain ⟨row, hrow, -⟩ := (hmirrors k u hinv).row
  cases hf : o.fails with
  | true =>
    have hsame : after 0 (.write q.order w) o u.shared = u.shared := by simp [after, hf]
    have hnone : reply 0 (.write q.order w) o u.shared = none := by simp [reply, hf]
    rw [hsame, hnone]
    exact ⟨trivial, ⟨hinv, hev⟩, trivial⟩
  | false =>
    obtain ⟨hno, hsame, hreply⟩ | ⟨hmatch, hscene, hreply⟩ := scene_write hrow w hf
    · rw [hsame, hreply]
      exact ⟨trivial, ⟨hinv, hev⟩, hmiss u row hrely hinv hev hmeets hrow hno⟩
    · have hm : Mirrors q { u with shared := after 0 (.write q.order w) o u.shared } :=
        (hmirrors k u hinv).after rfl
      obtain ⟨hinv', hsafe⟩ := hhit u ⟨after 0 (.write q.order w) o u.shared, u.log⟩ row hrely
        hinv hev hmeets hm hrow hmatch rfl hscene
      rw [hreply]
      exact ⟨trivial, ⟨hinv', hev⟩, hsafe⟩

end Lolipay.Coordinator.Scenes
