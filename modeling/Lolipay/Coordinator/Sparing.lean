import Lolipay.Coordinator.Footprint
import Lolipay.Coordinator.Scenes

namespace Lolipay.Coordinator.Sparing

open Lolipay.Ledger.Storage Lolipay.Ledger.Invocation Lolipay.Ledger.Runs
open Lolipay.Async.Process
open Lolipay.Escrow.Types Lolipay.Escrow.System Lolipay.Escrow.Phases
open Lolipay.Coordinator.Orders Lolipay.Coordinator.Binding Lolipay.Coordinator.Writes
open Lolipay.Coordinator.Database Lolipay.Coordinator.Services Lolipay.Coordinator.Indexer
open Lolipay.Coordinator.Desk Lolipay.Coordinator.Steps Lolipay.Coordinator.Footprint
open Lolipay.Coordinator.Replica Lolipay.Coordinator.Following Lolipay.Coordinator.Scenes

variable (q : Docket)

/-- Nothing of the order has changed: not its row, nor the records of its
events, nor its trade. -/
structure Spares (s t : Shared) : Prop where
  row : t.db.orders.lookup q.order = s.db.orders.lookup q.order
  unique : (∀ id row, s.db.orders.lookup id = some row → row.tradeId = q.placement.tradeId →
      id = q.order) →
    ∀ id row, t.db.orders.lookup id = some row → row.tradeId = q.placement.tradeId → id = q.order
  records : ∀ k, t.db.indexedEvents.lookup (q.eventId k) = s.db.indexedEvents.lookup (q.eventId k)
  trade : q.tradeIn t.chain = q.tradeIn s.chain
  past : ∀ c ∈ t.past, c ∈ s.past ∨ q.tradeIn c = q.tradeIn s.chain

/-- An effect of the indexer on another order, for an event of another trade. -/
def SparingEffect (e : Effect) : Prop :=
  (∃ id ≠ q.order, Own id e) ∧ ∀ k, claims e ≠ some (q.eventId k)

variable {q} {s t : Shared} {v : View} {e : Effect} {o : Choice}

theorem Spares.refl (q : Docket) (s : Shared) : Spares q s s where
  row := rfl
  unique := id
  records _ := rfl
  trade := rfl
  past _ hc := .inl hc

theorem Spares.mirrors (hs : Spares q v.shared t) (hm : Mirrors q v) :
    Mirrors q { v with shared := t } := by
  refine ⟨?_, hs.unique hm.unique, hm.legal, ?_, fun c hc => ?_, fun c hc t' ht => ?_⟩
  · obtain ⟨row, hrow, hp⟩ := hm.row
    exact ⟨row, hs.row.trans hrow, hp⟩
  · change Agrees _ (q.tradeIn t.chain)
    rw [hs.trade]
    exact hm.current
  · obtain hc | hsame := hs.past c hc
    · exact hm.past c hc
    · rw [hsame]
      exact ⟨v.log.length, Nat.le_refl _, hm.current⟩
  · have hnow : q.tradeIn v.shared.chain = some t' → q.Fits t' := hm.fits _ (.head _) t'
    obtain rfl | hc := List.mem_cons.mp hc
    · exact hnow (hs.trade.symm.trans ht)
    · obtain hc | hsame := hs.past c hc
      · exact hm.fits c (.tail _ hc) t' ht
      · exact hnow (hsame.symm.trans ht)

theorem Spares.scene_eq (hs : Spares q v.shared t) :
    scene q { v with shared := t } = scene q v := by
  have hclaimed : (fun i => (t.db.indexedEvents.lookup (q.eventId i)).isSome) =
      fun i => (v.shared.db.indexedEvents.lookup (q.eventId i)).isSome := by
    funext i
    rw [hs.records i]
  simp only [scene, hs.row, hclaimed]

theorem SparingEffect.spares (he : SparingEffect q e) (o : Choice) (s : Shared) :
    Spares q s (after 0 e o s) := by
  obtain ⟨⟨id, hid, hown⟩, hclaims⟩ := he
  have hcommit : e ≠ .commit := by
    rintro rfl
    cases hown
  have hstep (id' : OrderId) : RowStep s 0 e id' (s.db.orders.lookup id')
      ((after 0 e o s).db.orders.lookup id') :=
    row_step_unless (fun h => absurd h hcommit) o id'
  obtain ⟨-, hchain, hpast, -⟩ := after_outside 0 e o s
  refine ⟨?_, fun hunique id' row' hrow' htrade => ?_, fun k => ?_, ?_, fun c hc => ?_⟩
  · -- An effect on this row would be one on its own order.
    have hrow := hstep q.order
    generalize s.db.orders.lookup q.order = r at hrow
    generalize (after 0 e o s).db.orders.lookup q.order = r' at hrow
    cases hrow with
    | same => rfl
    | wrote he | judged he =>
      subst he
      exact absurd hown.symm hid
    | accrued he =>
      obtain rfl | ⟨a, rfl⟩ := he <;> exact absurd hown.symm hid
    | stoodDown he | created he =>
      subst he
      cases hown
  · have hrow := hstep id'
    rw [hrow'] at hrow
    cases hold : s.db.orders.lookup id' with
    | none =>
      rw [hold] at hrow
      cases hrow with
      | created he => exact absurd he hcommit
    | some row =>
      rw [hold] at hrow
      obtain ⟨row'', hrow'', hp⟩ := hrow.kept
      obtain rfl := Option.some.inj hrow''
      exact hunique id' row hold (by rw [← hp]; exact htrade)
  · obtain hsame | ⟨event, hclaim, hrecords⟩ := indexedEvents_after 0 e o s
    · rw [hsame]
    · have hne : q.eventId k ≠ event := by
        rintro rfl
        exact hclaims k hclaim
      rw [hrecords]
      exact AList.lookup_insert_ne hne
  · rw [hchain]
  · rw [hpast] at hc
    exact .inl hc

section Handlers

variable {id : OrderId} {order : Order} (hid : id ≠ q.order)
include hid

theorem sparing_of_own {e : Effect} (he : Own id e) (hnone : claims e = none) :
    SparingEffect q e := by
  refine ⟨⟨id, hid, he⟩, fun k hk => ?_⟩
  rw [hnone] at hk
  cases hk

theorem applyVerdict_sparing {event : EventId} (hevent : ∀ k, event ≠ q.eventId k) (v : Verdict) :
    Every (SparingEffect q) (applyVerdict event id order v) := by
  apply applyVerdict_every
  · exact ⟨⟨id, hid, rfl⟩, fun k hk => hevent k (Option.some.inj hk)⟩
  · exact sparing_of_own hid rfl rfl
  · exact sparing_of_own hid rfl rfl

/-- The handlers of another order's events leave this one alone. -/
theorem handleEvent_sparing {ev : RpcEvent} (hev : ∀ k, ev.id ≠ some (q.eventId k)) (c : Address) :
    Every (SparingEffect q) (handleEvent c ev id order) := by
  have hask (query : Query) : SparingEffect q (.ask query) := sparing_of_own hid trivial rfl
  have hwrite (w : RowWrite) : SparingEffect q (.write id w) := sparing_of_own hid rfl rfl
  unfold handleEvent
  split
  next released postSettle _ =>
    unfold applyResolvedEvent
    split
    next => trivial
    next => trivial
    next event released hsome _ =>
      have hevent (k : ℕ) : event ≠ q.eventId k := by
        rintro rfl
        exact hev k hsome
      split
      next =>
        refine every_ask (hask _) fun settled => ?_
        split
        next => trivial
        next => trivial
        next =>
          split
          next =>
            refine Every.bind ⟨?_, fun r => ?_⟩ fun _ => trivial
            · exact ⟨⟨id, hid, trivial⟩, fun k hk => hevent k (Option.some.inj hk)⟩
            · cases (r : Option Bool) <;> trivial
          next => exact applyVerdict_sparing hid hevent _
      next => exact every_ask (hask _) fun _ => applyVerdict_sparing hid hevent _
  next raiser _ =>
    rw [applyDisputedEvent]
    split
    next =>
      refine every_ask (hask _) fun onChain => ?_
      split
      next => trivial
      next =>
        split
        next => exact enterDispute_every hask (hwrite _) (fun _ _ => hwrite _) _
        next => trivial
    next => exact enterDispute_every hask (hwrite _) (fun _ _ => hwrite _) _
  next =>
    split
    next => trivial
    next => exact applyStatusEvent_every hask (fun _ _ _ => hwrite _) (fun _ _ => hwrite _) _ _ _

end Handlers

end Lolipay.Coordinator.Sparing
