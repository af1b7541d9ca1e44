import Lolipay.Coordinator.Replica
import Lolipay.Coordinator.Footprint
import Lolipay.Coordinator.BoundRows
import Lolipay.Coordinator.Reputation

namespace Lolipay.Coordinator.Rebuild

open Lolipay.Ledger.Storage Lolipay.Ledger.Invocation Lolipay.Ledger.Runs
open Lolipay.Async.Process
open Lolipay.Escrow.Types Lolipay.Escrow.System Lolipay.Escrow.Phases
open Lolipay.Coordinator.Orders Lolipay.Coordinator.Writes Lolipay.Coordinator.Database
open Lolipay.Coordinator.Services Lolipay.Coordinator.Indexer Lolipay.Coordinator.Desk
open Lolipay.Coordinator.Steps Lolipay.Coordinator.Footprint Lolipay.Coordinator.Replica
open Lolipay.Escrow.Custody (sampleEnv sampleArgs)
open Lolipay.Coordinator.BoundRows Lolipay.Coordinator.Verdicts Lolipay.Coordinator.Reputation

/-- An indexer over the events of all escrows, at work on one of them or not. -/
structure Bureau where
  shared : Shared
  log : List (Address × Event)
  cursor : ℕ
  handler : Option (Service ℕ)

/-- What may happen next: a call on an escrow, time, the indexer with the next
event, with one effect of its work or done with it, a failure after which it
resumes at an earlier event, an update of an order by another service, and a
boot, at any time, which starts the indexer over and rebuilds the counts. -/
inductive Turn where
  | chain (contractId : Address) (a : Action)
  | tick (time : ℕ)
  | take (hash : Option TxHash)
  | go (o : Choice)
  | advance
  | resume (cursor : ℕ)
  | other (id : OrderId) (w : RowWrite)
  | boot (cursor : ℕ)

variable (home : Address) (eventId : ℕ → EventId)

def rpcEvent (i : ℕ) (ev : Address × Event) (hash : Option TxHash) : RpcEvent :=
  ⟨some (eventId i), bodyOf ev.2, (subject ev.2).getD 0, some ev.1, hash⟩

def admits (w : Bureau) : Turn → Prop
  | .chain contractId a => Escrow.System.admits contractId (w.shared.chain contractId) a
  | .tick time => w.shared.now ≤ time
  | .take _ => w.handler = none ∧ w.cursor < w.log.length
  | .go o => ∃ e k, w.handler = some (.step e k) ∧ Fresh w.shared o e
  | .advance => ∃ n, w.handler = some (.pure n)
  | .resume cursor | .boot cursor => cursor ≤ w.cursor
  | .other _ _ => True

def turn (w : Bureau) : Turn → Bureau
  | .chain contractId a =>
    { w with
      shared := moved w.shared (.chain contractId a)
      log := w.log ++ ((receipt (w.shared.chain contractId) a).elim [] fun r =>
        r.events.map fun ev => (contractId, ev)) }
  | .tick time => { w with shared := moved w.shared (.tick time) }
  | .take hash =>
    { w with handler := w.log[w.cursor]?.map fun ev =>
      applyEvent home (rpcEvent eventId w.cursor ev hash) }
  | .go o =>
    match w.handler with
    | some (.step e k) =>
      { w with
        shared := after 0 e o w.shared
        handler := some (k (reply 0 e o w.shared)) }
    | _ => w
  | .advance => { w with cursor := w.cursor + 1, handler := none }
  | .resume cursor => { w with cursor, handler := none }
  | .other id u => { w with shared := after 0 (.write id u) {} w.shared }
  | .boot cursor =>
    { w with
      shared := { w.shared with db := backfillDisputesLost w.shared.db }
      cursor
      handler := none }

/-- The order whose user an effect charges with a loss. -/
def charges (s : Shared) (o : Choice) : Effect → Option OrderId
  | .recordDisputeLost _ id =>
    if o.fails = false ∧ (s.db.orders.lookup id).any (fun row => !row.disputeLossAccrued) then some id
    else none
  | _ => none

def charge (w : Bureau) : Turn → Option OrderId
  | .go o =>
    match w.handler with
    | some (.step e _) => charges w.shared o e
    | _ => none
  | _ => none

def bureau : Machine Bureau Turn (Option OrderId) where
  admits := admits
  next := turn home eventId
  out := charge

abbrev Past := List (Entry Bureau Turn (Option OrderId))

/-- The orders whose user the indexer has charged: those whose first counted
verdict was against the user. -/
def charged (tr : Past) : List OrderId := tr.filterMap (·.out)

structure Starts (w : Bureau) : Prop where
  handler : w.handler = none
  verdicts : ∀ id row, w.shared.db.orders.lookup id = some row → row.resolution = none
  flags : ∀ id row, w.shared.db.orders.lookup id = some row → row.disputeLossAccrued = false
  counts : ∀ a, (w.shared.db.userProfiles.lookup a).getD 0 = 0

def settles (row : Order) : Bool := row.status = .released || row.status = .refunded

/-- The booking of a user's loss goes through, and a row that has a verdict
stays settled and takes no other one. -/
def CalmEffect (s : Shared) (e : Effect) (o : Choice) : Prop :=
  match e with
  | .recordDisputeLost _ _ => o.fails = false
  | .write id u => o.fails = true ∨ ∀ row ∈ s.db.orders.lookup id,
      row.resolution ≠ none → u.matchesRow row = true → settles (u.data s.now row) = true
  | .verdict event id v => o.fails = true ∨ s.db.indexedEvents.lookup event ≠ none ∨
      ∀ row ∈ s.db.orders.lookup id, v.matchesRow row = true → row.resolution = none
  | _ => True

instance (s : Shared) (o : Choice) : (e : Effect) → Decidable (CalmEffect s e o)
  | .recordDisputeLost _ _ => inferInstanceAs (Decidable (_ = _))
  | .write _ _ | .verdict _ _ _ => inferInstanceAs (Decidable (_ ∨ _))
  | .ask _ | .claimEvent _ | .accrueProviderLoss _ | .setLpStatus _ _ _ _ _ | .begin | .lock _
  | .consumeQuote _ | .createOrderRow _ _ | .commit | .rollback => .isTrue trivial

/-- The handler has recorded a verdict and comes to the booking of the user's loss. -/
def booking : Option (Service ℕ) → Bool
  | some (.step (.recordDisputeLost _ _) _) => true
  | _ => false

/-- Nothing gets in the way of the losses: no booking fails or is cut off, and no
order with a verdict is disputed or judged again. -/
def Calm (w : Bureau) : Turn → Prop
  | .go o =>
    match w.handler with
    | some (.step e _) => CalmEffect w.shared e o
    | _ => True
  | .other id u => CalmEffect w.shared (.write id u) {}
  | .resume _ | .boot _ => booking w.handler = false
  | .chain _ _ | .tick _ | .take _ | .advance => True

instance (w : Bureau) : (a : Turn) → Decidable (Calm w a)
  | .go o =>
    match h : w.handler with
    | some (.step e _) => decidable_of_iff (CalmEffect w.shared e o) (by simp only [Calm, h])
    | some (.pure _) | some .fail | none => .isTrue (by simp only [Calm, h])
  | .other id u => inferInstanceAs (Decidable (CalmEffect w.shared (.write id u) {}))
  | .resume _ | .boot _ => inferInstanceAs (Decidable (_ = _))
  | .chain _ _ | .tick _ | .take _ | .advance => .isTrue trivial

def placeOf (s : Shared) (id : OrderId) : Option Placement :=
  (s.db.orders.lookup id).map (·.toPlacement)

def owner (s : Shared) (id : OrderId) : Option Address := (placeOf s id).map (·.userAddress)

variable {s t : Shared} {e : Effect} {o : Choice} {id : OrderId} {row : Order} {α : Type}

theorem placeOf_of_lookup (hrow : s.db.orders.lookup id = some row) :
    placeOf s id = some row.toPlacement := by
  rw [placeOf, hrow]
  rfl

theorem owner_of_lookup (hrow : s.db.orders.lookup id = some row) :
    owner s id = some row.userAddress := by
  rw [owner, placeOf_of_lookup hrow]
  rfl

theorem placeOf_after (he : e ≠ .commit) (o : Choice) : placeOf (after 0 e o s) = placeOf s := by
  funext id
  have hstep : RowStep s 0 e id (s.db.orders.lookup id) ((after 0 e o s).db.orders.lookup id) :=
    row_step_unless (fun hc => absurd hc he) o id
  cases hrow : s.db.orders.lookup id with
  | none =>
    rw [hrow] at hstep
    generalize hnew : (after 0 e o s).db.orders.lookup id = new at hstep
    cases hstep with
    | same => rw [placeOf, placeOf, hnew, hrow]
    | created hc => exact absurd hc he
  | some row =>
    rw [hrow] at hstep
    obtain ⟨row', hrow', hplace⟩ := hstep.kept
    rw [placeOf_of_lookup hrow, placeOf_of_lookup hrow', hplace]

theorem owner_after (he : e ≠ .commit) (o : Choice) (id : OrderId) :
    owner (after 0 e o s) id = owner s id := by
  rw [owner, placeOf_after he, owner]

theorem flagged_after (he : e ≠ .commit) (o : Choice) (h : flagged id s = true) :
    flagged id (after 0 e o s) = true := by
  have hstep : RowStep s 0 e id (s.db.orders.lookup id) ((after 0 e o s).db.orders.lookup id) :=
    row_step_unless (fun hc => absurd hc he) o id
  obtain ⟨row, hrow, hflag⟩ : ∃ row, s.db.orders.lookup id = some row ∧
      row.disputeLossAccrued = true := by
    simpa [flagged, Option.any_eq_true] using h
  rw [hrow] at hstep
  rw [flagged]
  generalize (after 0 e o s).db.orders.lookup id = new at hstep ⊢
  cases hstep with
  | same => exact hflag
  | wrote _ _ => exact (write_flag _ _ _).trans hflag
  | judged _ _ _ => exact (verdict_flag _ _ _).trans hflag
  | accrued _ _ => rfl
  | stoodDown _ _ => exact hflag

/-- What a reply may say about an order. -/
def Tells (place : OrderId → Option Placement) : (e : Effect) → Reply e → Prop
  | .ask (.findOrderByTradeId _), found =>
    ∀ id order, found = some (id, order) → place id = some order.toPlacement
  | _, _ => True

/-- An effect of the indexer outside the verdicts and what follows them. -/
def plain : Effect → Bool
  | .ask _ | .write _ _ | .claimEvent _ => true
  | _ => false

/-- What follows the transaction of a verdict. -/
def aftermath (id : OrderId) (order : Order) (v : Verdict) : Option (Bool × ℕ) → Service ℕ
  | none => .fail
  | some (replay, written) =>
    if replay ∨ written = 0 then .pure 0
    else do
      accrueDisputeLossIfApplicable id order v.outcome
      .pure 1

/-- A process that records verdicts only on rows that it knows and accounts for
them, as long as the replies are true. -/
def Accounts (place : OrderId → Option Placement) : Service ℕ → Prop
  | .pure _ => True
  | .fail => True
  | .step (.verdict _ id v) k =>
    ∃ order : Order, place id = some order.toPlacement ∧ ∀ r, k r = aftermath id order v r
  | .step e k => plain e = true ∧ ∀ r, Tells place e r → Accounts place (k r)

theorem Accounts.of_plain {place : OrderId → Option Placement} {k : Reply e → Service ℕ}
    (he : plain e = true) (h : ∀ r, Tells place e r → Accounts place (k r)) :
    Accounts place (.step e k) := by
  cases e with
  | verdict => cases he
  | _ => exact ⟨he, h⟩

theorem Accounts.of_every {place : OrderId → Option Placement} {p : Service ℕ}
    (h : Every (fun e => plain e = true) p) : Accounts place p := by
  induction p with
  | pure | fail => trivial
  | step e k ih => exact .of_plain h.1 fun r _ => ih r (h.2 r)

theorem Accounts.ask {place : OrderId → Option Placement} {query : Query}
    {k : query.Reply → Service ℕ} (h : ∀ r, Tells place (.ask query) r → Accounts place (k r)) :
    Accounts place (Database.ask query >>= k) :=
  .of_plain rfl h

theorem tells_reply (s : Shared) (e : Effect) (o : Choice) : Tells (placeOf s) e (reply 0 e o s) := by
  cases e with
  | ask query =>
    cases query with
    | findOrderByTradeId tradeId =>
      intro id order hfound
      obtain ⟨hrow, -⟩ := lookup_of_findByTradeId hfound
      exact placeOf_of_lookup hrow
    | _ => trivial
  | _ => trivial

variable {place : OrderId → Option Placement} {order : Order}

theorem applyResolvedEvent_accounts (c : Address) (ev : RpcEvent) (released : Option Bool)
    (postSettle : Bool) (hplace : place id = some order.toPlacement) :
    Accounts place (applyResolvedEvent c ev released postSettle id order) := by
  have hverdict (event : EventId) (v : Verdict) : Accounts place (applyVerdict event id order v) :=
    ⟨order, hplace, fun r => by cases r <;> rfl⟩
  unfold applyResolvedEvent
  split
  next => trivial
  next => trivial
  next event released _ =>
    split
    next =>
      refine .ask fun settled _ => ?_
      split
      next => trivial
      next => trivial
      next =>
        split
        next =>
          refine .of_plain rfl fun claimed _ => ?_
          cases (claimed : Option Bool) <;> trivial
        next => exact hverdict _ _
    next => exact .ask fun onChain _ => hverdict _ _

theorem applyDisputedEvent_plain (c : Address) (raiser : Option Address) :
    Every (fun e => plain e = true) (applyDisputedEvent c raiser id order) := by
  have henter (u : RowWrite) : Every (fun e => plain e = true) (enterDispute id u raiser) :=
    enterDispute_every (P := fun e => plain e = true) (fun _ => rfl) rfl (fun _ _ => rfl) raiser
  rw [applyDisputedEvent]
  split
  next =>
    refine every_ask rfl fun onChain => ?_
    split
    next => trivial
    next =>
      split
      next => exact henter _
      next => trivial
  next => exact henter _

theorem handleEvent_accounts (c : Address) (ev : RpcEvent) (hplace : place id = some order.toPlacement) :
    Accounts place (handleEvent c ev id order) := by
  unfold handleEvent
  split
  next => exact applyResolvedEvent_accounts _ _ _ _ hplace
  next => exact .of_every (applyDisputedEvent_plain c _)
  next =>
    split
    next => trivial
    next => exact .of_every (applyStatusEvent_every (fun _ => rfl) (fun _ _ _ => rfl) (fun _ _ => rfl) _ _ _)

theorem applyEvent_accounts (place : OrderId → Option Placement) (home : Address) (ev : RpcEvent) :
    Accounts place (applyEvent home ev) := by
  rw [applyEvent]
  split
  next => trivial
  next =>
    refine .ask fun found htells => ?_
    split
    next id order c hc =>
      have hhandle : Accounts place (handleEvent c ev id order) :=
        handleEvent_accounts c ev (htells id order rfl)
      split
      next =>
        split
        next =>
          refine .ask fun trade _ => ?_
          obtain _ | _ | trade := (trade : Option (Option TradeOnChain))
          · trivial
          · trivial
          · change Accounts place (if _ then handleEvent c ev id order else .pure 0)
            split
            next => exact hhandle
            next => trivial
        next => exact hhandle
      next => trivial
    next => trivial

/-- A verdict whose loss is not booked yet. -/
inductive Debt where
  | none
  | user (id : OrderId)
  | provider (id : OrderId)

inductive Stage (place : OrderId → Option Placement) : Debt → Option (Service ℕ) → Prop
  | idle : Stage place .none none
  | working {p : Service ℕ} (h : Accounts place p) : Stage place .none (some p)
  | user {id : OrderId} {a : Address} (h : (place id).map (·.userAddress) = some a) :
    Stage place (.user id) (some (.step (.recordDisputeLost a id) fun _ => .pure 1))
  | provider (id : OrderId) :
    Stage place (.provider id) (some (.step (.accrueProviderLoss id) fun _ => .pure 1))

/-- What the tables say, given the orders whose user has been charged. -/
structure Books (ids : List OrderId) (s : Shared) : Prop where
  nodup : ids.Nodup
  flags : ∀ id ∈ ids, flagged id s = true
  counts : ∀ a, (s.db.userProfiles.lookup a).getD 0 = (ids.countP fun id => owner s id = some a : ℕ)

def lost (row : Order) : Bool := row.resolution.any (userLostDispute row.flow)

/-- Every verdict stands on a settled row, and those against the user are the
ones charged, but for the one whose booking is due. -/
structure Fair (ids : List OrderId) (debt : Debt) (s : Shared) : Prop where
  settled : ∀ id row, s.db.orders.lookup id = some row → row.resolution ≠ none →
    settles row = true
  judged : ∀ id row, s.db.orders.lookup id = some row → row.disputeLossAccrued = true →
    row.resolution ≠ none
  charged : ∀ id row, s.db.orders.lookup id = some row → lost row = true →
    id ∈ ids ∨ debt = .user id
  stands : ∀ id ∈ ids, ∃ row, s.db.orders.lookup id = some row ∧ lost row = true
  due : ∀ id, debt = .user id → ∃ row, s.db.orders.lookup id = some row ∧ lost row = true ∧
    row.disputeLossAccrued = false
  verdict : ∀ id, debt = .provider id → ∀ row, s.db.orders.lookup id = some row →
    row.resolution ≠ none

variable {ids : List OrderId} {debt debt' : Debt} {row' : Order} {event : EventId} {v : Verdict}

/-- What no write outside the verdicts changes about a row, or undoes. -/
structure Akin (row row' : Order) : Prop where
  resolution : row'.resolution = row.resolution
  flow : row'.flow = row.flow
  settled : row.resolution ≠ none → settles row = true → settles row' = true

theorem Akin.refl (row : Order) : Akin row row := ⟨rfl, rfl, fun _ h => h⟩

theorem Akin.lost (h : Akin row row') : lost row' = lost row := by
  rw [Rebuild.lost, Rebuild.lost, h.resolution, h.flow]

/-- Every order has a row on both sides or on none. -/
structure AllAkin (s t : Shared) : Prop where
  rows : ∀ id row', t.db.orders.lookup id = some row' →
    ∃ row, s.db.orders.lookup id = some row ∧ Akin row row'
  kept : ∀ id row, s.db.orders.lookup id = some row →
    ∃ row', t.db.orders.lookup id = some row' ∧ Akin row row'

theorem AllAkin.of_rel {r : OrderId → Order → Order → Prop}
    (h : ∀ id, Option.Rel (r id) (s.db.orders.lookup id) (t.db.orders.lookup id))
    (himp : ∀ id row row', r id row row' → Akin row row') : AllAkin s t := by
  refine ⟨fun id row' hrow' => ?_, fun id row hrow => ?_⟩
  · have hid := h id
    rw [hrow'] at hid
    generalize s.db.orders.lookup id = found at hid ⊢
    cases hid with
    | some hrow => exact ⟨_, rfl, himp id _ _ hrow⟩
  · have hid := h id
    rw [hrow] at hid
    generalize t.db.orders.lookup id = found at hid ⊢
    cases hid with
    | some hrow => exact ⟨_, rfl, himp id _ _ hrow⟩

theorem Fair.of_akin (h : Fair ids debt s) (hrows : AllAkin s t)
    (hjudged : ∀ id row', t.db.orders.lookup id = some row' → row'.disputeLossAccrued = true →
      row'.resolution ≠ none)
    (hcharged : ∀ id, debt = .user id → debt' = .user id)
    (hdue : ∀ id, debt' = .user id → debt = .user id ∧ flagged id t = flagged id s)
    (hverdict : ∀ id, debt' = .provider id → debt = .provider id) : Fair ids debt' t where
  settled id row' hrow' hres := by
    obtain ⟨row, hrow, hakin⟩ := hrows.rows id row' hrow'
    rw [hakin.resolution] at hres
    exact hakin.settled hres (h.settled id row hrow hres)
  judged := hjudged
  charged id row' hrow' hlost := by
    obtain ⟨row, hrow, hakin⟩ := hrows.rows id row' hrow'
    rw [hakin.lost] at hlost
    exact (h.charged id row hrow hlost).imp_right (hcharged id)
  stands id hid := by
    obtain ⟨row, hrow, hlost⟩ := h.stands id hid
    obtain ⟨row', hrow', hakin⟩ := hrows.kept id row hrow
    exact ⟨row', hrow', hakin.lost.trans hlost⟩
  due id hid := by
    obtain ⟨hbefore, hflag⟩ := hdue id hid
    obtain ⟨row, hrow, hlost, hfree⟩ := h.due id hbefore
    obtain ⟨row', hrow', hakin⟩ := hrows.kept id row hrow
    refine ⟨row', hrow', hakin.lost.trans hlost, ?_⟩
    simpa [flagged, hrow, hrow', hfree] using hflag
  verdict id hid row' hrow' := by
    obtain ⟨row, hrow, hakin⟩ := hrows.rows id row' hrow'
    rw [hakin.resolution]
    exact h.verdict id (hverdict id hid) row hrow

theorem settlementFieldsFrom_resolution (onChain : TradeOnChain) (now : ℕ) (row : Order) :
    (settlementFieldsFrom onChain now row).resolution = row.resolution := by
  rw [settlementFieldsFrom]
  split <;> rfl

theorem write_resolution (now : ℕ) (u : RowWrite) (row : Order) :
    (u.data now row).resolution = row.resolution := by
  cases u with
  | refresh a stamps =>
    simp only [RowWrite.data]
    split <;> exact settlementFieldsFrom_resolution _ _ _
  | promote a => exact settlementFieldsFrom_resolution _ _ _
  | autoRefund hash settlement =>
    cases settlement with
    | none => rfl
    | some settlement => exact settlementFieldsFrom_resolution _ _ _
  | land target onChain hash =>
    simp only [RowWrite.data]
    split <;> rfl
  | cancel | expire | attest | backfillSettlementHash | dispute | reopen
  | reconcileDisputeMetadata => rfl

theorem row_of_plain (he : plain e = true) (hcalm : CalmEffect s e o) (id : OrderId) :
    Option.Rel (fun row row' => Akin row row' ∧ row'.disputeLossAccrued = row.disputeLossAccrued)
      (s.db.orders.lookup id) ((after 0 e o s).db.orders.lookup id) := by
  have hne : e ≠ .commit := by
    rintro rfl
    cases he
  have hstep : RowStep s 0 e id (s.db.orders.lookup id) ((after 0 e o s).db.orders.lookup id) :=
    row_step_unless (fun hc => absurd hc hne) o id
  cases hrow : s.db.orders.lookup id with
  | none =>
    rw [hrow] at hstep
    generalize (after 0 e o s).db.orders.lookup id = new at hstep ⊢
    cases hstep with
    | same => exact .none
    | created hc => exact absurd hc hne
  | some row =>
    rw [hrow] at hstep
    generalize hnew : (after 0 e o s).db.orders.lookup id = new at hstep ⊢
    cases hstep with
    | same => exact .some ⟨.refl row, rfl⟩
    | @wrote u _ hwrite hm =>
      subst hwrite
      have hplace : (u.data s.now row).toPlacement = row.toPlacement := write_toPlacement _ _ _
      refine .some ⟨⟨write_resolution _ _ _, by rw [hplace], fun hres hset => ?_⟩, write_flag _ _ _⟩
      obtain hf | hcalm := hcalm
      · -- A statement that fails writes nothing.
        simp only [after, hf, if_true, hrow, Option.some.injEq] at hnew
        rw [← hnew]
        exact hset
      · exact hcalm row hrow hres hm
    | judged hv => subst hv; cases he
    | accrued hacc =>
      obtain rfl | ⟨a, rfl⟩ := hacc
      · cases he
      · cases he
    | stoodDown hs => subst hs; cases he

theorem Fair.plain (h : Fair ids debt s) (he : plain e = true) (hcalm : CalmEffect s e o) :
    Fair ids debt (after 0 e o s) := by
  have hrel := row_of_plain he hcalm
  have hflag (id : OrderId) : flagged id (after 0 e o s) = flagged id s := by
    have hid := hrel id
    rw [flagged, flagged]
    generalize s.db.orders.lookup id = r at hid
    generalize (after 0 e o s).db.orders.lookup id = r' at hid
    cases hid with
    | some hrow => simp [hrow.2]
    | none => rfl
  have hrows : AllAkin s (after 0 e o s) := .of_rel hrel fun _ _ _ hrow => hrow.1
  refine h.of_akin hrows (fun id row' hrow' hf => ?_) (fun _ hid => hid)
    (fun id hid => ⟨hid, hflag id⟩) fun _ hid => hid
  obtain ⟨row, hrow, hakin⟩ := hrows.rows id row' hrow'
  rw [hakin.resolution]
  have hfbefore := hflag id
  simp only [flagged, hrow', hrow, Option.any_some, hf] at hfbefore
  exact h.judged id row hrow hfbefore.symm

theorem closeDisputeRound_verdict (now : ℕ) (row : Order) :
    (closeDisputeRound now row).resolution = row.resolution ∧
      settles (closeDisputeRound now row) = settles row := by
  rw [closeDisputeRound]
  split
  next => exact ⟨rfl, rfl⟩
  next => exact ⟨rfl, rfl⟩

theorem verdict_data (now : ℕ) (v : Verdict) (row : Order) :
    (v.data now row).resolution = some v.outcome ∧ settles (v.data now row) = true := by
  have hsettled (outcome : ResolveOutcome) :
      statusMap (settledAs outcome) = .released ∨ statusMap (settledAs outcome) = .refunded := by
    cases outcome with
    | release => exact .inl rfl
    | refund => exact .inr rfl
  cases v with
  | preSettle outcome onChain hash =>
    refine ⟨rfl, ?_⟩
    have hstatus := hsettled outcome
    simpa [settles, Verdict.data, landSettlement, Order.setStatus] using hstatus
  | postSettle outcome settled =>
    have hstatus := hsettled settled.outcome
    rw [← settled.settled] at hstatus
    simp only [Verdict.data, Verdict.outcome]
    split <;> exact ⟨rfl, by simpa [settles, Order.setStatus] using hstatus⟩

/-- The verdict as it is booked. -/
def debtOf (id : OrderId) (flow : Flow) (outcome : ResolveOutcome) : Debt :=
  if userLostDispute flow outcome then .user id else .provider id

theorem stage_accrual {place : OrderId → Option Placement} {order : Order}
    (hplace : place id = some order.toPlacement) (v : Verdict) :
    Stage place (debtOf id order.flow v.outcome) (some (aftermath id order v (some (false, 1)))) := by
  have hbranch : aftermath id order v (some (false, 1)) =
      accrueDisputeLossIfApplicable id order v.outcome >>= fun _ => .pure 1 := rfl
  have huser : (place id).map (·.userAddress) = some order.userAddress := by rw [hplace]; rfl
  rw [hbranch, accrueDisputeLossIfApplicable, debtOf]
  cases hflow : order.flow <;> cases hout : v.outcome
  · exact .provider id
  · exact .user huser
  · exact .user huser
  · exact .provider id

/-- One row changes that has a verdict afterwards, and it settles or makes the debt
that there is. -/
theorem Fair.replace {ids' : List OrderId} (h : Fair ids debt s)
    (hlook : ∀ i, t.db.orders.lookup i = if i = id then some row' else s.db.orders.lookup i)
    (hsettles : settles row' = true) (hres : row'.resolution ≠ none)
    (hbefore : ∀ i, debt = .user i → i = id) (hids : ∀ i ≠ id, i ∈ ids' ↔ i ∈ ids)
    (hcharged : lost row' = true → id ∈ ids' ∨ debt' = .user id)
    (hstands : id ∈ ids' → lost row' = true)
    (hdue : ∀ i, debt' = .user i → i = id ∧ lost row' = true ∧ row'.disputeLossAccrued = false)
    (hverdict : ∀ i, debt' = .provider i → i = id) : Fair ids' debt' t := by
  have hmine (i : OrderId) (r : Order) (hr : t.db.orders.lookup i = some r) :
      i = id ∧ r = row' ∨ i ≠ id ∧ s.db.orders.lookup i = some r := by
    rw [hlook] at hr
    split at hr
    next heq => exact .inl ⟨heq, (Option.some.inj hr).symm⟩
    next hne => exact .inr ⟨hne, hr⟩
  have hown : t.db.orders.lookup id = some row' := by rw [hlook, if_pos rfl]
  constructor
  case settled =>
    intro i r hr hjudged
    obtain ⟨rfl, rfl⟩ | ⟨-, hr⟩ := hmine i r hr
    · exact hsettles
    · exact h.settled i r hr hjudged
  case judged =>
    intro i r hr hflag
    obtain ⟨rfl, rfl⟩ | ⟨-, hr⟩ := hmine i r hr
    · exact hres
    · exact h.judged i r hr hflag
  case charged =>
    intro i r hr hlost
    obtain ⟨rfl, rfl⟩ | ⟨hne, hr⟩ := hmine i r hr
    · exact hcharged hlost
    · obtain hi | hi := h.charged i r hr hlost
      · exact .inl ((hids i hne).mpr hi)
      · exact absurd (hbefore i hi) hne
  case stands =>
    intro i hi
    by_cases heq : i = id
    · subst heq
      exact ⟨row', hown, hstands hi⟩
    · obtain ⟨r, hr, hlost⟩ := h.stands i ((hids i heq).mp hi)
      exact ⟨r, by rw [hlook, if_neg heq, hr], hlost⟩
  case due =>
    intro i hi
    obtain ⟨rfl, hlost, hfree⟩ := hdue i hi
    exact ⟨row', hown, hlost, hfree⟩
  case verdict =>
    intro i hi r hr
    obtain rfl := hverdict i hi
    obtain rfl := Option.some.inj (hown.symm.trans hr)
    exact hres

theorem Fair.judge (h : Fair ids .none s) (hrow : s.db.orders.lookup id = some row)
    (hfirst : row.resolution = none) (v : Verdict) :
    Fair ids (debtOf id row.flow v.outcome)
      ((claimEvent event s).setOrder id (closeDisputeRound s.now (v.data s.now row))) := by
  have hfree : row.disputeLossAccrued = false := by
    by_contra hflag
    exact h.judged id row hrow (Bool.eq_true_of_not_eq_false hflag) hfirst
  have hunlost : lost row = false := by rw [lost, hfirst]; rfl
  obtain ⟨hclose, hsettles⟩ := closeDisputeRound_verdict s.now (v.data s.now row)
  obtain ⟨hres, hsettled⟩ := verdict_data s.now v row
  have hflag := verdict_flag s.now v row
  have hplace : (closeDisputeRound s.now (v.data s.now row)).toPlacement = row.toPlacement :=
    (closeDisputeRound_toPlacement _ _).trans (verdict_toPlacement _ _ _)
  generalize closeDisputeRound s.now (v.data s.now row) = row' at *
  have hres' : row'.resolution = some v.outcome := hclose.trans hres
  have hlost' : lost row' = userLostDispute row.flow v.outcome := by
    rw [lost, hres', hplace]
    rfl
  refine h.replace (fun i => lookup_setOrder _ _ _ _) (hsettles.trans hsettled) (by simp [hres'])
    (fun _ hi => by cases hi) (fun _ _ => Iff.rfl) ?_ ?_ ?_ ?_
  · intro hlost
    right
    rw [debtOf, if_pos (hlost'.symm.trans hlost)]
  · intro hid
    obtain ⟨r, hr, hlost⟩ := h.stands id hid
    obtain rfl := Option.some.inj (hr.symm.trans hrow)
    rw [hunlost] at hlost
    cases hlost
  · intro i hi
    rw [debtOf] at hi
    split at hi
    next huser => exact ⟨(Debt.user.inj hi).symm, hlost'.trans huser, hflag.trans hfree⟩
    next => cases hi
  · intro i hi
    rw [debtOf] at hi
    split at hi
    next => cases hi
    next => exact (Debt.provider.inj hi).symm

theorem Fair.claim (h : Fair ids debt s) : Fair ids debt (claimEvent event s) :=
  ⟨h.settled, h.judged, h.charged, h.stands, h.due, h.verdict⟩

theorem Fair.verdict_step {order : Order} (h : Fair ids .none s)
    (hplace : placeOf s id = some order.toPlacement) (hcalm : CalmEffect s (.verdict event id v) o) :
    ∃ debt, Fair ids debt (after 0 (.verdict event id v) o s) ∧
      Stage (placeOf s) debt (some (aftermath id order v (reply 0 (.verdict event id v) o s))) := by
  simp only [after, reply]
  split
  next => exact ⟨.none, h, .working trivial⟩
  next hf =>
    rw [runVerdict]
    split
    next => exact ⟨.none, h, .working trivial⟩
    next hnew =>
      split
      next row' hrun =>
        obtain ⟨row, hrow, hrun⟩ := Option.bind_eq_some_iff.mp hrun
        rw [Verdict.run] at hrun
        split at hrun
        next hm =>
          obtain rfl := Option.some.inj hrun
          have hfirst : row.resolution = none := by
            obtain hfails | hclaimed | hfirst := hcalm
            · exact absurd hfails hf
            · exact absurd hnew hclaimed
            · exact hfirst row hrow hm
          have hflow : order.toPlacement = row.toPlacement :=
            Option.some.inj (hplace.symm.trans (placeOf_of_lookup hrow))
          refine ⟨_, h.judge hrow hfirst v, ?_⟩
          rw [← hflow]
          exact stage_accrual hplace v
        next => cases hrun
      next => exact ⟨.none, h.claim, .working trivial⟩

theorem lookup_recordDisputeLost {a : Address} (hrow : s.db.orders.lookup id = some row)
    (hfree : row.disputeLossAccrued = false) (i : OrderId) :
    (Desk.recordDisputeLost a id s).db.orders.lookup i =
      if i = id then some { row with disputeLossAccrued := true } else s.db.orders.lookup i := by
  have hfilter : (s.db.orders.lookup id).filter (fun row => !row.disputeLossAccrued) = some row := by
    rw [hrow, Option.filter_some, if_pos (by simp [hfree])]
  rw [Desk.recordDisputeLost, hfilter]
  exact lookup_setOrder _ _ _ _

theorem Fair.book {a : Address} (h : Fair ids (.user id) s) (hf : o.fails = false) :
    charges s o (.recordDisputeLost a id) = some id ∧
      Fair (ids ++ [id]) .none (after 0 (.recordDisputeLost a id) o s) := by
  obtain ⟨row, hrow, hlost, hfree⟩ := h.due id rfl
  have hafter : after 0 (.recordDisputeLost a id) o s = Desk.recordDisputeLost a id s := by
    simp [after, hf]
  have hres : row.resolution ≠ none := by
    intro hnone
    rw [lost, hnone] at hlost
    cases hlost
  refine ⟨by simp [charges, hf, hrow, hfree], ?_⟩
  rw [hafter]
  refine h.replace (lookup_recordDisputeLost hrow hfree) (h.settled id row hrow hres) hres
    (fun i hi => (Debt.user.inj hi).symm) (fun i hne => ?_)
    (fun _ => .inl (List.mem_append_right _ (List.mem_singleton_self _))) (fun _ => hlost)
    (fun _ hi => by cases hi) (fun _ hi => by cases hi)
  simp [hne]

theorem Fair.bookProvider (h : Fair ids (.provider id) s) :
    Fair ids .none (after 0 (.accrueProviderLoss id) o s) := by
  have hrel (i : OrderId) : Option.Rel (fun row row' => Akin row row' ∧
      (row'.disputeLossAccrued = true → row.disputeLossAccrued = true ∨ i = id))
      (s.db.orders.lookup i) ((after 0 (.accrueProviderLoss id) o s).db.orders.lookup i) := by
    have hstep : RowStep s 0 (.accrueProviderLoss id) i (s.db.orders.lookup i)
        ((after 0 (.accrueProviderLoss id) o s).db.orders.lookup i) :=
      row_step_unless (fun hc => by cases hc) o i
    generalize s.db.orders.lookup i = found at hstep ⊢
    generalize (after 0 (.accrueProviderLoss id) o s).db.orders.lookup i = found' at hstep ⊢
    cases hstep with
    | same =>
      cases found with
      | none => exact .none
      | some row => exact .some ⟨.refl row, .inl⟩
    | wrote hw => cases hw
    | judged hv => cases hv
    | accrued hacc =>
      obtain heq | ⟨a, heq⟩ := hacc
      · obtain rfl := Effect.accrueProviderLoss.inj heq
        exact .some ⟨⟨rfl, rfl, fun _ hset => hset⟩, fun _ => .inr rfl⟩
      · cases heq
    | stoodDown hs => cases hs
    | created hc => cases hc
  have hrows : AllAkin s (after 0 (.accrueProviderLoss id) o s) := .of_rel hrel fun _ _ _ hrow => hrow.1
  refine h.of_akin hrows (fun i row' hrow' hf => ?_) (fun _ hi => by cases hi)
    (fun _ hi => by cases hi) fun _ hi => by cases hi
  have hi := hrel i
  cases hrow : s.db.orders.lookup i with
  | none =>
    rw [hrow, hrow'] at hi
    cases hi
  | some row =>
    rw [hrow, hrow'] at hi
    cases hi with
    | some hpair =>
      obtain ⟨hakin, hflag⟩ := hpair
      rw [hakin.resolution]
      obtain hbefore | rfl := hflag hf
      · exact h.judged i row hrow hbefore
      · exact h.verdict i rfl row hrow

theorem Books.of_same (h : Books ids s) (howner : ∀ id, owner t id = owner s id)
    (hflags : ∀ id, flagged id s = true → flagged id t = true)
    (hcounts : ∀ a, t.db.userProfiles.lookup a = s.db.userProfiles.lookup a) : Books ids t := by
  refine ⟨h.nodup, fun id hid => hflags id (h.flags id hid), fun a => ?_⟩
  rw [hcounts, h.counts a]
  simp only [howner]

theorem userProfiles_after (hrec : ∀ a id, e ≠ .recordDisputeLost a id) (o : Choice) :
    (after 0 e o s).db.userProfiles = s.db.userProfiles := by
  cases e with
  | recordDisputeLost a id => exact absurd rfl (hrec a id)
  | _ =>
    simp only [after, runWrite, runVerdict, runProviderLoss, runSetLpStatus, runConsumeQuote,
      runCreateOrderRow, runCommit, release]
    repeat' split
    all_goals first | rfl | (cases s.txs 0 <;> rfl)

theorem charges_none (hrec : ∀ a id, e ≠ .recordDisputeLost a id) : charges s o e = none := by
  cases e with
  | recordDisputeLost a id => exact absurd rfl (hrec a id)
  | _ => rfl

theorem Books.record {a : Address} (h : Books ids s) (howner : owner s id = some a) :
    Books (ids ++ (charges s o (.recordDisputeLost a id)).toList)
      (after 0 (.recordDisputeLost a id) o s) := by
  have hne : Effect.recordDisputeLost a id ≠ .commit := by simp
  simp only [charges]
  split
  next hgoes =>
    obtain ⟨hf, hflag⟩ := hgoes
    obtain ⟨row, hrow, hflag⟩ := Option.any_eq_true _ _ |>.mp hflag
    have hfilter : (s.db.orders.lookup id).filter (fun row => !row.disputeLossAccrued) = some row := by
      rw [hrow, Option.filter_some, if_pos hflag]
    have hafter : after 0 (.recordDisputeLost a id) o s = Desk.recordDisputeLost a id s := by
      simp [after, hf]
    have hprofiles : (after 0 (.recordDisputeLost a id) o s).db.userProfiles =
        s.db.userProfiles.insert a ((s.db.userProfiles.lookup a).getD 0 + 1) := by
      rw [hafter, Desk.recordDisputeLost, hfilter]
    have hnew : flagged id s = false := by simpa [flagged, hrow] using hflag
    have hset : flagged id (after 0 (.recordDisputeLost a id) o s) = true := by
      rw [hafter, Desk.recordDisputeLost, hfilter]
      exact flagged_setOrder _ _ _
    refine ⟨?_, fun i hi => ?_, fun b => ?_⟩
    · refine h.nodup.append (List.nodup_singleton id) ?_
      simp only [Option.toList_some, List.disjoint_singleton]
      intro hmem
      rw [h.flags id hmem] at hnew
      cases hnew
    · obtain hi | hi := List.mem_append.mp hi
      · exact flagged_after hne o (h.flags i hi)
      · obtain rfl : i = id := by simpa using hi
        exact hset
    · simp only [owner_after hne o, Option.toList_some, List.countP_append, hprofiles]
      by_cases hb : b = a
      · subst hb
        rw [AList.lookup_insert, Option.getD_some, h.counts b]
        simp [howner]
      · rw [AList.lookup_insert_ne hb, h.counts b]
        simp [howner, Ne.symm hb]
  next hidle =>
    have hsame : after 0 (.recordDisputeLost a id) o s = s := by
      simp only [after]
      split
      next => rfl
      next hf =>
        rw [Desk.recordDisputeLost]
        split
        next => rfl
        next row hfilter =>
          obtain ⟨hrow, hflag⟩ := Option.filter_eq_some_iff.mp hfilter
          exact absurd ⟨by simpa using hf, by simp [hrow, hflag]⟩ hidle
    rw [hsame]
    simpa using h

theorem Books.effect (h : Books ids s) (he : e ≠ .commit) (hrec : ∀ a id, e ≠ .recordDisputeLost a id)
    (o : Choice) : Books ids (after 0 e o s) :=
  h.of_same (owner_after he o) (fun _ => flagged_after he o) fun a => by
    rw [userProfiles_after hrec]

theorem lookup_of_unchanged (h : Unchanged s.db) (id : OrderId) :
    (backfillDisputesLost s.db).orders.lookup id = s.db.orders.lookup id := by
  have hflags := h.flags id
  rw [lookup_backfill_order] at hflags ⊢
  cases hrow : s.db.orders.lookup id with
  | none => rfl
  | some row =>
    simp only [hrow, Option.map_some, Option.some.injEq] at hflags ⊢
    split at hflags
    next hlost =>
      rw [if_pos hlost]
      cases row
      obtain rfl : true = _ := hflags
      rfl
    next hlost => rw [if_neg hlost]

theorem Books.backfill (h : Books ids s) (hsame : Unchanged s.db) :
    Books ids { s with db := backfillDisputesLost s.db } := by
  refine h.of_same (fun id => ?_) (fun id hflag => ?_) hsame.counts
  · rw [owner, owner, placeOf, placeOf, lookup_of_unchanged hsame]
  · rw [flagged, lookup_of_unchanged hsame]
    exact hflag

theorem Fair.of_lookup (h : Fair ids debt s) (hlook : ∀ id, t.db.orders.lookup id = s.db.orders.lookup id) :
    Fair ids debt t := by
  constructor
  case settled => simpa only [hlook] using h.settled
  case judged => simpa only [hlook] using h.judged
  case charged => simpa only [hlook] using h.charged
  case stands => simpa only [hlook] using h.stands
  case due => simpa only [hlook] using h.due
  case verdict => simpa only [hlook] using h.verdict

theorem Fair.forget (h : Fair ids debt s) (hno : ∀ id, debt ≠ .user id) : Fair ids .none s where
  settled := h.settled
  judged := h.judged
  charged id row hrow hlost := .inl ((h.charged id row hrow hlost).resolve_right (hno id))
  stands := h.stands
  due id hid := by cases hid
  verdict id hid := by cases hid

theorem Fair.unchanged (h : Fair ids .none s) (hbooks : Books ids s) : Unchanged s.db := by
  rw [unchanged_iff]
  intro a ha
  have hstanding : standing s.db.orders a = ids.toFinset.filter fun id => owner s id = some a := by
    ext id
    rw [mem_standing, Finset.mem_filter, List.mem_toFinset]
    constructor
    · rintro ⟨row, hrow, hlost, rfl⟩
      rw [userLost, Bool.and_eq_true] at hlost
      obtain hid | hid := h.charged id row hrow hlost.2
      · exact ⟨hid, owner_of_lookup hrow⟩
      · cases hid
    · rintro ⟨hid, howner⟩
      obtain ⟨row, hrow, hlost⟩ := h.stands id hid
      have hjudged : row.resolution ≠ none := by
        intro hnone
        rw [lost, hnone] at hlost
        cases hlost
      refine ⟨row, hrow, ?_, Option.some.inj ((owner_of_lookup hrow).symm.trans howner)⟩
      rw [userLost, Bool.and_eq_true]
      exact ⟨h.settled id row hrow hjudged, hlost⟩
  have hcard : (s.db.userProfiles.lookup a).getD 0 = ((standing s.db.orders a).card : ℤ) := by
    rw [hstanding, hbooks.counts a, List.countP_eq_length_filter,
      ← List.toFinset_card_of_nodup (hbooks.nodup.filter _), List.toFinset_filter]
    simp
  constructor
  · have hpos : (standing s.db.orders a).card ≠ 0 := by simpa using ha
    cases hlook : s.db.userProfiles.lookup a with
    | none =>
      rw [hlook, Option.getD_none] at hcard
      exact absurd (by exact_mod_cast hcard.symm) hpos
    | some n =>
      rw [hlook, Option.getD_some] at hcard
      rw [hcard]
  · intro id hid
    rw [hstanding, Finset.mem_filter, List.mem_toFinset] at hid
    exact hbooks.flags id hid.1

structure Sound (ids : List OrderId) (w : Bureau) : Prop where
  books : Books ids w.shared
  stage : ∃ debt, Fair ids debt w.shared ∧ Stage (placeOf w.shared) debt w.handler

def Reboots (a : Turn) : Prop := ∃ cursor, a = .boot cursor

variable {home : Address} {eventId : ℕ → EventId} {w w' : Bureau} {tr : Past}

theorem Sound.between (h : Sound ids w) (hidle : booking w.handler = false) :
    Fair ids .none w.shared := by
  obtain ⟨debt, hfair, hstage⟩ := h.stage
  refine hfair.forget fun id hid => ?_
  subst hid
  generalize w.handler = handler at hstage hidle
  cases hstage with
  | user => cases hidle

theorem Sound.go {k : Reply e → Service ℕ} (h : Sound ids w) (hrun : w.handler = some (.step e k))
    (hcalm : CalmEffect w.shared e o) :
    Sound (ids ++ (charges w.shared o e).toList)
      { w with shared := after 0 e o w.shared, handler := some (k (reply 0 e o w.shared)) } := by
  obtain ⟨debt, hfair, hstage⟩ := h.stage
  rw [hrun] at hstage
  have hquiet (he : plain e = true) (hk : ∀ r, Tells (placeOf w.shared) e r →
      Accounts (placeOf w.shared) (k r)) (hf : Fair ids .none w.shared) :
      Sound (ids ++ (charges w.shared o e).toList)
        { w with shared := after 0 e o w.shared, handler := some (k (reply 0 e o w.shared)) } := by
    have hne : e ≠ .commit := by
      rintro rfl
      cases he
    have hrec (a : Address) (id : OrderId) : e ≠ .recordDisputeLost a id := by
      rintro rfl
      cases he
    rw [charges_none hrec, Option.toList_none, List.append_nil]
    refine ⟨h.books.effect hne hrec o, .none, hf.plain he hcalm, .working ?_⟩
    rw [placeOf_after hne]
    exact hk _ (tells_reply w.shared e o)
  cases hstage with
  | working haccounts =>
    cases e with
    | verdict event id v =>
      obtain ⟨order, hplace, hk⟩ := haccounts
      obtain ⟨debt, hfair', hstage'⟩ := hfair.verdict_step hplace hcalm
      have hbooks := h.books.effect (e := .verdict event id v) (by simp) (by simp) o
      refine ⟨by simpa [charges] using hbooks, debt, by simpa [charges] using hfair', ?_⟩
      rw [hk, placeOf_after (by simp)]
      exact hstage'
    | _ => exact hquiet haccounts.1 haccounts.2 hfair
  | @user id a howner =>
    obtain ⟨hcharge, hfair'⟩ := hfair.book hcalm
    have hbooks := h.books.record (o := o) howner
    rw [hcharge] at hbooks ⊢
    exact ⟨hbooks, .none, hfair', .working trivial⟩
  | provider id =>
    have hbooks := h.books.effect (e := .accrueProviderLoss id) (by simp) (by simp) o
    exact ⟨by simpa [charges] using hbooks, .none, by simpa [charges] using hfair.bookProvider,
      .working trivial⟩

/-- The step lemma: a calm turn keeps the books. -/
theorem Sound.turn (home : Address) (eventId : ℕ → EventId) {a : Turn} (h : Sound ids w)
    (ha : admits w a) (hcalm : Calm w a) :
    Sound (ids ++ (charge w a).toList) (turn home eventId w a) := by
  cases a with
  | go o =>
    obtain ⟨e, k, hrun, -⟩ := ha
    simp only [Calm, hrun] at hcalm
    simp only [charge, Rebuild.turn, hrun]
    exact h.go hrun hcalm
  | chain c a | tick time =>
    simp only [charge, Option.toList_none, List.append_nil]
    obtain ⟨debt, hfair, hstage⟩ := h.stage
    exact ⟨⟨h.books.nodup, h.books.flags, h.books.counts⟩, debt, hfair.of_lookup fun _ => rfl, hstage⟩
  | take hash =>
    simp only [charge, Option.toList_none, List.append_nil]
    have hidle : booking w.handler = false := by
      rw [ha.1]
      rfl
    refine ⟨h.books, .none, h.between hidle, ?_⟩
    simp only [Rebuild.turn]
    cases w.log[w.cursor]? with
    | none => exact .idle
    | some ev => exact .working (applyEvent_accounts _ _ _)
  | advance =>
    simp only [charge, Option.toList_none, List.append_nil]
    have hidle : booking w.handler = false := by
      obtain ⟨n, hpure⟩ := ha
      rw [hpure]
      rfl
    exact ⟨h.books, .none, h.between hidle, .idle⟩
  | resume cursor =>
    simp only [charge, Option.toList_none, List.append_nil]
    exact ⟨h.books, .none, h.between hcalm, .idle⟩
  | other id u =>
    simp only [charge, Option.toList_none, List.append_nil]
    obtain ⟨debt, hfair, hstage⟩ := h.stage
    have hbooks : Books ids (after 0 (.write id u) {} w.shared) :=
      h.books.effect (by simp) (by simp) {}
    have hfair' : Fair ids debt (after 0 (.write id u) {} w.shared) := hfair.plain rfl hcalm
    have hplace : placeOf (after 0 (.write id u) {} w.shared) = placeOf w.shared :=
      placeOf_after (by simp) {}
    exact ⟨hbooks, debt, hfair', hplace ▸ hstage⟩
  | boot cursor =>
    simp only [charge, Option.toList_none, List.append_nil]
    have hfair := h.between hcalm
    have hsame := hfair.unchanged h.books
    exact ⟨h.books.backfill hsame, .none, hfair.of_lookup (lookup_of_unchanged hsame), .idle⟩

theorem Sound.of_starts (h : Starts w) : Sound [] w := by
  have hunlost (id : OrderId) (row : Order) (hrow : w.shared.db.orders.lookup id = some row) :
      lost row ≠ true := by
    rw [lost, h.verdicts id row hrow]
    simp
  refine ⟨⟨List.nodup_nil, by simp, fun a => by simp [h.counts a]⟩, .none, ⟨?_, ?_, ?_, ?_, ?_, ?_⟩, ?_⟩
  · intro id row hrow hres
    exact absurd (h.verdicts id row hrow) hres
  · intro id row hrow hflag
    cases (h.flags id row hrow).symm.trans hflag
  · intro id row hrow hlost
    exact absurd hlost (hunlost id row hrow)
  · simp
  · intro id hid
    cases hid
  · intro id hid
    cases hid
  · rw [h.handler]
    exact .idle

/-- The run lemma: calm turns keep the books. -/
theorem Sound.run (hw : Starts w) (hr : Run (bureau home eventId) w tr w')
    (hcalm : ∀ e ∈ tr, Calm e.pre e.act) : Sound (charged tr) w' := by
  induction hr with
  | nil => exact .of_starts hw
  | @snoc tr u _ a ha ih =>
    have hu := ih fun e he => hcalm e (List.mem_append_left _ he)
    have hlast : charged (tr ++ [(bureau home eventId).entry u a]) =
        charged tr ++ (charge u a).toList := by
      cases hc : charge u a <;> simp [charged, Machine.entry, bureau, hc]
    rw [hlast]
    exact hu.turn home eventId ha (hcalm _ (List.mem_append_right _ (List.mem_singleton_self _)))

/-- As long as nothing gets in the way of the losses, no boot changes a count or a flag. -/
theorem rebuild_agrees (hw : Starts w) (hr : Run (bureau home eventId) w tr w')
    (hcalm : ∀ e ∈ tr, Calm e.pre e.act) :
    ∀ e ∈ tr, Reboots e.act → Unchanged e.pre.shared.db := by
  rintro e he ⟨cursor, hboot⟩
  obtain ⟨tr₁, tr₂, rfl⟩ := List.append_of_mem he
  obtain ⟨hpre, -⟩ := hr.at_entry
  have hsound := Sound.run hw hpre fun e' he' => hcalm e' (List.mem_append_left _ he')
  have hidle := hcalm e he
  rw [hboot] at hidle
  exact (hsound.between hidle).unchanged hsound.books

section Samples

def catchUp (home : Address) (eventId : ℕ → EventId) : ℕ → Bureau → List Turn
  | 0, _ => []
  | n + 1, w =>
    match w.handler with
    | none =>
      if w.cursor < w.log.length then .take none :: catchUp home eventId n (turn home eventId w (.take none))
      else []
    | some (.step e _) =>
      .go (asItIs w.shared e) :: catchUp home eventId n (turn home eventId w (.go (asItIs w.shared e)))
    | some (.pure _) => .advance :: catchUp home eventId n (turn home eventId w .advance)
    | some .fail => []

theorem catchUp_admitted (n : ℕ) (w : Bureau) :
    Admitted (bureau home eventId) w (catchUp home eventId n w) := by
  induction n generalizing w with
  | zero => trivial
  | succ n ih =>
    rw [catchUp]
    split
    next hnone =>
      split
      next hlt => exact ⟨⟨hnone, hlt⟩, ih _⟩
      next => trivial
    next e k hrun => exact ⟨⟨e, k, hrun, asItIs_fresh _ _⟩, ih _⟩
    next m hrun => exact ⟨⟨m, hrun⟩, ih _⟩
    next => trivial

def sampleEventId (i : ℕ) : EventId := i

def sampleBureau : Bureau := ⟨sampleDesk sampleOrders, [], 0, none⟩

theorem sampleOrders_opened {id : OrderId} {row : Order}
    (hrow : sampleOrders.lookup id = some row) : row = samplePlacement.opened := by
  by_cases hid : id = 0
  · subst hid
    exact (Option.some.inj hrow).symm
  · have hnone : sampleOrders.lookup id = none := AList.lookup_insert_ne hid
    cases hrow.symm.trans hnone

theorem sampleBureau_starts : Starts sampleBureau where
  handler := rfl
  verdicts id row hrow := by
    rw [sampleOrders_opened hrow]
    rfl
  flags id row hrow := by
    rw [sampleOrders_opened hrow]
    rfl
  counts a := rfl

/-- A trade that its user disputes. In `lostCalls` the user loses; in
`reversedCalls` the provider does, and then the user after all. -/
def disputedCalls : List Turn :=
  [.chain ⟨0⟩ (.call (sampleEnv 1000 [⟨6⟩]) (.createTrade 1 sampleArgs)),
    .chain ⟨0⟩ (.call (sampleEnv 1500 [⟨7⟩]) (.markFiatPaid 1 ⟨7⟩)),
    .chain ⟨0⟩ (.call (sampleEnv 1600 [⟨7⟩]) (.raiseDispute 1 ⟨7⟩))]

def lostCalls : List Turn :=
  disputedCalls ++ [.chain ⟨0⟩ (.call (sampleEnv 1700 [⟨3⟩]) (.resolve 1 .refund ⟨3⟩))]

def reversedCalls : List Turn :=
  disputedCalls ++
    [.chain ⟨0⟩ (.call (sampleEnv 1700 [⟨3⟩]) (.resolve 1 .release ⟨3⟩)),
      .chain ⟨0⟩ (.call (sampleEnv 1800 [⟨6⟩]) (.raiseDispute 1 ⟨6⟩)),
      .chain ⟨0⟩ (.call (sampleEnv 1900 [⟨3⟩]) (.resolve 1 .refund ⟨3⟩))]

theorem admits_call {c : Address} {a : Action}
    (ha : Escrow.System.admits c (w.shared.chain c) a) :
    (bureau home eventId).admits w (.chain c a) := ha

theorem disputedCalls_admitted (calls : List Turn)
    (h : Admitted (bureau ⟨0⟩ sampleEventId) (final (bureau ⟨0⟩ sampleEventId) sampleBureau disputedCalls) calls) :
    Admitted (bureau ⟨0⟩ sampleEventId) sampleBureau (disputedCalls ++ calls) := by
  refine Admitted.append ⟨admits_call ?_, admits_call ?_, admits_call ?_, trivial⟩ h
  all_goals decide +kernel

/-- The indexer has followed all the calls. -/
def sampleFollowed (calls : List Turn) : List Turn :=
  calls ++ catchUp ⟨0⟩ sampleEventId 60 (final (bureau ⟨0⟩ sampleEventId) sampleBureau calls)

def sampleBefore (calls : List Turn) : Bureau :=
  final (bureau ⟨0⟩ sampleEventId) sampleBureau (sampleFollowed calls)

def sampleHistory (calls : List Turn) : Past :=
  history (bureau ⟨0⟩ sampleEventId) sampleBureau (sampleFollowed calls) ++
    [(bureau ⟨0⟩ sampleEventId).entry (sampleBefore calls) (.boot 0)]

theorem sampleHistory_run {calls : List Turn}
    (h : Admitted (bureau ⟨0⟩ sampleEventId) sampleBureau calls) :
    Run (bureau ⟨0⟩ sampleEventId) sampleBureau (sampleHistory calls)
      (turn ⟨0⟩ sampleEventId (sampleBefore calls) (.boot 0)) :=
  (Run.of_actions _ _ (h.append (catchUp_admitted 60 _))).snoc (.boot 0) (Nat.zero_le _)

theorem lostCalls_admitted : Admitted (bureau ⟨0⟩ sampleEventId) sampleBureau lostCalls := by
  refine disputedCalls_admitted _ ⟨admits_call ?_, trivial⟩
  decide +kernel

theorem reversedCalls_admitted : Admitted (bureau ⟨0⟩ sampleEventId) sampleBureau reversedCalls := by
  refine disputedCalls_admitted _ ⟨admits_call ?_, admits_call ?_, admits_call ?_, trivial⟩
  all_goals decide +kernel

theorem sample_rebuild_agrees :
    (sampleBefore lostCalls).shared.db.userProfiles.lookup ⟨7⟩ = some 1 ∧
    (backfillDisputesLost (sampleBefore lostCalls).shared.db).userProfiles.lookup ⟨7⟩ = some 1 ∧
    ∀ e ∈ sampleHistory lostCalls, Reboots e.act → Unchanged e.pre.shared.db :=
  ⟨by decide +kernel, by decide +kernel,
    rebuild_agrees sampleBureau_starts (sampleHistory_run lostCalls_admitted) (by decide +kernel)⟩

/-- A verdict that turns against the user after one against the provider counts
only at the next boot. -/
theorem reversal_counts_at_boot :
    Starts sampleBureau ∧
    Run (bureau ⟨0⟩ sampleEventId) sampleBureau (sampleHistory reversedCalls)
      (turn ⟨0⟩ sampleEventId (sampleBefore reversedCalls) (.boot 0)) ∧
    (sampleBefore reversedCalls).shared.db.userProfiles.lookup ⟨7⟩ = none ∧
    (backfillDisputesLost (sampleBefore reversedCalls).shared.db).userProfiles.lookup ⟨7⟩ = some 1 ∧
    ¬ ∀ e ∈ sampleHistory reversedCalls, Reboots e.act → Unchanged e.pre.shared.db := by
  have hbefore : (sampleBefore reversedCalls).shared.db.userProfiles.lookup ⟨7⟩ = none := by
    decide +kernel
  have hafter : (backfillDisputesLost (sampleBefore reversedCalls).shared.db).userProfiles.lookup ⟨7⟩ =
      some 1 := by
    decide +kernel
  refine ⟨sampleBureau_starts, sampleHistory_run reversedCalls_admitted, hbefore, hafter, fun h => ?_⟩
  have hsame := (h ((bureau ⟨0⟩ sampleEventId).entry (sampleBefore reversedCalls) (.boot 0))
    (by simp [sampleHistory]) ⟨0, rfl⟩).counts ⟨7⟩
  simp only [Machine.entry, hbefore, hafter] at hsame
  cases hsame

end Samples

end Lolipay.Coordinator.Rebuild
