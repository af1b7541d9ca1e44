import Lolipay.Async.Undisturbed
import Lolipay.Coordinator.IndexerLoop

namespace Lolipay.Coordinator.CatchUp

open Lolipay.Ledger.Storage Lolipay.Ledger.Invocation
open Lolipay.Async.Process Lolipay.Async.Feeds
open Lolipay.Escrow.Types
open Lolipay.Coordinator.Orders Lolipay.Coordinator.Binding Lolipay.Coordinator.Writes
open Lolipay.Coordinator.Database hiding Effect Reply
open Lolipay.Coordinator.Indexer Lolipay.Coordinator.Services
open Lolipay.Coordinator.Desk hiding Choice Move moved
open Lolipay.Coordinator.IndexerLoop

/-- The reply is not an error of the database or of a strict read. -/
def Served : (e : Database.Effect) → Database.Reply e → Prop
  | .ask (.getTradeStatusStrict _ _), r => r.isSome
  | .write _ _, r => r.isSome
  | .claimEvent _, r => r.isSome
  | .verdict _ _ _, r => r.isSome
  | _, _ => True

section Handlers

variable {α : Type} {id : OrderId} {order : Order}

theorem steady_update {w : RowWrite} {k : ℕ → Service α} (hk : ∀ n, Steady Served (k n)) :
    Steady Served (update id w >>= k) :=
  (Steady.attempt fun _ h => h).bind hk

theorem steady_ask {q : Query} {k : q.Reply → Service α} (hk : ∀ r, Steady Served (k r)) :
    Steady Served (ask q >>= k) :=
  fun r _ => hk r

theorem steady_strict {c : Address} {tradeId : TradeId}
    {k : Option (Option TradeOnChain) → Service α} (hk : ∀ r, Steady Served (k (some r))) :
    Steady Served (ask (.getTradeStatusStrict c tradeId) >>= k) := by
  intro r hr
  obtain ⟨a, rfl⟩ := Option.isSome_iff_exists.mp hr
  exact hk a

theorem hashAfterLostRace_steady (status : Status) (hash : Option TxHash) :
    Steady Served (hashAfterLostRace id status hash) := by
  unfold hashAfterLostRace
  split
  next =>
    apply steady_ask
    intro fresh
    split
    next => trivial
    next =>
      split
      next => exact steady_update fun _ => trivial
      next => trivial
  next => trivial

theorem applyStatusEvent_steady (c : Address) (hash : Option TxHash) (status : Status) :
    Steady Served (applyStatusEvent c hash id order status) := by
  have hadvance : Steady Served (applyStatusEvent.advance c hash id order status) := by
    rw [applyStatusEvent.advance]
    split
    next =>
      refine Steady.bind ?_ fun onChain => steady_update fun count => ?_
      · rw [settlementRead]
        split
        next => exact fun _ _ => trivial
        next => trivial
      · split
        next => exact hashAfterLostRace_steady _ _
        next => trivial
    next => trivial
  unfold applyStatusEvent
  split
  next =>
    split
    next => exact steady_update fun _ => trivial
    next => exact hadvance
  next => exact hadvance

theorem enterDispute_steady {w : RowWrite} (raiser : Option Address) :
    Steady Served (enterDispute id w raiser) := by
  apply steady_update
  intro count
  split
  next => trivial
  next =>
    refine Steady.bind ?_ fun _ => trivial
    unfold reconcileDisputeMetadata
    split
    next => trivial
    next =>
      apply steady_ask
      intro fresh
      split
      next => trivial
      next => exact steady_update fun _ => trivial

theorem applyDisputedEvent_steady (c : Address) (raiser : Option Address) :
    Steady Served (applyDisputedEvent c raiser id order) := by
  rw [applyDisputedEvent]
  split
  next =>
    apply steady_strict
    intro onChain
    dsimp only
    split
    next => exact enterDispute_steady _
    next => trivial
  next => exact enterDispute_steady _

theorem applyVerdict_steady (event : EventId) (v : Verdict) :
    Steady Served (applyVerdict event id order v) := by
  intro r hr
  obtain ⟨⟨replay, written⟩, rfl⟩ := Option.isSome_iff_exists.mp hr
  change Steady Served (if _ then _ else _)
  split
  next => trivial
  next =>
    refine Steady.bind ?_ fun _ => trivial
    rw [accrueDisputeLossIfApplicable]
    split
    next => exact fun _ _ => trivial
    next =>
      split
      next => exact fun _ _ => trivial
      next => trivial

theorem applyResolvedEvent_steady (c : Address) {ev : RpcEvent} (hid : ev.id.isSome)
    (released : Option Bool) (postSettle : Bool) :
    Steady Served (applyResolvedEvent c ev released postSettle id order) := by
  unfold applyResolvedEvent
  split
  next h => simp [h] at hid
  next => trivial
  next =>
    split
    next =>
      apply steady_strict
      intro settled
      match settled with
      | none => trivial
      | some settled =>
        dsimp only
        split
        next => exact (Steady.attempt fun _ h => h).bind fun _ => trivial
        next => exact applyVerdict_steady _ _
    next => exact steady_ask fun _ => applyVerdict_steady _ _

theorem applyEvent_steady (home : Address) {ev : RpcEvent} (hid : ev.id.isSome) :
    Steady Served (applyEvent home ev) := by
  have hhandle (c : Address) (id : OrderId) (order : Order) :
      Steady Served (handleEvent c ev id order) := by
    unfold handleEvent
    split
    next => exact applyResolvedEvent_steady c hid _ _
    next => exact applyDisputedEvent_steady c _
    next =>
      split
      next => trivial
      next => exact applyStatusEvent_steady _ _ _
  rw [applyEvent]
  split
  next => trivial
  next =>
    apply steady_ask
    intro found
    split
    next id order c _ =>
      split
      next =>
        split
        next =>
          refine Steady.bind (steady_strict fun trade => ?_) fun bound => ?_
          · cases trade <;> trivial
          · split
            next => exact hhandle c id order
            next => trivial
        next => exact hhandle c id order
      next => trivial
    next => trivial

end Handlers

section Backlog

variable {home : Address} {choose : Effect → Station → Choice} {s : Station}

/-- Nothing is refused, and a page is full unless it reaches the last event. -/
structure Smooth (choose : Effect → Station → Choice) : Prop where
  fails : ∀ e s, (choose e s).fails = false
  outOfRange : ∀ e s, (choose e s).outOfRange = false
  desk : ∀ e s, (choose e s).desk.fails = false
  count : ∀ e s, pageLimit ≤ (choose e s).count

def undisturbed (choose : Effect → Station → Choice) (e : Effect) (s : Station) :
    Station × Reply e :=
  effect 0 e (choose e s) s

def numbered (first : ℕ) (events : List RpcEvent) : List (ℕ × RpcEvent) :=
  (List.range' first events.length).zip events

def Answered : (e : Effect) → Reply e → Prop
  | .desk e, r => Served e r
  | _, _ => True

theorem served (hc : Smooth choose) (e : Database.Effect) (s : Station) :
    Served e (undisturbed choose (.desk e) s).2 := by
  have hdesk := hc.desk (.desk e) s
  cases e with
  | ask q => cases q <;> simp [Served, undisturbed, effect, reply, answer, hdesk]
  | _ => simp [Served, undisturbed, effect, reply, hdesk]

theorem handler_ends (home : Address) (hc : Smooth choose) {ev : RpcEvent} (hid : ev.id.isSome)
    (s : Station) :
    ∃ t n, Ends (undisturbed choose) ((applyEvent home ev).embed .desk : Poll ℕ) s t n ∧
      t.log = s.log ∧ t.latest = s.latest ∧ t.book = s.book := by
  have hsteady : Steady Answered ((applyEvent home ev).embed .desk : Poll ℕ) :=
    (applyEvent_steady home hid).embed (f := Effect.desk) fun _ _ h => h
  have hdesk : Every (fun e => ∃ d, e = Effect.desk d)
      ((applyEvent home ev).embed .desk : Poll ℕ) :=
    Every.embed (Every.of_forall (fun e => ⟨e, rfl⟩) _)
  have hanswered (e : Effect) (s : Station) : Answered e (undisturbed choose e s).2 := by
    cases e with
    | desk e => exact served hc e s
    | _ => trivial
  obtain ⟨t, n, hends⟩ := hsteady.ends (undisturbed choose) hanswered s
  have hframe := hdesk.frame (undisturbed choose) (fun s => (s.log, s.latest, s.book))
    (by rintro _ ⟨d, rfl⟩ _; rfl) hends
  obtain ⟨hlog, hrest⟩ := Prod.mk.inj hframe
  obtain ⟨hlatest, hbook⟩ := Prod.mk.inj hrest
  exact ⟨t, n, hends, hlog, hlatest, hbook⟩

theorem applyEvents_ends (home : Address) (hc : Smooth choose) (events : List RpcEvent)
    (hid : ∀ ev ∈ events, ev.id.isSome) (i : ℕ) (s : Station) :
    ∃ t, Ends (undisturbed choose) (applyEvents home i events) s t () ∧
      t.log = s.log ∧ t.latest = s.latest ∧
      t.book = { s.book with handled := s.book.handled ++ numbered i events } := by
  induction events generalizing i s with
  | nil => exact ⟨s, .pure s (), rfl, rfl, by simp [numbered]⟩
  | cons ev events ih =>
    obtain ⟨t, n, hev, hlog, hlatest, hbook⟩ := handler_ends home hc (hid ev List.mem_cons_self) s
    obtain ⟨u, hrest, hlog', hlatest', hbook'⟩ := ih
      (fun ev h => hid ev (List.mem_cons_of_mem _ h)) (i + 1) { t with book := t.book.handle i ev }
    refine ⟨u, hev.bind (.step rfl hrest), hlog'.trans hlog, hlatest'.trans hlatest, ?_⟩
    rw [hbook', hbook]
    simp [Book.handle, numbered, List.range'_succ]

/-- Where the next poll begins: behind the saved cursor, or at the ledger to
which a cold start looks back. -/
def nextStart (s : Station) : ℕ :=
  match s.book.saved with
  | some c => c
  | none => s.first (.startLedger (max 1 (s.latest - lookbackLedgers)))

def fullPage (s : Station) : List RpcEvent := (s.events.drop (nextStart s)).take pageLimit

theorem getEvents_smooth (hc : Smooth choose) (start : Start) (s : Station) :
    undisturbed choose (.getEvents start) s =
      (noted start (.page (s.first start) ((s.events.drop (s.first start)).take pageLimit)) s,
        .page (s.first start) ((s.events.drop (s.first start)).take pageLimit)) := by
  simp [undisturbed, effect, getEvents, hc.fails, hc.outOfRange, Station.page,
    Nat.min_eq_right (hc.count _ s)]

structure Alike (s t : Station) : Prop where
  log : t.log = s.log
  latest : t.latest = s.latest
  saved : t.book.saved = s.book.saved
  handled : t.book.handled = s.book.handled

theorem coldStart_ends (hc : Smooth choose) (hsaved : s.book.saved = none) :
    ∃ t, Ends (undisturbed choose) coldStart s t (nextStart s, fullPage s) ∧ Alike s t := by
  let noted : Station := { s with coldStarts := s.latest :: s.coldStarts }
  have hlatest : undisturbed choose .getLatestLedger s = (noted, some s.latest) := by
    simp [undisturbed, effect, hc.fails, noted]
  have hstart : nextStart s = s.first (.startLedger (max 1 (s.latest - lookbackLedgers))) := by
    rw [nextStart, hsaved]
  refine ⟨{ noted with book := noted.book.jump (nextStart s) }, ?_, rfl, rfl, rfl, rfl⟩
  refine .step hlatest (.step (getEvents_smooth hc _ noted) ?_)
  rw [fullPage, hstart]
  exact .pure _ _

theorem nextPage_ends (hc : Smooth choose) (s : Station) :
    ∃ t, Ends (undisturbed choose) (nextPage s.book.saved) s t (some (nextStart s, fullPage s)) ∧
      Alike s t := by
  cases hsaved : s.book.saved with
  | none =>
    obtain ⟨t, hcold, halike⟩ := coldStart_ends hc hsaved
    exact ⟨t, hcold.bind (.pure _ _), halike⟩
  | some c =>
    have hstart : nextStart s = c := by rw [nextStart, hsaved]
    refine ⟨s, .step (getEvents_smooth hc (.cursor c) s) ?_, rfl, rfl, rfl, rfl⟩
    rw [fullPage, hstart]
    exact .pure _ _

/-- A poll that nothing disturbs handles one full page and saves the cursor behind it. -/
theorem poll_ends (home : Address) (hc : Smooth choose) (hid : ∀ ev ∈ s.events, ev.id.isSome) :
    ∃ t, Ends (undisturbed choose) (poll home) s t () ∧ t.log = s.log ∧ t.latest = s.latest ∧
      t.book.saved = some (nextStart s + (fullPage s).length) ∧
      t.book.handled = s.book.handled ++ numbered (nextStart s) (fullPage s) := by
  let loaded : Station := { s with book := s.book.load }
  have hload : undisturbed choose .findState s = (loaded, some s.book.saved) := by
    simp [undisturbed, effect, hc.fails, loaded]
  have hids : ∀ ev ∈ fullPage s, ev.id.isSome :=
    fun ev hev => hid ev (List.mem_of_mem_drop (List.mem_of_mem_take hev))
  obtain ⟨t, hpage, halike⟩ := nextPage_ends hc loaded
  obtain ⟨u, happly, hlog, hlatest, hbook⟩ :=
    applyEvents_ends home hc (fullPage s) hids (nextStart s) t
  have hsave : undisturbed choose (.upsert (nextStart s + (fullPage s).length)) u =
      ({ u with book := u.book.save (nextStart s + (fullPage s).length) }, true) := by
    simp [undisturbed, effect, hc.fails]
  have hindex : Ends (undisturbed choose) (index home) s
      { u with book := u.book.save (nextStart s + (fullPage s).length) } () :=
    .step hload (hpage.bind (happly.bind (.attempt hsave rfl)))
  refine ⟨_, hindex.caught.bind (.pure _ _), hlog.trans halike.log,
    hlatest.trans halike.latest, rfl, ?_⟩
  change u.book.handled = _
  rw [hbook, halike.handled]
  rfl

def afterPolls (home : Address) (choose : Effect → Station → Choice) : ℕ → Station → Station
  | 0, s => s
  | n + 1, s => afterPolls home choose n (alone (undisturbed choose) (poll home) s)

theorem numbered_append (i : ℕ) (xs ys : List RpcEvent) :
    numbered i (xs ++ ys) = numbered i xs ++ numbered (i + xs.length) ys := by
  simp only [numbered, List.length_append]
  rw [← List.range'_append_1, List.zip_append (by simp)]

theorem drop_length_take (n : ℕ) (xs : List RpcEvent) :
    xs.drop (xs.take n).length = xs.drop n := by
  rw [List.length_take]
  obtain h | h := Nat.le_total n xs.length
  · rw [Nat.min_eq_left h]
  · rw [Nat.min_eq_right h, List.drop_length, List.drop_eq_nil_of_le h]

theorem length_fullPage (s : Station) :
    (fullPage s).length = min pageLimit (s.log.length - nextStart s) := by
  simp [fullPage, Station.events]

/-- With every poll the next one begins two hundred events further on, up to the
end of the log. -/
theorem nextStart_afterPolls (home : Address) (hc : Smooth choose)
    (hid : ∀ ev ∈ s.events, ev.id.isSome) (hle : nextStart s ≤ s.log.length) (n : ℕ) :
    nextStart (afterPolls home choose n s) = min (nextStart s + n * pageLimit) s.log.length := by
  induction n generalizing s with
  | zero => simp [afterPolls, hle]
  | succ n ih =>
    obtain ⟨t, hpoll, hlog, -, hsaved, -⟩ := poll_ends home hc hid
    have hevents : t.events = s.events := by rw [Station.events, hlog]; rfl
    have hlength := length_fullPage s
    have hstart : nextStart t = nextStart s + (fullPage s).length := by rw [nextStart, hsaved]
    rw [afterPolls, hpoll.alone, ih (s := t) (by rwa [hevents]) (by rw [hlog]; omega), hstart, hlog,
      hlength, Nat.succ_mul]
    omega

/-- Undisturbed polls work a backlog off, each event once and in the order of
the log, two hundred with every tick. -/
theorem catches_up (home : Address) (hc : Smooth choose) (hid : ∀ ev ∈ s.events, ev.id.isSome)
    (hle : nextStart s ≤ s.log.length) (n : ℕ) :
    nextStart (afterPolls home choose n s) = min (nextStart s + n * pageLimit) s.log.length ∧
    (afterPolls home choose n s).book.handled = s.book.handled ++
      numbered (nextStart s) ((s.events.drop (nextStart s)).take (n * pageLimit)) := by
  refine ⟨nextStart_afterPolls home hc hid hle n, ?_⟩
  induction n generalizing s with
  | zero => simp [afterPolls, numbered]
  | succ n ih =>
    obtain ⟨t, hpoll, hlog, -, hsaved, hhandled⟩ := poll_ends home hc hid
    have hevents : t.events = s.events := by rw [Station.events, hlog]; rfl
    have hlength := length_fullPage s
    have hstart : nextStart t = nextStart s + (fullPage s).length := by rw [nextStart, hsaved]
    have hrest := ih (s := t) (by rwa [hevents]) (by rw [hlog]; omega)
    have hsplit : (s.events.drop (nextStart s)).take ((n + 1) * pageLimit) =
        fullPage s ++ (s.events.drop (nextStart s + (fullPage s).length)).take (n * pageLimit) := by
      rw [Nat.succ_mul, Nat.add_comm, List.take_add, ← List.drop_drop, fullPage, drop_length_take]
    rw [afterPolls, hpoll.alone, hrest, hhandled, List.append_assoc, hstart, ← numbered_append,
      hevents, hsplit]

theorem catches_up_sample :
    nextStart (afterPolls ⟨0⟩ (fun _ _ => sampleChoice) 1 sampleStation) = 2 ∧
    (afterPolls ⟨0⟩ (fun _ _ => sampleChoice) 1 sampleStation).book.handled = [(1, sampleEvent)] := by
  have hc : Smooth fun _ _ => sampleChoice :=
    ⟨fun _ _ => rfl, fun _ _ => rfl, fun _ _ => rfl, fun _ _ => Nat.le_refl _⟩
  exact catches_up (s := sampleStation) ⟨0⟩ hc (by decide) (by decide) 1

end Backlog

end Lolipay.Coordinator.CatchUp
