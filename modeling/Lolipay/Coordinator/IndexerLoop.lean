import Mathlib.Data.List.TakeWhile
import Lolipay.Async.Feeds
import Lolipay.Coordinator.Desk

namespace Lolipay.Coordinator.IndexerLoop

open Lolipay.Ledger.Invocation Lolipay.Ledger.Runs Lolipay.Ledger.Storage
open Lolipay.Async.Process Lolipay.Async.Scheduling Lolipay.Async.Stages Lolipay.Async.Feeds
open Lolipay.Coordinator.Binding Lolipay.Coordinator.Database Lolipay.Coordinator.Indexer
open Lolipay.Coordinator.Desk hiding Move moved

def lookbackLedgers : ℕ := 17280

def pageLimit : ℕ := 200

/-- A cursor of the RPC, as the number of watched events in front of it, or a ledger. -/
inductive Start where
  | cursor (c : ℕ)
  | startLedger (sequence : ℕ)

/-- What `getEvents` answers: the events from a position on, that the start is
not in the retained range (`isRetentionError`), or any other error. -/
inductive Answer where
  | page (first : ℕ) (events : List RpcEvent)
  | outOfRange
  | failed

/-- The statements of the loop; `desk` is what the handlers of the events do,
and `applied` marks that one of them has returned. -/
inductive Effect where
  | findState
  | getEvents (start : Start)
  | getLatestLedger
  | desk (e : Database.Effect)
  | applied (i : ℕ) (ev : RpcEvent)
  | upsert (cursor : ℕ)

/-- `none` and `false` are thrown errors; the row that is found may lack a cursor. -/
@[reducible] def Reply : Effect → Type
  | .findState => Option (Option ℕ)
  | .getEvents _ => Answer
  | .getLatestLedger => Option ℕ
  | .desk e => Database.Reply e
  | .applied _ _ => Unit
  | .upsert _ => Bool

abbrev Poll (α : Type) := Program Effect Reply α

def coldStart : Poll (ℕ × List RpcEvent) := do
  let latest ← (attempt .getLatestLedger fun r => r : Poll ℕ)
  let res : Answer ← issue (Effect.getEvents (.startLedger (max 1 (latest - lookbackLedgers))))
  match res with
  | .page first events => .pure (first, events)
  | .outOfRange | .failed => .fail

/-- The page to work on. Behind a cursor a transient error ends the poll. -/
def nextPage : Option ℕ → Poll (Option (ℕ × List RpcEvent))
  | some cursor => do
    let res : Answer ← issue (Effect.getEvents (.cursor cursor))
    match res with
    | .page first events => .pure (some (first, events))
    | .failed => .pure none
    | .outOfRange => do
      let page ← coldStart
      .pure (some page)
  | none => do
    let page ← coldStart
    .pure (some page)

variable (home : Address)

def applyEvents : ℕ → List RpcEvent → Poll Unit
  | _, [] => .pure ()
  | i, ev :: events => do
    let _ ← (applyEvent home ev).embed .desk
    let _ : Unit ← issue (Effect.applied i ev)
    applyEvents (i + 1) events

def index : Poll Unit := do
  let cursor ← (attempt .findState fun r => r : Poll (Option ℕ))
  let page ← nextPage cursor
  match page with
  | none => .pure ()
  | some (first, events) => do
    applyEvents home first events
    attempt (.upsert (first + events.length)) fun done => if done then some () else none

/-- One tick of the job. It does nothing while the last one runs, so that in one
process the polls follow each other. -/
def poll : Poll Unit := do
  let _ ← (index home).caught
  .pure ()

/-- The coordinator, the events of the watched contracts with their ledgers as
the RPC has them, and the books of the loop, of which only the saved cursor is
in the database. `coldStarts` are the ledgers from which it looked back. -/
structure Station where
  shared : Shared
  log : List (ℕ × RpcEvent)
  latest : ℕ
  book : Book RpcEvent
  coldStarts : List ℕ

def Station.events (s : Station) : List RpcEvent := s.log.map (·.2)

structure Choice where
  desk : Desk.Choice := {}
  fails : Bool := false
  outOfRange : Bool := false
  count : ℕ := pageLimit

/-- The position of the first event that is asked for. -/
def Station.first (s : Station) : Start → ℕ
  | .cursor c => c
  | .startLedger sequence => (s.log.takeWhile fun e => e.1 < sequence).length

def Station.page (s : Station) (p count : ℕ) : List RpcEvent :=
  (s.events.drop p).take (min count pageLimit)

def getEvents (start : Start) (o : Choice) (s : Station) : Answer :=
  if o.fails then .failed
  else if o.outOfRange then .outOfRange
  else .page (s.first start) (s.page (s.first start) o.count)

/-- A page behind a ledger is a jump. -/
def noted (start : Start) (answer : Answer) (s : Station) : Station :=
  match start, answer with
  | .startLedger _, .page first _ => { s with book := s.book.jump first }
  | _, _ => s

def effect (pid : Pid) (e : Effect) (o : Choice) (s : Station) : Station × Reply e :=
  match e with
  | .findState =>
    if o.fails then (s, none) else ({ s with book := s.book.load }, some s.book.saved)
  | .getEvents start => (noted start (getEvents start o s) s, getEvents start o s)
  | .getLatestLedger =>
    if o.fails then (s, none) else ({ s with coldStarts := s.latest :: s.coldStarts }, some s.latest)
  | .desk e => ({ s with shared := after pid e o.desk s.shared }, reply pid e o.desk s.shared)
  | .applied i ev => ({ s with book := s.book.handle i ev }, ())
  | .upsert cursor => if o.fails then (s, false) else ({ s with book := s.book.save cursor }, true)

/-- The next ledger closes, or anybody else changes the state of the coordinator. -/
inductive Move where
  | close (events : List RpcEvent)
  | elsewhere (shared : Shared)

def moved (s : Station) : Move → Station
  | .close events =>
    { s with latest := s.latest + 1, log := s.log ++ events.map fun ev => (s.latest + 1, ev) }
  | .elsewhere shared => { s with shared }

def indexers : System Unit Choice Move Effect Reply Station where
  body _ := poll home
  delivers _ _ := True
  permits _ _ _ _ := True
  effect := effect
  dies _ s := s
  moves _ _ := True
  moved := moved

/-- Where a poll is. Before its cold start it knows the latest ledger. -/
inductive Stage where
  | idle
  | at (q : Place RpcEvent)
  | cold (saved : Option ℕ) (latest : ℕ)

def Stage.place : Stage → Place RpcEvent
  | .idle => .away
  | .at q => q
  | .cold saved _ => .loaded saved

/-- Errors that end a poll or send it into a cold start. -/
def threw : (e : Effect) → Reply e → Bool
  | .findState, r => r.isNone
  | .getLatestLedger, r => r.isNone
  | .getEvents _, .page _ _ => false
  | .getEvents _, _ => true
  | .upsert _, r => !r
  | _, _ => false

inductive Turn : Itinerary Effect Reply Stage
  | desk {q : Stage} (e : Database.Effect) (r : Database.Reply e) : Turn q (.desk e) r q
  | threw {q : Stage} {e : Effect} {r : Reply e} (h : threw e r = true) : Turn q e r q
  | load (saved : Option ℕ) : Turn (.at .away) .findState (some saved) (.at (.loaded saved))
  | turn (c first : ℕ) (events : List RpcEvent) :
      Turn (.at (.loaded (some c))) (.getEvents (.cursor c)) (.page first events)
        (.at (.reading first first events false))
  | latest (saved : Option ℕ) (latest : ℕ) :
      Turn (.at (.loaded saved)) .getLatestLedger (some latest) (.cold saved latest)
  | jump (saved : Option ℕ) (latest first : ℕ) (events : List RpcEvent) :
      Turn (.cold saved latest) (.getEvents (.startLedger (max 1 (latest - lookbackLedgers))))
        (.page first events) (.at (.reading first first events true))
  | applied {base i : ℕ} {ev : RpcEvent} {todo : List RpcEvent} {jumped : Bool} :
      Turn (.at (.reading base i (ev :: todo) jumped)) (.applied i ev) ()
        (.at (.reading base (i + 1) todo jumped))
  | saved {base i : ℕ} {jumped : Bool} :
      Turn (.at (.reading base i [] jumped)) (.upsert i) true (.at .away)

section Itinerary

def Opened (page : ℕ × List RpcEvent) (q : Stage) : Prop :=
  ∃ jumped, q = .at (.reading page.1 page.1 page.2 jumped)

theorem coldStart_follows (saved : Option ℕ) :
    Follows Turn Opened (fun _ => True) (.at (.loaded saved)) coldStart := by
  intro latest
  match latest with
  | none => exact ⟨_, .threw rfl, trivial⟩
  | some latest =>
    refine ⟨_, .latest saved latest, fun answer => ?_⟩
    match answer with
    | .page first events => exact ⟨_, .jump saved latest first events, true, rfl⟩
    | .outOfRange | .failed => exact ⟨_, .threw rfl, trivial⟩

theorem nextPage_follows (saved : Option ℕ) :
    Follows Turn (fun page q => ∀ p, page = some p → Opened p q) (fun _ => True)
      (.at (.loaded saved)) (nextPage saved) := by
  have hcold : Follows Turn (fun page q => ∀ p, page = some p → Opened p q) (fun _ => True)
      (.at (.loaded saved)) (do
        let page ← coldStart
        .pure (some page)) := by
    apply (coldStart_follows saved).bind
    rintro page q hpage p hp
    obtain rfl := Option.some.inj hp
    exact hpage
  match saved with
  | none => exact hcold
  | some c =>
    intro answer
    match answer with
    | .page first events =>
      refine ⟨_, .turn c first events, fun p hp => ?_⟩
      obtain rfl := Option.some.inj hp
      exact ⟨false, rfl⟩
    | .failed => exact ⟨_, .threw rfl, fun p hp => by cases hp⟩
    | .outOfRange => exact ⟨_, .threw rfl, hcold⟩

variable (home : Address)

theorem applyEvents_follows (base i : ℕ) (events : List RpcEvent) (jumped : Bool) :
    Follows Turn (fun _ q => q = .at (.reading base (i + events.length) [] jumped)) (fun _ => True)
      (.at (.reading base i events jumped)) (applyEvents home i events) := by
  induction events generalizing i with
  | nil => rfl
  | cons ev events ih =>
    have hdesk : Every (fun e => ∀ r, Turn (.at (.reading base i (ev :: events) jumped)) e r
        (.at (.reading base i (ev :: events) jumped)))
        ((applyEvent home ev).embed .desk : Poll ℕ) :=
      Every.embed (Every.of_forall (fun e r => .desk e r) _)
    apply ((Follows.of_every hdesk).mono (fun _ _ h => h) fun _ _ => trivial).bind
    rintro _ q rfl _
    refine ⟨_, .applied, ?_⟩
    have hrest := ih (i + 1)
    rw [Nat.add_right_comm] at hrest
    exact hrest

theorem poll_follows : Follows Turn (fun _ _ => True) (fun _ => True) (.at .away) (poll home) := by
  have hindex : Follows Turn (fun _ _ => True) (fun _ => True) (.at .away) (index home) := by
    intro cursor
    match cursor with
    | none => exact ⟨_, .threw rfl, trivial⟩
    | some saved =>
      refine ⟨_, .load saved, ?_⟩
      apply (nextPage_follows saved).bind
      intro page q hpage
      match page with
      | none => trivial
      | some (first, events) =>
        obtain ⟨jumped, rfl⟩ := hpage _ rfl
        apply (applyEvents_follows home first first events jumped).bind
        rintro _ q rfl done
        match done with
        | true => exact ⟨_, .saved, trivial⟩
        | false => exact ⟨_, .threw rfl, trivial⟩
  have hcaught : Follows Turn (fun _ _ => True) (fun _ => True) (.at .away)
      (index home).caught := hindex.caught (fun _ _ _ => trivial) fun _ _ => trivial
  exact hcaught.bind fun _ _ _ => trivial

end Itinerary

section Coverage

/-- The event at a position was older than the look back when a poll started
anew at a ledger. -/
def Station.Aged (s : Station) (latest i : ℕ) : Prop :=
  ∃ e, s.log[i]? = some e ∧ e.1 + lookbackLedgers < latest

/-- Before the first poll: events have the number of a ledger that has closed. -/
structure Starts (s : Station) : Prop where
  book : s.book = .empty
  ledgers : ∀ e ∈ s.log, 1 ≤ e.1

/-- A poll on its way into a cold start knows a ledger that is noted. -/
def Stage.Noted (s : Station) (q : Stage) : Prop :=
  ∀ saved latest, q = .cold saved latest → latest ∈ s.coldStarts

structure Kept (s : Station) (stage : Pid → Stage) : Prop where
  sound : Sound s.events s.book fun pid => (stage pid).place
  ledgers : ∀ e ∈ s.log, 1 ≤ e.1
  noted : ∀ pid, (stage pid).Noted s
  jumps : ∀ p ∈ s.book.jumps, ∃ latest ∈ s.coldStarts, ∀ i < p, s.Aged latest i

variable {s t : Station} {stage : Pid → Stage} {pid : Pid} {q q' : Stage}

theorem page_prefix (s : Station) (p count : ℕ) : s.page p count <+: s.events.drop p :=
  List.take_prefix _ _

theorem aged_of_lt (hledgers : ∀ e ∈ s.log, 1 ≤ e.1) {latest i : ℕ}
    (hi : i < s.first (.startLedger (max 1 (latest - lookbackLedgers)))) : s.Aged latest i := by
  have hprefix := List.takeWhile_prefix (l := s.log)
    fun e => decide (e.1 < max 1 (latest - lookbackLedgers))
  have hlen : i < s.log.length := Nat.lt_of_lt_of_le hi hprefix.length_le
  have hget := hprefix.getElem hi
  have hold := List.mem_takeWhile_imp (List.getElem_mem hi)
  rw [hget, decide_eq_true_iff] at hold
  have hone := hledgers _ (List.getElem_mem hlen)
  refine ⟨s.log[i], List.getElem?_eq_getElem hlen, ?_⟩
  omega

theorem effect_threw {e : Effect} {o : Choice} (h : threw e (effect pid e o s).2 = true) :
    (effect pid e o s).1 = s := by
  cases e with
  | findState | getLatestLedger | upsert =>
    simp only [effect] at h ⊢
    split at h
    next hf => simp only [if_pos hf]
    next => cases h
  | getEvents start =>
    simp only [effect] at h ⊢
    cases start with
    | cursor c => rfl
    | startLedger n =>
      generalize getEvents (.startLedger n) o s = answer at h
      cases answer with
      | page => cases h
      | outOfRange | failed => rfl
  | desk | applied => cases h

theorem effect_page {start : Start} {o : Choice} {first : ℕ} {events : List RpcEvent}
    (h : getEvents start o s = .page first events) :
    first = s.first start ∧ events <+: s.events.drop first := by
  simp only [getEvents] at h
  split at h
  next => cases h
  next =>
    split at h
    next => cases h
    next =>
      obtain ⟨rfl, rfl⟩ := Answer.page.inj h
      exact ⟨rfl, page_prefix s _ o.count⟩

theorem log_effect (pid : Pid) (e : Effect) (o : Choice) (s : Station) :
    (effect pid e o s).1.log = s.log := by
  cases e with
  | findState | getLatestLedger | upsert =>
    simp only [effect]
    split <;> rfl
  | getEvents start =>
    simp only [effect, noted]
    split <;> rfl
  | desk | applied => rfl

theorem coldStarts_effect {e : Effect} {o : Choice} {l : ℕ} (hl : l ∈ s.coldStarts) :
    l ∈ (effect pid e o s).1.coldStarts := by
  cases e with
  | findState | upsert =>
    simp only [effect]
    split <;> exact hl
  | getLatestLedger =>
    simp only [effect]
    split
    next => exact hl
    next => exact List.mem_cons_of_mem _ hl
  | getEvents start =>
    simp only [effect, noted]
    split <;> exact hl
  | desk | applied => exact hl

/-- Every step of a poll is a deed of a reader. -/
theorem deed_of_turn {e : Effect} {o : Choice} (hturn : Turn q e (effect pid e o s).2 q') :
    Deed s.events s.book q.place q'.place (effect pid e o s).1.book := by
  generalize hr : (effect pid e o s).2 = r at hturn
  cases hturn with
  | desk e r => exact .quiet
  | threw h =>
    subst hr
    rw [effect_threw h]
    exact .quiet
  | load saved =>
    simp only [effect] at hr ⊢
    split at hr
    next => cases hr
    next hf =>
      obtain rfl := Option.some.inj hr
      rw [if_neg hf]
      exact .load
  | turn c first events =>
    obtain ⟨rfl, hevents⟩ := effect_page hr
    exact .turn hevents
  | latest saved latest =>
    simp only [effect]
    split <;> exact .quiet
  | jump saved latest first events =>
    have hpage : getEvents (.startLedger (max 1 (latest - lookbackLedgers))) o s =
      .page first events := hr
    simp only [effect, hpage]
    exact .jump (effect_page hpage).2
  | applied => exact .handle
  | saved =>
    simp only [effect] at hr ⊢
    split at hr
    next => cases hr
    next hf =>
      rw [if_neg hf]
      exact .save

theorem noted_of_turn {e : Effect} {o : Choice} (hq : q.Noted s)
    (hturn : Turn q e (effect pid e o s).2 q') : q'.Noted (effect pid e o s).1 := by
  have hquiet : q.Noted (effect pid e o s).1 :=
    fun saved latest h => coldStarts_effect (hq saved latest h)
  generalize hr : (effect pid e o s).2 = r at hturn
  cases hturn with
  | desk | threw => exact hquiet
  | load | turn | jump | applied | saved => exact nofun
  | latest saved latest =>
    rintro saved' latest' h
    obtain ⟨-, rfl⟩ := Stage.cold.inj h
    simp only [effect] at hr ⊢
    split at hr
    next => cases hr
    next hf =>
      obtain rfl := Option.some.inj hr
      rw [if_neg hf]
      exact List.mem_cons_self

theorem jumps_of_turn {e : Effect} {o : Choice} (hledgers : ∀ e ∈ s.log, 1 ≤ e.1) (hq : q.Noted s)
    (hturn : Turn q e (effect pid e o s).2 q') {p : ℕ}
    (hp : p ∈ (effect pid e o s).1.book.jumps) :
    p ∈ s.book.jumps ∨ ∃ latest ∈ s.coldStarts, ∀ i < p, s.Aged latest i := by
  generalize hr : (effect pid e o s).2 = r at hturn
  cases hturn with
  | desk | turn | applied => exact .inl hp
  | threw h =>
    subst hr
    rw [effect_threw h] at hp
    exact .inl hp
  | load | latest | saved =>
    simp only [effect] at hp
    split at hp <;> exact .inl hp
  | jump saved latest first events =>
    have hpage : getEvents (.startLedger (max 1 (latest - lookbackLedgers))) o s =
      .page first events := hr
    simp only [effect, hpage] at hp
    obtain hp | hp := List.mem_append.mp hp
    · exact .inl hp
    · obtain rfl := List.mem_singleton.mp hp
      refine .inr ⟨latest, hq saved latest rfl, fun i hi => ?_⟩
      rw [(effect_page hpage).1] at hi
      exact aged_of_lt hledgers hi

theorem Station.Aged.mono {latest i : ℕ} (h : s.Aged latest i) (hlog : s.log <+: t.log) :
    t.Aged latest i := by
  obtain ⟨e, he, hlt⟩ := h
  exact ⟨e, getElem?_of_front hlog he, hlt⟩

theorem Kept.step {e : Effect} {o : Choice} (hk : Kept s stage)
    (hturn : Turn (stage pid) e (effect pid e o s).2 q) :
    Kept (effect pid e o s).1 (place stage pid q) where
  sound := by
    rw [place_comp Stage.place, Station.events, log_effect]
    exact hk.sound.deed (deed_of_turn hturn)
  ledgers := by
    rw [log_effect]
    exact hk.ledgers
  noted p := by
    refine forall_place (P := fun _ (q : Stage) => q.Noted _) ?_ (fun p _ => ?_) p
    · exact noted_of_turn (hk.noted pid) hturn
    · exact fun saved latest h => coldStarts_effect (hk.noted p saved latest h)
  jumps p hp := by
    obtain ⟨latest, hl, haged⟩ := (jumps_of_turn hk.ledgers (hk.noted pid) hturn hp).elim
      (hk.jumps p) id
    refine ⟨latest, coldStarts_effect hl, fun i hi => (haged i hi).mono ?_⟩
    rw [log_effect]

theorem Kept.away (hk : Kept s stage) (pid : Pid) (hq : q.place = .away) :
    Kept s (place stage pid q) where
  sound := by
    rw [place_comp Stage.place, hq]
    exact hk.sound.deed .leave
  ledgers := hk.ledgers
  noted p := by
    refine forall_place (P := fun _ (q : Stage) => q.Noted s) ?_ (fun p _ => hk.noted p) p
    rintro saved latest rfl
    cases hq
  jumps := hk.jumps

theorem Kept.moved (hk : Kept s stage) (a : Move) : Kept (moved s a) stage := by
  cases a with
  | elsewhere shared => exact ⟨hk.sound, hk.ledgers, hk.noted, hk.jumps⟩
  | close events =>
    have hlog : s.log <+: (IndexerLoop.moved s (.close events)).log := List.prefix_append _ _
    refine ⟨hk.sound.grow (hlog.map _), fun e he => ?_, hk.noted, fun p hp => ?_⟩
    · obtain he | he := List.mem_append.mp he
      · exact hk.ledgers e he
      · obtain ⟨ev, -, rfl⟩ := List.mem_map.mp he
        exact Nat.le_add_left 1 s.latest
    · obtain ⟨latest, hl, haged⟩ := hk.jumps p hp
      exact ⟨latest, hl, fun i hi => (haged i hi).mono hlog⟩

theorem kept_maintains (home : Address) :
    Maintains Turn (indexers home) (fun _ => .at .away) .idle (fun _ _ => True)
      (fun _ => True) Kept where
  spawn _ _ pid _ hk _ _ := hk.away pid rfl
  go _ _ _ _ _ _ hk hturn _ := hk.step hturn
  dies _ _ pid hk _ := hk.away pid rfl
  moved _ _ a hk _ := hk.moved a

/-- The handler of the event at a position has returned, or a poll that started
anew at a ledger left the event behind because it was older than the look back. -/
def Station.Dealt (s : Station) (i : ℕ) : Prop :=
  (∃ ev, (i, ev) ∈ s.book.handled) ∨ ∃ latest ∈ s.coldStarts, s.Aged latest i

theorem Kept.dealt (hk : Kept s stage) {c : ℕ} (hc : s.book.Reaches c) : ∀ i < c, s.Dealt i := by
  intro i hi
  obtain hhandled | ⟨p, hp, hlt⟩ := hc i hi
  · exact .inl hhandled
  · obtain ⟨latest, hl, haged⟩ := hk.jumps p hp
    exact .inr ⟨latest, hl, haged i hlt⟩

variable {home : Address} {tr : List (Entry _ (Act Unit Choice Move) _)}
  {w : Pool Effect Reply Station}

theorem run_kept (hs : Starts s) (hr : Run (machine (indexers home)) (idle s) tr w) :
    ∃ stage, Kept w.shared stage := by
  have hstart : Kept s fun _ => .idle := by
    refine ⟨?_, hs.ledgers, fun _ => nofun, ?_⟩
    · rw [hs.book]
      exact .start _
    · rw [hs.book]
      exact nofun
  obtain ⟨stage, -, hk⟩ := run_underway (kept_maintains home) (fun _ => poll_follows home) hr hstart
    fun e _ => by cases e.act <;> trivial
  exact ⟨stage, hk⟩

/-- However many processes poll, wherever they die and whatever the RPC and the
database refuse, no event in front of the saved cursor is lost: its handler has
returned, in the order of the log, or the event was older than the look back
when a poll had to start anew. -/
theorem no_event_lost (hs : Starts s) (hr : Run (machine (indexers home)) (idle s) tr w) :
    (∀ c, w.shared.book.saved = some c → ∀ i < c, w.shared.Dealt i) ∧
    ∀ i ev, (i, ev) ∈ w.shared.book.handled →
      w.shared.events[i]? = some ev ∧ ∀ j < i, w.shared.Dealt j := by
  obtain ⟨stage, hk⟩ := run_kept hs hr
  constructor
  · intro c hc
    exact hk.dealt (hk.sound.saved c hc)
  · intro i ev hi
    obtain ⟨hev, hreach⟩ := hk.sound.handled i ev hi
    exact ⟨hev, hk.dealt hreach⟩

end Coverage

section Sample

open Lolipay.Escrow.Custody Lolipay.Coordinator.Orders

def sampleEvent : RpcEvent := ⟨some 1, .tradeCreated, 1, some ⟨0⟩, some 11⟩

/-- The sample order has been funded, and before its event there is one that is
older than the look back. -/
def sampleStation : Station where
  shared := Desk.moved (sampleDesk sampleOrders)
    (.chain ⟨0⟩ (.call (sampleEnv 1000 [⟨6⟩]) (.createTrade 1 sampleArgs)))
  log := [(1, ⟨some 0, .other, 1, some ⟨0⟩, none⟩), (20000, sampleEvent)]
  latest := 20000
  book := .empty
  coldStarts := []

theorem sampleStation_starts : Starts sampleStation := ⟨rfl, by decide⟩

/-- The chain shows the trade to every read. -/
def sampleChoice : Choice := { desk := { onChain := some (decodeTradeStatus sampleFunded) } }

def samplePoll : List (Act Unit Choice Move) :=
  .spawn 0 () :: List.replicate 8 (.go 0 sampleChoice)

theorem samplePoll_admitted :
    Admitted (machine (indexers ⟨0⟩)) (idle sampleStation) samplePoll :=
  ⟨⟨rfl, trivial⟩, trivial, trivial, trivial, trivial, trivial, trivial, trivial, trivial, trivial⟩

theorem no_event_lost_sample :
    (final (machine (indexers ⟨0⟩)) (idle sampleStation) samplePoll).shared.Dealt 0 ∧
    (final (machine (indexers ⟨0⟩)) (idle sampleStation) samplePoll).shared.Dealt 1 :=
  have h := (no_event_lost sampleStation_starts (Run.of_actions _ _ samplePoll_admitted)).1 2 rfl
  ⟨h 0 (by decide), h 1 (by decide)⟩

example :
    let desk := (final (machine (indexers ⟨0⟩)) (idle sampleStation) samplePoll).shared.shared
    (desk.db.orders.lookup 0).map (·.status) = some .funded := by
  decide

end Sample

section Repetition

variable {s : Station} {stage : Pid → Stage} {pid : Pid} {q : Stage} {home : Address}

structure Single (s : Station) (stage : Pid → Stage) : Prop where
  tally : Tally s.book (stage 0).place
  others : ∀ pid ≠ 0, stage pid = .idle

theorem Single.set (hs : Single s stage) {t : Station} {pid : Pid} {q : Stage}
    (htally : pid = 0 → Tally t.book q.place) (hother : pid ≠ 0 → q = .idle ∧ t.book = s.book) :
    Single t (place stage pid q) := by
  by_cases hpid : pid = 0
  · subst hpid
    refine ⟨by rw [place_self]; exact htally rfl, fun p hp => ?_⟩
    rw [place_other hp]
    exact hs.others p hp
  · obtain ⟨rfl, hbook⟩ := hother hpid
    refine ⟨?_, fun p hp => ?_⟩
    · rw [place_other (Ne.symm hpid), hbook]
      exact hs.tally
    · by_cases h : p = pid
      · subst h
        exact place_self stage p .idle
      · rw [place_other h]
        exact hs.others p hp

theorem book_of_idle {e : Effect} {o : Choice} (hturn : Turn .idle e (effect pid e o s).2 q) :
    q = .idle ∧ (effect pid e o s).1.book = s.book := by
  generalize hr : (effect pid e o s).2 = r at hturn
  cases hturn with
  | desk => exact ⟨rfl, rfl⟩
  | threw h =>
    subst hr
    rw [effect_threw h]
    exact ⟨rfl, rfl⟩

theorem single_maintains (home : Address) :
    Maintains Turn (indexers home) (fun _ => .at .away) .idle (fun pid _ => pid = 0)
      (fun _ => True) Single where
  spawn s stage pid c hs hrest hpid := by
    refine hs.set (fun h => ?_) fun h => absurd hpid h
    subst h
    have htally := hs.tally
    rw [hrest] at htally
    exact htally
  go s stage pid e o q hs hturn _ := by
    refine hs.set (fun h => ?_) fun h => ?_
    · subst h
      exact hs.tally.deed (deed_of_turn hturn)
    · rw [hs.others pid h] at hturn
      exact book_of_idle hturn
  dies s stage pid hs _ := by
    refine hs.set (fun h => ?_) fun _ => ⟨rfl, rfl⟩
    subst h
    have hleave : Deed s.events s.book (stage 0).place .away s.book := .leave
    exact hs.tally.deed hleave
  moved s stage a hs _ := by
    cases a with
    | close | elsewhere => exact ⟨hs.tally, hs.others⟩

variable {tr : List (Entry _ (Act Unit Choice Move) _)} {w : Pool Effect Reply Station}

/-- Where one process polls, an event is handled again only because a poll that
had begun did not save its cursor, or because one started anew at a ledger. -/
theorem repeats_bounded (hs : s.book = .empty) (hr : Run (machine (indexers home)) (idle s) tr w)
    (hone : ∀ e ∈ tr, ∀ pid, e.act = .spawn pid () → pid = 0) (i : ℕ) :
    w.shared.book.times i + w.shared.book.saves ≤
      w.shared.book.begun + w.shared.book.jumps.length + 1 := by
  have hstart : Single s fun _ => .idle := by
    refine ⟨?_, fun _ _ => rfl⟩
    rw [hs]
    exact .start
  obtain ⟨stage, -, hsingle⟩ := run_underway (single_maintains home) (fun _ => poll_follows home) hr
    hstart fun e he => by
      cases hact : e.act with
      | spawn pid c => exact hone e he pid hact
      | kill | go | outside => trivial
  have htimes := hsingle.tally.times i
  have hpast := isPast_le w.shared.book i
  omega

theorem repeats_bounded_sample :
    (final (machine (indexers ⟨0⟩)) (idle sampleStation) samplePoll).shared.book.times 1 + 1 ≤
      1 + 1 + 1 :=
  repeats_bounded rfl (Run.of_actions _ _ samplePoll_admitted) (by
    intro e he pid hact
    have hmem := act_of_history he
    rw [hact] at hmem
    simpa [samplePoll] using hmem) 1

end Repetition

end Lolipay.Coordinator.IndexerLoop
