import Mathlib.Data.Nat.Pairing
import Lolipay.Coordinator.BoundRows
import Lolipay.Coordinator.CatchUp
import Lolipay.Coordinator.Convergence
import Lolipay.Coordinator.Publication
import Lolipay.Coordinator.Sparing

namespace Lolipay.Coordinator.PolledRows

open Lolipay.Ledger.Storage Lolipay.Ledger.Invocation Lolipay.Ledger.Runs
open Lolipay.Async.Process Lolipay.Async.Scheduling
open Lolipay.Async.Feeds (getElem?_of_front)
open Lolipay.Escrow.Types Lolipay.Escrow.System Lolipay.Escrow.Phases
open Lolipay.Escrow.Invariant (settlement)
open Lolipay.Escrow.Custody (sampleEnv sampleArgs)
open Lolipay.Coordinator.Orders Lolipay.Coordinator.Binding Lolipay.Coordinator.Writes
open Lolipay.Coordinator.Database hiding Effect Reply
open Lolipay.Coordinator.Services Lolipay.Coordinator.Indexer
open Lolipay.Coordinator.Desk hiding Choice Move moved
open Lolipay.Coordinator.Steps Lolipay.Coordinator.Replica Lolipay.Coordinator.Following
open Lolipay.Coordinator.Scenes Lolipay.Coordinator.Convergence
open Lolipay.Coordinator.BoundRows (lookup_of_findByTradeId)
open Lolipay.Coordinator.Footprint (every_ask)
open Lolipay.Coordinator.IndexerLoop hiding Move moved
open Lolipay.Coordinator.CatchUp Lolipay.Coordinator.Publication Lolipay.Coordinator.Sparing

/-- The coordinator with its indexer, and all that the contracts have published. -/
structure Network extends Station where
  told : List Told

def Network.put (n : Network) (s : Station) : Network := { n with toStation := s }

/-- A contract is called, a ledger closes, somebody refreshes the order, or
anything else happens that leaves the order alone. -/
inductive Move where
  | call (contract : Address) (a : Action) (hash : Option TxHash)
  | close
  | refresh (order : Order) (o : Desk.Choice)
  | elsewhere (shared : Shared)

variable (ν : Numbering) (q : Docket) (sees : Shared → Option TradeOnChain → Prop)

def publish (new : List Told) (n : Network) : Network :=
  { n with
    log := n.log ++ (ν.rendered n.told new).map fun ev => (n.latest, ev)
    told := n.told ++ new }

def called (n : Network) (contract : Address) (a : Action) : Network :=
  n.put { n.toStation with shared := Desk.moved n.shared (.chain contract a) }

def moved (n : Network) : Move → Network
  | .call contract a hash =>
    publish ν (published contract (n.shared.chain contract) a hash) (called n contract a)
  | .close => n.put { n.toStation with latest := n.latest + 1 }
  | .refresh order o => n.put { n.toStation with shared := refreshed q order o n.shared }
  | .elsewhere shared => n.put { n.toStation with shared }

def moves (n : Network) : Move → Prop
  | .call contract a _ =>
    Escrow.System.admits contract (n.shared.chain contract) a ∧
      (contract = q.contract → ∀ t,
        (next (n.shared.chain contract) a).trade q.placement.tradeId = some t → q.Fits t)
  | .close => True
  | .refresh order o =>
    order.toPlacement = q.placement ∧ (o.onChain = none ∨ sees n.shared o.onChain)
  | .elsewhere shared => Spares q n.shared shared

/-- The strict read is answered by the chain. A poll that starts anew looks back
to the saved cursor: nothing unread is older, and nothing read is younger. -/
def Honest (e : Effect) (o : Choice) (n : Network) : Prop :=
  match e with
  | .desk e => Fresh n.shared o.desk e
  | .getEvents (.startLedger sequence) =>
    o.fails = false → o.outOfRange = false →
      n.first (.startLedger sequence) = n.book.saved.getD 0
  | _ => True

def network : System Unit Choice Move Effect Reply Network where
  body _ := poll q.home
  delivers _ _ := True
  permits pid e o n := pid = 0 ∧ Honest e o n
  effect pid e o n :=
    (n.put (effect pid e o n.toStation).1, (effect pid e o n.toStation).2)
  dies _ n := n
  moves := moves q sees
  moved := moved ν q

def Network.view (n : Network) : View := ⟨n.shared, own q n.told⟩

variable {ν q sees} {n m : Network} {i : ℕ}

section Rule

/-- What a rule for the replica needs in the network: that nothing else touches
it, and that its handlers count on nothing. -/
structure Robust (R : Regime q sees) : Prop where
  mirrors : ∀ k v, R.inv k v → Mirrors q v
  handles : R.Handles
  spares : ∀ k v s, R.inv k v → Spares q v.shared s →
    R.inv k { v with shared := s } ∧ R.rely v { v with shared := s }
  meets : ∀ k ev v e, R.meets k ev v e

variable (R : Regime q sees)

/-- The log is what the contracts have published, and the invariant holds at
the saved cursor. -/
structure Good (ν : Numbering) (n : Network) : Prop where
  events : n.events = ν.rendered [] n.told
  saved : n.book.saved.getD 0 ≤ n.told.length
  inv : R.inv (before q n.told (n.book.saved.getD 0)) (n.view q)

structure Beside (n m : Network) : Prop where
  rely : R.rely (n.view q) (m.view q)
  inv : ∀ k, R.inv k (n.view q) → R.inv k (m.view q)
  told : n.told <+: m.told
  saved : m.book.saved = n.book.saved

variable {R}

theorem Beside.refl (n : Network) : Beside R n n :=
  ⟨R.refl _, fun _ => id, List.prefix_refl _, rfl⟩

theorem Beside.trans {l : Network} (h : Beside R l n) (h' : Beside R n m) : Beside R l m :=
  ⟨R.trans h.rely h'.rely, fun k hk => h'.inv k (h.inv k hk), h.told.trans h'.told,
    h'.saved.trans h.saved⟩

theorem events_of_log (h : m.log = n.log) : m.events = n.events := by
  rw [Station.events, h]
  rfl

theorem Good.beside (hg : Good R ν n) (hb : Beside R n m) (hlog : m.log = n.log)
    (htold : m.told = n.told) : Good R ν m where
  events := by
    rw [events_of_log hlog, htold]
    exact hg.events
  saved := by
    rw [hb.saved, htold]
    exact hg.saved
  inv := by
    rw [hb.saved, htold]
    exact hb.inv _ hg.inv

theorem length_events (hg : Good R ν n) : n.events.length = n.told.length := by
  rw [hg.events, length_rendered]

theorem Good.published (hg : Good R ν n) {new : List Told}
    (hb : Beside R n (publish ν new m)) (hlog : m.log = n.log) (htold : m.told = n.told) :
    Good R ν (publish ν new m) where
  events := by
    have hevents : (publish ν new m).events = m.events ++ ν.rendered m.told new := by
      simp [publish, Station.events]
    rw [hevents, events_of_log hlog, hg.events, htold, publish, htold, rendered_append]
    rfl
  saved := by
    rw [hb.saved]
    exact hg.saved.trans hb.told.length_le
  inv := by
    rw [hb.saved, before_of_front hb.told hg.saved]
    exact hb.inv _ hg.inv

variable (hR : Robust R)
include hR

theorem beside_of_spares {s : Station} (hs : Spares q n.shared s.shared)
    (hsaved : s.book.saved = n.book.saved) (hinv : ∃ k, R.inv k (n.view q)) :
    Beside R n (n.put s) := by
  obtain ⟨k, hk⟩ := hinv
  exact ⟨(hR.spares k _ _ hk hs).2, fun k hk => (hR.spares k _ _ hk hs).1, List.prefix_refl _,
    hsaved⟩

omit hR

theorem called_spares {contract : Address} (hne : contract ≠ q.contract) (a : Action) :
    Spares q n.shared (called n contract a).shared where
  row := rfl
  unique := id
  records _ := rfl
  trade := by
    have hsame : (called n contract a).shared.chain q.contract = n.shared.chain q.contract :=
      if_neg (Ne.symm hne)
    rw [Docket.tradeIn, hsame, Docket.tradeIn]
  past c hc := by
    obtain rfl | hc := List.mem_cons.mp hc
    · exact .inr rfl
    · exact .inl hc

theorem view_call (n : Network) (contract : Address) (a : Action) (hash : Option TxHash) :
    (moved ν q n (.call contract a hash)).view q =
      ⟨(called n contract a).shared, own q n.told ++
        if contract = q.contract then news q.placement.tradeId (n.shared.chain contract) a
        else []⟩ := by
  rw [← own_published contract _ a hash, ← own_append]
  rfl

include hR in
theorem Good.moved (hg : Good R ν n) {a : Move} (ha : moves q sees n a) :
    Good R ν (moved ν q n a) ∧ Beside R n (moved ν q n a) := by
  cases a with
  | call contract a hash =>
    have hview := view_call (ν := ν) (q := q) n contract a hash
    have hb : Beside R n (PolledRows.moved ν q n (.call contract a hash)) := by
      by_cases hc : contract = q.contract
      · subst hc
        rw [if_pos rfl] at hview
        refine ⟨?_, fun k hk => ?_, List.prefix_append _ _, rfl⟩
        · rw [hview]
          exact (R.grow _ _ a hg.inv (ha.2 rfl)).2
        · rw [hview]
          exact (R.grow k _ a hk (ha.2 rfl)).1
      · rw [if_neg hc, List.append_nil] at hview
        refine ⟨?_, fun k hk => ?_, List.prefix_append _ _, rfl⟩
        · rw [hview]
          exact (hR.spares _ _ _ hg.inv (called_spares hc a)).2
        · rw [hview]
          exact (hR.spares k _ _ hk (called_spares hc a)).1
    exact ⟨hg.published hb rfl rfl, hb⟩
  | close =>
    have hb : Beside R n (PolledRows.moved ν q n .close) :=
      ⟨R.refl _, fun _ => id, List.prefix_refl _, rfl⟩
    exact ⟨hg.beside hb rfl rfl, hb⟩
  | refresh order o =>
    have hb : Beside R n (PolledRows.moved ν q n (.refresh order o)) :=
      ⟨(R.refresh _ _ order o hg.inv ha.1 ha.2).2,
        fun k hk => (R.refresh k _ order o hk ha.1 ha.2).1, List.prefix_refl _, rfl⟩
    exact ⟨hg.beside hb rfl rfl, hb⟩
  | elsewhere shared =>
    have hb := beside_of_spares hR (s := { n.toStation with shared }) ha rfl ⟨_, hg.inv⟩
    exact ⟨hg.beside hb rfl rfl, hb⟩

end Rule

section Poll

variable {R : Regime q sees} (hR : Robust R)

/-- The poll of the first process is safe beside the moves of the world. -/
def beside (hR : Robust R) : Protocol (network ν q sees) where
  rely pid n m := pid = 0 → Beside R n m
  guar pid _ _ := pid = 0
  inv := Good R ν
  refl _ n _ := Beside.refl n
  trans _ _ _ _ h h' hpid := (h hpid).trans (h' hpid)
  shares _ _ _ _ hne _ hpid hp := absurd (hpid.trans hp.symm) hne
  dies _ n hg := ⟨hg, fun _ _ _ => Beside.refl n⟩
  moved _ _ hg ha := ⟨(hg.moved hR ha).1, fun _ _ => (hg.moved hR ha).2⟩

/-- The row has taken in the events in front of a position of the log. -/
structure At (R : Regime q sees) (n : Network) (i : ℕ) : Prop where
  saved : n.book.saved.getD 0 ≤ i
  there : i ≤ n.told.length
  inv : R.inv (before q n.told i) (n.view q)

/-- A later state of the network under the same cursor. -/
def Since (l n : Network) : Prop := l.told <+: n.told ∧ n.book.saved = l.book.saved

theorem Since.beside {l : Network} (h : Since l n) (hb : Beside R n m) : Since l m :=
  ⟨h.1.trans hb.told, hb.saved.trans h.2⟩

theorem At.beside (h : At R n i) (hb : Beside R n m) : At R m i where
  saved := by
    rw [hb.saved]
    exact h.saved
  there := h.there.trans hb.told.length_le
  inv := by
    rw [before_of_front hb.told h.there]
    exact hb.inv _ h.inv

variable {α : Type} {k : ℕ} {ev : Event} {l : Network}

def desked (n : Network) (e : Database.Effect) (o : Choice) : Network :=
  n.put { n.toStation with shared := after 0 e o.desk n.shared }

theorem handler_safe {p : Service α} {Q : α → View → Prop}
    (hp : Safe (R.handling k ev) Q p (n.view q)) (hinv : R.inv k (n.view q))
    (hev : (n.view q).log[k]? = some ev) (hg : Good R ν n)
    (hk : before q n.told (n.book.saved.getD 0) ≤ k) (hl : Since l n) :
    Safe ((beside (ν := ν) hR).of 0) (fun a m => Q a (m.view q) ∧ Since l m)
      (p.embed .desk : Poll α) n := by
  -- What happens beside the handler leaves the event where it is.
  have hkept {n m : Network} (hb : Beside R n m) (hev : (n.view q).log[k]? = some ev) :
      (m.view q).log[k]? = some ev := getElem?_of_front (own_front hb.told) hev
  induction p generalizing n with
  | pure a =>
    intro m hb hm
    have hb := hb rfl
    exact ⟨hp (m.view q) hb.rely ⟨hb.inv k hinv, hkept hb hev⟩, hl.beside hb⟩
  | fail => trivial
  | step e next ih =>
    apply safe_step
    rintro m o hb hm ⟨-, hfresh⟩
    have hb := hb rfl
    obtain ⟨-, ⟨hinv', hev'⟩, hnext⟩ := hp (m.view q) hb.rely ⟨hb.inv k hinv, hkept hb hev⟩
      (reply 0 e o.desk m.shared) ((desked m e o).view q)
      ⟨o.desk, ⟨hfresh, hR.meets _ _ _ _⟩, rfl, rfl⟩
    have hk' : before q m.told (m.book.saved.getD 0) ≤ k := by
      rw [hb.saved, before_of_front hb.told hg.saved]
      exact hk
    have hg' : Good R ν (desked m e o) := ⟨hm.events, hm.saved, R.rewind hinv' hk'⟩
    have hlater : Since l m := hl.beside hb
    exact ⟨rfl, hg', ih _ hnext hinv' hev' hg' hk' hlater⟩

theorem sparing_safe {p : Service α} (hp : Every (SparingEffect q) p) (hat : At R n i)
    (hl : Since l n) :
    Safe ((beside (ν := ν) hR).of 0) (fun _ m => At R m i ∧ Since l m)
      (p.embed .desk : Poll α) n := by
  induction p generalizing n with
  | pure a =>
    intro m hb hm
    exact ⟨hat.beside (hb rfl), hl.beside (hb rfl)⟩
  | fail => trivial
  | step e next ih =>
    apply safe_step
    intro m o hb hm _
    have hb := hb rfl
    have hstep : Beside R m (desked m e o) :=
      beside_of_spares hR (hp.1.spares o.desk m.shared) rfl ⟨_, hm.inv⟩
    exact ⟨rfl, hm.beside hstep rfl rfl, ih _ (hp.2 _) ((hat.beside hb).beside hstep)
      ((hl.beside hb).beside hstep)⟩

theorem found_apart {event : RpcEvent} (hm : Mirrors q (n.view q)) (hf : Foreign q event)
    (hbody : event.body ≠ .other) {id : OrderId} {order : Order} {c : Address}
    (hfound : findByTradeId n.shared.db.orders event.tradeId = some (id, order))
    (hcontract : event.contractId = some c)
    (hc : c = contractIdFor order.toPlacement q.home) : id ≠ q.order := by
  rintro rfl
  obtain ⟨hrow, htrade⟩ := lookup_of_findByTradeId hfound
  have hplace : order.toPlacement = q.placement := hm.placed hrow
  obtain htrade' | hcontract' := (hf.resolve_left hbody).1
  · rw [hplace] at htrade
    exact htrade' htrade.symm
  · rw [hcontract, hc, hplace] at hcontract'
    exact hcontract' rfl

theorem foreign_safe {event : RpcEvent} (hf : Foreign q event) (hat : At R n i) (hl : Since l n) :
    Safe ((beside (ν := ν) hR).of 0) (fun _ m => At R m i ∧ Since l m)
      ((applyEvent q.home event).embed .desk : Poll ℕ) n := by
  have hask (query : Query) : SparingEffect q (.ask query) :=
    ⟨⟨q.order + 1, Nat.succ_ne_self _, trivial⟩, fun k hk => by cases hk⟩
  rw [applyEvent]
  split
  next => exact sparing_safe hR (p := .pure 0) trivial hat hl
  next hbody =>
    apply safe_step
    intro m o hb hm _
    refine ⟨rfl, hm, ?_⟩
    have hat := hat.beside (hb rfl)
    have hl := hl.beside (hb rfl)
    refine sparing_safe hR ?_ hat hl
    have hread : ((network ν q sees).effect 0 (.desk (.ask (.findOrderByTradeId event.tradeId)))
      o m).2 = findByTradeId m.shared.db.orders event.tradeId := rfl
    simp only [hread, Program.bind]
    split
    next id order c hfound hcontract =>
      split
      next hc =>
        have hid := found_apart (hR.mirrors _ _ hm.inv) hf hbody hfound hcontract hc
        have hhandle : Every (SparingEffect q) (handleEvent c event id order) :=
          handleEvent_sparing hid (hf.resolve_left hbody).2 c
        split
        next =>
          refine Every.bind (every_ask (hask _) fun trade => ?_) fun bound => ?_
          · split <;> trivial
          · split
            next => exact hhandle
            next => trivial
        next => exact hhandle
      next => trivial
    next => trivial

theorem Since.trans {l' : Network} (h : Since l l') (h' : Since l' n) : Since l n :=
  ⟨h.1.trans h'.1, h'.2.trans h.2⟩

theorem At.next {e : Told} (h : At R n i) (he : n.told[i]? = some e) (hs : Since n m)
    (hinv : R.inv (before q n.told i + if isOwn q e then 1 else 0) (m.view q)) :
    At R m (i + 1) := by
  have hi : i + 1 ≤ n.told.length := (List.getElem?_eq_some_iff.mp he).1
  refine ⟨?_, hi.trans hs.1.length_le, ?_⟩
  · rw [hs.2]
    exact h.saved.trans (Nat.le_succ i)
  · rw [before_of_front hs.1 hi, before_succ he]
    exact hinv

/-- Every event of the log can be handled where the row has taken in those in
front of it. -/
theorem event_safe (hq : ν.Names q) {event : RpcEvent} (hev : n.events[i]? = some event)
    (hg : Good R ν n) (hat : At R n i) :
    Safe ((beside (ν := ν) hR).of 0) (fun _ m => At R m (i + 1) ∧ Since n m)
      ((applyEvent q.home event).embed .desk : Poll ℕ) n := by
  rw [hg.events, rendered_getElem?] at hev
  obtain ⟨e, he, rfl⟩ := Option.map_eq_some_iff.mp hev
  have hstart : Since n n := ⟨List.prefix_refl _, rfl⟩
  rw [List.nil_append]
  cases hown : isOwn q e with
  | true =>
    have hget : (n.view q).log[before q n.told i]? = some e.event := own_getElem? he hown
    have hhandle := hR.handles _ (n.view q) e.event e.hash hat.inv hget
    rw [render_own hq hown]
    apply (handler_safe hR hhandle hat.inv hget hg (before_mono hat.saved) hstart).mono
    rintro _ m - ⟨hinv, hs⟩
    refine ⟨hat.next he hs ?_, hs⟩
    rw [if_pos hown]
    exact hinv
  | false =>
    have hforeign := render_foreign hq hown (n.told.take i)
    apply (foreign_safe hR hforeign hat hstart).mono
    rintro _ m - ⟨hat', hs⟩
    refine ⟨hat.next he hs ?_, hs⟩
    rw [if_neg (by simp [hown]), Nat.add_zero, ← before_of_front hs.1 hat.there]
    exact hat'.inv

def Ready (R : Regime q sees) (page : ℕ × List RpcEvent) (n : Network) : Prop :=
  At R n page.1 ∧ page.2 <+: n.events.drop page.1

theorem events_front (hn : Good R ν n) (hm : Good R ν m) (h : n.told <+: m.told) :
    n.events <+: m.events := by
  obtain ⟨rest, hrest⟩ := h
  rw [hn.events, hm.events, ← hrest, rendered_append]
  exact List.prefix_append _ _

theorem Ready.beside {page : ℕ × List RpcEvent} (h : Ready R page n) (hn : Good R ν n)
    (hm : Good R ν m) (hb : Beside R n m) : Ready R page m :=
  ⟨h.1.beside hb, h.2.trans ((events_front hn hm hb.told).drop _)⟩

theorem beside_put {s : Station} (hshared : s.shared = n.shared)
    (hsaved : s.book.saved = n.book.saved) : Beside R n (n.put s) := by
  have hview : (n.put s).view q = n.view q := by
    rw [Network.view, Network.view, Network.put, hshared]
  refine ⟨?_, fun k hk => ?_, List.prefix_refl _, hsaved⟩
  · rw [hview]
    exact R.refl _
  · rw [hview]
    exact hk

theorem applyEvents_safe (hq : ν.Names q) {events : List RpcEvent} (hg : Good R ν n)
    (hready : Ready R (i, events) n) :
    Safe ((beside (ν := ν) hR).of 0) (fun _ m => At R m (i + events.length))
      (applyEvents q.home i events) n := by
  induction events generalizing i n with
  | nil => exact fun m hb _ => hready.1.beside (hb rfl)
  | cons ev events ih =>
    obtain ⟨hat, hprefix⟩ := hready
    have hev : n.events[i]? = some ev := by
      obtain ⟨rest, hrest⟩ := hprefix
      rw [← Nat.add_zero i, ← List.getElem?_drop, ← hrest]
      rfl
    have htail : events <+: n.events.drop (i + 1) := by
      have := hprefix.drop 1
      rwa [List.drop_drop] at this
    apply (event_safe hR hq hev hg hat).bind (fun m _ => Beside.refl m) hg
    rintro _ m hm ⟨hat', hs⟩
    apply safe_step
    intro m' o hb hm' _
    let noted : Network := m'.put { m'.toStation with book := m'.book.handle i ev }
    have hnoted : Beside R m' noted := beside_put rfl rfl
    have hgood : Good R ν noted := hm'.beside hnoted rfl rfl
    have hlater : n.told <+: noted.told := (hs.beside (hb rfl)).1
    have hready : Ready R (i + 1, events) noted :=
      ⟨(hat'.beside (hb rfl)).beside hnoted,
        htail.trans ((events_front hg hgood hlater).drop (i + 1))⟩
    have hrest := ih hgood hready
    rw [Nat.add_right_comm] at hrest
    exact ⟨rfl, hgood, hrest⟩

theorem Good.at_saved (hg : Good R ν n) : At R n (n.book.saved.getD 0) :=
  ⟨Nat.le_refl _, hg.saved, hg.inv⟩

theorem noted_kept (start : Start) (answer : Answer) (s : Station) :
    (noted start answer s).shared = s.shared ∧ (noted start answer s).log = s.log ∧
      (noted start answer s).book.saved = s.book.saved := by
  unfold noted
  split <;> exact ⟨rfl, rfl, rfl⟩

theorem getEvents_safe {start : Start} {Q : α → Network → Prop} {f : Answer → Poll α}
    (hstart : ∀ m o first events, Beside R n m → Honest (.getEvents start) o m →
      getEvents start o m.toStation = .page first events →
      m.first start = m.book.saved.getD 0)
    (hpage : ∀ m first events, Good R ν m → Ready R (first, events) m →
      Safe ((beside (ν := ν) hR).of 0) Q (f (.page first events)) m)
    (hnone : ∀ m answer, Good R ν m → m.book.saved = n.book.saved →
      (answer = .outOfRange ∨ answer = .failed) →
      Safe ((beside (ν := ν) hR).of 0) Q (f answer) m) :
    Safe ((beside (ν := ν) hR).of 0) Q (.step (.getEvents start) f) n := by
  apply safe_step
  rintro m o hb hm ⟨-, hhonest⟩
  have hb := hb rfl
  obtain ⟨hshared, hlog, hsaved⟩ := noted_kept start (getEvents start o m.toStation) m.toStation
  have hput : Beside R m (m.put (noted start (getEvents start o m.toStation) m.toStation)) :=
    beside_put hshared hsaved
  have hgood := hm.beside hput hlog rfl
  refine ⟨rfl, hgood, ?_⟩
  cases hanswer : getEvents start o m.toStation with
  | page first events =>
    obtain ⟨hfirst, hevents⟩ := effect_page hanswer
    have hready : Ready R (first, events) m := by
      refine ⟨?_, hevents⟩
      rw [hfirst, hstart m o first events hb hhonest hanswer]
      exact hm.at_saved
    have hsafe := hpage _ first events hgood (hready.beside hm hgood hput)
    rw [hanswer] at hsafe
    simp only [network, effect, hanswer]
    exact hsafe
  | outOfRange | failed =>
    have hsafe := hnone _ _ hgood (hsaved.trans hb.saved) (by first | exact .inl hanswer | exact .inr hanswer)
    rw [hanswer] at hsafe
    simp only [network, effect, hanswer]
    exact hsafe

theorem coldStart_safe :
    Safe ((beside (ν := ν) hR).of 0) (fun page m => Ready R page m) coldStart n := by
  apply safe_step
  intro m o _ hm _
  simp only [network, effect]
  split
  next => exact ⟨rfl, hm, trivial⟩
  next =>
    have hput : Beside R m (m.put { m.toStation with coldStarts := m.latest :: m.coldStarts }) :=
      beside_put rfl rfl
    refine ⟨rfl, hm.beside hput rfl rfl, getEvents_safe hR ?_ ?_ ?_⟩
    · intro m o first events _ hhonest hanswer
      simp only [getEvents] at hanswer
      split at hanswer
      next => cases hanswer
      next hfails =>
        split at hanswer
        next => cases hanswer
        next hrange => exact hhonest (by simpa using hfails) (by simpa using hrange)
    · intro m first events hm hready m' hb hm'
      exact hready.beside hm hm' (hb rfl)
    · rintro m answer _ _ (rfl | rfl) <;> trivial

theorem nextPage_safe {saved : Option ℕ} (hg : Good R ν n) (hsaved : n.book.saved = saved) :
    Safe ((beside (ν := ν) hR).of 0) (fun page m => ∀ p, page = some p → Ready R p m)
      (nextPage saved) n := by
  have hcold (n : Network) (hn : Good R ν n) : Safe ((beside (ν := ν) hR).of 0)
      (fun page m => ∀ p, page = some p → Ready R p m) (do
        let page ← coldStart
        .pure (some page)) n := by
    apply (coldStart_safe hR).bind (fun m _ => Beside.refl m) hn
    rintro page m hm hready m' hb hm' p hp
    obtain rfl := Option.some.inj hp
    exact hready.beside hm hm' (hb rfl)
  match saved with
  | none => exact hcold n hg
  | some c =>
    refine getEvents_safe hR ?_ ?_ ?_
    · intro m o first events hb _ _
      rw [hb.saved, hsaved]
      rfl
    · intro m first events hm hready m' hb hm' p hp
      obtain rfl := Option.some.inj hp
      exact hready.beside hm hm' (hb rfl)
    · rintro m answer hm _ (rfl | rfl)
      · exact hcold m hm
      · exact fun _ _ _ p hp => by cases hp

theorem poll_safe (hq : ν.Names q) (hg : Good R ν n) :
    Safe ((beside (ν := ν) hR).of 0) (fun _ _ => True) (poll q.home) n := by
  have hindex : Safe ((beside (ν := ν) hR).of 0) (fun _ _ => True) (index q.home) n := by
    apply safe_step
    intro m o _ hm _
    simp only [network, effect]
    split
    next => exact ⟨rfl, hm, trivial⟩
    next =>
      have hload : Good R ν (m.put { m.toStation with book := m.book.load }) :=
        hm.beside (beside_put rfl rfl) rfl rfl
      refine ⟨rfl, hload, (nextPage_safe hR hload rfl).bind (fun m _ => Beside.refl m) hload ?_⟩
      intro page m' hm' hready
      obtain _ | ⟨first, events⟩ := page
      · exact fun _ _ _ => trivial
      · apply (applyEvents_safe hR hq hm' (hready _ rfl)).bind (fun m _ => Beside.refl m) hm'
        rintro - l hl hat
        refine safe_step _ fun k o hb hk _ => ?_
        simp only [network, effect]
        split
        next => exact ⟨rfl, hk, trivial⟩
        next =>
          have hsaved : Good R ν (k.put { k.toStation with
              book := k.book.save (first + events.length) }) := by
            have hat := hat.beside (hb rfl)
            exact ⟨hk.events, hat.there, hat.inv⟩
          exact ⟨rfl, hsaved, fun _ _ _ => trivial⟩
  exact hindex.caught.bind (fun m _ => Beside.refl m) hg fun _ _ _ _ _ _ _ => trivial

theorem other_safe {pid : Pid} (hpid : pid ≠ 0) (p : Poll Unit) (n : Network) :
    Safe ((beside (ν := ν) hR).of pid) (fun _ _ => True) p n := by
  cases p with
  | pure => exact fun _ _ _ => trivial
  | fail => trivial
  | step e f =>
    rintro m _ _ r u ⟨o, ⟨hzero, -⟩, -⟩
    exact absurd hzero hpid

variable {tr : List (Entry _ (Act Unit Choice Move) _)} {w : Pool Effect Reply Network}

include hR in
/-- Polls that may fail and die anywhere, beside whatever moves, never lose the
rule at the saved cursor. -/
theorem run_good (hq : ν.Names q) (hn : Good R ν n)
    (hr : Run (machine (network ν q sees)) (idle n) tr w) : Good R ν w.shared := by
  have horderly : Orderly (beside (ν := ν) hR) w := by
    refine run_orderly (fun pid _ m hm _ => ?_) hr (.idle hn)
    by_cases hpid : pid = 0
    · subst hpid
      exact poll_safe hR hq hm
    · exact other_safe hR hpid _ m
  exact horderly.1

end Poll

section Undisturbed

variable {R : Regime q sees} {home : Address} {choose : Effect → Station → Choice}
  {e : Effect} {c : ℕ}

def quiet (choose : Effect → Station → Choice) (e : Effect) (n : Network) : Network × Reply e :=
  (n.put (undisturbed choose e n.toStation).1, (undisturbed choose e n.toStation).2)

/-- The read of a poll that starts anew. -/
def isAnew : Effect → Prop
  | .getEvents (.startLedger _) => True
  | _ => False

theorem applyEvents_every (i : ℕ) (events : List RpcEvent) :
    Every (fun e => ¬isAnew e) (applyEvents home i events) := by
  induction events generalizing i with
  | nil => trivial
  | cons ev events ih =>
    have hhandler : Every (fun e => ¬isAnew e) ((applyEvent home ev).embed .desk :
        Poll ℕ) := Every.embed (Every.of_forall (fun _ => id) _)
    exact hhandler.bind fun _ => ⟨id, fun _ => ih (i + 1)⟩

theorem poll_visits (hc : Smooth choose) (hsaved : n.book.saved = some c)
    (he : e ∈ (complete (quiet choose) (poll home) n).1) : ¬isAnew e := by
  obtain he | ⟨_, _, he⟩ := mem_complete_bind he
  · rw [complete_caught] at he
    have hload : quiet choose .findState n =
        (n.put { n.toStation with book := n.book.load }, some n.book.saved) := by
      simp [quiet, undisturbed, effect, hc.fails]
    simp only [index, bind, attempt, Program.bind, complete, hload, hsaved, nextPage, issue] at he
    have hread (m : Network) : quiet choose (.getEvents (.cursor c)) m =
        (m, .page c ((m.events.drop c).take pageLimit)) := by
      have hanswer := getEvents_smooth hc (.cursor c) m.toStation
      simp only [quiet, hanswer]
      rfl
    simp only [hread, List.mem_cons] at he
    obtain rfl | rfl | he := he
    · exact id
    · exact id
    · refine Every.of_complete (Every.bind (applyEvents_every c _) fun _ => ?_) e he
      refine ⟨id, fun r => ?_⟩
      cases (r : Bool) <;> trivial
  · cases he

theorem ids_of_good (hg : Good R ν n) : ∀ ev ∈ n.events, ev.id.isSome := by
  intro ev hev
  rw [hg.events] at hev
  obtain ⟨i, hi⟩ := List.getElem?_of_mem hev
  rw [rendered_getElem?] at hi
  obtain ⟨e, -, rfl⟩ := Option.map_eq_some_iff.mp hi
  rfl

theorem chain_undisturbed (e : Effect) (s : Station) :
    (undisturbed choose e s).1.shared.chain = s.shared.chain := by
  cases e with
  | desk e => exact (after_outside 0 e (choose (.desk e) s).desk s.shared).2.1
  | getEvents start => exact congrArg Shared.chain (noted_kept start _ s).1
  | findState | getLatestLedger | upsert =>
    simp only [undisturbed, effect]
    split <;> rfl
  | applied => rfl

theorem afterPolls_good (hR : Robust R) (hq : ν.Names q) (hc : Smooth choose)
    (hfresh : ∀ e s, Fresh s.shared (choose (.desk e) s).desk e) (k : ℕ) (hg : Good R ν n)
    (hsaved : n.book.saved = some c) :
    Good R ν (n.put (afterPolls q.home choose k n.toStation)) ∧
      (afterPolls q.home choose k n.toStation).shared.chain = n.shared.chain ∧
      ∃ c', (afterPolls q.home choose k n.toStation).book.saved = some c' := by
  induction k generalizing n c with
  | zero => exact ⟨hg, rfl, c, hsaved⟩
  | succ k ih =>
    obtain ⟨t, hends, -, -, hsaved', -⟩ := poll_ends q.home hc (ids_of_good hg)
    have hlift : Ends (quiet choose) (poll q.home) n (n.put t) () :=
      Ends.lift (f := n.put) (fun _ _ => rfl) hends
    have hdoes : ∀ e ∈ (complete (quiet choose) (poll q.home) n).1, ∀ m,
        ((beside (ν := ν) hR).of 0).does e m (quiet choose e m).2 (quiet choose e m).1 := by
      intro e he m
      refine ⟨choose e m.toStation, ⟨rfl, ?_⟩, rfl⟩
      have hanew := poll_visits hc hsaved he
      cases e with
      | desk e => exact hfresh e m.toStation
      | getEvents start =>
        cases start with
        | cursor => trivial
        | startLedger => exact absurd trivial hanew
      | findState | getLatestLedger | applied | upsert => trivial
    have hgood : Good R ν (n.put t) :=
      ((poll_safe hR hq hg).ends hg (fun m _ => Beside.refl m) hdoes hlift).1
    have hframe : t.shared.chain = n.shared.chain := by
      refine Every.frame (Every.of_forall (P := fun _ => True) (fun _ => trivial) _)
        (undisturbed choose) (fun s => s.shared.chain) (fun e _ s => ?_) hends
      exact chain_undisturbed e s
    obtain ⟨hlast, hchain, hcursor⟩ := ih hgood hsaved'
    rw [afterPolls, hends.alone]
    exact ⟨hlast, hchain.trans hframe, hcursor⟩

end Undisturbed

section Convergence

variable {t : Trade} {row : Order} {v : View}

theorem following_robust (q : Docket) : Robust (following q) where
  mirrors := following_mirrors
  handles := following_handles q
  spares k v s h hs := by
    have hm := hs.mirrors (Follows.mirrors h)
    have hscene := hs.scene_eq
    have halong : Along q v { v with shared := s } := by
      refine ⟨⟨[], (List.append_nil _).symm⟩, fun k b m _ hin => ?_, fun st d hst _ => ?_⟩
      · rw [hscene]
        exact hin
      · rw [hscene]
        exact hst
    exact ⟨Follows.along h hm halong, halong⟩
  meets _ _ _ _ := trivial

/-- A row that has taken in all events shows the chain. -/
theorem shows_chain (hf : Follows q v.log.length v) (ht : q.tradeIn v.shared.chain = some t)
    (hrow : v.shared.db.orders.lookup q.order = some row) :
    row.status = statusMap t.status ∧
      row.settledStatus = (settlement t).map fun d => statusMap (settledAs d) := by
  obtain ⟨h, hs⟩ := hf.caught
  obtain rfl : h = v.log.length := le_antisymm hs.there hs.le
  have hnow := now_status hf.mirrors ht
  have hface : faceOf row = (scene q v).toFace := (scene_toFace hrow).symm
  have hlast {i : ℕ} {st : Status} (hi : v.log.length ≤ i) (hi' : i ≤ v.log.length)
      (hst : (phaseAt v.log i).status = some st) : st = t.status := by
    obtain rfl := le_antisymm hi' hi
    exact Option.some.inj (hst.symm.trans hnow)
  have hdirection : settlement t = (phaseAt v.log v.log.length).direction := by
    have hagrees := hf.mirrors.current
    rw [ht] at hagrees
    exact Describes.settlement hagrees
  constructor
  · rw [show row.status = (scene q v).status from congrArg Face.status hface]
    obtain hunbound | ⟨st, hst⟩ := unbound_or_mapped (scene q v).status
    · -- A trade on chain has events.
      rw [Scene.now, show (scene q v).log = v.log from rfl, hs.unbound hunbound] at hnow
      cases hnow
    · rw [hst]
      cases ho : outcomeOf st with
      | none =>
        obtain ⟨i, hi, hi', hstatus⟩ := hs.live st hst ho
        rw [hlast hi hi' hstatus]
      | some d =>
        obtain ⟨-, i, hi, hi', hstatus⟩ := hs.settled st d hst ho
        rw [hlast hi hi' hstatus]
  · rw [show row.settledStatus = (scene q v).settledStatus from congrArg Face.settledStatus hface,
      hdirection]
    cases hd : (phaseAt v.log v.log.length).direction with
    | some d => exact hs.directed d hd
    | none =>
      cases hset : (scene q v).settledStatus with
      | none => rfl
      | some s =>
        obtain ⟨d, hd', -⟩ := hs.known s hset
        cases hd.symm.trans hd'

structure Opens (q : Docket) (n : Network) : Prop where
  told : n.told = []
  log : n.log = []
  book : n.book = .empty
  starts : Starts q ⟨⟨n.shared, []⟩, 0, none⟩

theorem Opens.good (h : Opens q n) : Good (following q) ν n where
  events := by
    rw [Station.events, h.log, h.told]
    rfl
  saved := by
    rw [h.book]
    exact Nat.zero_le _
  inv := by
    have hfollows := Follows.of_starts h.starts
    rw [h.book, h.told, Network.view, h.told]
    exact hfollows

variable {tr : List (Entry _ (Act Unit Choice Move) _)} {w : Pool Effect Reply Network} {c : ℕ}
  {choose : Effect → Station → Choice}

/-- Whatever has happened to the polls, as many of them in peace as the backlog
has pages, the last one begun, bring the row to where the trade is. -/
theorem polls_converge (hq : ν.Names q) (hn : Opens q n)
    (hr : Run (machine (network ν q (Current q))) (idle n) tr w)
    (hsaved : w.shared.book.saved = some c) (hc : Smooth choose)
    (hfresh : ∀ e s, Fresh s.shared (choose (.desk e) s).desk e) (k : ℕ)
    (hk : w.shared.log.length ≤ c + k * pageLimit)
    (ht : q.tradeIn w.shared.shared.chain = some t) :
    ∃ row, (afterPolls q.home choose k w.shared.toStation).shared.db.orders.lookup q.order =
        some row ∧
      row.status = statusMap t.status ∧
      row.settledStatus = (settlement t).map fun d => statusMap (settledAs d) := by
  have hR := following_robust q
  have hgood := run_good hR hq hn.good hr
  obtain ⟨hlast, hchain, c', hc'⟩ := afterPolls_good hR hq hc hfresh k hgood hsaved
  -- The last poll has saved the end of the log.
  have hlength : w.shared.log.length = w.shared.told.length := by
    rw [← length_events hgood, Station.events, List.length_map]
  have hstart : nextStart w.shared.toStation = c := by rw [nextStart, hsaved]
  have hle : c ≤ w.shared.log.length := by
    have := hgood.saved
    rw [hsaved] at this
    rwa [hlength]
  have hcaught := nextStart_afterPolls q.home hc (ids_of_good hgood) (by rwa [hstart]) k
  have hend : c' = w.shared.told.length := by
    rw [nextStart, hc', hstart, Nat.min_eq_right hk] at hcaught
    exact hcaught.trans hlength
  have hf : Follows q (own q w.shared.told).length
      ((w.shared.put (afterPolls q.home choose k w.shared.toStation)).view q) := by
    have hinv := hlast.inv
    simp only [Network.put, hc', Option.getD_some, hend, before_length] at hinv
    exact hinv
  obtain ⟨row, hrow, -⟩ := hf.mirrors.row
  have ht' : q.tradeIn (afterPolls q.home choose k w.shared.toStation).shared.chain = some t := by
    rw [hchain]
    exact ht
  exact ⟨row, hrow, shows_chain hf ht' hrow⟩

def sampleNumbering : Numbering where
  id c s k := Nat.pair (Nat.pair c.key (s.elim 0 fun tradeId => tradeId.toNat + 1)) k
  injective := by
    rintro ⟨c⟩ ⟨c'⟩ s s' k k' h
    obtain ⟨hcs, rfl⟩ := Nat.pair_eq_pair.mp h
    obtain ⟨rfl, hs⟩ := Nat.pair_eq_pair.mp hcs
    refine ⟨rfl, ?_, rfl⟩
    cases s <;> cases s' <;> simp [BitVec.toNat_inj] at hs ⊢
    exact hs

def polledDocket : Docket := sampleNumbering.docket ⟨0⟩ 0 samplePlacement

def sampleNetwork : Network := ⟨⟨sampleDesk sampleOrders, [], 1, .empty, []⟩, []⟩

theorem sampleNetwork_opens : Opens polledDocket sampleNetwork where
  told := rfl
  log := rfl
  book := rfl
  starts :=
    { log := rfl
      cursor := rfl
      handler := rfl
      row := sampleFollower_starts.row
      unique := sampleFollower_starts.unique
      chain := sampleFollower_starts.chain
      unclaimed := fun _ => rfl }

def samplePolls : List (Act Unit Choice Move) :=
  .spawn 0 () :: List.replicate 4 (.go 0 {}) ++
    [.kill 0, .outside (.call ⟨0⟩ (.call (sampleEnv 1000 [⟨6⟩]) (.createTrade 1 sampleArgs)) none),
      .outside (.call ⟨0⟩ (.call (sampleEnv 1500 [⟨7⟩]) (.markFiatPaid 1 ⟨7⟩)) none)]

def polled : Machine (Pool Effect Reply Network) (Act Unit Choice Move) (Option (Pid × Effect)) :=
  machine (network sampleNumbering polledDocket (Current polledDocket))

theorem samplePolls_admitted : Admitted polled (idle sampleNetwork) samplePolls := by
  refine ⟨⟨rfl, trivial⟩, ⟨rfl, trivial⟩, ⟨rfl, trivial⟩, ⟨rfl, fun _ _ => rfl⟩, ⟨rfl, trivial⟩,
    trivial, ⟨?_, fun _ => fits_of_all ?_⟩, ⟨?_, fun _ => fits_of_all ?_⟩, trivial⟩
  all_goals decide

def sampleChoose : Effect → Station → Choice
  | .desk e, s => { desk := asItIs s.shared e }
  | _, _ => {}

theorem sampleChoose_smooth : Smooth sampleChoose where
  fails e s := by cases e <;> rfl
  outOfRange e s := by cases e <;> rfl
  desk e s := by
    cases e with
    | desk e =>
      cases e with
      | ask query => cases query <;> rfl
      | _ => rfl
    | _ => rfl
  count e s := by cases e <;> exact Nat.le_refl _

theorem sample_polls_converge :
    ∃ row, (afterPolls ⟨0⟩ sampleChoose 1
        (final polled (idle sampleNetwork) samplePolls).shared.toStation).shared.db.orders.lookup 0 =
          some row ∧
      row.status = .fiatPaid ∧ row.settledStatus = none := by
  have ht : polledDocket.tradeIn
      (final polled (idle sampleNetwork) samplePolls).shared.shared.chain = some samplePaid := by
    decide
  exact polls_converge (fun _ => rfl) sampleNetwork_opens (Run.of_actions _ _ samplePolls_admitted)
    rfl sampleChoose_smooth (fun e s => asItIs_fresh s.shared e) 1 (by decide) ht

end Convergence

end Lolipay.Coordinator.PolledRows
