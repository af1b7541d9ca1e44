import Lolipay.Coordinator.Replica

namespace Lolipay.Coordinator.Following

open Lolipay.Ledger.Storage Lolipay.Ledger.Invocation Lolipay.Ledger.Runs
open Lolipay.Async.Process
open Lolipay.Escrow.Types Lolipay.Escrow.System Lolipay.Escrow.Phases
open Lolipay.Coordinator.Orders Lolipay.Coordinator.Binding Lolipay.Coordinator.Writes
open Lolipay.Coordinator.Database Lolipay.Coordinator.Services Lolipay.Coordinator.Indexer
open Lolipay.Coordinator.Desk Lolipay.Coordinator.Steps Lolipay.Coordinator.Replica

variable (q : Docket)

/-- The order is where it was, and every state the chain had is one that the
events tell of. -/
structure Mirrors (v : View) : Prop where
  row : ∃ row, v.shared.db.orders.lookup q.order = some row ∧ row.toPlacement = q.placement
  unique : ∀ id row, v.shared.db.orders.lookup id = some row →
    row.tradeId = q.placement.tradeId → id = q.order
  legal : Legal v.log
  current : Agrees (phaseAt v.log v.log.length) (q.tradeIn v.shared.chain)
  past : ∀ c ∈ v.shared.past, ∃ i ≤ v.log.length, Agrees (phaseAt v.log i) (q.tradeIn c)
  fits : ∀ c ∈ v.shared.chain :: v.shared.past, ∀ t, q.tradeIn c = some t → q.Fits t

def Own (id : OrderId) : Effect → Prop
  | .ask _ | .claimEvent _ => True
  | .write id' _ | .verdict _ id' _ | .accrueProviderLoss id' | .recordDisputeLost _ id' =>
    id' = id
  | _ => False

variable {q} {v : View} {e : Effect} {o : Choice}

theorem Mirrors.placed {row : Order} (hm : Mirrors q v)
    (hrow : v.shared.db.orders.lookup q.order = some row) : row.toPlacement = q.placement := by
  obtain ⟨row', hrow', hplace⟩ := hm.row
  obtain rfl := Option.some.inj (hrow'.symm.trans hrow)
  exact hplace

theorem Mirrors.after (hm : Mirrors q v) (he : Own q.order e) :
    Mirrors q { v with shared := after 0 e o v.shared } := by
  have hstep (id : OrderId) : RowStep v.shared 0 e id (v.shared.db.orders.lookup id)
      ((Desk.after 0 e o v.shared).db.orders.lookup id) :=
    row_step_unless (by rintro rfl; cases he) o id
  obtain ⟨-, hchain, hpast, -⟩ := after_outside 0 e o v.shared
  refine ⟨?_, fun id row hrow htrade => ?_, hm.legal, ?_, ?_, ?_⟩
  · obtain ⟨row, hrow, hp⟩ := hm.row
    have h := hstep q.order
    rw [hrow] at h
    obtain ⟨row', hrow', hp'⟩ := h.kept
    exact ⟨row', hrow', hp'.trans hp⟩
  · have h := hstep id
    cases hrow₀ : v.shared.db.orders.lookup id with
    | none =>
      rw [hrow₀, hrow] at h
      cases h with
      | created hcommit => rw [hcommit] at he; cases he
    | some row₀ =>
      rw [hrow₀] at h
      obtain ⟨row', hrow', hp'⟩ := h.kept
      obtain rfl := Option.some.inj (hrow.symm.trans hrow')
      apply hm.unique id row₀ hrow₀
      rw [← htrade, hp']
  · change Agrees _ (q.tradeIn (Desk.after 0 e o v.shared).chain)
    rw [hchain]
    exact hm.current
  · change ∀ c ∈ (Desk.after 0 e o v.shared).past, _
    rw [hpast]
    exact hm.past
  · change ∀ c ∈ (Desk.after 0 e o v.shared).chain :: (Desk.after 0 e o v.shared).past, _
    rw [hchain, hpast]
    exact hm.fits

theorem alone_ask {α : Type} (o : Choice) (query : Query) (k : query.Reply → Service α)
    (s : Shared) :
    alone (inOneGo o) (ask query >>= k) s = alone (inOneGo o) (k (answer s o query)) s := rfl

theorem alone_update {α : Type} (o : Choice) (id : OrderId) (w : RowWrite) (k : ℕ → Service α)
    (s : Shared) (hk : ∀ n, alone (inOneGo o) (k n) (after 0 (.write id w) o s) =
      after 0 (.write id w) o s) :
    alone (inOneGo o) (update id w >>= k) s = after 0 (.write id w) o s := by
  have hgo : alone (inOneGo o) (update id w >>= k) s =
      ((reply 0 (.write id w) o s).elim (after 0 (.write id w) o s) fun n =>
        alone (inOneGo o) (k n) (after 0 (.write id w) o s)) := by
    change alone (inOneGo o) (Program.bind (update id w) k) s = _
    simp only [update, attempt, Program.bind, alone, inOneGo]
    cases reply 0 (.write id w) o s <;> rfl
  rw [hgo]
  cases reply 0 (.write id w) o s with
  | none => rfl
  | some n => exact hk n

/-- A refresh is one guarded update with what it saw, or it does nothing. -/
theorem refreshed_cases (q : Docket) (order : Order) (o : Choice) (s : Shared) :
    refreshed q order o s = s ∨
      ∃ a stamps, refreshed q order o s = after 0 (.write q.order (.refresh a stamps)) o s ∧
        a.seen = order.status ∧ refreshFromChainStatuses.contains order.status = true ∧
        o.onChain = some a.onChain := by
  rw [refreshed, refreshOrderStatus]
  split
  next hfrom =>
    have hread : answer s o (.getTradeStatus (contractIdFor order.toPlacement q.home)
      order.tradeId) = o.onChain := rfl
    rw [alone_ask, hread]
    cases hseen : o.onChain with
    | none => exact .inl rfl
    | some trade =>
      dsimp only
      split
      next =>
        split
        next h =>
          refine .inr ⟨⟨order.status, trade, h⟩, order.disputeAt.isNone, ?_, rfl, hfrom, rfl⟩
          exact alone_update o q.order _ _ s fun n => rfl
        next => exact .inl rfl
      next => exact .inl rfl
  next => exact .inl rfl

theorem Mirrors.refresh (hm : Mirrors q v) (order : Order) (o : Choice) :
    Mirrors q { v with shared := refreshed q order o v.shared } := by
  obtain hsame | ⟨a, stamps, hwrite, -⟩ := refreshed_cases q order o v.shared
  · rw [hsame]
    exact hm
  · rw [hwrite]
    exact hm.after rfl

theorem tradeIn_refreshed (order : Order) (o : Choice) (s : Shared) :
    q.tradeIn (refreshed q order o s).chain = q.tradeIn s.chain := by
  obtain hsame | ⟨a, stamps, hwrite, -⟩ := refreshed_cases q order o s
  · rw [hsame]
  · rw [hwrite, (after_outside 0 _ o s).2.1]

theorem Mirrors.tick (hm : Mirrors q v) (time : ℕ) :
    Mirrors q { v with shared := moved v.shared (.tick time) } :=
  ⟨hm.row, hm.unique, hm.legal, hm.current, hm.past, hm.fits⟩

/-- A call on the escrow, with the events that it publishes about the trade. -/
def grown (q : Docket) (v : View) (a : Action) : View where
  shared := moved v.shared (.chain q.contract a)
  log := v.log ++ news q.placement.tradeId (v.shared.chain q.contract) a

theorem tradeIn_grown (v : View) (a : Action) :
    q.tradeIn (grown q v a).shared.chain =
      (next (v.shared.chain q.contract) a).trade q.placement.tradeId := by
  simp [grown, moved, Docket.tradeIn]

theorem Mirrors.grow (hm : Mirrors q v) {a : Action}
    (hfits : ∀ t, (next (v.shared.chain q.contract) a).trade q.placement.tradeId = some t →
      q.Fits t) : Mirrors q (grown q v a) := by
  obtain ⟨φ, hφ, hag⟩ := next_agrees a hm.current
  obtain ⟨hlegal, hlast⟩ := hm.legal.append hφ
  have hlen : v.log.length ≤ (grown q v a).log.length := by simp [grown]
  refine ⟨hm.row, hm.unique, hlegal, ?_, fun c hc => ?_, fun c hc t ht => ?_⟩
  · rw [tradeIn_grown]
    change Agrees (phaseAt (v.log ++ _) (v.log ++ _).length) _
    rw [hlast]
    exact hag
  · obtain rfl | hc := List.mem_cons.mp hc
    · refine ⟨v.log.length, hlen, ?_⟩
      change Agrees (phaseAt (v.log ++ _) _) _
      rw [phaseAt_append _ le_rfl]
      exact hm.current
    · obtain ⟨i, hi, hpast⟩ := hm.past c hc
      refine ⟨i, hi.trans hlen, ?_⟩
      change Agrees (phaseAt (v.log ++ _) _) _
      rw [phaseAt_append _ hi]
      exact hpast
  · obtain rfl | hc := List.mem_cons.mp hc
    · rw [tradeIn_grown] at ht
      exact hfits t ht
    · exact hm.fits c hc t ht

theorem Mirrors.of_starts {w : Follower} (h : Starts q w) : Mirrors q w.toView where
  row := by
    obtain ⟨row, hrow, hp, -⟩ := h.row
    exact ⟨row, hrow, hp⟩
  unique := h.unique
  legal := by
    rw [h.log]
    exact .nil
  current := by
    rw [h.log, h.chain _ (.head _)]
    rfl
  past c hc := by
    refine ⟨0, Nat.zero_le _, ?_⟩
    rw [h.log, h.chain c (.tail _ hc)]
    rfl
  fits c hc t ht := by
    rw [h.chain c hc] at ht
    cases ht

def claimed (q : Docket) (v : View) (i : ℕ) : Bool :=
  (v.shared.db.indexedEvents.lookup (q.eventId i)).isSome

theorem claimed_after (o : Choice) {i : ℕ} (h : claimed q v i = true) :
    claimed q { v with shared := after 0 e o v.shared } i = true := by
  simp only [claimed] at h ⊢
  obtain hsame | ⟨event, -, hclaim⟩ := indexedEvents_after 0 e o v.shared
  · rw [hsame]
    exact h
  · rw [hclaim]
    by_cases hi : q.eventId i = event
    · subst hi
      simp [claimEvent]
    · simpa [claimEvent, AList.lookup_insert_ne hi] using h

theorem claimed_before {i : ℕ}
    (h : claimed q { v with shared := after 0 e o v.shared } i = true) :
    claimed q v i = true ∨ claims e = some (q.eventId i) := by
  simp only [claimed] at h ⊢
  obtain hsame | ⟨event, he, hclaim⟩ := indexedEvents_after 0 e o v.shared
  · rw [hsame] at h
    exact .inl h
  · rw [hclaim] at h
    by_cases hi : q.eventId i = event
    · exact .inr (he.trans (congrArg some hi.symm))
    · left
      simpa [claimEvent, AList.lookup_insert_ne hi] using h

theorem claimed_refresh (order : Order) (o : Choice) (i : ℕ) :
    claimed q { v with shared := refreshed q order o v.shared } i = claimed q v i := by
  obtain hsame | ⟨a, stamps, hwrite, -⟩ := refreshed_cases q order o v.shared
  · rw [hsame]
  · rw [hwrite]
    obtain hsame | ⟨event, he, -⟩ :=
      indexedEvents_after 0 (.write q.order (.refresh a stamps)) o v.shared
    · simp only [claimed, hsame]
    · cases he

theorem findByTradeId_of_unique {orders : Store OrderId Order} {id : OrderId} {row : Order}
    {tradeId : TradeId} (hrow : orders.lookup id = some row) (htrade : row.tradeId = tradeId)
    (hunique : ∀ id' row', orders.lookup id' = some row' → row'.tradeId = tradeId → id' = id) :
    findByTradeId orders tradeId = some (id, row) := by
  have hmem : (⟨id, row⟩ : Sigma fun _ : OrderId => Order) ∈ orders.entries :=
    AList.mem_lookup_iff.mp hrow
  cases hfind : orders.entries.find? fun e => e.2.tradeId = tradeId with
  | none =>
    have hno := List.find?_eq_none.mp hfind _ hmem
    exact absurd (decide_eq_true htrade) hno
  | some found =>
    obtain ⟨id', row'⟩ := found
    have hlook : orders.lookup id' = some row' :=
      AList.mem_lookup_iff.mpr (List.mem_of_find?_eq_some hfind)
    have htrade' : row'.tradeId = tradeId := by simpa using List.find?_some hfind
    obtain rfl := hunique id' row' hlook htrade'
    obtain rfl := Option.some.inj (hrow.symm.trans hlook)
    rw [findByTradeId, hfind]
    rfl

theorem Mirrors.found (hm : Mirrors q v) :
    ∃ row, findByTradeId v.shared.db.orders q.placement.tradeId = some (q.order, row) ∧
      v.shared.db.orders.lookup q.order = some row ∧ row.toPlacement = q.placement := by
  obtain ⟨row, hrow, hp⟩ := hm.row
  have htrade : row.tradeId = q.placement.tradeId := by rw [hp]
  exact ⟨row, findByTradeId_of_unique hrow htrade hm.unique, hrow, hp⟩

theorem Mirrors.trade (hm : Mirrors q v) {i : ℕ} {ev : Event} (hev : v.log[i]? = some ev) :
    ∃ t, q.tradeIn v.shared.chain = some t := by
  have hlt : i < v.log.length := (List.getElem?_eq_some_iff.mp hev).1
  have hrank : 1 ≤ (phaseAt v.log (i + 1)).rank := next_present (hm.legal i ev hev)
  cases ht : q.tradeIn v.shared.chain with
  | some t => exact ⟨t, rfl⟩
  | none =>
    have habsent := hm.current
    rw [ht] at habsent
    have hle := hrank.trans (hm.legal.rank_le hlt)
    rw [show phaseAt v.log v.log.length = .absent from habsent] at hle
    cases hle

/-- A rule for what stays true while one indexer follows the log: an invariant
at every cursor, what the chain, the clock and the refreshes can do while an
event is being handled, and what the effects of its handler meet. -/
structure Regime (q : Docket) (sees : Shared → Option TradeOnChain → Prop) where
  inv : ℕ → View → Prop
  rely : View → View → Prop
  meets : ℕ → Event → View → Effect → Prop := fun _ _ _ _ => True
  refl : ∀ v, rely v v
  trans : ∀ {u v w}, rely u v → rely v w → rely u w
  rewind : ∀ {j k v}, inv k v → j ≤ k → inv j v
  grow : ∀ k v a, inv k v →
    (∀ t, (next (v.shared.chain q.contract) a).trade q.placement.tradeId = some t → q.Fits t) →
    inv k (grown q v a) ∧ rely v (grown q v a)
  tick : ∀ k v time, inv k v →
    inv k { v with shared := moved v.shared (.tick time) } ∧
      rely v { v with shared := moved v.shared (.tick time) }
  refresh : ∀ k v order o, inv k v → order.toPlacement = q.placement →
    (o.onChain = none ∨ sees v.shared o.onChain) →
    inv k { v with shared := refreshed q order o v.shared } ∧
      rely v { v with shared := refreshed q order o v.shared }

variable {sees : Shared → Option TradeOnChain → Prop} (R : Regime q sees)

/-- The rule as the handler of one event sees it. -/
def Regime.handling (k : ℕ) (ev : Event) : Discipline Effect Reply View where
  does e v r v' :=
    ∃ o, (Fresh v.shared o e ∧ R.meets k ev v e) ∧ r = reply 0 e o v.shared ∧
      v' = { v with shared := after 0 e o v.shared }
  rely := R.rely
  guar _ _ := True
  inv v := R.inv k v ∧ v.log[k]? = some ev

/-- The invariant holds at the cursor, and the handler at work will take it on
to the next event. -/
structure Regime.Sound (w : Follower) : Prop where
  inv : R.inv w.cursor w.toView
  handler : ∀ p, w.handler = some p → ∃ ev, w.log[w.cursor]? = some ev ∧
    Safe (R.handling w.cursor ev) (fun _ v => R.inv (w.cursor + 1) v) p w.toView

def Regime.Met (w : Follower) : Turn → Prop
  | .go _ => ∀ e k ev, w.handler = some (.step e k) → w.log[w.cursor]? = some ev →
      R.meets w.cursor ev w.toView e
  | _ => True

def Regime.Handles : Prop :=
  ∀ k v ev hash, R.inv k v → v.log[k]? = some ev →
    Safe (R.handling k ev) (fun _ v => R.inv (k + 1) v) (applyEvent q.home (q.rpcEvent k ev hash)) v

variable {R} {w w' : Follower}

theorem Regime.safe_strict (hm : ∀ k v, R.inv k v → Mirrors q v) {α : Type} {k : ℕ} {ev : Event}
    {Q : α → View → Prop} {f : Option (Option TradeOnChain) → Service α} (hfail : f none = .fail)
    (hf : ∀ u t, R.rely v u → R.inv k u → u.log[k]? = some ev → q.tradeIn u.shared.chain = some t →
      Safe (R.handling k ev) Q (f (some (some (decodeTradeStatus t)))) u) :
    Safe (R.handling k ev) Q
      (ask (.getTradeStatusStrict q.contract q.placement.tradeId) >>= f) v := by
  rintro u hd ⟨hinv, hev⟩ r u' ⟨o, ⟨hfresh, -⟩, rfl, rfl⟩
  refine ⟨trivial, ⟨hinv, hev⟩, ?_⟩
  change Safe _ Q (f (if o.fails then none else some o.onChain)) u
  cases hfails : o.fails with
  | true =>
    rw [if_pos rfl, hfail]
    trivial
  | false =>
    obtain ⟨t, ht⟩ := (hm k u hinv).trade hev
    have hread : o.onChain = (q.tradeIn u.shared.chain).map decodeTradeStatus :=
      hfresh.resolve_left (by simp [hfails])
    rw [ht] at hread
    rw [if_neg Bool.false_ne_true, hread]
    exact hf u t hd hinv hev ht

/-- The indexer always finds the row of the order, and the trade on chain fits
it, so that every event comes to its handler. -/
theorem Regime.handles (hm : ∀ k v, R.inv k v → Mirrors q v)
    (hother : ∀ k v ev, R.inv k v → v.log[k]? = some ev → bodyOf ev = .other → R.inv (k + 1) v)
    (hhandle : ∀ k v ev hash row, R.inv k v → v.log[k]? = some ev →
      v.shared.db.orders.lookup q.order = some row → row.toPlacement = q.placement →
      Safe (R.handling k ev) (fun _ v => R.inv (k + 1) v)
        (handleEvent q.contract (q.rpcEvent k ev hash) q.order row) v) : R.Handles := by
  intro k v ev hash _ _
  rw [applyEvent]
  split
  next hbody =>
    rintro u hd ⟨hinv, hev⟩
    exact hother k u ev hinv hev hbody
  next =>
    rintro u hd ⟨hinv, hev⟩ r u' ⟨o, -, rfl, rfl⟩
    refine ⟨trivial, ⟨hinv, hev⟩, ?_⟩
    obtain ⟨row, hfind, hrow, hplace⟩ := (hm k u hinv).found
    have hread : reply 0 (.ask (.findOrderByTradeId q.placement.tradeId)) o u.shared =
        some (q.order, row) := hfind
    have hgoes := hhandle k u ev hash row hinv hev hrow hplace
    have hcontract : q.contract = contractIdFor row.toPlacement q.home := by
      rw [hplace]
      rfl
    simp only [Docket.rpcEvent] at hread hgoes ⊢
    rw [hread]
    simp only [Program.bind, if_pos hcontract]
    change Safe _ _ _ u
    split
    next =>
      rw [bindTradeToOrder, show row.tradeId = q.placement.tradeId by rw [hplace]]
      apply Regime.safe_strict hm rfl
      intro u' t hrely hinv' hev' ht
      have hfits : q.Fits t := (hm k u' hinv').fits _ (.head _) t ht
      have hbound : verifyTradeMatchesOrder (decodeTradeStatus t) row.toOrderBindingFields = [] := by
        rw [hplace]
        exact hfits
      simp only [Program.bind, hbound, decide_true, if_true]
      exact hgoes.stable R.trans hrely
    next => exact hgoes

theorem Regime.Sound.beside (hw : R.Sound w) {v : View} (hinv : R.inv w.cursor v)
    (hrely : R.rely w.toView v) (hlog : ∃ evs, v.log = w.log ++ evs) :
    R.Sound { w with toView := v } := by
  refine ⟨hinv, fun p hp => ?_⟩
  obtain ⟨ev, hev, hsafe⟩ := hw.handler p hp
  refine ⟨ev, ?_, hsafe.stable R.trans hrely⟩
  obtain ⟨evs, hlog⟩ := hlog
  change v.log[w.cursor]? = some ev
  rw [hlog, List.getElem?_append_left (List.getElem?_eq_some_iff.mp hev).1]
  exact hev

theorem Regime.Sound.turn (hh : R.Handles) (hw : R.Sound w) {a : Turn}
    (ha : admits q sees w a) (hmet : R.Met w a) : R.Sound (turn q w a) := by
  cases a with
  | chain a =>
    obtain ⟨hinv, hrely⟩ := R.grow w.cursor w.toView a hw.inv ha.2
    exact hw.beside hinv hrely ⟨_, rfl⟩
  | tick time =>
    obtain ⟨hinv, hrely⟩ := R.tick w.cursor w.toView time hw.inv
    exact hw.beside hinv hrely ⟨[], (List.append_nil _).symm⟩
  | refresh order o =>
    obtain ⟨hinv, hrely⟩ := R.refresh w.cursor w.toView order o hw.inv ha.1 ha.2
    exact hw.beside hinv hrely ⟨[], (List.append_nil _).symm⟩
  | take hash =>
    refine ⟨hw.inv, fun p hp => ?_⟩
    obtain ⟨ev, hev, rfl⟩ := Option.map_eq_some_iff.mp hp
    exact ⟨ev, hev, hh w.cursor w.toView ev hash hw.inv hev⟩
  | go o =>
    simp only [Replica.admits] at ha
    split at ha
    next e k hrun =>
      obtain ⟨ev, hev, hsafe⟩ := hw.handler _ hrun
      obtain ⟨-, ⟨hinv, hev'⟩, hk⟩ :=
        hsafe w.toView (R.refl _) ⟨hw.inv, hev⟩ _ _ ⟨o, ⟨ha, hmet e k ev hrun hev⟩, rfl, rfl⟩
      simp only [Replica.turn, hrun]
      refine ⟨hinv, fun p hp => ?_⟩
      obtain rfl := Option.some.inj hp
      exact ⟨ev, hev', hk⟩
    next => cases ha
  | advance =>
    simp only [Replica.admits] at ha
    split at ha
    next n hrun =>
      obtain ⟨ev, hev, hsafe⟩ := hw.handler _ hrun
      exact ⟨hsafe w.toView (R.refl _) ⟨hw.inv, hev⟩, fun p hp => by cases hp⟩
    next => cases ha
  | crash cursor => exact ⟨R.rewind hw.inv ha, fun p hp => by cases hp⟩

theorem Regime.Sound.of_starts (hstart : Starts q w) (hinv : R.inv 0 w.toView) : R.Sound w where
  inv := by
    rw [hstart.cursor]
    exact hinv
  handler p hp := by
    rw [hstart.handler] at hp
    cases hp

/-- Along every run of the replica whose effects meet what the rule counts on,
the invariant holds at the cursor. -/
theorem Regime.run (hh : R.Handles) {tr} (hr : Run (replica q sees) w tr w')
    (hmet : ∀ x ∈ tr, R.Met x.pre x.act) (hw : R.Sound w) : R.Sound w' :=
  (hr.narrow hmet).invariant hw fun _ _ hu ha => hu.turn hh ha.1 ha.2

theorem Regime.met_of_meets (hmeets : ∀ k ev v e, R.meets k ev v e) (w : Follower) (a : Turn) :
    R.Met w a := by
  cases a with
  | go o => exact fun e _ ev _ _ => hmeets w.cursor ev w.toView e
  | chain | tick | take | advance | crash | refresh => trivial

end Lolipay.Coordinator.Following
