import Lolipay.Escrow.Invariant
import Lolipay.Coordinator.Footprint
import Lolipay.Coordinator.Guards

namespace Lolipay.Coordinator.BoundRows

open Lolipay.Ledger.Storage Lolipay.Ledger.Invocation Lolipay.Ledger.Runs
open Lolipay.Async.Process Lolipay.Async.Scheduling
open Lolipay.Escrow.Types Lolipay.Escrow.System Lolipay.Escrow.Effects Lolipay.Escrow.Invariant
open Lolipay.Coordinator.Orders Lolipay.Coordinator.Binding Lolipay.Coordinator.Writes
open Lolipay.Coordinator.Database Lolipay.Coordinator.Services Lolipay.Coordinator.Indexer
open Lolipay.Coordinator.Creation Lolipay.Coordinator.Desk Lolipay.Coordinator.Steps
open Lolipay.Coordinator.Footprint Lolipay.Coordinator.Guards

variable {y : Settings} {allowed : Call → Prop} {s t u : Shared} {pid : Pid} {e : Effect}
  {o : Choice} {id : OrderId} {row row' order : Order} {α : Type}

/-- Trades stay where they are, with the terms they were opened with. -/
def ChainGrows (c c' : Address → World) : Prop :=
  ∀ a id t, (c a).trade id = some t → ∃ t', (c' a).trade id = some t' ∧ t'.toTerms = t.toTerms

theorem ChainGrows.refl (c : Address → World) : ChainGrows c c :=
  fun _ _ t ht => ⟨t, ht, rfl⟩

theorem ChainGrows.trans {c c' c'' : Address → World} (h : ChainGrows c c')
    (h' : ChainGrows c' c'') : ChainGrows c c'' := by
  intro a id t ht
  obtain ⟨t', ht', hterms⟩ := h a id t ht
  obtain ⟨t'', ht'', hterms'⟩ := h' a id t' ht'
  exact ⟨t'', ht'', hterms'.trans hterms⟩

theorem ChainGrows.bound {c c' : Address → World} {home : Address} {p : Placement}
    (h : ChainGrows c c') (hb : BoundAt c home p) : BoundAt c' home p := by
  obtain ⟨t, ht, hv⟩ := hb
  obtain ⟨t', ht', hterms⟩ := h _ _ t ht
  exact ⟨t', ht', (verify_toTerms hterms _).trans hv⟩

theorem chainGrows_moved {a : Address} {act : Action} (h : admits a (s.chain a) act) :
    ChainGrows s.chain (moved s (.chain a act)).chain := by
  intro b id t ht
  simp only [moved]
  split
  next hb =>
    subst hb
    cases trade_step h id with
    | same hsame => exact ⟨t, hsame.trans ht, rfl⟩
    | opened ha hself hcfg ho hnew => cases hnew.symm.trans ht
    | moved ha hself hcfg hlook hm hnext =>
      obtain rfl := Option.some.inj (hlook.symm.trans ht)
      exact ⟨_, hnext, moves_toTerms hm⟩
  next => exact ⟨t, ht, rfl⟩

/-- What every step of the office keeps: rows and their placements, statuses
that are bound to the chain, and the trades on it. -/
structure Grows (s t : Shared) : Prop where
  rows : ∀ id row, s.db.orders.lookup id = some row → ∃ row', t.db.orders.lookup id = some row' ∧
    row'.toPlacement = row.toPlacement ∧
    (notYetBoundOnChain row.status = false → notYetBoundOnChain row'.status = false)
  chain : ChainGrows s.chain t.chain

theorem Grows.refl (s : Shared) : Grows s s :=
  ⟨fun _ row h => ⟨row, h, rfl, fun hb => hb⟩, .refl _⟩

theorem Grows.trans (h : Grows s t) (h' : Grows t u) : Grows s u where
  rows id row hrow := by
    obtain ⟨row', hrow', hp, hb⟩ := h.rows id row hrow
    obtain ⟨row'', hrow'', hp', hb'⟩ := h'.rows id row' hrow'
    exact ⟨row'', hrow'', hp'.trans hp, fun hbound => hb' (hb hbound)⟩
  chain := h.chain.trans h'.chain

/-- Every bound row has its trade, and the chain remembers what it had. -/
structure Bound (y : Settings) (s : Shared) : Prop where
  clean : Clean s
  past : ∀ c ∈ s.past, ChainGrows c s.chain
  rows : ∀ id row, s.db.orders.lookup id = some row → notYetBoundOnChain row.status = false →
    BoundAt s.chain y.escrowContractId row.toPlacement

/-- The row exists and its trade is on the chain, so it may be bound. -/
def Licensed (y : Settings) (s : Shared) (id : OrderId) : Prop :=
  ∃ row, s.db.orders.lookup id = some row ∧ BoundAt s.chain y.escrowContractId row.toPlacement

theorem Licensed.grow (hl : Licensed y s id) (h : Grows s t) : Licensed y t id := by
  obtain ⟨row, hrow, hb⟩ := hl
  obtain ⟨row', hrow', hp, -⟩ := h.rows id row hrow
  exact ⟨row', hrow', hp ▸ h.chain.bound hb⟩

def binds : Effect → Option OrderId
  | .write id (.refresh _ _) | .write id (.promote _) | .write id (.land _ _ _)
  | .write id (.dispute _) | .verdict _ id _ => some id
  | _ => none

theorem preChain_unbound {status : OrderStatus} (h : preChainStatuses.contains status = true) :
    notYetBoundOnChain status = true := by
  revert h
  cases status <;> decide

/-- An update keeps a bound row bound, and binds no other row unless it says so. -/
theorem write_bound (id : OrderId) {w : RowWrite} (hm : w.matchesRow row = true) :
    (notYetBoundOnChain row.status = false →
      notYetBoundOnChain (landsOn w row.status) = false) ∧
    (binds (.write id w) = none → notYetBoundOnChain (landsOn w row.status) = false →
      notYetBoundOnChain row.status = false) := by
  cases w with
  | refresh a stamps => exact ⟨fun _ => bound_statusMap _, fun h => by cases h⟩
  | promote a => exact ⟨fun _ => bound_statusMap _, fun h => by cases h⟩
  | land target onChain hash => exact ⟨fun _ => bound_statusMap _, fun h => by cases h⟩
  | dispute stamp => exact ⟨fun _ => rfl, fun h => by cases h⟩
  | cancel | expire =>
    have hpre := preChain_unbound hm
    exact ⟨fun h => by simp [h] at hpre, fun _ h => by simp [landsOn] at h; cases h⟩
  | autoRefund | attest =>
    have hfunded : row.status = .funded := by simpa [RowWrite.matchesRow] using hm
    exact ⟨fun _ => rfl, fun _ _ => by rw [hfunded]; rfl⟩
  | reopen stamp =>
    refine ⟨fun _ => rfl, fun _ _ => ?_⟩
    obtain h | h : row.status = .released ∨ row.status = .refunded := by
      simpa [RowWrite.matchesRow] using hm
    all_goals rw [h]; rfl
  | backfillSettlementHash | reconcileDisputeMetadata => exact ⟨fun h => h, fun _ h => h⟩

theorem rowStep_bound (h : RowStep s pid e id (some row) (some row')) :
    (notYetBoundOnChain row.status = false → notYetBoundOnChain row'.status = false) ∧
    (notYetBoundOnChain row'.status = false →
      notYetBoundOnChain row.status = false ∨ binds e = some id) := by
  cases h with
  | same => exact ⟨fun hb => hb, .inl⟩
  | @wrote w row he hm =>
    subst he
    rw [write_status]
    obtain ⟨hkeep, hback⟩ := write_bound id hm
    refine ⟨hkeep, fun hb => ?_⟩
    cases w with
    | refresh | promote | land | dispute => exact .inr rfl
    | _ => exact .inl (hback rfl hb)
  | judged he hnew hm =>
    subst he
    rw [closeDisputeRound_status, verdict_status]
    exact ⟨fun _ => bound_statusMap _, fun _ => .inr rfl⟩
  | accrued he hf => exact ⟨fun hb => hb, .inl⟩
  | stoodDown he hp =>
    have hpre := preChain_unbound hp
    refine ⟨fun hb => by simp [hb] at hpre, fun hb => ?_⟩
    simp [Order.setStatus] at hb
    cases hb

theorem Grows.after (hc : Clean s) (pid : Pid) (e : Effect) (o : Choice) :
    Grows s (Desk.after pid e o s) := by
  obtain ⟨-, hchain, -, -⟩ := after_outside pid e o s
  refine ⟨fun id row hrow => ?_, by rw [hchain]; exact .refl _⟩
  have hstep : RowStep s pid e id _ _ := row_step hc o id
  rw [hrow] at hstep
  obtain ⟨row', hrow', hplace⟩ := hstep.kept
  rw [hrow'] at hstep
  exact ⟨row', hrow', hplace, (rowStep_bound hstep).1⟩

theorem Grows.moved {a : Move} (ha : Desk.Moves s a) : Grows s (Desk.moved s a) := by
  cases a with
  | chain c act => exact ⟨(Grows.refl s).rows, chainGrows_moved ha⟩
  | tick | prune => exact ⟨(Grows.refl s).rows, .refl _⟩

theorem past_moved {a : Move} (hpast : ∀ c ∈ s.past, ChainGrows c s.chain) (ha : Desk.Moves s a) :
    ∀ c ∈ (moved s a).past, ChainGrows c (moved s a).chain := by
  cases a with
  | chain c act =>
    intro c' hc'
    obtain rfl | hc' := List.mem_cons.mp hc'
    · exact chainGrows_moved ha
    · exact (hpast c' hc').trans (chainGrows_moved ha)
  | tick | prune => exact hpast

theorem Bound.after (hs : Bound y s) (hp : Permits y pid e o s)
    (hl : ∀ id, binds e = some id → Licensed y s id) :
    Grows s (Desk.after pid e o s) ∧ Bound y (Desk.after pid e o s) := by
  obtain ⟨-, hchain, hpast, -⟩ := after_outside pid e o s
  refine ⟨.after hs.clean pid e o, hs.clean.after hp, ?_, fun id row hrow hb => ?_⟩
  · rw [hpast, hchain]
    exact hs.past
  · have hstep : RowStep s pid e id _ _ := row_step hs.clean o id
    rw [hrow] at hstep
    generalize hrow₀ : s.db.orders.lookup id = r at hstep
    cases r with
    | none =>
      cases hstep with
      | created he htx hcr => cases hb
    | some row₀ =>
      obtain ⟨row', hrow', hplace⟩ := hstep.kept
      obtain rfl := Option.some.inj hrow'
      rw [hchain, hplace]
      obtain hb₀ | hbinds := (rowStep_bound hstep).2 hb
      · exact hs.rows id row₀ hrow₀ hb₀
      · obtain ⟨row₁, hrow₁, hbound⟩ := hl id hbinds
        obtain rfl := Option.some.inj (hrow₁.symm.trans hrow₀)
        exact hbound

theorem Bound.moved (hs : Bound y s) {a : Move} (ha : Desk.Moves s a) :
    Grows s (Desk.moved s a) ∧ Bound y (Desk.moved s a) := by
  refine ⟨.moved ha, hs.clean.moved a, past_moved hs.past ha, fun id row hrow hb => ?_⟩
  rw [orders_moved] at hrow
  exact (Grows.moved ha).chain.bound (hs.rows id row hrow hb)

theorem Bound.release (hs : Bound y s) : Grows s (Desk.release pid s) ∧ Bound y (Desk.release pid s) :=
  ⟨⟨(Grows.refl s).rows, .refl _⟩, hs.clean.release, hs.past, hs.rows⟩

/-- Every service relies on the growth of the office and guarantees it. -/
def bindingProtocol (y : Settings) (allowed : Call → Prop) :
    Protocol (desk y allowed) where
  rely _ := Grows
  guar _ := Grows
  inv := Bound y
  refl _ := Grows.refl
  trans _ := Grows.trans
  shares _ _ _ _ _ _ h := h
  dies _ _ hs := ⟨hs.release.2, fun _ _ => hs.release.1⟩
  moved _ _ hs ha := ⟨(hs.moved ha).2, fun _ => (hs.moved ha).1⟩

abbrev Keeps (y : Settings) (allowed : Call → Prop) (pid : Pid) (p : Service α) (s : Shared) :
    Prop :=
  Safe ((bindingProtocol y allowed).of pid) (fun _ _ => True) p s

theorem keeps_step {k : Reply e → Service α} (hl : ∀ id, binds e = some id → Licensed y s id)
    (hk : ∀ r t, Bound y t → Grows s t → Keeps y allowed pid (k r) t) :
    Keeps y allowed pid (.step e k) s := by
  apply safe_step _
  intro t o hst ht hp
  obtain ⟨hgrows, hu⟩ := ht.after hp fun id hid => (hl id hid).grow hst
  exact ⟨hgrows, hu, hk _ _ hu (hst.trans hgrows)⟩

theorem keeps_of_every {p : Service α}
    (h : Every (fun e => ∀ id, binds e = some id → Licensed y s id) p) :
    Keeps y allowed pid p s := by
  induction p generalizing s with
  | pure a => exact fun _ _ _ => trivial
  | fail => trivial
  | step e k ih =>
    refine keeps_step h.1 fun r t _ hgrows => ih r ?_
    exact (h.2 r).mono fun e he id hid => (he id hid).grow hgrows

theorem safe_ask {Q : α → Shared → Prop} {q : Query} {k : q.Reply → Service α}
    (hk : ∀ t o, Bound y t → Grows s t → Truthful y t o q →
      Safe ((bindingProtocol y allowed).of pid) Q (k (answer t o q)) t) :
    Safe ((bindingProtocol y allowed).of pid) Q (ask q >>= k) s :=
  safe_step _ fun t o hst ht hp => ⟨.refl _, ht, hk t o ht hst hp⟩

def Known (y : Settings) (s : Shared) (id : OrderId) (order : Order) : Prop :=
  ∃ row, s.db.orders.lookup id = some row ∧ row.toPlacement = order.toPlacement ∧
    (notYetBoundOnChain order.status = false →
      BoundAt s.chain y.escrowContractId order.toPlacement)

theorem Known.grow (hk : Known y s id order) (h : Grows s t) : Known y t id order := by
  obtain ⟨row, hrow, hp, hb⟩ := hk
  obtain ⟨row', hrow', hp', -⟩ := h.rows id row hrow
  exact ⟨row', hrow', hp'.trans hp, fun hbound => h.chain.bound (hb hbound)⟩

theorem Bound.known (hs : Bound y s) (h : s.db.orders.lookup id = some row) : Known y s id row :=
  ⟨row, h, rfl, hs.rows id row h⟩

theorem Known.licensed (hk : Known y s id order)
    (hb : BoundAt s.chain y.escrowContractId order.toPlacement) : Licensed y s id := by
  obtain ⟨row, hrow, hp, -⟩ := hk
  exact ⟨row, hrow, hp ▸ hb⟩

theorem Bound.of_read (hs : Bound y s) {p : Placement} {trade : TradeOnChain}
    (hr : ReallyHad s (contractIdFor p y.escrowContractId) p.tradeId (some trade))
    (hv : verifyTradeMatchesOrder trade p.toOrderBindingFields = []) :
    BoundAt s.chain y.escrowContractId p := by
  obtain ⟨c, hc, htrade⟩ := hr
  obtain ⟨t, ht, rfl⟩ := Option.map_eq_some_iff.mp htrade.symm
  have hgrows : ChainGrows c s.chain := by
    obtain rfl | hc := List.mem_cons.mp hc
    · exact .refl _
    · exact hs.past c hc
  exact hgrows.bound ⟨t, ht, hv⟩

theorem Known.of_read (hk : Known y s id order) (hs : Bound y s) {trade : TradeOnChain}
    (hr : ReallyHad s (contractIdFor order.toPlacement y.escrowContractId) order.tradeId
      (some trade))
    (hb : tradeBindsToOrder trade order = true) : Licensed y s id := by
  simp only [tradeBindsToOrder, Bool.or_eq_true, Bool.not_eq_true', decide_eq_true_eq] at hb
  obtain hb | hv := hb
  · have ⟨_, _, _, hbound⟩ := hk
    exact hk.licensed (hbound hb)
  · exact hk.licensed (hs.of_read hr hv)

def Harmless (e : Effect) : Prop := binds e = none

theorem keeps_of_harmless {p : Service α} (h : Every Harmless p) : Keeps y allowed pid p s :=
  keeps_of_every (h.mono fun _ he id hid => by cases he.symm.trans hid)

theorem read_cached {c : Address} {i : TradeId} {trade : TradeOnChain}
    (h : Truthful y s o (.getTradeStatus c i)) (ho : o.onChain = some trade) :
    ReallyHad s c i (some trade) := by
  obtain hnone | hread := h
  · cases hnone.symm.trans ho
  · exact ho ▸ hread

theorem read_strict {c : Address} {i : TradeId} {onChain : Option TradeOnChain}
    (h : Truthful y s o (.getTradeStatusStrict c i))
    (ho : answer s o (.getTradeStatusStrict c i) = some onChain) : ReallyHad s c i onChain := by
  simp only [answer] at ho
  split at ho
  next => cases ho
  next hf =>
    obtain rfl := Option.some.inj ho
    exact h.resolve_left hf

theorem refreshOrderStatus_keeps (hk : Known y s id order) :
    Keeps y allowed pid (refreshOrderStatus y.escrowContractId id order) s := by
  rw [refreshOrderStatus]
  split
  next =>
    apply safe_ask
    intro t o ht hst htruth
    simp only [answer]
    split
    next => exact fun _ _ _ => trivial
    next trade htrade =>
      split
      next hb =>
        have hl := (hk.grow hst).of_read ht (read_cached htruth htrade) hb
        split
        next =>
          refine keeps_of_every (every_update (fun i hi => ?_) fun _ => ?_)
          · obtain rfl := Option.some.inj hi
            exact hl
          · exact every_ask (fun i hi => by cases hi) fun _ => trivial
        next => exact fun _ _ _ => trivial
      next => exact fun _ _ _ => trivial
  next => exact fun _ _ _ => trivial

theorem getOrder_keeps : Keeps y allowed pid (getOrder y.escrowContractId id) s := by
  apply safe_ask
  intro t o ht hst _
  simp only [answer]
  split
  next => trivial
  next order horder =>
    apply Safe.bind Grows.refl (refreshOrderStatus_keeps (ht.known horder)) ht
    intro _ _ _ _
    exact fun _ _ _ => trivial

theorem statusForCancel_keeps (hk : Known y s id order) :
    Keeps y allowed pid (statusForCancel y.escrowContractId id order) s := by
  rw [statusForCancel]
  split
  next =>
    apply safe_ask
    intro t o ht hst htruth
    split
    next => trivial
    next => exact fun _ _ _ => trivial
    next trade htrade =>
      split
      next hb =>
        have hl := (hk.grow hst).of_read ht (read_strict htruth htrade) hb
        split
        next =>
          refine keeps_of_every (every_update (fun i hi => ?_) fun _ => ?_)
          · obtain rfl := Option.some.inj hi
            exact hl
          · split <;> trivial
        next => exact fun _ _ _ => trivial
      next => exact fun _ _ _ => trivial
  next => exact fun _ _ _ => trivial

theorem cancelOrder_keeps (caller : Address) :
    Keeps y allowed pid (cancelOrder y.escrowContractId id caller) s := by
  apply safe_ask
  intro t o ht hst _
  simp only [answer]
  split
  next => trivial
  next order horder =>
    -- Only the promotion binds, and it comes after the provider has been read.
    have hprovider : Safe ((bindingProtocol y allowed).of pid)
        (fun _ t => Known y t id order) (providerOf order) t := by
      rw [providerOf]
      split
      next => exact fun u htu _ => (ht.known horder).grow htu
      next =>
        refine safe_step _ fun u o' htu hu _ => ⟨.refl _, hu, fun v huv _ => ?_⟩
        exact (ht.known horder).grow (htu.trans huv)
    apply Safe.bind Grows.refl hprovider ht
    intro lp u hu hk
    split
    next => trivial
    next =>
      apply Safe.bind Grows.refl (statusForCancel_keeps hk) hu
      intro status v hv _
      split
      next =>
        refine keeps_of_harmless (every_update rfl fun _ => ?_)
        split <;> trivial
      next => trivial

def BindsOnly (id : OrderId) (e : Effect) : Prop := ∀ i, binds e = some i → i = id

theorem keeps_of_bindsOnly {p : Service α} (hl : Licensed y s id) (h : Every (BindsOnly id) p) :
    Keeps y allowed pid p s :=
  keeps_of_every (h.mono fun _ he i hi => he i hi ▸ hl)

theorem Harmless.bindsOnly (he : Harmless e) : BindsOnly id e :=
  fun _ hi => by cases he.symm.trans hi

theorem handleEvent_bindsOnly (c : Address) (ev : RpcEvent) :
    Every (BindsOnly id) (handleEvent c ev id order) := by
  refine handleEvent_every (fun q => Harmless.bindsOnly rfl) (fun _ => Harmless.bindsOnly rfl)
    (fun e he _ _ i hi => ?_) c ev
  cases e with
  | write id' w =>
    obtain rfl := Option.some.inj he
    cases w <;> first | exact (Option.some.inj hi).symm | cases hi
  | verdict event id' v => exact Option.some.inj (hi.symm.trans he)
  | _ => cases hi

theorem lookup_of_findByTradeId {orders : Store OrderId Order} {i : TradeId}
    (h : findByTradeId orders i = some (id, order)) :
    orders.lookup id = some order ∧ order.tradeId = i := by
  obtain ⟨⟨id', row⟩, hfind, hpair⟩ := Option.map_eq_some_iff.mp h
  obtain ⟨rfl, rfl⟩ := Prod.mk.inj hpair
  exact ⟨AList.mem_lookup_iff.mpr (List.mem_of_find?_eq_some hfind),
    by simpa using List.find?_some hfind⟩

theorem applyEvent_keeps (ev : RpcEvent) :
    Keeps y allowed pid (applyEvent y.escrowContractId ev) s := by
  rw [applyEvent]
  split
  next => exact fun _ _ _ => trivial
  next =>
    apply safe_ask
    intro t o ht hst _
    split
    next id order c hfound hc =>
      obtain ⟨horder, -⟩ := lookup_of_findByTradeId hfound
      have hk := ht.known horder
      split
      next hcontract =>
        subst hcontract
        split
        next =>
          -- The row is not bound yet: the strict read and the comparison license the rest.
          have hbind : Safe ((bindingProtocol y allowed).of pid)
              (fun bound t => bound = true → Licensed y t id)
              (bindTradeToOrder (contractIdFor order.toPlacement y.escrowContractId) order) t := by
            apply safe_ask
            intro u o' hu htu hread
            split
            next => trivial
            next => exact fun _ _ _ hf => by cases hf
            next trade htrade =>
              intro v huv _ hv
              have hbound := hu.of_read (read_strict hread htrade) (of_decide_eq_true hv)
              exact ((hk.grow htu).licensed hbound).grow huv
          apply Safe.bind Grows.refl hbind ht
          intro bound u hu hl
          split
          next hbound => exact keeps_of_bindsOnly (hl hbound) (handleEvent_bindsOnly _ _)
          next => exact fun _ _ _ => trivial
        next hbound =>
          have hl := hk.licensed (ht.rows id order horder (by simpa using hbound))
          exact keeps_of_bindsOnly hl (handleEvent_bindsOnly _ _)
      next => exact fun _ _ _ => trivial
    next => exact fun _ _ _ => trivial

/-- Every service that the office runs keeps its rows bound. -/
theorem body_keeps (pid : Pid) (c : Call) (s : Shared) (hs : Bound y s) :
    Keeps y allowed pid (body y c) s := by
  cases c with
  | getOrder id => exact getOrder_keeps
  | cancelOrder id caller => exact cancelOrder_keeps caller
  | expireStaleOrders =>
    exact keeps_of_harmless (expireStaleOrders_every _ (fun _ => rfl) fun _ => rfl)
  | autoRefundExpired =>
    exact keeps_of_harmless (autoRefundExpired_every _ (fun _ => rfl) fun _ _ _ => rfl)
  | attestFiatPaid id =>
    exact keeps_of_harmless (attestFiatPaid_every _ (fun _ => rfl) rfl)
  | setStatus id status note =>
    exact keeps_of_harmless (setStatus_every (fun _ => rfl) fun _ _ => rfl)
  | applyEvent ev =>
    exact Safe.bind Grows.refl (applyEvent_keeps ev) hs fun _ _ _ _ => fun _ _ _ => trivial
  | createFromQuote user quoteId destination =>
    refine keeps_of_harmless (createFromQuote_every y (fun _ => rfl) (fun e he _ => ?_) _ _ _)
    cases e <;> first | rfl | cases he

structure Unbound (s : Shared) : Prop extends Opening s where
  past : s.past = []
  rows : ∀ id row, s.db.orders.lookup id = some row → notYetBoundOnChain row.status = true

theorem Unbound.bound (h : Unbound s) : Bound y s where
  clean := h.clean
  past c hc := by simp [h.past] at hc
  rows id row hrow hb := by simp [h.rows id row hrow] at hb

theorem run_orderly_bound {w : Office} {tr : DeskHistory} (hs : Unbound s)
    (hr : Run (machine (desk y allowed)) (idle s) tr w) :
    Orderly (bindingProtocol y allowed) w :=
  run_orderly (fun pid c s hs _ => body_keeps pid c s hs) hr (.idle hs.bound)

/-- Along every run of the office, an order with a status of the chain has its
matching trade there, and never goes on to be cancelled or to expire. -/
theorem bound_rows_match {w : Office} {tr : DeskHistory} (hs : Unbound s)
    (hr : Run (machine (desk y allowed)) (idle s) tr w) :
    (∀ id row, w.shared.db.orders.lookup id = some row → row.status ∈ boundOnChain →
      ∃ t, (w.shared.chain (contractIdFor row.toPlacement y.escrowContractId)).trade row.tradeId =
          some t ∧
        verifyTradeMatchesOrder (decodeTradeStatus t) row.toOrderBindingFields = []) ∧
    ∀ e ∈ tr, ∀ id row row', e.pre.shared.db.orders.lookup id = some row →
      e.post.shared.db.orders.lookup id = some row' → row.status ∈ boundOnChain →
        row'.status ≠ .cancelled ∧ row'.status ≠ .expired := by
  have hbound (status : OrderStatus) (h : status ∈ boundOnChain) :
      notYetBoundOnChain status = false := by
    simpa [notYetBoundOnChain] using h
  refine ⟨fun id row hrow hb => ?_, fun e he id row row' hrow hrow' hb => ?_⟩
  · exact (run_orderly_bound hs hr).1.rows id row hrow (hbound _ hb)
  · obtain ⟨tr₁, tr₂, -, hpre, ha, hentry, -⟩ := hr.of_mem he
    have hclean := run_clean hs.toOpening hpre
    rw [entry_post hentry] at hrow'
    have hkept : notYetBoundOnChain row'.status = false := by
      obtain hsame | ⟨pid, eff, -, hstep⟩ := row_of_step hclean (step_of_next ha) id
      · obtain rfl := Option.some.inj (hrow'.symm.trans (hsame.trans hrow))
        exact hbound _ hb
      · rw [hrow, hrow'] at hstep
        exact (rowStep_bound hstep).1 (hbound _ hb)
    constructor <;> intro h <;> rw [h] at hkept <;> cases hkept

theorem sampleDesk_unbound : Unbound (sampleDesk sampleOrders) where
  toOpening := sampleDesk_opening _
  past := rfl
  rows id row h := by
    by_cases hid : id = 0
    · subst hid
      obtain rfl := Option.some.inj h
      rfl
    · simp only [sampleDesk, sampleOrders, AList.lookup_insert_ne hid, AList.lookup_empty] at h
      cases h

def samplePromoted : Office := final office (idle (sampleDesk sampleOrders)) promoteActions

theorem sample_bound_rows_match :
    Unbound (sampleDesk sampleOrders) ∧
    (samplePromoted.shared.db.orders.lookup 0).map (·.status) = some .funded ∧
    ∀ row, samplePromoted.shared.db.orders.lookup 0 = some row → row.status ∈ boundOnChain →
      ∃ t, (samplePromoted.shared.chain (contractIdFor row.toPlacement ⟨0⟩)).trade row.tradeId =
          some t ∧
        verifyTradeMatchesOrder (decodeTradeStatus t) row.toOrderBindingFields = [] :=
  ⟨sampleDesk_unbound, by decide, fun row hrow hb =>
    (bound_rows_match sampleDesk_unbound (Run.of_actions _ _ promoteActions_admitted)).1
      0 row hrow hb⟩

end Lolipay.Coordinator.BoundRows
