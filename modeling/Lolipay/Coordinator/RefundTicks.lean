import Lolipay.Lists.Sweeps
import Lolipay.Coordinator.OrphanWalk

namespace Lolipay.Coordinator.RefundTicks

open Lolipay.Lists.Sweeps Lolipay.Ledger.Storage Lolipay.Ledger.Invocation Lolipay.Async.Process
open Lolipay.Escrow.Types
open Lolipay.Coordinator.Orders Lolipay.Coordinator.Binding Lolipay.Coordinator.Writes
open Lolipay.Coordinator.Database Lolipay.Coordinator.Services Lolipay.Coordinator.Desk
open Lolipay.Coordinator.OrphanWalk (autoRefundBatchSize)

def secsOf (now : ℕ) : ℤ := (now : ℤ) / 1000

structure Scene where
  shared : Shared
  refunded : List TradeId

def Scene.row (s : Scene) (id : OrderId) : Option Order := s.shared.db.orders.lookup id

/-- Funded orders past their refund instant whose trades are funded on chain, the
order in which the database returns them, and the trades whose refund never goes
through. What is read back after a refund is open. -/
structure RefundPool where
  home : Address
  config : PlatformConfig
  shared : Shared
  order : List OrderId
  clock : ℕ → ℕ
  onChain : TradeId → TradeOnChain
  readBack : TradeId → Option (Option TradeOnChain)
  refuses : TradeId → Bool
  hashOf : TradeId → TxHash
  autoRefund : config.autoRefund = true
  funded : ∀ tradeId, (onChain tradeId).status = .funded
  nodup : order.Nodup
  listed : ∀ n id, id ∈ order ↔
    (shared.db.orders.lookup id).any (refundableAt (secsOf (clock n))) = true
  trades : ∀ id id' row row', shared.db.orders.lookup id = some row →
    shared.db.orders.lookup id' = some row' → id ∈ order → id' ∈ order →
      row.tradeId = row'.tradeId → id = id'

namespace RefundPool

def choice (p : RefundPool) (e : Effect) (s : Scene) : Choice :=
  match e with
  | .ask .getConfig => { config := some p.config }
  | .ask (.findRefundable nowSecs) =>
    { picks := (p.order.filter fun id =>
        (s.row id).any (refundableAt nowSecs)).take autoRefundBatchSize }
  | .ask (.getTradeStatusStrict _ tradeId) =>
    if tradeId ∈ s.refunded then
      match p.readBack tradeId with
      | none => { fails := true }
      | some onChain => { onChain }
    else { onChain := some (p.onChain tradeId) }
  | .ask (.submitRefund _ tradeId) =>
    { hash := if p.refuses tradeId then none else some (p.hashOf tradeId) }
  | _ => {}

/-- A submission that goes through refunds the trade; the rest is the desk's. -/
def effect (p : RefundPool) (e : Effect) (s : Scene) : Scene × Reply e :=
  ({ shared := after 0 e (p.choice e s) s.shared
     refunded :=
      match e with
      | .ask (.submitRefund _ tradeId) =>
        if p.refuses tradeId then s.refunded else tradeId :: s.refunded
      | _ => s.refunded },
    reply 0 e (p.choice e s) s.shared)

def tick (p : RefundPool) (n : ℕ) (s : Scene) : Scene :=
  (complete p.effect (autoRefundExpired p.home)
    { s with shared := { s.shared with now := p.clock n } }).2.1

def scene (p : RefundPool) : ℕ → Scene
  | 0 => ⟨p.shared, []⟩
  | n + 1 => p.tick n (p.scene n)

def refusesOrder (p : RefundPool) (id : OrderId) : Bool :=
  (p.shared.db.orders.lookup id).any fun row => p.refuses row.tradeId

def isRefunded (p : RefundPool) (n : ℕ) (id : OrderId) : Bool :=
  ((p.scene n).row id).any fun row => row.status = .refunded

variable {p : RefundPool} {s : Scene} {id : OrderId} {row : Order} {n : ℕ}

/-- The row of an order that somebody has refunded, and nothing else. -/
structure Refunds (id : OrderId) (tradeId : TradeId) (s s' : Scene) : Prop where
  own : ∃ row, s'.row id = some row ∧ row.status = .refunded
  others : ∀ id' ≠ id, s'.row id' = s.row id'
  refunded : s'.refunded = tradeId :: s.refunded

theorem data_autoRefund_status (now : ℕ) (hash : TxHash) (settlement : Option TradeOnChain)
    (row : Order) : (RowWrite.data now (.autoRefund hash settlement) row).status = .refunded := by
  cases settlement with
  | none => rfl
  | some onChain =>
    simp only [RowWrite.data, Option.elim_some, settlementFieldsFrom]
    split_ifs <;> rfl

theorem effect_read (contractId : Address) (tradeId : TradeId) (s : Scene) :
    (p.effect (.ask (.getTradeStatusStrict contractId tradeId)) s).1 = s := rfl

theorem effect_status (contractId : Address) {tradeId : TradeId} (h : tradeId ∉ s.refunded) :
    p.effect (.ask (.getTradeStatusStrict contractId tradeId)) s =
      (s, some (some (p.onChain tradeId))) := by
  simp [effect, choice, reply, answer, after, h]

theorem effect_submit_refused (contractId : Address) {tradeId : TradeId}
    (h : p.refuses tradeId = true) :
    p.effect (.ask (.submitRefund contractId tradeId)) s = (s, none) := by
  simp [effect, choice, reply, answer, after, h]

theorem effect_submit (contractId : Address) {tradeId : TradeId}
    (h : p.refuses tradeId = false) :
    p.effect (.ask (.submitRefund contractId tradeId)) s =
      ({ s with refunded := tradeId :: s.refunded }, some (p.hashOf tradeId)) := by
  simp [effect, choice, reply, answer, after, h]

theorem effect_write (id : OrderId) (w : RowWrite) (s : Scene) :
    (p.effect (.write id w) s).1 = { s with shared := (runWrite id w s.shared).1 } := rfl

theorem refundOrder_refused (id : OrderId) (hnot : row.tradeId ∉ s.refunded)
    (hrefuses : p.refuses row.tradeId = true) :
    (complete p.effect (refundOrder p.home id row) s).2 = (s, some ()) := by
  simp only [refundOrder, ask, bind, Program.bind, complete, effect_status _ hnot, p.funded,
    if_true, effect_submit_refused _ hrefuses]

theorem refundOrder_refunds (hnot : row.tradeId ∉ s.refunded)
    (hrefuses : p.refuses row.tradeId = false) (hrow : s.row id = some row)
    (hstatus : row.status = .funded) :
    ∃ s', (complete p.effect (refundOrder p.home id row) s).2 = (s', some ()) ∧
      Refunds id row.tradeId s s' := by
  let contractId := contractIdFor row.toPlacement p.home
  let submitted : Scene := { s with refunded := row.tradeId :: s.refunded }
  let after := (p.effect (.ask (.getTradeStatusStrict contractId row.tradeId)) submitted).2
  let w : RowWrite := .autoRefund (p.hashOf row.tradeId) (after.getD none)
  have hcomplete : (complete p.effect (refundOrder p.home id row) s).2 =
      ((p.effect (.write id w) submitted).1, some ()) := by
    simp only [refundOrder, ask, issue, bind, Program.bind, complete, effect_status _ hnot, p.funded,
      if_true, effect_submit _ hrefuses, effect_read]
    rfl
  have hwrite : runWrite id w s.shared =
      (s.shared.setOrder id (w.data s.shared.now row), 1) := by
    have hmatches : w.matchesRow row = true := by
      change decide (row.status = .funded) = true
      simpa using hstatus
    rw [runWrite, show s.shared.db.orders.lookup id = some row from hrow, Option.bind_some,
      RowWrite.run, if_pos hmatches]
  refine ⟨_, hcomplete, ?_, ?_, ?_⟩
  · rw [effect_write]
    refine ⟨w.data s.shared.now row, ?_, data_autoRefund_status _ _ _ _⟩
    simp [Scene.row, submitted, hwrite, Shared.setOrder]
  · intro id' hid'
    rw [effect_write]
    simp [Scene.row, submitted, hwrite, Shared.setOrder, AList.lookup_insert_ne hid']
  · rfl

/-- What the loop may rely on when it starts: the rows are as they were read, and no
trade comes up twice. -/
structure Ready (cs : List (OrderId × Order)) (s : Scene) : Prop where
  rows : ∀ c ∈ cs, s.row c.1 = some c.2 ∧ c.2.status = .funded ∧ c.2.tradeId ∉ s.refunded
  ids : (cs.map (·.1)).Nodup
  trades : (cs.map (·.2.tradeId)).Nodup

/-- What the loop leaves: the candidates that do not fail are refunded. -/
structure Done (p : RefundPool) (cs : List (OrderId × Order)) (s s' : Scene) : Prop where
  refunds : ∀ c ∈ cs, p.refuses c.2.tradeId = false →
    ∃ row, s'.row c.1 = some row ∧ row.status = .refunded
  others : ∀ id, (∀ c ∈ cs, c.1 = id → p.refuses c.2.tradeId = true) → s'.row id = s.row id
  refunded : ∀ tradeId ∈ s'.refunded, tradeId ∈ s.refunded ∨
    ∃ c ∈ cs, c.2.tradeId = tradeId ∧ p.refuses tradeId = false

theorem Ready.tail {c : OrderId × Order} {cs : List (OrderId × Order)} (h : Ready (c :: cs) s) :
    Ready cs s where
  rows c' hc' := h.rows c' (List.mem_cons_of_mem c hc')
  ids := h.ids.of_cons
  trades := h.trades.of_cons

theorem Ready.after_refund {c : OrderId × Order} {cs : List (OrderId × Order)} {s' : Scene}
    (h : Ready (c :: cs) s) (hr : Refunds c.1 c.2.tradeId s s') : Ready cs s' := by
  refine ⟨?_, h.ids.of_cons, h.trades.of_cons⟩
  intro c' hc'
  obtain ⟨hrow, hstatus, hnot⟩ := h.rows c' (List.mem_cons_of_mem c hc')
  have hid : c'.1 ≠ c.1 := by
    intro heq
    have hnodup := h.ids
    rw [List.map_cons, List.nodup_cons] at hnodup
    exact hnodup.1 (heq ▸ List.mem_map_of_mem hc')
  have htrade : c'.2.tradeId ≠ c.2.tradeId := by
    intro heq
    have hnodup := h.trades
    rw [List.map_cons, List.nodup_cons] at hnodup
    exact hnodup.1 (heq ▸ List.mem_map_of_mem (f := fun c : OrderId × Order => c.2.tradeId) hc')
  refine ⟨(hr.others c'.1 hid).trans hrow, hstatus, ?_⟩
  rw [hr.refunded, List.mem_cons, not_or]
  exact ⟨htrade, hnot⟩

theorem Done.after_refused {c : OrderId × Order} {cs : List (OrderId × Order)} {s' : Scene}
    (h : Done p cs s s') (hrefuses : p.refuses c.2.tradeId = true) : Done p (c :: cs) s s' := by
  constructor
  · intro c' hc' hgoes
    obtain rfl | hc' := List.mem_cons.mp hc'
    · rw [hrefuses] at hgoes
      cases hgoes
    · exact h.refunds c' hc' hgoes
  · intro id hid
    exact h.others id fun c' hc' => hid c' (List.mem_cons_of_mem c hc')
  · intro tradeId ht
    obtain ht | ⟨c', hc', hct⟩ := h.refunded tradeId ht
    · exact Or.inl ht
    · exact Or.inr ⟨c', List.mem_cons_of_mem c hc', hct⟩

theorem Done.after_refund {c : OrderId × Order} {cs : List (OrderId × Order)} {s₁ s' : Scene}
    (h : Done p cs s₁ s') (hr : Refunds c.1 c.2.tradeId s s₁) (hrefuses : p.refuses c.2.tradeId = false)
    (hids : ((c :: cs).map (·.1)).Nodup) : Done p (c :: cs) s s' := by
  constructor
  · intro c' hc' hgoes
    obtain rfl | hc' := List.mem_cons.mp hc'
    · have hlater : ∀ d ∈ cs, d.1 = c'.1 → p.refuses d.2.tradeId = true := by
        intro d hd heq
        rw [List.map_cons, List.nodup_cons] at hids
        exact absurd (heq ▸ List.mem_map_of_mem hd) hids.1
      rw [h.others c'.1 hlater]
      exact hr.own
    · exact h.refunds c' hc' hgoes
  · intro id hid
    have hne : id ≠ c.1 := by
      rintro rfl
      have htrue := hid c List.mem_cons_self rfl
      rw [hrefuses] at htrue
      cases htrue
    rw [h.others id fun d hd => hid d (List.mem_cons_of_mem c hd), hr.others id hne]
  · intro tradeId ht
    obtain ht | ⟨d, hd, hdt⟩ := h.refunded tradeId ht
    · rw [hr.refunded, List.mem_cons] at ht
      obtain rfl | ht := ht
      · exact Or.inr ⟨c, List.mem_cons_self, rfl, hrefuses⟩
      · exact Or.inl ht
    · exact Or.inr ⟨d, List.mem_cons_of_mem c hd, hdt⟩

theorem forEach_refunds {cs : List (OrderId × Order)} (h : Ready cs s) :
    ∃ s', (complete p.effect (forEach cs fun c => refundOrder p.home c.1 c.2) s).2 =
      (s', some ()) ∧ Done p cs s s' := by
  induction cs generalizing s with
  | nil => exact ⟨s, rfl, by simp, fun _ _ => rfl, fun _ ht => Or.inl ht⟩
  | cons c cs ih =>
    obtain ⟨hrow, hstatus, hnot⟩ := h.rows c List.mem_cons_self
    cases hrefuses : p.refuses c.2.tradeId with
    | true =>
      obtain ⟨s', hrest, hdone⟩ := ih h.tail
      refine ⟨s', ?_, hdone.after_refused hrefuses⟩
      rw [forEach, complete_bind (Prod.ext rfl (refundOrder_refused c.1 hnot hrefuses))]
      exact hrest
    | false =>
      obtain ⟨s₁, hfirst, hr⟩ := refundOrder_refunds hnot hrefuses hrow hstatus
      obtain ⟨s', hrest, hdone⟩ := ih (h.after_refund hr)
      refine ⟨s', ?_, hdone.after_refund hr hrefuses h.ids⟩
      rw [forEach, complete_bind (Prod.ext rfl hfirst)]
      exact hrest

theorem mem_rowsOf {orders : Store OrderId Order} {q : Order → Bool} {picks : List ℕ}
    {c : OrderId × Order} :
    c ∈ rowsOf orders q picks ↔ c.1 ∈ picks ∧ orders.lookup c.1 = some c.2 ∧ q c.2 = true := by
  rw [rowsOf, List.mem_filterMap]
  constructor
  · rintro ⟨id, hid, hc⟩
    obtain ⟨row, hrow, rfl⟩ := Option.map_eq_some_iff.mp hc
    obtain ⟨hlookup, hq⟩ := Option.filter_eq_some_iff.mp hrow
    exact ⟨hid, hlookup, hq⟩
  · rintro ⟨hid, hlookup, hq⟩
    refine ⟨c.1, hid, ?_⟩
    rw [Option.filter_eq_some_iff.mpr ⟨hlookup, hq⟩]
    rfl

theorem rowsOf_ids_sublist (orders : Store OrderId Order) (q : Order → Bool) (picks : List ℕ) :
    ((rowsOf orders q picks).map (·.1)).Sublist picks := by
  induction picks with
  | nil => exact List.Sublist.refl _
  | cons id picks ih =>
    rw [rowsOf, List.filterMap_cons]
    cases (orders.lookup id).filter q with
    | none => exact ih.cons id
    | some row => exact ih.cons_cons id

/-- Between two ticks an order of the pool is as it was or refunded. -/
structure Between (p : RefundPool) (s : Scene) : Prop where
  rows : ∀ id ∈ p.order, ∀ row, p.shared.db.orders.lookup id = some row →
    s.row id = some row ∧ row.tradeId ∉ s.refunded ∨
      ∃ row', s.row id = some row' ∧ row'.status = .refunded

def pending (p : RefundPool) (s : Scene) : List OrderId :=
  p.order.filter fun id => (s.row id).any fun row => row.status = .funded

theorem row_of_mem (h : id ∈ p.order) :
    ∃ row, p.shared.db.orders.lookup id = some row ∧ row.status = .funded ∧
      ∀ n, refundableAt (secsOf (p.clock n)) row = true := by
  have hlisted := fun n => (p.listed n id).mp h
  cases hrow : p.shared.db.orders.lookup id with
  | none => simp [hrow] at hlisted
  | some row =>
    have hrefundable : ∀ n, refundableAt (secsOf (p.clock n)) row = true := by
      intro n
      simpa [hrow] using hlisted n
    refine ⟨row, rfl, ?_, hrefundable⟩
    have h0 := hrefundable 0
    simp only [refundableAt, Bool.and_eq_true, decide_eq_true_eq] at h0
    exact h0.1

/-- The query of a tick finds what is pending, in the order of the database. -/
theorem found_eq_pending (h : Between p s) (n : ℕ) :
    p.order.filter (fun id => (s.row id).any (refundableAt (secsOf (p.clock n)))) =
      p.pending s := by
  apply List.filter_congr
  intro id hid
  obtain ⟨row, hrow, hstatus, hrefundable⟩ := row_of_mem hid
  obtain ⟨hsame, -⟩ | ⟨row', hrow', hstatus'⟩ := h.rows id hid row hrow
  · rw [hsame]
    simp [hstatus, hrefundable n]
  · rw [hrow']
    simp [hstatus', refundableAt]

theorem mem_pending (h : Between p s) (hid : id ∈ p.order) {row : Order}
    (hrow : p.shared.db.orders.lookup id = some row) :
    id ∈ p.pending s ↔ s.row id = some row ∧ row.tradeId ∉ s.refunded := by
  obtain ⟨row₀, hrow₀, hstatus, -⟩ := row_of_mem hid
  obtain rfl : row₀ = row := Option.some.inj (hrow₀.symm.trans hrow)
  rw [pending, List.mem_filter]
  obtain ⟨hsame, hnot⟩ | ⟨row', hrow', hstatus'⟩ := h.rows id hid row₀ hrow
  · simp [hid, hsame, hstatus, hnot]
  · rw [hrow']
    constructor
    · rintro ⟨-, hfunded⟩
      simp [hstatus'] at hfunded
    · rintro ⟨hsame, -⟩
      rw [Option.some.inj hsame, hstatus] at hstatus'
      cases hstatus'

theorem refusesOrder_eq {row : Order} (h : p.shared.db.orders.lookup id = some row) :
    p.refusesOrder id = p.refuses row.tradeId := by
  rw [refusesOrder, h, Option.any_some]

theorem pending_nodup (p : RefundPool) (s : Scene) : (p.pending s).Nodup :=
  p.nodup.filter _

def atClock (p : RefundPool) (n : ℕ) (s : Scene) : Scene :=
  { s with shared := { s.shared with now := p.clock n } }

def batch (p : RefundPool) (n : ℕ) (s : Scene) : List (OrderId × Order) :=
  rowsOf s.shared.db.orders (refundableAt (secsOf (p.clock n)))
    ((p.pending s).take autoRefundBatchSize)

theorem mem_batch (h : Between p s) {c : OrderId × Order} :
    c ∈ p.batch n s ↔ c.1 ∈ (p.pending s).take autoRefundBatchSize ∧
      p.shared.db.orders.lookup c.1 = some c.2 := by
  rw [batch, mem_rowsOf]
  constructor
  · rintro ⟨htake, hlookup, -⟩
    have hmem := List.mem_of_mem_take htake
    have hid : c.1 ∈ p.order := (List.mem_filter.mp hmem).1
    obtain ⟨row, hrow, -, -⟩ := row_of_mem hid
    have hsame := ((mem_pending h hid hrow).mp hmem).1
    rw [Scene.row, hlookup] at hsame
    exact ⟨htake, hrow.trans hsame.symm⟩
  · rintro ⟨htake, hrow⟩
    have hmem := List.mem_of_mem_take htake
    have hid : c.1 ∈ p.order := (List.mem_filter.mp hmem).1
    obtain ⟨row, hrow', -, hrefundable⟩ := row_of_mem hid
    obtain rfl : row = c.2 := Option.some.inj (hrow'.symm.trans hrow)
    exact ⟨htake, ((mem_pending h hid hrow).mp hmem).1, hrefundable n⟩

theorem batch_ready (h : Between p s) (n : ℕ) : Ready (p.batch n s) (p.atClock n s) := by
  have hids : ((p.batch n s).map (·.1)).Nodup :=
    (pending_nodup p s).sublist ((rowsOf_ids_sublist _ _ _).trans (List.take_sublist _ _))
  have horder : ∀ c ∈ p.batch n s, c.1 ∈ p.order := by
    intro c hc
    exact (List.mem_filter.mp (List.mem_of_mem_take ((mem_batch h).mp hc).1)).1
  refine ⟨?_, hids, ?_⟩
  · intro c hc
    obtain ⟨htake, hrow⟩ := (mem_batch h).mp hc
    obtain ⟨row, hrow', hstatus, -⟩ := row_of_mem (horder c hc)
    obtain rfl : row = c.2 := Option.some.inj (hrow'.symm.trans hrow)
    obtain ⟨hsame, hnot⟩ := (mem_pending h (horder c hc) hrow).mp (List.mem_of_mem_take htake)
    exact ⟨hsame, hstatus, hnot⟩
  · refine List.Nodup.map_on ?_ hids.of_map
    intro c hc d hd htrade
    obtain ⟨-, hrow⟩ := (mem_batch h).mp hc
    obtain ⟨-, hrow'⟩ := (mem_batch h).mp hd
    have hid := p.trades c.1 d.1 c.2 d.2 hrow hrow' (horder c hc) (horder d hd) htrade
    rw [hid] at hrow
    exact Prod.ext hid (Option.some.inj (hrow.symm.trans hrow'))

theorem tick_done (h : Between p s) (n : ℕ) :
    Done p (p.batch n s) (p.atClock n s) (p.tick n s) := by
  obtain ⟨s', hcomplete, hdone⟩ := forEach_refunds (p := p) (batch_ready h n)
  have hfound := found_eq_pending h n
  have htick : p.tick n s = s' := by
    have hrun : p.tick n s = (complete p.effect
        (forEach (p.batch n s) fun c => refundOrder p.home c.1 c.2) (p.atClock n s)).2.1 := by
      rw [batch, ← hfound]
      simp only [tick, autoRefundExpired, ask, bind, Program.bind, complete, effect, choice, reply,
        answer, after, Option.getD_some, p.autoRefund, if_true]
      rfl
    rw [hrun, hcomplete]
  rw [htick]
  exact hdone

theorem tick_refunds (h : Between p s) (hid : id ∈ (p.pending s).take autoRefundBatchSize)
    (hgoes : p.refusesOrder id = false) :
    ∃ row, (p.tick n s).row id = some row ∧ row.status = .refunded := by
  obtain ⟨row, hrow, -, -⟩ := row_of_mem (List.mem_filter.mp (List.mem_of_mem_take hid)).1
  rw [refusesOrder_eq hrow] at hgoes
  exact (tick_done h n).refunds (id, row) ((mem_batch h).mpr ⟨hid, hrow⟩) hgoes

theorem tick_row (h : Between p s)
    (hid : id ∈ (p.pending s).take autoRefundBatchSize → p.refusesOrder id = true) :
    (p.tick n s).row id = s.row id := by
  apply (tick_done h n).others id
  rintro ⟨id', row⟩ hc rfl
  obtain ⟨htake, hrow⟩ := (mem_batch h).mp hc
  rw [← refusesOrder_eq hrow]
  exact hid htake

theorem tick_between (h : Between p s) (n : ℕ) : Between p (p.tick n s) := by
  constructor
  intro id hid row hrow
  by_cases hgoes : id ∈ (p.pending s).take autoRefundBatchSize ∧ p.refusesOrder id = false
  · exact Or.inr (tick_refunds h hgoes.1 hgoes.2)
  · have hstays : id ∈ (p.pending s).take autoRefundBatchSize → p.refusesOrder id = true := by
      intro htake
      simpa [htake] using hgoes
    rw [tick_row h hstays]
    obtain ⟨hsame, hnot⟩ | hrefunded := h.rows id hid row hrow
    · refine Or.inl ⟨hsame, ?_⟩
      intro hin
      obtain hin | ⟨c, hc, htrade, hc'⟩ := (tick_done h n).refunded row.tradeId hin
      · exact hnot hin
      · obtain ⟨htake, hrow'⟩ := (mem_batch h).mp hc
        have horder := (List.mem_filter.mp (List.mem_of_mem_take htake)).1
        have heq := p.trades c.1 id c.2 row hrow' hrow horder hid htrade
        rw [heq] at htake
        have hrefuses := hstays htake
        rw [refusesOrder_eq hrow, hc'] at hrefuses
        cases hrefuses
    · exact Or.inr hrefunded

theorem tick_pending (h : Between p s) (n : ℕ) :
    p.pending (p.tick n s) = sweep autoRefundBatchSize p.refusesOrder (p.pending s) := by
  rw [sweep_eq_filter (pending_nodup p s)]
  conv_rhs => rw [pending, List.filter_filter]
  apply List.filter_congr
  intro id hid
  by_cases htake : id ∈ (p.pending s).take autoRefundBatchSize
  · have hfunded := List.of_mem_filter (List.mem_of_mem_take htake)
    cases hrefuses : p.refusesOrder id with
    | true =>
      rw [tick_row h fun _ => hrefuses, hfunded]
      simp
    | false =>
      obtain ⟨row, hrow, hstatus⟩ := tick_refunds (n := n) h htake hrefuses
      rw [hrow, ← pending]
      simp [hstatus, htake]
  · rw [tick_row h fun hin => absurd hin htake, ← pending]
    simp [htake]

theorem scene_between (p : RefundPool) (n : ℕ) : Between p (p.scene n) := by
  induction n with
  | zero => exact ⟨fun id _ row hrow => Or.inl ⟨hrow, List.not_mem_nil⟩⟩
  | succ n ih => exact tick_between ih n

theorem scene_pending (p : RefundPool) (n : ℕ) :
    p.pending (p.scene n) = swept autoRefundBatchSize p.refusesOrder p.order n := by
  induction n with
  | zero =>
    rw [pending, swept, List.filter_eq_self]
    intro id hid
    obtain ⟨row, hrow, hstatus, -⟩ := row_of_mem hid
    simp [scene, Scene.row, hrow, hstatus]
  | succ n ih => rw [scene, tick_pending (scene_between p n), ih, swept]

theorem isRefunded_iff (hid : id ∈ p.order) (n : ℕ) :
    p.isRefunded n id = true ↔ id ∉ swept autoRefundBatchSize p.refusesOrder p.order n := by
  obtain ⟨row, hrow, hstatus, -⟩ := row_of_mem hid
  have hbetween := scene_between p n
  rw [← scene_pending, mem_pending hbetween hid hrow, isRefunded]
  obtain ⟨hsame, hnot⟩ | ⟨row', hrow', hstatus'⟩ := hbetween.rows id hid row hrow
  · simp [hsame, hstatus, hnot]
  · rw [hrow']
    constructor
    · rintro - ⟨hsame, -⟩
      rw [Option.some.inj hsame, hstatus] at hstatus'
      cases hstatus'
    · intro _
      simp [hstatus']

/-- The failing orders that the database returns before an order. -/
def failingBefore (p : RefundPool) (id : OrderId) : ℕ :=
  (p.order.takeWhile (· ≠ id)).countP p.refusesOrder

theorem starves (hid : id ∈ p.order) (hmany : autoRefundBatchSize ≤ p.failingBefore id) (n : ℕ) :
    p.isRefunded n id = false := by
  rw [← Bool.not_eq_true, isRefunded_iff hid, not_not]
  exact mem_swept_of_many hid hmany n

/-- An order whose refund goes through is refunded within as many ticks as the pool
has orders exactly when less than a batch of failing ones come before it, and
otherwise never. -/
theorem refunded_in_time_iff (p : RefundPool) (id : OrderId) (hid : id ∈ p.order)
    (hgoes : p.refusesOrder id = false) :
    ((∃ n ≤ p.order.length, p.isRefunded n id = true) ↔
      p.failingBefore id < autoRefundBatchSize) ∧
    (autoRefundBatchSize ≤ p.failingBefore id → ∀ n, p.isRefunded n id = false) := by
  refine ⟨?_, starves hid⟩
  rw [failingBefore, ← swept_away_iff p.nodup hid hgoes]
  constructor
  · rintro ⟨n, hn, hrefunded⟩
    exact ⟨n, hn, (isRefunded_iff hid n).mp hrefunded⟩
  · rintro ⟨n, hn, hgone⟩
    exact ⟨n, hn, (isRefunded_iff hid n).mpr hgone⟩

end RefundPool

section Sample

def lateOrder (id : OrderId) : Order :=
  { samplePlacement with tradeId := BitVec.ofNat 256 id }.opened.setStatus .funded

def lateOrders : ℕ → Store OrderId Order
  | 0 => ∅
  | n + 1 => (lateOrders n).insert n (lateOrder n)

theorem lookup_lateOrders (n id : ℕ) :
    (lateOrders n).lookup id = if id < n then some (lateOrder id) else none := by
  induction n with
  | zero => rfl
  | succ n ih =>
    by_cases hid : id = n
    · subst hid
      simp [lateOrders]
    · rw [lateOrders, AList.lookup_insert_ne hid, ih]
      have hiff : id < n ↔ id < n + 1 := by omega
      simp only [hiff]

theorem lateOrder_refundable (id : OrderId) :
    refundableAt (secsOf 20000000) (lateOrder id) = true := rfl

theorem range_listed (id : ℕ) :
    id ∈ List.range 21 ↔
      ((lateOrders 21).lookup id).any (refundableAt (secsOf 20000000)) = true := by
  rw [lookup_lateOrders, List.mem_range]
  split_ifs with hid
  · simp [hid, lateOrder_refundable]
  · simp [hid]

theorem lateOrders_trades (id id' : ℕ) (row row' : Order)
    (hrow : (lateOrders 21).lookup id = some row) (hrow' : (lateOrders 21).lookup id' = some row')
    (htrade : row.tradeId = row'.tradeId) : id = id' := by
  rw [lookup_lateOrders, Option.ite_none_right_eq_some, Option.some.injEq] at hrow hrow'
  obtain ⟨hid, rfl⟩ := hrow
  obtain ⟨hid', rfl⟩ := hrow'
  have hvalue := congrArg BitVec.toNat htrade
  change id % 2 ^ 256 = id' % 2 ^ 256 at hvalue
  omega

/-- Twenty-one late orders, of which the first ones always fail. -/
def latePool (failing : ℕ) : RefundPool where
  home := ⟨0⟩
  config := defaultConfig
  shared := sampleDesk (lateOrders 21)
  order := List.range 21
  clock _ := 20000000
  onChain _ := decodeTradeStatus sampleFunded
  readBack _ := none
  refuses tradeId := tradeId.toNat < failing
  hashOf _ := 0
  autoRefund := rfl
  funded _ := rfl
  nodup := List.nodup_range
  listed _ id := range_listed id
  trades id id' row row' hrow hrow' _ _ := lateOrders_trades id id' row row' hrow hrow'

theorem latePool_refuses {failing id : ℕ} (h : id < 21) :
    (latePool failing).refusesOrder id = decide (id < failing) := by
  change ((lateOrders 21).lookup id).any (fun row => decide (row.tradeId.toNat < failing)) = _
  rw [lookup_lateOrders, if_pos h, Option.any_some]
  change decide (id % 2 ^ 256 < failing) = decide (id < failing)
  rw [Nat.mod_eq_of_lt (by omega)]

theorem latePool_failingBefore (failing : ℕ) :
    (latePool failing).failingBefore 20 =
      (List.range 20).countP (fun id => decide (id < failing)) := by
  have hfront : (List.range 21).takeWhile (· ≠ 20) = List.range 20 := by decide
  change ((List.range 21).takeWhile (· ≠ 20)).countP (latePool failing).refusesOrder = _
  rw [hfront]
  apply List.countP_congr
  intro id hid
  rw [latePool_refuses (Nat.lt_succ_of_lt (List.mem_range.mp hid))]

/-- Twenty orders that always fail stand before the last one, which nobody refunds. -/
theorem last_order_starves :
    20 ∈ (latePool 20).order ∧ (latePool 20).refusesOrder 20 = false ∧
      ¬ ∃ n ≤ (latePool 20).order.length, (latePool 20).isRefunded n 20 = true := by
  have hmem : 20 ∈ (latePool 20).order := List.mem_range.mpr (by decide)
  refine ⟨hmem, by rw [latePool_refuses (by decide)]; decide, ?_⟩
  rintro ⟨n, -, hrefunded⟩
  have hmany : autoRefundBatchSize ≤ (latePool 20).failingBefore 20 := by
    rw [latePool_failingBefore]
    decide
  rw [RefundPool.starves hmem hmany n] at hrefunded
  cases hrefunded

theorem sample_refunded_in_time :
    ((∃ n ≤ (latePool 1).order.length, (latePool 1).isRefunded n 20 = true) ↔
      (latePool 1).failingBefore 20 < autoRefundBatchSize) ∧
    (autoRefundBatchSize ≤ (latePool 1).failingBefore 20 →
      ∀ n, (latePool 1).isRefunded n 20 = false) :=
  (latePool 1).refunded_in_time_iff 20 (List.mem_range.mpr (by decide))
    (by rw [latePool_refuses (by decide)]; decide)

end Sample

end Lolipay.Coordinator.RefundTicks
