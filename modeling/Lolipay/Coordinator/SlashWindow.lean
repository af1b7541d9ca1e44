import Lolipay.Ledger.Decimal
import Lolipay.Escrow.Liability
import Lolipay.Coordinator.Alerts
import Lolipay.Coordinator.Following
import Lolipay.Coordinator.Footprint
import Lolipay.Coordinator.Guards

namespace Lolipay.Coordinator.SlashWindow

open Lolipay.Ledger.Storage Lolipay.Ledger.Invocation Lolipay.Ledger.Runs
open Lolipay.Ledger.Decimal (toString_inj)
open Lolipay.Async.Process
open Lolipay.Escrow.Types Lolipay.Escrow.System Lolipay.Escrow.Phases
open Lolipay.Escrow.Invariant (settlement moves_settlement)
open Lolipay.Escrow.Lifecycle (moves_of_settled)
open Lolipay.Escrow.Liability (moves_held_liability)
open Lolipay.Escrow.Custody (sampleEnv sampleArgs sampleWorld)
open Lolipay.Coordinator.Alerts (Urgency)
open Lolipay.Coordinator.Orders Lolipay.Coordinator.Binding Lolipay.Coordinator.Writes
open Lolipay.Coordinator.Database Lolipay.Coordinator.Services Lolipay.Coordinator.Indexer
open Lolipay.Coordinator.Desk Lolipay.Coordinator.Steps Lolipay.Coordinator.Guards
open Lolipay.Coordinator.Footprint Lolipay.Coordinator.Replica Lolipay.Coordinator.Following

structure Alert where
  key : String
  fingerprint : String
  urgency : Urgency
  text : String
  deriving DecidableEq, Repr

def slashScanLimit : ℕ := 100

def slashCandidatesWhere (nowSecs : ℤ) (row : Order) : Bool :=
  row.liabilityEstablished && row.slashDeadline.any fun deadline => nowSecs < deadline

/-- The order of the scan: by the date of the settlement, rows without one
last, and then by id. -/
def scannedBefore (a b : OrderId × Order) : Bool :=
  match a.2.settledAt, b.2.settledAt with
  | some s, some s' => s < s' || (s = s' && a.1 ≤ b.1)
  | some _, none => true
  | none, some _ => false
  | none, none => a.1 ≤ b.1

def slashMatches (orders : Store OrderId Order) (nowSecs : ℤ) : List (OrderId × Order) :=
  ((orders.entries.map fun e => (e.1, e.2)).filter
    fun c => slashCandidatesWhere nowSecs c.2).mergeSort scannedBefore

def slashCandidates (orders : Store OrderId Order) (nowSecs : ℤ) : List (OrderId × Order) :=
  (slashMatches orders nowSecs).take slashScanLimit

/-- The source divides by sixty before it compares minutes. -/
def bucketOf (secondsLeft : ℤ) : String :=
  if secondsLeft ≤ 15 * 60 then "under-15m"
  else if secondsLeft ≤ 60 * 60 then "under-1h"
  else if secondsLeft ≤ 6 * 60 * 60 then "under-6h"
  else "over-6h"

def slashKey (id : OrderId) : String := "slash_window_open:" ++ toString id

def slashAlert (id : OrderId) (tradeId : TradeId) (secondsLeft left : ℤ) : Alert where
  key := slashKey id
  fingerprint := bucketOf secondsLeft
  urgency := .urgent
  text := "order " ++ toString id ++ " (trade " ++ toString tradeId ++
    ") has a verdict against the provider and " ++ toString (secondsLeft / 60) ++
    " minute(s) left to recover " ++ toString left ++
    " base units from its bond — nothing recovers this automatically"

def overflowAlert : Alert where
  key := "slash_window_open:overflow"
  fingerprint := "at-limit"
  urgency := .urgent
  text := "at least " ++ toString slashScanLimit ++ " settled trades are in scope for recovery " ++
    "— the scan is truncated and nothing in this family will be reported as cleared until it is not"

/-- The chain as the scan reads it. A call that throws answers `none`. -/
structure ChainReads where
  getTradeStatusStrict : Address → TradeId → Option (Option TradeOnChain)
  getSlashedSoFar : TradeId → Option ℤ

/-- One candidate: its alert, if it has one, and whether a read failed. -/
def scanCandidate (home : Address) (reads : ChainReads) (nowSecs : ℤ) (c : OrderId × Order) :
    Option Alert × Bool :=
  match reads.getTradeStatusStrict (contractIdFor c.2.toPlacement home) c.2.tradeId with
  | none => (none, true)
  | some none => (none, false)
  | some (some chain) =>
    if chain.liabilityEstablished = some true then
      let deadline := chain.slashDeadline.getD 0
      if deadline = 0 ∨ deadline < nowSecs then (none, false)
      else
        match reads.getSlashedSoFar c.2.tradeId with
        | none => (none, true)
        | some recovered =>
          if c.2.usdcAmount ≤ recovered then (none, false)
          else (some (slashAlert c.1 c.2.tradeId (deadline - nowSecs) (c.2.usdcAmount - recovered)),
            false)
    else (none, false)

def slashWindowAlerts (home : Address) (reads : ChainReads) (orders : Store OrderId Order)
    (now : ℕ) : List Alert × Bool :=
  let nowSecs : ℤ := (now / 1000 : ℕ)
  let candidates := slashCandidates orders nowSecs
  let full : Bool := slashScanLimit ≤ candidates.length
  let scans := candidates.map (scanCandidate home reads nowSecs)
  ((if full then [overflowAlert] else []) ++ scans.filterMap (·.1), full || scans.any (·.2))

/-- All reads succeed, and the chain says what it says. -/
def readsOf (chain : Address → World) (slashed : TradeId → ℤ) : ChainReads where
  getTradeStatusStrict contractId tradeId :=
    some (((chain contractId).trade tradeId).map decodeTradeStatus)
  getSlashedSoFar tradeId := some (slashed tradeId)

theorem mem_slashCandidates {orders : Store OrderId Order} {nowSecs : ℤ} {id : OrderId}
    {row : Order} (hfew : (slashMatches orders nowSecs).length < slashScanLimit)
    (hrow : orders.lookup id = some row) (hmatch : slashCandidatesWhere nowSecs row = true) :
    (id, row) ∈ slashCandidates orders nowSecs := by
  have hmem : (⟨id, row⟩ : Sigma fun _ : OrderId => Order) ∈ orders.entries :=
    AList.mem_lookup_iff.mp hrow
  rw [slashCandidates, List.take_of_length_le hfew.le, slashMatches, List.mem_mergeSort,
    List.mem_filter]
  exact ⟨List.mem_map.mpr ⟨_, hmem, rfl⟩, hmatch⟩

def isPostVerdict : Event → Bool
  | .resolved _ _ true => true
  | _ => false

/-- The row has the columns that the scan filters on as the chain has them. -/
structure Recorded (row : Order) (t : Trade) : Prop where
  status : row.status = statusMap t.status
  liability : row.liabilityEstablished = t.liabilityEstablished
  slash : row.slashDeadline = some (t.slashDeadline : ℤ)

variable {q : Docket} {k n : ℕ} {v v' : View} {ev : Event} {t : Trade} {e : Effect} {o : Choice}
  {row row' : Order}

/-- The last event of the log is a verdict on the settled trade. -/
def ClosedBy (v : View) (n : ℕ) (ev : Event) : Prop :=
  v.log.length = n + 1 ∧ v.log[n]? = some ev ∧ isPostVerdict ev = true

/-- What the replica has heard of the trade when its indexer is about to handle
event `k`: the verdicts before it are claimed, and if the last event is a
verdict and claimed, the row shows what it has left on the chain. -/
structure Heard (q : Docket) (k : ℕ) (v : View) : Prop where
  mirrors : Mirrors q v
  behind : k ≤ v.log.length
  filed : ∀ i, claimed q v i = true → i < v.log.length
  passed : ∀ i ev, i < k → v.log[i]? = some ev → isPostVerdict ev = true → claimed q v i = true
  recorded : ∀ n ev t row, ClosedBy v n ev → claimed q v n = true →
    q.tradeIn v.shared.chain = some t → v.shared.db.orders.lookup q.order = some row →
    Recorded row t
  liable : ∀ t, q.tradeIn v.shared.chain = some t → t.liabilityEstablished = true →
    t.status ≠ .disputed → ∃ n ev, ClosedBy v n ev
  held : ∀ t, q.tradeIn v.shared.chain = some t → settlement t = none →
    t.liabilityEstablished = false

theorem settled_of_closed (hm : Mirrors q v) (hc : ClosedBy v n ev)
    (ht : q.tradeIn v.shared.chain = some t) : t.status = .released ∨ t.status = .refunded := by
  obtain ⟨hlen, hev, hpost⟩ := hc
  have hnext := hm.legal n ev hev
  have hagrees := hm.current
  rw [hlen, ht] at hagrees
  have hsettled : ∃ d, phaseAt v.log (n + 1) = .settled d := by
    cases ev with
    | resolved id released postSettle =>
      cases postSettle with
      | false => cases hpost
      | true =>
        cases hphase : phaseAt v.log n with
        | reopened d raiser =>
          rw [hphase] at hnext
          exact ⟨d, (Option.some.inj hnext).symm⟩
        | absent | funded | fiatPaid | disputed | unwinding | settled =>
          rw [hphase] at hnext
          cases released <;> cases hnext
    | _ => cases hpost
  obtain ⟨d, hd⟩ := hsettled
  have hstatus := Describes.status hagrees
  rw [hd] at hstatus
  cases d with
  | release => exact .inl (Option.some.inj hstatus).symm
  | refund => exact .inr (Option.some.inj hstatus).symm

theorem Heard.pass (h : Heard q k v) (hev : v.log[k]? = some ev)
    (hclaimed : isPostVerdict ev = true → claimed q v k = true) : Heard q (k + 1) v := by
  refine { h with behind := (List.getElem?_eq_some_iff.mp hev).1, passed := ?_ }
  intro i ev' hi hev' hpost
  by_cases hik : i = k
  · subst hik
    obtain rfl := Option.some.inj (hev.symm.trans hev')
    exact hclaimed hpost
  · exact h.passed i ev' (by omega) hev' hpost

/-- Nobody reached events that were not there when the chain was read. -/
structure Sighted (q : Docket) (k n : ℕ) (seen : Option TradeOnChain) (v : View) : Prop where
  after : k < n
  there : n ≤ v.log.length
  unclaimed : ∀ j, n ≤ j → claimed q v j = false
  shown : v.log.length = n → (q.tradeIn v.shared.chain).map decodeTradeStatus = seen

theorem Sighted.current {seen : Option TradeOnChain} (hs : Sighted q k n seen v) {m : ℕ}
    (hlast : v.log.length = m + 1) (hm : claimed q v m = true ∨ m = k) :
    (q.tradeIn v.shared.chain).map decodeTradeStatus = seen := by
  apply hs.shown
  have hn : m < n := by
    obtain hm | rfl := hm
    · by_contra hle
      rw [hs.unclaimed m (not_lt.mp hle)] at hm
      cases hm
    · exact hs.after
  have := hs.there
  omega

/-- What can happen to the log and the records while event `k` is handled. -/
structure Beside (q : Docket) (k : ℕ) (v v' : View) : Prop where
  log : ∃ evs, v'.log = v.log ++ evs
  kept : ∀ i, claimed q v i = true → claimed q v' i = true
  new : ∀ i, claimed q v' i = true → claimed q v i = true ∨ i = k
  still : v'.log.length = v.log.length → q.tradeIn v'.shared.chain = q.tradeIn v.shared.chain

theorem Sighted.beside {seen : Option TradeOnChain} (hs : Sighted q k n seen v)
    (hb : Beside q k v v') : Sighted q k n seen v' := by
  obtain ⟨evs, hlog⟩ := hb.log
  have hlen : v'.log.length = v.log.length + evs.length := by rw [hlog, List.length_append]
  refine ⟨hs.after, by have := hs.there; omega, fun j hj => ?_, fun hn => ?_⟩
  · by_contra hne
    obtain hold | rfl := hb.new j (Bool.eq_true_of_not_eq_false hne)
    · rw [hs.unclaimed j hj] at hold
      cases hold
    · exact absurd hs.after (not_lt.mpr hj)
  · have := hs.there
    rw [hb.still (by omega)]
    exact hs.shown (by omega)

/-- An update that leaves the columns of a settled row as they are. -/
def Harmless (w : RowWrite) : Prop :=
  ∀ now row t, (t.status = .released ∨ t.status = .refunded) → Recorded row t →
    w.matchesRow row = true → Recorded (w.data now row) t

theorem harmless_of_unmatched {w : RowWrite}
    (h : ∀ row, row.status = .released ∨ row.status = .refunded → w.matchesRow row = false) :
    Harmless w := by
  intro now row t hst hr hmatch
  have hsettled : row.status = .released ∨ row.status = .refunded := by
    rw [hr.status]
    obtain hst | hst := hst <;> simp [hst, statusMap]
  rw [h row hsettled] at hmatch
  cases hmatch

theorem land_harmless (target : Status) (onChain : Option TradeOnChain) (hash : Option TxHash) :
    Harmless (.land target onChain hash) := by
  apply harmless_of_unmatched
  intro row hst
  obtain hst | hst := hst <;> cases target <;> simp [RowWrite.matchesRow, statusBefore, hst]

theorem dispute_harmless (stamp : Option ℕ) : Harmless (.dispute stamp) := by
  apply harmless_of_unmatched
  intro row hst
  obtain hst | hst := hst <;> simp [RowWrite.matchesRow, statusBefore, hst]

theorem refresh_harmless {a : Advance} (stamps : Bool)
    (hseen : refreshFromChainStatuses.contains a.seen = true) :
    Harmless (.refresh a stamps) := by
  apply harmless_of_unmatched
  intro row hst
  apply decide_eq_false
  intro heq
  rw [← heq] at hseen
  obtain hst | hst := hst <;> simp [refreshFromChainStatuses, hst] at hseen

theorem backfill_harmless (outcome : ResolveOutcome) (hash : TxHash) :
    Harmless (.backfillSettlementHash outcome hash) :=
  fun _ _ _ _ hr _ => ⟨hr.status, hr.liability, hr.slash⟩

theorem reconcile_harmless (raiser : Address) (role : Disputer) :
    Harmless (.reconcileDisputeMetadata raiser role) :=
  fun _ _ _ _ hr _ => ⟨hr.status, hr.liability, hr.slash⟩

theorem Recorded.close (hr : Recorded row t) (now : ℕ) : Recorded (closeDisputeRound now row) t := by
  rw [closeDisputeRound]
  split
  next => exact hr
  next => exact ⟨hr.status, hr.liability, hr.slash⟩

theorem Recorded.preSettle (hr : Recorded row t) (hst : t.status = .released ∨ t.status = .refunded)
    (now : ℕ) {outcome : ResolveOutcome} {onChain : Option TradeOnChain} {hash : Option TxHash}
    (hmatch : (Verdict.preSettle outcome onChain hash).matchesRow row = true) :
    Recorded (closeDisputeRound now ((Verdict.preSettle outcome onChain hash).data now row)) t := by
  have hrow := hr.status
  simp only [Verdict.matchesRow, Bool.and_eq_true, Bool.or_eq_true, decide_eq_true_eq] at hmatch
  have hstatus : statusMap (settledAs outcome) = statusMap t.status := by
    obtain ⟨hmatch | hmatch, -⟩ := hmatch
    · rw [hrow] at hmatch
      obtain hst | hst := hst <;> cases outcome <;>
        simp [hst, statusBefore, statusMap, settledAs] at hmatch
    · exact hmatch.symm.trans hrow
  have hdata : Recorded ((Verdict.preSettle outcome onChain hash).data now row) t :=
    ⟨hstatus, hr.liability, hr.slash⟩
  exact hdata.close now

theorem recorded_postSettle (now : ℕ) (row : Order) (outcome : ResolveOutcome) {settled : Settled}
    (hseen : decodeTradeStatus t = settled.onChain) :
    Recorded (closeDisputeRound now ((Verdict.postSettle outcome settled).data now row)) t := by
  refine Recorded.close ?_ now
  simp only [Verdict.data, ← hseen]
  exact ⟨rfl, rfl, rfl⟩

/-- The effects by which event `k` is handled. -/
inductive Allowed (q : Docket) (k : ℕ) (ev : Event) (v : View) : Effect → Prop
  | ask (query : Query) : Allowed q k ev v (.ask query)
  | write {w : RowWrite} (hw : Harmless w) : Allowed q k ev v (.write q.order w)
  | reopen {n : ℕ} {seen : TradeOnChain} (stamp : Option ℕ) (hs : Sighted q k n (some seen) v)
      (hopen : seen.status = .disputed) : Allowed q k ev v (.write q.order (.reopen stamp))
  | preSettle (outcome : ResolveOutcome) (onChain : Option TradeOnChain) (hash : Option TxHash)
      (hpre : isPostVerdict ev = false) :
      Allowed q k ev v (.verdict (q.eventId k) q.order (.preSettle outcome onChain hash))
  | postSettle {n : ℕ} {settled : Settled} (outcome : ResolveOutcome)
      (hs : Sighted q k n (some settled.onChain) v) :
      Allowed q k ev v (.verdict (q.eventId k) q.order (.postSettle outcome settled))
  | claim {n : ℕ} {seen : TradeOnChain} (hs : Sighted q k n (some seen) v)
      (hopen : outcomeOf seen.status = none) : Allowed q k ev v (.claimEvent (q.eventId k))
  | providerLoss : Allowed q k ev v (.accrueProviderLoss q.order)
  | disputeLost (a : Address) : Allowed q k ev v (.recordDisputeLost a q.order)

theorem Allowed.own (ha : Allowed q k ev v e) : Own q.order e := by
  cases ha <;> trivial

theorem Allowed.claims_eq (ha : Allowed q k ev v e) {i : ℕ} (hi : claims e = some (q.eventId i)) :
    i = k := by
  cases ha with
  | preSettle | postSettle | claim => exact (q.eventId_injective (Option.some.inj hi)).symm
  | ask | write | reopen | providerLoss | disputeLost => cases hi

theorem Allowed.beside (ha : Allowed q k ev v e) (hb : Beside q k v v') : Allowed q k ev v' e := by
  cases ha with
  | ask query => exact .ask query
  | write hw => exact .write hw
  | reopen stamp hs hopen => exact .reopen stamp (hs.beside hb) hopen
  | preSettle outcome onChain hash hpre => exact .preSettle outcome onChain hash hpre
  | postSettle outcome hs => exact .postSettle outcome (hs.beside hb)
  | claim hs hopen => exact .claim (hs.beside hb) hopen
  | providerLoss => exact .providerLoss
  | disputeLost a => exact .disputeLost a

theorem Allowed.moves (ha : Allowed q k ev v e) (o : Choice) :
    Beside q k v { v with shared := after 0 e o v.shared } where
  log := ⟨[], (List.append_nil _).symm⟩
  kept i hi := claimed_after o hi
  new i hi := (claimed_before hi).imp_right ha.claims_eq
  still _ := by
    change q.tradeIn (Desk.after 0 e o v.shared).chain = _
    rw [(after_outside 0 e o v.shared).2.1]

/-- One effect keeps what the replica has heard, once it keeps the columns of a
row that shows a verdict. -/
theorem Heard.effect (h : Heard q k v) (he : Own q.order e)
    (hfiled : ∀ i, claims e = some (q.eventId i) → i < v.log.length)
    (hrec : ∀ n ev' t row', ClosedBy v n ev' →
      claimed q { v with shared := after 0 e o v.shared } n = true →
      q.tradeIn v.shared.chain = some t →
      (after 0 e o v.shared).db.orders.lookup q.order = some row' → Recorded row' t) :
    Heard q k { v with shared := after 0 e o v.shared } := by
  have hchain : (Desk.after 0 e o v.shared).chain = v.shared.chain :=
    (after_outside 0 e o v.shared).2.1
  refine ⟨h.mirrors.after he, h.behind, fun i hi => ?_, fun i ev' hi hev' hpost => ?_,
    fun n ev' t row' hc hclaimed ht hrow' => ?_, fun t ht => ?_, fun t ht => ?_⟩
  · exact (claimed_before hi).elim (h.filed i) (hfiled i)
  · exact claimed_after o (h.passed i ev' hi hev' hpost)
  · exact hrec n ev' t row' hc hclaimed (hchain ▸ ht) hrow'
  · exact h.liable t (hchain ▸ ht)
  · exact h.held t (hchain ▸ ht)

/-- A verdict transaction does nothing, or decides its event and writes the row
if that matches. -/
theorem verdict_after (event : EventId) (id : OrderId) (verdict : Verdict) (o : Choice) (s : Shared) :
    after 0 (.verdict event id verdict) o s = s ∨
      s.db.indexedEvents.lookup event = none ∧
        ∀ row, s.db.orders.lookup id = some row → verdict.matchesRow row = true →
          (after 0 (.verdict event id verdict) o s).db.orders.lookup id =
            some (closeDisputeRound s.now (verdict.data s.now row)) := by
  simp only [after]
  split
  next => exact .inl rfl
  next =>
    rw [runVerdict]
    split
    next => exact .inl rfl
    next hnew =>
      refine .inr ⟨hnew, fun row hrow hmatch => ?_⟩
      simp [hrow, Verdict.run, hmatch, lookup_setOrder]

/-- The columns of a settled row survive whatever is no verdict on the settled trade. -/
theorem Recorded.step {s : Shared} (hr : Recorded row t)
    (hst : t.status = .released ∨ t.status = .refunded)
    (hstep : RowStep s 0 e q.order (some row) (some row')) (he : Own q.order e)
    (hwrite : ∀ w, e = .write q.order w → Harmless w)
    (hverdict : ∀ event o settled, e ≠ .verdict event q.order (.postSettle o settled)) :
    Recorded row' t := by
  cases hstep with
  | same => exact hr
  | wrote heq hm => exact hwrite _ heq _ _ t hst hr hm
  | @judged event verdict _ heq hnew hm =>
    cases verdict with
    | preSettle outcome onChain hash => exact hr.preSettle hst _ hm
    | postSettle outcome settled => exact absurd heq (hverdict _ _ _)
  | accrued heq hf => exact ⟨hr.status, hr.liability, hr.slash⟩
  | stoodDown heq hp =>
    subst heq
    cases he

theorem Heard.quiet (h : Heard q k v) (he : Own q.order e) (hnone : claims e = none)
    (hwrite : ∀ w, e = .write q.order w → Harmless w) (o : Choice) :
    Heard q k { v with shared := after 0 e o v.shared } := by
  refine h.effect he (fun i hi => by cases hnone.symm.trans hi)
    fun n ev t row' hc hclaimed ht hrow' => ?_
  obtain ⟨row, hrow, -⟩ := h.mirrors.row
  have hn : claimed q v n = true := (claimed_before hclaimed).resolve_right (by simp [hnone])
  have hstep : RowStep v.shared 0 e q.order (v.shared.db.orders.lookup q.order)
      ((Desk.after 0 e o v.shared).db.orders.lookup q.order) :=
    row_step_unless (by rintro rfl; cases he) o q.order
  rw [hrow, hrow'] at hstep
  refine (h.recorded n ev t row hc hn ht hrow).step (settled_of_closed h.mirrors hc ht) hstep he
    hwrite fun event outcome settled heq => ?_
  rw [heq] at hnone
  cases hnone

theorem Heard.after (h : Heard q k v) (hev : v.log[k]? = some ev) (ha : Allowed q k ev v e)
    (o : Choice) : Heard q k { v with shared := after 0 e o v.shared } := by
  have hown := ha.own
  have hlt : k < v.log.length := (List.getElem?_eq_some_iff.mp hev).1
  have hfiled (i : ℕ) (hi : claims e = some (q.eventId i)) : i < v.log.length :=
    (ha.claims_eq hi).symm ▸ hlt
  have hnew (n : ℕ) (hn : claimed q { v with shared := Desk.after 0 e o v.shared } n = true) :
      claimed q v n = true ∨ n = k := (ha.moves o).new n hn
  -- What a sighting saw is the trade as it is, and that is settled.
  have hcur {n m : ℕ} {ev' : Event} {t : Trade} {seen : TradeOnChain} (hc : ClosedBy v n ev')
      (hn : claimed q { v with shared := Desk.after 0 e o v.shared } n = true)
      (ht : q.tradeIn v.shared.chain = some t) (hs : Sighted q k m (some seen) v) :
      decodeTradeStatus t = seen := by
    have hseen := hs.current hc.1 (hnew n hn)
    rw [ht] at hseen
    exact Option.some.inj hseen
  cases ha with
  | ask query => exact h.quiet hown rfl (by simp) o
  | write hw =>
    refine h.quiet hown rfl (fun w heq => ?_) o
    cases heq
    exact hw
  | reopen stamp hs hopen =>
    apply h.effect hown hfiled
    intro n ev' t row' hc hn ht hrow'
    rw [← hcur hc hn ht hs] at hopen
    obtain hst | hst := settled_of_closed h.mirrors hc ht <;> cases hst.symm.trans hopen
  | preSettle outcome onChain hash hpre =>
    apply h.effect hown hfiled
    intro n ev' t row' hc hn ht hrow'
    obtain ⟨row, hrow, -⟩ := h.mirrors.row
    obtain hn | rfl := hnew n hn
    · have hstep : RowStep v.shared 0 _ q.order (v.shared.db.orders.lookup q.order) _ :=
        row_step_unless
          (e := .verdict (q.eventId k) q.order (.preSettle outcome onChain hash)) (by simp) o q.order
      rw [hrow, hrow'] at hstep
      exact (h.recorded n ev' t row hc hn ht hrow).step (settled_of_closed h.mirrors hc ht) hstep
        hown (by simp) (by simp)
    · obtain rfl := Option.some.inj (hev.symm.trans hc.2.1)
      cases hpre.symm.trans hc.2.2
  | @postSettle m settled outcome hs =>
    apply h.effect hown hfiled
    intro n ev' t row' hc hn ht hrow'
    obtain ⟨row, hrow, -⟩ := h.mirrors.row
    have hseen := hcur hc hn ht hs
    obtain hsame | ⟨hnone, hwrites⟩ :=
      verdict_after (q.eventId k) q.order (.postSettle outcome settled) o v.shared
    · rw [hsame] at hn hrow'
      exact h.recorded n ev' t row' hc hn ht hrow'
    · rw [hwrites row hrow rfl] at hrow'
      obtain rfl := Option.some.inj hrow'
      exact recorded_postSettle _ _ _ hseen
  | claim hs hopen =>
    apply h.effect hown hfiled
    intro n ev' t row' hc hn ht hrow'
    rw [← hcur hc hn ht hs] at hopen
    obtain hst | hst := settled_of_closed h.mirrors hc ht <;>
      simp [decodeTradeStatus, hst, outcomeOf] at hopen
  | providerLoss | disputeLost => exact h.quiet hown rfl (by simp) o

/-- What the chain, the clock and the refreshes can do beside the handler. -/
structure Drift (q : Docket) (v v' : View) : Prop where
  log : ∃ evs, v'.log = v.log ++ evs
  same : ∀ i, claimed q v' i = claimed q v i
  still : v'.log.length = v.log.length → q.tradeIn v'.shared.chain = q.tradeIn v.shared.chain

theorem Drift.beside (hd : Drift q v v') (k : ℕ) : Beside q k v v' where
  log := hd.log
  kept i hi := (hd.same i).trans hi
  new i hi := .inl ((hd.same i).symm.trans hi)
  still := hd.still

theorem Drift.refl (q : Docket) (v : View) : Drift q v v :=
  ⟨⟨[], (List.append_nil _).symm⟩, fun _ => rfl, fun _ => rfl⟩

theorem Drift.trans {u : View} (h : Drift q u v) (h' : Drift q v v') : Drift q u v' := by
  obtain ⟨evs, hlog⟩ := h.log
  obtain ⟨evs', hlog'⟩ := h'.log
  refine ⟨⟨evs ++ evs', ?_⟩, fun i => (h'.same i).trans (h.same i), fun hlen => ?_⟩
  · rw [hlog', hlog, List.append_assoc]
  · rw [hlog', hlog, List.length_append, List.length_append] at hlen
    have hlast : v'.log.length = v.log.length := by
      rw [hlog', List.length_append]
      omega
    have hfirst : v.log.length = u.log.length := by
      rw [hlog, List.length_append]
      omega
    exact (h'.still hlast).trans (h.still hfirst)

theorem tradeIn_quiet {a : Action}
    (hn : news q.placement.tradeId (v.shared.chain q.contract) a = []) :
    q.tradeIn (grown q v a).shared.chain = q.tradeIn v.shared.chain := by
  rw [tradeIn_grown]
  cases news_step q.placement.tradeId (v.shared.chain q.contract) a with
  | same ht hn' => exact ht
  | opened hnew ht hn' => cases hn.symm.trans hn'
  | moved hlook hm ha ht hn' =>
    rw [hn] at hn'
    subst hn'
    cases ha

theorem Drift.grown (q : Docket) (v : View) (a : Action) : Drift q v (grown q v a) where
  log := ⟨_, rfl⟩
  same _ := rfl
  still hlen := by
    refine tradeIn_quiet (List.eq_nil_of_length_eq_zero ?_)
    simpa [Following.grown] using hlen

/-- A liability that a call leaves on a trade out of dispute comes with a verdict
as the last event, now or before. -/
theorem liable_grown (h : Heard q k v) (a : Action)
    (ht : q.tradeIn (grown q v a).shared.chain = some t) (hl : t.liabilityEstablished = true)
    (hst : t.status ≠ .disputed) : ∃ n ev, ClosedBy (grown q v a) n ev := by
  rw [tradeIn_grown] at ht
  cases news_step q.placement.tradeId (v.shared.chain q.contract) a with
  | same hsame hn =>
    obtain ⟨n, ev, hc⟩ := h.liable t (hsame.symm.trans ht) hl hst
    refine ⟨n, ev, ?_⟩
    simpa [ClosedBy, grown, hn] using hc
  | opened hnew hopen hn =>
    obtain rfl := Option.some.inj (ht.symm.trans hopen)
    cases hl
  | @moved cfg env op t₀ t₁ ts evs hlook hm ha hnext hn =>
    obtain rfl := Option.some.inj (ht.symm.trans hnext)
    have hag := h.mirrors.current
    rw [show q.tradeIn v.shared.chain = some t₀ from hlook] at hag
    have hf := Describes.flagged hag
    cases hset : settlement t₀ with
    | none =>
      rw [moves_held_liability hf hset hm, h.held t₀ hlook hset] at hl
      cases hl
    | some d =>
      obtain ⟨raiser, -, -, -, rfl⟩ | ⟨outcome, caller, prior, u, rfl, -, hpre, hdir, -, -⟩ :=
        moves_of_settled hf hset hm
      · obtain ⟨_, _, _, he, -⟩ := Escrow.Invariant.reopened_eq env t₀ raiser
        rw [he] at hst
        exact absurd rfl hst
      · refine ⟨v.log.length, .resolved q.placement.tradeId (decide (outcome = .release)) true,
          ?_, ?_, rfl⟩
        all_goals
          cases ha with
          | resolvedRelease _ hheld | resolvedRefund _ hheld =>
            obtain hheld | hheld := hheld
            · cases hheld.symm.trans hpre
            · obtain rfl := Option.some.inj (hheld.symm.trans hpre)
              cases hdir
          | judged => simp [grown, hn]

theorem held_grown (h : Heard q k v) (a : Action)
    (ht : q.tradeIn (grown q v a).shared.chain = some t) (hset : settlement t = none) :
    t.liabilityEstablished = false := by
  rw [tradeIn_grown] at ht
  cases news_step q.placement.tradeId (v.shared.chain q.contract) a with
  | same hsame hn => exact h.held t (hsame.symm.trans ht) hset
  | opened hnew hopen hn =>
    obtain rfl := Option.some.inj (ht.symm.trans hopen)
    rfl
  | @moved cfg env op t₀ t₁ ts evs hlook hm ha hnext hn =>
    obtain rfl := Option.some.inj (ht.symm.trans hnext)
    have hag := h.mirrors.current
    rw [show q.tradeIn v.shared.chain = some t₀ from hlook] at hag
    have hf := Describes.flagged hag
    obtain ⟨hsame, -⟩ | ⟨-, d, hnew, -⟩ := moves_settlement hf hm
    · have hset₀ := hsame.symm.trans hset
      rw [moves_held_liability hf hset₀ hm]
      exact h.held t₀ hlook hset₀
    · cases hnew.symm.trans hset

theorem Heard.grow (h : Heard q k v) {a : Action}
    (hfits : ∀ t, (next (v.shared.chain q.contract) a).trade q.placement.tradeId = some t →
      q.Fits t) : Heard q k (grown q v a) := by
  have hlen : v.log.length ≤ (grown q v a).log.length := by simp [grown]
  refine ⟨h.mirrors.grow hfits, h.behind.trans hlen, fun i hi => (h.filed i hi).trans_le hlen,
    fun i ev hi hev hpost => ?_, fun n ev t row hc hclaimed ht hrow => ?_,
    fun t ht hl hst => liable_grown h a ht hl hst, fun t ht hset => held_grown h a ht hset⟩
  · change (v.log ++ _)[i]? = some ev at hev
    rw [List.getElem?_append_left (hi.trans_le h.behind)] at hev
    exact h.passed i ev hi hev hpost
  · -- A claimed last event was there before, so this call published nothing.
    have hn : news q.placement.tradeId (v.shared.chain q.contract) a = [] := by
      have hlast := hc.1
      have hold := h.filed n hclaimed
      simp only [grown, List.length_append] at hlast
      exact List.eq_nil_of_length_eq_zero (by omega)
    rw [tradeIn_quiet hn] at ht
    have hc' : ClosedBy v n ev := by simpa [ClosedBy, grown, hn] using hc
    exact h.recorded n ev t row hc' hclaimed ht hrow

theorem Heard.tick (h : Heard q k v) (time : ℕ) :
    Heard q k { v with shared := moved v.shared (.tick time) } :=
  ⟨h.mirrors.tick time, h.behind, h.filed, h.passed, h.recorded, h.liable, h.held⟩

theorem Heard.refresh (h : Heard q k v) (order : Order) (o : Choice) :
    Heard q k { v with shared := refreshed q order o v.shared } := by
  obtain hsame | ⟨a, stamps, hwrite, hseen, hfrom, -⟩ := refreshed_cases q order o v.shared
  · rw [hsame]
    exact h
  · rw [hwrite]
    have hown : Own q.order (.write q.order (.refresh a stamps)) := rfl
    refine h.quiet hown rfl (fun w heq => ?_) o
    cases heq
    exact refresh_harmless stamps (hseen ▸ hfrom)

/-- What the scan relies on, along a run. -/
def alerting (q : Docket) : Regime q (Stale q) where
  inv := Heard q
  rely := Drift q
  refl := Drift.refl q
  trans := Drift.trans
  rewind h hle :=
    { h with
      behind := hle.trans h.behind
      passed := fun i ev hi => h.passed i ev (hi.trans_le hle) }
  grow _ v a h hfits := ⟨h.grow hfits, .grown q v a⟩
  tick _ _ time h := ⟨h.tick time, ⟨[], (List.append_nil _).symm⟩, fun _ => rfl, fun _ => rfl⟩
  refresh _ v order o h _ _ :=
    ⟨h.refresh order o, ⟨[], (List.append_nil _).symm⟩, claimed_refresh order o,
      fun _ => tradeIn_refreshed order o v.shared⟩

theorem Heard.of_starts {w : Follower} (h : Starts q w) : Heard q 0 w.toView where
  mirrors := .of_starts h
  behind := Nat.zero_le _
  filed i hi := by simp [claimed, h.unclaimed i] at hi
  passed i ev hi := absurd hi (Nat.not_lt_zero i)
  recorded n ev t row hc hclaimed := by simp [claimed, h.unclaimed n] at hclaimed
  liable t ht := by
    rw [h.chain _ (.head _)] at ht
    cases ht
  held t ht := by
    rw [h.chain _ (.head _)] at ht
    cases ht

variable {α : Type} {p : Service α}

theorem every_beside (h : Every (Allowed q k ev v) p) (hb : Beside q k v v') :
    Every (Allowed q k ev v') p :=
  h.mono fun _ ha => ha.beside hb

/-- A handler that keeps to such effects keeps the invariant, and what is
claimed when it starts is claimed when it ends. -/
theorem safe_of_every (h : Every (Allowed q k ev v) p) :
    Safe ((alerting q).handling k ev)
      (fun _ v' => claimed q v k = true → claimed q v' k = true) p v := by
  induction p generalizing v with
  | pure a =>
    intro v' hd _ hk
    exact (hd.beside k).kept k hk
  | fail => trivial
  | step e next ih =>
    rintro u hd ⟨hinv, hev⟩ r u' ⟨o, -, rfl, rfl⟩
    have hu := hd.beside k
    have ha : Allowed q k ev u e := h.1.beside hu
    refine ⟨trivial, ⟨hinv.after hev ha o, hev⟩, ?_⟩
    apply (ih _ (every_beside (every_beside (h.2 _) hu) (ha.moves o))).mono
    intro _ v' _ hk hv
    exact hk ((ha.moves o).kept k (hu.kept k hv))

theorem passes (hpost : isPostVerdict ev = false) (h : Every (Allowed q k ev v) p) :
    Safe ((alerting q).handling k ev) (fun _ v' => Heard q (k + 1) v') p v := by
  apply (safe_of_every h).mono
  intro _ v' hv' _
  exact Heard.pass hv'.1 hv'.2 fun h => by cases hpost.symm.trans h

theorem Heard.sighted (h : Heard q k v) (hev : v.log[k]? = some ev)
    (ht : q.tradeIn v.shared.chain = some t) :
    Sighted q k v.log.length (some (decodeTradeStatus t)) v where
  after := (List.getElem?_eq_some_iff.mp hev).1
  there := le_rfl
  unclaimed j hj := by
    by_contra hne
    exact absurd (h.filed j (Bool.eq_true_of_not_eq_false hne)) (not_lt.mpr hj)
  shown _ := by rw [ht]; rfl

theorem alerting_mirrors (k : ℕ) (v : View) (h : (alerting q).inv k v) : Mirrors q v :=
  Heard.mirrors h

theorem claimed_by_claim (v : View) (hfails : o.fails = false) :
    claimed q { v with shared := after 0 (.claimEvent (q.eventId k)) o v.shared } k = true := by
  simp only [claimed, after, hfails, Bool.false_eq_true, false_or]
  split
  next hold => exact hold
  next => simp [claimEvent]

theorem claimed_by_verdict (v : View) (id : OrderId) (verdict : Verdict) (hfails : o.fails = false) :
    claimed q { v with shared := after 0 (.verdict (q.eventId k) id verdict) o v.shared } k =
      true := by
  simp only [claimed, after, hfails, Bool.false_eq_true, if_false, runVerdict]
  split
  next hold => simp [hold]
  next => split <;> simp [claimEvent, Shared.setOrder]

theorem safe_deciding {f : Reply e → Service α} (ha : Allowed q k ev v e)
    (hdone : ∀ (v : View) (o : Choice), o.fails = false →
      claimed q { v with shared := after 0 e o v.shared } k = true)
    (hfail : ∀ (o : Choice) s, o.fails = true → f (reply 0 e o s) = .fail)
    (hf : ∀ r, Every (Allowed q k ev v) (f r)) :
    Safe ((alerting q).handling k ev) (fun _ v' => Heard q (k + 1) v') (.step e f) v := by
  rintro u hd ⟨hinv, hev⟩ r u' ⟨o, -, rfl, rfl⟩
  have hu := hd.beside k
  have hau : Allowed q k ev u e := ha.beside hu
  refine ⟨trivial, ⟨hinv.after hev hau o, hev⟩, ?_⟩
  cases hfails : o.fails with
  | true =>
    rw [hfail o _ hfails]
    trivial
  | false =>
    have hrest := every_beside (every_beside (hf (reply 0 e o u.shared)) hu) (hau.moves o)
    apply (safe_of_every hrest).mono
    intro _ v' hv' hk
    exact Heard.pass hv'.1 hv'.2 fun _ => hk (hdone u o hfails)

variable {order : Order}

theorem applyStatusEvent_passes (hpost : isPostVerdict ev = false) (hash : Option TxHash)
    (target : Status) :
    Safe ((alerting q).handling k ev) (fun _ v' => Heard q (k + 1) v')
      (applyStatusEvent q.contract hash q.order order target) v :=
  passes hpost (applyStatusEvent_every .ask (fun _ _ _ => .write (land_harmless _ _ _))
    (fun _ _ => .write (backfill_harmless _ _)) _ _ _)

theorem applyDisputedEvent_passes (hpost : isPostVerdict ev = false)
    (hplace : order.toPlacement = q.placement) (raiser : Option Address) :
    Safe ((alerting q).handling k ev) (fun _ v' => Heard q (k + 1) v')
      (applyDisputedEvent q.contract raiser q.order order) v := by
  have henters {u : View} {w : RowWrite} (hw : Allowed q k ev u (.write q.order w)) :
      Safe ((alerting q).handling k ev) (fun _ v' => Heard q (k + 1) v')
        (enterDispute q.order w raiser) u :=
    passes hpost (enterDispute_every .ask hw (fun _ _ => .write (reconcile_harmless _ _)) raiser)
  rw [applyDisputedEvent, show order.tradeId = q.placement.tradeId by rw [hplace]]
  split
  next =>
    apply Regime.safe_strict alerting_mirrors rfl
    intro u t _ hu hev ht
    dsimp only
    split
    next hopen => exact henters (.reopen _ (Heard.sighted hu hev ht) (Option.some.inj hopen))
    next => exact passes hpost trivial
  next => exact henters (.write (dispute_harmless _))

theorem applyVerdict_passes {verdict : Verdict}
    (ha : Allowed q k ev v (.verdict (q.eventId k) q.order verdict)) :
    Safe ((alerting q).handling k ev) (fun _ v' => Heard q (k + 1) v')
      (applyVerdict (q.eventId k) q.order order verdict) v := by
  refine safe_deciding ha (fun v o hfails => claimed_by_verdict v q.order verdict hfails)
    (fun o s hfails => ?_) fun r => ?_
  · simp [reply, hfails, Program.bind]
  · have hall : Every (Allowed q k ev v) (applyVerdict (q.eventId k) q.order order verdict) :=
      applyVerdict_every ha .providerLoss (.disputeLost _)
    exact hall.2 r

theorem applyPostVerdict_passes (hplace : order.toPlacement = q.placement)
    (outcome : ResolveOutcome) :
    Safe ((alerting q).handling k ev) (fun _ v' => Heard q (k + 1) v')
      (applyPostVerdict q.contract (q.eventId k) q.order order outcome) v := by
  rw [applyPostVerdict, show order.tradeId = q.placement.tradeId by rw [hplace]]
  apply Regime.safe_strict alerting_mirrors rfl
  intro u t _ hu hev ht
  have hs := Heard.sighted hu hev ht
  dsimp only
  split
  next hopen =>
    refine safe_deciding (.claim hs hopen) (fun v o hfails => claimed_by_claim v hfails)
      (fun o s hfails => ?_) fun r => ?_
    · simp [reply, hfails, Program.bind]
    · cases (r : Option Bool) <;> trivial
  next final hfinal => exact applyVerdict_passes (.postSettle outcome hs)

theorem handleEvent_passes (hplace : order.toPlacement = q.placement) (hash : Option TxHash) :
    Safe ((alerting q).handling k ev) (fun _ v' => Heard q (k + 1) v')
      (handleEvent q.contract (q.rpcEvent k ev hash) q.order order) v := by
  cases ev with
  | tradeCreated => exact applyStatusEvent_passes rfl hash .funded
  | fiatPaid => exact applyStatusEvent_passes rfl hash .fiatPaid
  | released | earlyReleased => exact applyStatusEvent_passes rfl hash .released
  | refunded => exact applyStatusEvent_passes rfl hash .refunded
  | disputed id raiser => exact applyDisputedEvent_passes rfl hplace _
  | resolved id released postSettle =>
    cases postSettle with
    | true => exact applyPostVerdict_passes hplace _
    | false =>
      refine passes rfl (every_ask (.ask _) fun onChain => ?_)
      exact applyVerdict_every (.preSettle _ _ _ rfl) .providerLoss (.disputeLost _)
  | configChanged | pausedSet => exact passes rfl trivial

theorem alerting_handles (q : Docket) : (alerting q).Handles := by
  refine Regime.handles alerting_mirrors (fun k v ev hinv hev hbody => ?_)
    fun k v ev hash row _ _ _ hplace => handleEvent_passes hplace hash
  exact Heard.pass hinv hev fun hpost => by cases ev <;> first | cases hpost | cases hbody

/-- With all events processed, the row of a liable trade out of dispute shows it. -/
theorem Heard.shows (h : Heard q k v) (hdone : k = v.log.length)
    (ht : q.tradeIn v.shared.chain = some t)
    (hrow : v.shared.db.orders.lookup q.order = some row) (hl : t.liabilityEstablished = true)
    (hst : t.status ≠ .disputed) : Recorded row t := by
  obtain ⟨n, ev, hc⟩ := h.liable t ht hl hst
  have hn : n < k := by
    have := hc.1
    omega
  exact h.recorded n ev t row hc (h.passed n ev hn hc.2.1 hc.2.2) ht hrow

theorem heard_of_run {w₀ w : Follower} {tr} (hstart : Starts q w₀)
    (hr : Run (replica q (Stale q)) w₀ tr w) : Heard q w.cursor w.toView := by
  have hsound : (alerting q).Sound w :=
    Regime.run (alerting_handles q) hr
      (fun _ _ => Regime.met_of_meets (fun _ _ _ _ => trivial) _ _)
      (.of_starts hstart (Heard.of_starts hstart))
  exact hsound.inv

theorem slashKey_injective {id id' : OrderId} (h : slashKey id = slashKey id') : id = id' := by
  unfold slashKey at h
  exact toString_inj ((String.append_right_inj _).mp h)

theorem scanCandidate_key {home : Address} {reads : ChainReads} {nowSecs : ℤ}
    {c : OrderId × Order} {a : Alert} (h : (scanCandidate home reads nowSecs c).1 = some a) :
    a.key = slashKey c.1 := by
  simp only [scanCandidate] at h
  repeat' split at h
  all_goals
    first
    | cases (show none = some a from h)
    | exact congrArg Alert.key (Option.some.inj h).symm

theorem scanCandidate_reports {home : Address} {reads : ChainReads} {nowSecs deadline recovered : ℤ}
    {c : OrderId × Order} {onChain : TradeOnChain}
    (hread : reads.getTradeStatusStrict (contractIdFor c.2.toPlacement home) c.2.tradeId =
      some (some onChain))
    (hl : onChain.liabilityEstablished = some true) (hd : onChain.slashDeadline = some deadline)
    (hopen : 0 < deadline ∧ nowSecs ≤ deadline)
    (hslashed : reads.getSlashedSoFar c.2.tradeId = some recovered)
    (hleft : recovered < c.2.usdcAmount) :
    (scanCandidate home reads nowSecs c).1 =
      some (slashAlert c.1 c.2.tradeId (deadline - nowSecs) (c.2.usdcAmount - recovered)) := by
  have hwindow : ¬(deadline = 0 ∨ deadline < nowSecs) := by omega
  simp only [scanCandidate, hread, hl, if_true, hd, Option.getD_some, if_neg hwindow, hslashed,
    if_neg (not_le.mpr hleft)]

theorem lookup_of_slashCandidates {orders : Store OrderId Order} {nowSecs : ℤ}
    {c : OrderId × Order} (h : c ∈ slashCandidates orders nowSecs) :
    orders.lookup c.1 = some c.2 ∧ slashCandidatesWhere nowSecs c.2 = true := by
  have hmem := List.mem_of_mem_take h
  rw [slashMatches, List.mem_mergeSort, List.mem_filter, List.mem_map] at hmem
  obtain ⟨⟨e, he, rfl⟩, hmatch⟩ := hmem
  exact ⟨AList.mem_lookup_iff.mpr he, hmatch⟩

theorem alerts_iff_matches {chain : Address → World} {slashed : TradeId → ℤ}
    {orders : Store OrderId Order} {now : ℕ} (hplace : row.toPlacement = q.placement)
    (hrow : orders.lookup q.order = some row)
    (hfew : (slashMatches orders (now / 1000 : ℕ)).length < slashScanLimit)
    (ht : q.tradeIn chain = some t) (hfits : q.Fits t) (hl : t.liabilityEstablished = true)
    (hopen : now < 1000 * t.slashDeadline)
    (hleft : slashed q.placement.tradeId < t.usdcAmount) :
    (∃ a ∈ (slashWindowAlerts q.home (readsOf chain slashed) orders now).1,
      a.key = slashKey q.order) ↔ slashCandidatesWhere (now / 1000 : ℕ) row = true := by
  have hroom : ¬slashScanLimit ≤ (slashCandidates orders (now / 1000 : ℕ)).length := by
    rw [slashCandidates, List.length_take]
    omega
  have hscans : (slashWindowAlerts q.home (readsOf chain slashed) orders now).1 =
      (slashCandidates orders (now / 1000 : ℕ)).filterMap
        fun c => (scanCandidate q.home (readsOf chain slashed) (now / 1000 : ℕ) c).1 := by
    simp only [slashWindowAlerts, decide_eq_false hroom, Bool.false_eq_true, if_false,
      List.nil_append, List.filterMap_map]
    rfl
  simp only [hscans, List.mem_filterMap]
  constructor
  · rintro ⟨a, ⟨c, hc, ha⟩, hkey⟩
    obtain ⟨hlook, hmatch⟩ := lookup_of_slashCandidates hc
    rw [slashKey_injective ((scanCandidate_key ha).symm.trans hkey), hrow] at hlook
    rw [Option.some.inj hlook]
    exact hmatch
  · intro hmatch
    obtain ⟨-, -, hamount, -⟩ := (verify_eq_nil_iff _ _).mp hfits
    have hamount : t.usdcAmount = row.usdcAmount := by
      rw [hplace]
      exact Option.some.inj hamount
    have hread : (readsOf chain slashed).getTradeStatusStrict
        (contractIdFor row.toPlacement q.home) row.tradeId = some (some (decodeTradeStatus t)) := by
      have hsome : (q.tradeIn chain).map decodeTradeStatus = some (decodeTradeStatus t) := by
        rw [ht]
        rfl
      rw [hplace]
      exact congrArg some hsome
    have hleft' : slashed row.tradeId < row.usdcAmount := by
      rw [← hamount, hplace]
      exact hleft
    exact ⟨_, ⟨(q.order, row), mem_slashCandidates hfew hrow hmatch,
      scanCandidate_reports hread (congrArg some hl) rfl (by omega) rfl hleft'⟩, rfl⟩

variable {w₀ w : Follower} {tr : List (Entry Follower Turn Unit)} {slashed : TradeId → ℤ} {now : ℕ}

/-- Once all events are processed, a trade with liability and an open window is
reported, unless a later round is open on it. -/
theorem alert_unless_round_open (hstart : Starts q w₀) (hr : Run (replica q (Stale q)) w₀ tr w)
    (hdone : w.cursor = w.log.length)
    (hfew : (slashMatches w.shared.db.orders (now / 1000 : ℕ)).length < slashScanLimit)
    (ht : q.tradeIn w.shared.chain = some t) (hl : t.liabilityEstablished = true)
    (hopen : now < 1000 * t.slashDeadline) (hleft : slashed q.placement.tradeId < t.usdcAmount)
    (hst : t.status ≠ .disputed) :
    ∃ a ∈ (slashWindowAlerts q.home (readsOf w.shared.chain slashed) w.shared.db.orders now).1,
      a.key = slashKey q.order := by
  have hheard := heard_of_run hstart hr
  obtain ⟨row, hrow, hplace⟩ := hheard.mirrors.row
  have hfits := hheard.mirrors.fits _ (.head _) t ht
  have hrec := hheard.shows hdone ht hrow hl hst
  apply (alerts_iff_matches hplace hrow hfew ht hfits hl hopen hleft).mpr
  -- A settled row shows the verdict as the chain does, so the filter lets it in.
  have hlate : ((now / 1000 : ℕ) : ℤ) < t.slashDeadline := by omega
  rw [slashCandidatesWhere, hrec.liability, hl, hrec.slash]
  exact decide_eq_true hlate

def wonRound : List Action :=
  [.call (sampleEnv 1000 [⟨6⟩]) (.createTrade 1 sampleArgs),
    .call (sampleEnv 1500 [⟨7⟩]) (.markFiatPaid 1 ⟨7⟩),
    .call (sampleEnv 1600 [⟨6⟩]) (.confirmAndRelease 1),
    .call (sampleEnv 1700 [⟨6⟩]) (.raiseDispute 1 ⟨6⟩),
    .call (sampleEnv 1800 [⟨3⟩]) (.resolve 1 .refund ⟨3⟩)]

/-- The user opens a round of its own right after it. -/
def secondRound : List Action :=
  wonRound ++ [.call (sampleEnv 1900 [⟨7⟩]) (.raiseDispute 1 ⟨7⟩)]

def reading (calls : List Action) : Turn :=
  .go { onChain := ((final (machine ⟨0⟩) sampleWorld calls).trade 1).map decodeTradeStatus }

def released (calls : List Action) : List Turn :=
  calls.map .chain ++
    [.take none, .go {}, reading calls, .go {}, .advance,
      .take none, .go {}, .go {}, .advance,
      .take none, .go {}, reading calls, .go {}, .advance]

def wonTurns : List Turn :=
  released wonRound ++
    [.take none, .go {}, reading wonRound, .advance,
      .take none, .go {}, reading wonRound, .go {}, .go {}, .advance]

def secondTurns : List Turn :=
  released secondRound ++
    [.take none, .go {}, reading secondRound, .go {}, .go {}, .go {}, .advance,
      .take none, .go {}, reading secondRound, .go {}, .advance,
      .take none, .go {}, .go {}, .advance]

def staleReplica : Machine Follower Turn Unit := replica sampleDocket (Stale sampleDocket)

theorem wonTurns_admitted : Admitted staleReplica sampleFollower wonTurns := by
  refine ⟨sample_call ?_ ?_, sample_call ?_ ?_, sample_call ?_ ?_, sample_call ?_ ?_,
    sample_call ?_ ?_, ⟨rfl, ?_⟩, trivial, .inr ?_, trivial, trivial,
    ⟨rfl, ?_⟩, trivial, trivial, trivial,
    ⟨rfl, ?_⟩, trivial, .inr ⟨_, .head _, ?_⟩, trivial, trivial,
    ⟨rfl, ?_⟩, trivial, .inr ?_, trivial,
    ⟨rfl, ?_⟩, trivial, .inr ?_, trivial, trivial, trivial, trivial⟩
  all_goals decide

theorem secondTurns_admitted : Admitted staleReplica sampleFollower secondTurns := by
  refine ⟨sample_call ?_ ?_, sample_call ?_ ?_, sample_call ?_ ?_, sample_call ?_ ?_,
    sample_call ?_ ?_, sample_call ?_ ?_, ⟨rfl, ?_⟩, trivial, .inr ?_, trivial, trivial,
    ⟨rfl, ?_⟩, trivial, trivial, trivial,
    ⟨rfl, ?_⟩, trivial, .inr ⟨_, .head _, ?_⟩, trivial, trivial,
    ⟨rfl, ?_⟩, trivial, .inr ?_, trivial, trivial, trivial, trivial,
    ⟨rfl, ?_⟩, trivial, .inr ?_, trivial, trivial,
    ⟨rfl, ?_⟩, trivial, trivial, trivial, trivial⟩
  all_goals decide

def wonFinal : Follower := final staleReplica sampleFollower wonTurns

def secondFinal : Follower := final staleReplica sampleFollower secondTurns

def wonTrade : Trade := (sampleDocket.tradeIn wonFinal.shared.chain).get (by decide)

theorem won_round_is_reported :
    wonTrade.liabilityEstablished = true ∧ 2000000 < 1000 * wonTrade.slashDeadline ∧
    ∃ a ∈ (slashWindowAlerts ⟨0⟩ (readsOf wonFinal.shared.chain fun _ => 0)
      wonFinal.shared.db.orders 2000000).1, a.key = slashKey 0 := by
  have hfew : (slashMatches wonFinal.shared.db.orders (2000000 / 1000 : ℕ)).length <
      slashScanLimit := by
    rw [slashMatches, List.length_mergeSort]
    decide
  have ht : sampleDocket.tradeIn wonFinal.shared.chain = some wonTrade := (Option.some_get _).symm
  refine ⟨by decide, by decide, ?_⟩
  exact alert_unless_round_open (q := sampleDocket) (w := wonFinal) sampleFollower_starts
    (Run.of_actions _ _ wonTurns_admitted) (by decide) hfew ht (by decide) (by decide) (by decide)
    (by decide)

def secondTrade : Trade := (sampleDocket.tradeIn secondFinal.shared.chain).get (by decide)

/-- Every event is processed, the chain holds the provider liable for the whole
amount for another day, and the scan sees nothing. -/
theorem second_round_hides_the_first :
    Starts sampleDocket sampleFollower ∧
    Run staleReplica sampleFollower (history staleReplica sampleFollower secondTurns)
      secondFinal ∧
    secondFinal.cursor = secondFinal.log.length ∧ secondFinal.handler = none ∧
    sampleDocket.tradeIn secondFinal.shared.chain = some secondTrade ∧
    secondTrade.liabilityEstablished = true ∧ 2000000 < 1000 * secondTrade.slashDeadline ∧
    0 < secondTrade.usdcAmount ∧
    (slashMatches secondFinal.shared.db.orders 2000).length < slashScanLimit ∧
    slashWindowAlerts ⟨0⟩ (readsOf secondFinal.shared.chain fun _ => 0)
      secondFinal.shared.db.orders 2000000 = ([], false) := by
  have hnone : slashMatches secondFinal.shared.db.orders 2000 = [] := by
    have hfilter : ((secondFinal.shared.db.orders.entries.map fun e => (e.1, e.2)).filter
        fun c => slashCandidatesWhere 2000 c.2) = [] := by decide
    rw [slashMatches, hfilter, List.mergeSort_nil]
  refine ⟨sampleFollower_starts, Run.of_actions _ _ secondTurns_admitted, by decide, rfl,
    (Option.some_get _).symm, by decide, by decide, by decide, ?_, ?_⟩
  · rw [hnone]
    decide
  · have hscan : slashCandidates secondFinal.shared.db.orders (2000000 / 1000 : ℕ) = [] := by
      rw [slashCandidates]
      exact congrArg (List.take slashScanLimit) hnone
    simp only [slashWindowAlerts, hscan]
    decide

end Lolipay.Coordinator.SlashWindow
