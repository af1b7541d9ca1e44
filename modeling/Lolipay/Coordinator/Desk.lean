import Lolipay.Async.AdvisoryLock
import Lolipay.Escrow.Custody
import Lolipay.Coordinator.Creation
import Lolipay.Coordinator.Indexer

namespace Lolipay.Coordinator.Desk

open Lolipay.Ledger.Storage Lolipay.Ledger.Invocation Lolipay.Ledger.Runs
open Lolipay.Async Lolipay.Async.Process Lolipay.Async.Scheduling
open Lolipay.Escrow.Types Lolipay.Escrow.System Lolipay.Escrow.Custody
open Lolipay.Coordinator.Orders Lolipay.Coordinator.Binding Lolipay.Coordinator.Writes
open Lolipay.Coordinator.Database Lolipay.Coordinator.Services Lolipay.Coordinator.Indexer
open Lolipay.Coordinator.Creation

/-- A creating transaction that has not committed: the quote it has marked as
used, with the date, and the row it has inserted. -/
structure Tx where
  consumed : Option (QuoteId × ℕ)
  created : Option (OrderId × Placement)

/-- What all services share: the database, its advisory locks and open
transactions, the clock, every escrow contract with the states the chain had
before, and the events whose record has been pruned. -/
structure Shared where
  db : Db
  locks : LockKey → Option Pid
  txs : Pid → Option Tx
  now : ℕ
  chain : Address → World
  past : List (Address → World)
  forgotten : List EventId

/-- The environment's part in an effect: whether it throws, and the answers
that the model leaves open. -/
structure Choice where
  fails : Bool := false
  onChain : Option TradeOnChain := none
  picks : List ℕ := []
  hash : Option TxHash := none
  time : Option ℕ := none
  person : Option PersonId := none
  tier : UserTier := .bronze
  config : Option PlatformConfig := none
  verdict : Bool := true
  wallets : List Address := []
  candidates : List Candidate := []
  stake : Option StakeInfo := none
  trustline : Option Bool := some true
  tradeId : TradeId := 0
  orderId : OrderId := 0
  ref : ℕ := 0

def rowsOf (orders : Store OrderId Order) (p : Order → Bool) (picks : List ℕ) :
    List (OrderId × Order) :=
  picks.filterMap fun id => ((orders.lookup id).filter p).map fun row => (id, row)

def findByTradeId (orders : Store OrderId Order) (tradeId : TradeId) : Option (OrderId × Order) :=
  (orders.entries.find? fun e => e.2.tradeId = tradeId).map fun e => (e.1, e.2)

def refundableAt (nowSecs : ℤ) (row : Order) : Bool :=
  row.status = .funded && (row.confirmDeadline < nowSecs ||
    (row.flow = .topUp && row.payDeadline < nowSecs - attestGraceSecs))

def dayMs : ℤ := 86400000

def countsToVolume (personId : PersonId) (since : ℤ) (row : Order) : Bool :=
  row.personId = personId && since ≤ row.createdAt &&
    !volumeExcludedStatuses.contains row.status

def used24hBaseUnits (orders : Store OrderId Order) (personId : PersonId) (now : ℕ) : ℤ :=
  total (fun row => if countsToVolume personId (now - dayMs) row then row.usdcAmount else 0) orders

/-- Seconds since the epoch, rounded as the database rounds them. -/
def epochSecs (ms : ℕ) : ℤ := ((ms + 500) / 1000 : ℕ)

/-- Until when a settled order can still cost the provider. -/
def exposedUntil (row : Order) (settledAt : ℕ) : ℤ :=
  match row.slashDeadline, row.postSettleDeadline with
  | none, none => epochSecs settledAt + longestTailPastSettlementSecs
  | slash, postSettle =>
    max (slash.getD 0) (postSettle.getD 0 +
      if row.status = .disputed ∨ row.disputeAt ≠ none then slashCeilingPastPostSettleSecs else 0)

def exposes (lpId : LpId) (nowSec : ℤ) (row : Order) : Bool :=
  row.lpId = some lpId && row.status ≠ .expired && row.status ≠ .cancelled &&
    !(row.status = .released && row.flow = .topUp) &&
    !(row.status = .refunded && row.flow = .withdraw) &&
    (match row.settledAt with
      | none => true
      | some settledAt => nowSec ≤ exposedUntil row settledAt)

def lpExposure (orders : Store OrderId Order) (lpId : LpId) (nowSec : ℤ) : ℤ :=
  total (fun row => if exposes lpId nowSec row then row.usdcAmount else 0) orders

def defaultMinOrder : ℤ := 50000000

theorem defaultMinOrder_pos : 0 < defaultMinOrder := by
  decide

def defaultConfig : PlatformConfig :=
  ⟨false, true, none, defaultMinOrder, 10000000000, 1800, 1800, 7200, fun _ => none,
    defaultMinOrder_pos⟩

def answer (s : Shared) (o : Choice) : (q : Query) → q.Reply
  | .clock => s.now
  | .findOrder id => s.db.orders.lookup id
  | .findOrderByTradeId tradeId => findByTradeId s.db.orders tradeId
  | .findStale cutoff =>
    rowsOf s.db.orders
      (fun row => preChainStatuses.contains row.status && row.expiresAt < cutoff) o.picks
  | .findRefundable nowSecs => rowsOf s.db.orders (refundableAt nowSecs) o.picks
  | .latestLedgerCloseTime => o.time
  | .getTradeStatus _ _ => o.onChain
  | .getTradeStatusStrict _ _ => if o.fails then none else some o.onChain
  | .submitRefund _ _ | .submitAttestation _ _ _ => o.hash
  | .findLp id => s.db.lps.lookup id
  | .findReachable id =>
    (rowsOf s.db.orders (fun row => row.lpId = some id && preChainStatuses.contains row.status)
      s.db.orders.keys).map (·.1)
  | .findQuote id => s.db.quotes.lookup id
  | .getConfig => o.config.getD defaultConfig
  | .personIdFor _ => o.person
  | .getReputation _ => o.tier
  | .used24h personId => used24hBaseUnits s.db.orders personId s.now
  | .identityVerified _ | .marketEnabled _ => o.verdict
  | .walletsOf _ => o.wallets
  | .findMatchable _ _ => o.candidates
  | .getStakeInfo _ => o.stake
  | .lpExposure lpId nowSec => lpExposure s.db.orders lpId nowSec
  | .hasUsdcTrustline _ => o.trustline
  | .newTradeId => o.tradeId

/-- A chain read returns what some state of the chain, now or before, says. -/
def ReallyHad (s : Shared) (contractId : Address) (tradeId : TradeId)
    (onChain : Option TradeOnChain) : Prop :=
  ∃ c ∈ s.chain :: s.past, onChain = ((c contractId).trade tradeId).map decodeTradeStatus

/-- Answers about the chain are true, and those about tiers, limits and bonds
are the constants of the run. A cached read that fails answers `none`. -/
def Truthful (y : Settings) (s : Shared) (o : Choice) : Query → Prop
  | .getTradeStatus contractId tradeId =>
    o.onChain = none ∨ ReallyHad s contractId tradeId o.onChain
  | .getTradeStatusStrict contractId tradeId =>
    o.fails = true ∨ ReallyHad s contractId tradeId o.onChain
  | .getReputation personId => o.tier = y.tierOf personId
  | .getConfig => (o.config.getD defaultConfig).dailyLimitByTier = y.dailyLimitByTier
  | .getStakeInfo address => ∀ stake, o.stake = some stake → stake.staked = y.bondOf address
  | _ => True

def Shared.setOrder (s : Shared) (id : OrderId) (row : Order) : Shared :=
  { s with db := { s.db with orders := s.db.orders.insert id row } }

def Shared.setTx (s : Shared) (pid : Pid) (tx : Option Tx) : Shared :=
  { s with txs := fun q => if q = pid then tx else s.txs q }

def release (pid : Pid) (s : Shared) : Shared :=
  { s.setTx pid none with locks := AdvisoryLock.release pid s.locks }

def claimEvent (event : EventId) (s : Shared) : Shared :=
  { s with db := { s.db with indexedEvents := s.db.indexedEvents.insert event s.now } }

def runWrite (id : OrderId) (w : RowWrite) (s : Shared) : Shared × ℕ :=
  match (s.db.orders.lookup id).bind (w.run s.now) with
  | some row => (s.setOrder id row, 1)
  | none => (s, 0)

/-- The transaction of a verdict: whether it was a replay, and the rows written. -/
def runVerdict (event : EventId) (id : OrderId) (v : Verdict) (s : Shared) :
    Shared × (Bool × ℕ) :=
  match s.db.indexedEvents.lookup event with
  | some _ => (s, (true, 0))
  | none =>
    match (s.db.orders.lookup id).bind (v.run s.now) with
    | some row => ((claimEvent event s).setOrder id row, (false, 1))
    | none => (claimEvent event s, (false, 0))

/-- Loss on the provider's side. A provider that is gone rolls the flag back. -/
def runProviderLoss (id : OrderId) (s : Shared) : Shared :=
  match (s.db.orders.lookup id).filter fun row => !row.disputeLossAccrued with
  | none => s
  | some row =>
    let flipped := s.setOrder id { row with disputeLossAccrued := true }
    match row.lpId with
    | none => flipped
    | some lpId =>
      match s.db.lps.lookup lpId with
      | none => s
      | some lp =>
        { flipped with db := { flipped.db with
          lps := s.db.lps.insert lpId { lp with disputesLost := lp.disputesLost + 1 } } }

def recordDisputeLost (address : Address) (id : OrderId) (s : Shared) : Shared :=
  match (s.db.orders.lookup id).filter fun row => !row.disputeLossAccrued with
  | none => s
  | some row =>
    let flipped := s.setOrder id { row with disputeLossAccrued := true }
    { flipped with db := { flipped.db with
      userProfiles := s.db.userProfiles.insert address
        ((s.db.userProfiles.lookup address).getD 0 + 1) } }

def isPreChain (orders : Store OrderId Order) (id : OrderId) : Bool :=
  (orders.lookup id).any fun row => preChainStatuses.contains row.status

def cancelRow (orders : Store OrderId Order) (id : OrderId) : Store OrderId Order :=
  match orders.lookup id with
  | some row => orders.insert id (row.setStatus .cancelled)
  | none => orders

/-- The transaction of `setStatus`: it commits only if the provider is as it
was read and all its reachable orders are still before the chain. -/
def runSetLpStatus (id : LpId) (seen : Lp) (status : LpStatus) (note : Option String)
    (reachable : List OrderId) (s : Shared) : Shared × Bool :=
  match s.db.lps.lookup id with
  | none => (s, false)
  | some lp =>
    if lp.status = seen.status ∧ lp.approvalNote = seen.approvalNote ∧
        lp.liquidityProof = seen.liquidityProof ∧ lp.contact = seen.contact ∧
        reachable.all (isPreChain s.db.orders) then
      ({ s with db := { s.db with
          lps := s.db.lps.insert id
            { lp with status, approvalNote := note.orElse fun _ => lp.approvalNote }
          orders := reachable.foldl cancelRow s.db.orders } }, true)
    else (s, false)

def stamped (data : Placement) (needsRef : Bool) (now ref : ℕ) : Placement :=
  { data with createdAt := now, ref := if needsRef then some ref else none }

/-- Two rows that the unique columns do not let stand together. -/
def collides (id : OrderId) (p : Placement) (id' : OrderId) (p' : Placement) : Bool :=
  id = id' || p.tradeId = p'.tradeId || (p.ref.isSome && p.ref = p'.ref)

def runCreateOrderRow (pid : Pid) (data : Placement) (needsRef : Bool) (o : Choice) (s : Shared) :
    Shared × Inserted :=
  let p := stamped data needsRef s.now o.ref
  if s.db.orders.entries.any fun e => collides o.orderId p e.1 e.2.toPlacement then
    (s, .uniqueViolation)
  else
    (s.setTx pid ((s.txs pid).map fun tx => { tx with created := some (o.orderId, p) }),
      .row o.orderId)

def runConsumeQuote (pid : Pid) (id : QuoteId) (s : Shared) : Shared × ℕ :=
  match (s.db.quotes.lookup id).filter fun quote => quote.usedAt = none with
  | none => (s, 0)
  | some _ =>
    (s.setTx pid ((s.txs pid).map fun tx => { tx with consumed := some (id, s.now) }), 1)

def useQuote (quotes : Store QuoteId Quote) (c : QuoteId × ℕ) : Store QuoteId Quote :=
  match quotes.lookup c.1 with
  | none => quotes
  | some quote => quotes.insert c.1 { quote with usedAt := some c.2 }

/-- The writes of a transaction become visible at once. -/
def applyTx (tx : Tx) (db : Db) : Db :=
  { db with
    quotes := tx.consumed.elim db.quotes (useQuote db.quotes)
    orders := tx.created.elim db.orders fun c => db.orders.insert c.1 c.2.opened }

def runCommit (pid : Pid) (s : Shared) : Shared :=
  release pid { s with db := (s.txs pid).elim s.db fun tx => applyTx tx s.db }

def after (pid : Pid) (e : Effect) (o : Choice) (s : Shared) : Shared :=
  match e with
  | .ask _ => s
  | .write id w => if o.fails then s else (runWrite id w s).1
  | .claimEvent event =>
    if o.fails ∨ (s.db.indexedEvents.lookup event).isSome then s else claimEvent event s
  | .verdict event id v => if o.fails then s else (runVerdict event id v s).1
  | .accrueProviderLoss id => if o.fails then s else runProviderLoss id s
  | .recordDisputeLost address id => if o.fails then s else recordDisputeLost address id s
  | .setLpStatus id seen status note reachable =>
    if o.fails then s else (runSetLpStatus id seen status note reachable s).1
  | .begin => s.setTx pid (some ⟨none, none⟩)
  | .lock key => { s with locks := AdvisoryLock.acquire key pid s.locks }
  | .consumeQuote id => if o.fails then s else (runConsumeQuote pid id s).1
  | .createOrderRow data needsRef =>
    if o.fails then s else (runCreateOrderRow pid data needsRef o s).1
  | .commit => if o.fails then release pid s else runCommit pid s
  | .rollback => release pid s

def reply (pid : Pid) (e : Effect) (o : Choice) (s : Shared) : Reply e :=
  match e with
  | .ask q => answer s o q
  | .write id w => if o.fails then none else some (runWrite id w s).2
  | .claimEvent event =>
    if o.fails then none else some (s.db.indexedEvents.lookup event).isNone
  | .verdict event id v => if o.fails then none else some (runVerdict event id v s).2
  | .accrueProviderLoss _ | .recordDisputeLost _ _ | .begin | .lock _ | .rollback => ()
  | .setLpStatus id seen status note reachable =>
    if o.fails then false else (runSetLpStatus id seen status note reachable s).2
  | .consumeQuote id => if o.fails then none else some (runConsumeQuote pid id s).2
  | .createOrderRow data needsRef =>
    if o.fails then none else some (runCreateOrderRow pid data needsRef o s).2
  | .commit => !o.fails

/-- When an effect can be scheduled. A lock, and a unique key or a quote that
another open transaction has touched, make the statement wait; a verdict is
delivered only while the record of its event is kept. -/
def Permits (y : Settings) (pid : Pid) (e : Effect) (o : Choice) (s : Shared) : Prop :=
  match e with
  | .ask q => Truthful y s o q
  | .claimEvent event | .verdict event _ _ => event ∉ s.forgotten
  | .lock key => AdvisoryLock.Available key pid s.locks
  | .consumeQuote id =>
    ∀ q ≠ pid, ∀ tx c, s.txs q = some tx → tx.consumed = some c → c.1 ≠ id
  | .createOrderRow data needsRef =>
    ∀ q ≠ pid, ∀ tx c, s.txs q = some tx → tx.created = some c →
      collides o.orderId (stamped data needsRef s.now o.ref) c.1 c.2 = false
  | _ => True

inductive Call where
  | getOrder (id : OrderId)
  | cancelOrder (id : OrderId) (callerAddress : Address)
  | expireStaleOrders
  | autoRefundExpired
  | attestFiatPaid (id : OrderId)
  | setStatus (id : LpId) (status : LpStatus) (note : Option String)
  | applyEvent (ev : RpcEvent)
  | createFromQuote (user : Address) (quoteId : QuoteId) (destination : Option String)

def body (y : Settings) : Call → Service Unit
  | .getOrder id => getOrder y.escrowContractId id
  | .cancelOrder id caller => cancelOrder y.escrowContractId id caller
  | .expireStaleOrders => expireStaleOrders y.escrowContractId
  | .autoRefundExpired => autoRefundExpired y.escrowContractId
  | .attestFiatPaid id => attestFiatPaid y.escrowContractId id
  | .setStatus id status note => setStatus id status note
  | .applyEvent ev => do
    let _ ← applyEvent y.escrowContractId ev
    .pure ()
  | .createFromQuote user quoteId destination => createFromQuote y user quoteId destination

/-- What happens outside the services: a call on some escrow contract, time,
and the pruning of old event records. -/
inductive Move where
  | chain (contractId : Address) (a : Action)
  | tick (time : ℕ)
  | prune

def indexedEventRetentionMs : ℕ := 604800000

def prunable (s : Shared) : List EventId :=
  s.db.indexedEvents.keys.filter fun event =>
    (s.db.indexedEvents.lookup event).any fun createdAt =>
      createdAt + indexedEventRetentionMs < s.now

def moved (s : Shared) : Move → Shared
  | .chain contractId a =>
    { s with
      chain := fun c => if c = contractId then next (s.chain c) a else s.chain c
      past := s.chain :: s.past }
  | .tick time => { s with now := time }
  | .prune =>
    { s with
      db := { s.db with
        indexedEvents := (prunable s).foldl (fun st event => st.erase event) s.db.indexedEvents }
      forgotten := prunable s ++ s.forgotten }

def Moves (s : Shared) : Move → Prop
  | .chain contractId a => admits contractId (s.chain contractId) a
  | .tick time => s.now ≤ time
  | .prune => True

/-- The services of the coordinator, with the calls that a run may make. -/
def desk (y : Settings) (allowed : Call → Prop) : System Call Choice Move Effect Reply Shared where
  body := body y
  delivers _ := allowed
  permits := Permits y
  effect pid e o s := (after pid e o s, reply pid e o s)
  dies := release
  moves := Moves
  moved := moved

abbrev Office := Pool Effect Reply Shared

abbrev DeskAct := Act Call Choice Move

abbrev DeskEntry := Entry Office DeskAct (Option (Pid × Effect))

abbrev DeskHistory := List DeskEntry

def sampleSettings : Settings :=
  ⟨⟨0⟩, ⟨4⟩, fun n => n, fun _ => .bronze, fun _ => none, fun _ => 5000000⟩

def samplePlacement : Placement :=
  { flow := .topUp, userAddress := ⟨7⟩, lpWallet := some ⟨6⟩, usdcAmount := 1000000,
    fiatAmount := 16000, fiatCurrency := "IDR", platformFeeBps := 50, lpFeeBps := 100,
    platformWallet := ⟨4⟩, payDeadline := 2000, confirmDeadline := 8000, disputeDeadline := 9000,
    tradeId := 1, contractId := some ⟨0⟩, personId := 1, lpId := some 0, createdAt := 900000,
    expiresAt := 1400000, ref := some 1 }

def sampleLp : Lp := ⟨⟨6⟩, .approved, none, "proof", "contact", 0⟩

def sampleDesk (orders : Store OrderId Order) : Shared where
  db := ⟨orders, ∅, (∅ : Store LpId Lp).insert 0 sampleLp, ∅, ∅⟩
  locks _ := none
  txs _ := none
  now := 1000000
  chain _ := sampleWorld
  past := []
  forgotten := []

def sampleOrders : Store OrderId Order :=
  (∅ : Store OrderId Order).insert 0 samplePlacement.opened

def sampleFunded : Trade := Escrow.Contract.openingTrade sampleConfig 1000 sampleArgs

def samplePaid : Trade := { sampleFunded with status := .fiatPaid }

def fundSample : DeskAct :=
  .outside (.chain ⟨0⟩ (.call (sampleEnv 1000 [⟨6⟩]) (.createTrade 1 sampleArgs)))

def paySample : DeskAct :=
  .outside (.chain ⟨0⟩ (.call (sampleEnv 1500 [⟨7⟩]) (.markFiatPaid 1 ⟨7⟩)))

end Lolipay.Coordinator.Desk
