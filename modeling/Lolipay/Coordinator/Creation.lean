import Mathlib.Data.List.Sort
import Lolipay.Coordinator.Binding
import Lolipay.Coordinator.Database

namespace Lolipay.Coordinator.Creation

open Lolipay.Ledger.Storage Lolipay.Ledger.Invocation Lolipay.Async.Process
open Lolipay.Escrow.Types
open Lolipay.Coordinator.Orders Lolipay.Coordinator.Binding Lolipay.Coordinator.Writes
open Lolipay.Coordinator.Database

/-- What stays the same while the services run: the deployment's own settings,
the database's hash for lock keys, and what the chain and the reputation say
about providers and persons. -/
structure Settings where
  escrowContractId : Address
  platformWallet : Address
  hashtext : ℕ → ℤ
  tierOf : PersonId → UserTier
  dailyLimitByTier : UserTier → Option ℕ
  bondOf : Address → ℤ

def maxRefAttempts : ℕ := 5

def minPayWindowSecs : ℕ := 600

def maxDisputeWindowSecs : ℤ := 86400
def resolverWindowSecs : ℤ := 86400
def postVerdictGraceSecs : ℤ := resolverWindowSecs

def slashCeilingPastPostSettleSecs : ℤ := 2 * resolverWindowSecs + postVerdictGraceSecs

def longestTailPastSettlementSecs : ℤ := maxDisputeWindowSecs + slashCeilingPastPostSettleSecs

def usdcBaseUnits : ℤ := 10000000

def defaultDailyLimitUsdc : UserTier → ℕ
  | .bronze => 100
  | .silver => 300
  | .trusted => 600
  | .gold => 2000

def dailyLimitBaseUnits (tier : UserTier) (dailyLimitByTier : UserTier → Option ℕ) : ℤ :=
  (dailyLimitByTier tier).getD (defaultDailyLimitUsdc tier) * usdcBaseUnits

structure LpMatch where
  id : LpId
  stellarAddress : Address
  paymentMethodId : ℕ
  staked : ℤ
  deriving DecidableEq, Repr

def tryLps (amount : ℤ) (excludePersonId : PersonId) (nowSec : ℤ) :
    List Candidate → Service LpMatch
  | [] => .fail
  | lp :: others => do
    let stake ← ask (.getStakeInfo lp.stellarAddress)
    match stake with
    | none => tryLps amount excludePersonId nowSec others
    | some stake =>
      if stake.eligible then do
        let committed : ℤ ← ask (.lpExposure lp.id nowSec)
        if committed + amount > stake.staked then tryLps amount excludePersonId nowSec others
        else do
          let owner : Option PersonId ← ask (.personIdFor lp.stellarAddress)
          if owner = some excludePersonId then .fail
          else .pure ⟨lp.id, lp.stellarAddress, lp.paymentMethodId, stake.staked⟩
      else tryLps amount excludePersonId nowSec others

/-- The least busy provider that is not the customer himself and whose bond
has room for the amount. -/
def pickLp (rail : Rail) (fiat : String) (amount : ℤ) (excludePersonId : PersonId) :
    Service LpMatch := do
  let candidates : List Candidate ← ask (.findMatchable rail fiat)
  let own : List Address ← ask (.walletsOf excludePersonId)
  let sorted := candidates.insertionSort fun a b => a.openOrders ≤ b.openOrders
  let now : ℕ ← ask .clock
  tryLps amount excludePersonId (now / 1000) (sorted.filter fun lp => lp.stellarAddress ∉ own)

/-- What one creation puts at stake. -/
structure Request where
  quoteId : QuoteId
  personId : PersonId
  lp : LpMatch
  limitBase : ℤ
  data : Placement
  needsRef : Bool

/-- The part of the creating transaction after the locks: the capacity of the
provider, the customer's volume, his identity, the quote and the row. -/
def createLocked (r : Request) (retry : Service Unit) : Service Unit := do
  let now : ℕ ← ask .clock
  let committed : ℤ ← ask (.lpExposure r.lp.id (now / 1000))
  if committed + r.data.usdcAmount > r.lp.staked then failAfter .rollback
  else do
    let used : ℤ ← ask (.used24h r.personId)
    if used + r.data.usdcAmount > r.limitBase then failAfter .rollback
    else do
      let verified : Bool ← ask (.identityVerified r.personId)
      if verified then do
        let consumed ← issue (Effect.consumeQuote r.quoteId)
        match consumed with
        | none | some 0 => failAfter .rollback
        | some (_ + 1) =>
          let inserted ← issue (Effect.createOrderRow r.data r.needsRef)
          match inserted with
          | none => failAfter .rollback
          | some .uniqueViolation => do
            issue Effect.rollback
            retry
          | some (.row _) =>
            let done : Bool ← issue Effect.commit
            demand done
      else failAfter .rollback

/-- The loop around the transaction, with the attempts that are left. Only a
top-up carries a transfer reference, so only a top-up tries again. -/
def createAttempts (y : Settings) (r : Request) : ℕ → Service Unit
  | 0 => .fail
  | attempts + 1 => do
    issue Effect.begin
    issue (Effect.lock (.person (y.hashtext r.personId)))
    issue (Effect.lock (.lpCapacity (y.hashtext r.lp.id)))
    createLocked r (createAttempts y r attempts)

/-- Whether every wallet that a release pays can receive the token. -/
def trustlinesReady : List Address → Service Bool
  | [] => .pure true
  | a :: rest => do
    let has ← ask (.hasUsdcTrustline a)
    match has with
    | none => .fail
    | some has =>
      let others ← trustlinesReady rest
      .pure (has && others)

def orderData (y : Settings) (quote : Quote) (config : PlatformConfig) (user : Address)
    (personId : PersonId) (tradeId : TradeId) (lp : LpMatch) (now : ℕ) : Placement where
  flow := quote.flow
  userAddress := user
  lpWallet := some lp.stellarAddress
  usdcAmount := quote.usdcAmount
  fiatAmount := quote.fiatAmount
  fiatCurrency := quote.fiatCurrency
  platformFeeBps := quote.platformFeeBps
  lpFeeBps := quote.lpFeeBps
  platformWallet := config.platformWallet.getD y.platformWallet
  payDeadline := now / 1000 + config.payWindowSecs
  confirmDeadline := now / 1000 + config.payWindowSecs + config.confirmWindowSecs
  disputeDeadline :=
    now / 1000 + config.payWindowSecs + config.confirmWindowSecs + config.disputeWindowSecs
  tradeId := tradeId
  contractId := some y.escrowContractId
  personId := personId
  lpId := some lp.id
  createdAt := now
  expiresAt := (now / 1000 + config.payWindowSecs - minPayWindowSecs) * 1000
  ref := none

/-- The part of `createFromQuote` after the checks on the quote and the person. -/
def placeOrder (y : Settings) (user : Address) (quoteId : QuoteId) (quote : Quote)
    (config : PlatformConfig) (personId : PersonId) (limitBase : ℤ) : Service Unit := do
  let now : ℕ ← ask .clock
  let tradeId ← ask .newTradeId
  let lp ← pickLp quote.rail quote.fiatCurrency quote.usdcAmount personId
  let data := orderData y quote config user personId tradeId lp now
  let roles := mapRoles quote.flow user lp.stellarAddress
  let ready ← trustlinesReady
    [roles.usdcRecipient, data.platformWallet, lp.stellarAddress].dedup
  if ready then
    createAttempts y ⟨quoteId, personId, lp, limitBase, data, quote.flow = .topUp⟩
      (if quote.flow = .topUp then maxRefAttempts else 1)
  else .fail

/-- `destination` is the customer's payment destination once it has passed its checks. -/
def createFromQuote (y : Settings) (user : Address) (quoteId : QuoteId)
    (destination : Option String) : Service Unit := do
  let quote : Option Quote ← ask (.findQuote quoteId)
  match quote with
  | none => .fail
  | some quote =>
    let now : ℕ ← ask .clock
    if quote.userAddress ≠ user then .fail
    else if quote.expiresAt < now then .fail
    else if quote.flow = .withdraw ∧ destination = none then .fail
    else do
      let config : PlatformConfig ← ask .getConfig
      if config.paused ∨ quote.usdcAmount < config.minOrder ∨
          config.maxOrder < quote.usdcAmount then .fail
      else do
        let person : Option PersonId ← ask (.personIdFor user)
        match person with
        | none => .fail
        | some personId =>
          let tier : UserTier ← ask (.getReputation personId)
          let limitBase := dailyLimitBaseUnits tier config.dailyLimitByTier
          let used : ℤ ← ask (.used24h personId)
          if used + quote.usdcAmount > limitBase then .fail
          else do
            let verified : Bool ← ask (.identityVerified personId)
            let enabled : Bool ← ask (.marketEnabled quote.fiatCurrency)
            if verified ∧ enabled then
              placeOrder y user quoteId quote config personId limitBase
            else .fail

end Lolipay.Coordinator.Creation
