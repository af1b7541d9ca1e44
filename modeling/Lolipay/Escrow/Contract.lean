import Lolipay.Escrow.Types

namespace Lolipay.Escrow.Contract

open Lolipay.Ledger.Calls Lolipay.Ledger.Storage Lolipay.Ledger.Invocation Lolipay.Escrow.Types

def resolverWindow : ℕ := 86400
def postVerdictGrace : ℕ := resolverWindow
def minPayWindow : ℕ := 600
def maxPayWindow : ℕ := 86400
def maxTotalWindow : ℕ := 2592000
def maxLpFeeBps : ℕ := 500
def attestGraceSecs : ℕ := 3600
def minDisputeWindow : ℕ := attestGraceSecs
def maxEarlyReleaseProviders : ℕ := 20
def maxPlatformFeeBps : ℕ := 500
def maxDisputeWindow : ℕ := 86400

structure FeeSplit where
  platformFee : ℤ
  lpFee : ℤ
  net : ℤ
  deriving DecidableEq, Repr

/-- Integer division of `i128` rounds towards zero. -/
def splitFees (amount : ℤ) (platformFeeBps lpFeeBps : ℕ) : Outcome Error FeeSplit := do
  let platformGross ← mulI128 amount platformFeeBps
  let lpGross ← mulI128 amount lpFeeBps
  let rest ← subI128 amount (platformGross.tdiv 10000)
  let net ← subI128 rest (lpGross.tdiv 10000)
  .ok ⟨platformGross.tdiv 10000, lpGross.tdiv 10000, net⟩

def getConfig (h : EscrowHost) : Outcome Error Config := okOr h.storage.config .notInitialized

def storageGetTrade (h : EscrowHost) (tradeId : TradeId) : Option Trade :=
  h.storage.trades.lookup tradeId

def setTrade (h : EscrowHost) (tradeId : TradeId) (trade : Trade) : EscrowHost :=
  { h with storage := { h.storage with trades := h.storage.trades.insert tradeId trade } }

def storeConfig (h : EscrowHost) (cfg : Config) : EscrowHost :=
  { h with storage := { h.storage with config := some cfg } }

def rolesClash (admin resolver fiatAttestor : Address) : Prop :=
  admin = resolver ∨ admin = fiatAttestor ∨ resolver = fiatAttestor

instance (a r f : Address) : Decidable (rolesClash a r f) :=
  inferInstanceAs (Decidable (a = r ∨ a = f ∨ r = f))

def windowOutOfRange (disputeWindow : ℕ) : Prop :=
  ¬(minDisputeWindow ≤ disputeWindow ∧ disputeWindow ≤ maxDisputeWindow)

instance (w : ℕ) : Decidable (windowOutOfRange w) :=
  inferInstanceAs (Decidable (¬(minDisputeWindow ≤ w ∧ w ≤ maxDisputeWindow)))

/-- The constructor. A panic with an error rolls the deployment back as any failed call. -/
def construct (env : Env) (admin usdcToken resolver : Address) (defaultPlatformFeeBps : ℕ)
    (defaultPlatformWallet : Address) (disputeWindow : ℕ) (fiatAttestor : Address) :
    Outcome Error Config := do
  requireAuth env admin
  rejectIf (defaultPlatformFeeBps > maxPlatformFeeBps) .invalidFee
  rejectIf (windowOutOfRange disputeWindow) .invalidConfig
  rejectIf (rolesClash admin resolver fiatAttestor) .invalidConfig
  .ok
    { admin, usdcToken, resolver, defaultPlatformFeeBps, defaultPlatformWallet, paused := false,
      disputeWindow, fiatAttestor, earlyReleaseProviders := [] }

def setConfig (env : Env) (h : EscrowHost) (newConfig : Config) : Outcome Error EscrowHost := do
  let cfg ← getConfig h
  requireAuth env cfg.admin
  rejectIf (newConfig.usdcToken ≠ cfg.usdcToken) .tokenImmutable
  rejectIf (newConfig.defaultPlatformWallet ≠ cfg.defaultPlatformWallet) .walletImmutable
  rejectIf (newConfig.fiatAttestor ≠ cfg.fiatAttestor) .invalidConfig
  rejectIf (newConfig.earlyReleaseProviders.length > maxEarlyReleaseProviders) .invalidConfig
  rejectIf (rolesClash newConfig.admin newConfig.resolver newConfig.fiatAttestor) .invalidConfig
  rejectIf (newConfig.defaultPlatformFeeBps > maxPlatformFeeBps) .invalidFee
  rejectIf (windowOutOfRange newConfig.disputeWindow) .invalidConfig
  requireAuth env newConfig.admin
  .ok ((storeConfig h newConfig).publish (.configChanged newConfig.admin newConfig.resolver))

def setPaused (env : Env) (h : EscrowHost) (paused : Bool) : Outcome Error EscrowHost := do
  let cfg ← getConfig h
  requireAuth env cfg.admin
  .ok ((storeConfig h { cfg with paused }).publish (.pausedSet paused))

def getTrade (h : EscrowHost) (tradeId : TradeId) : Outcome Error Trade :=
  okOr (storageGetTrade h tradeId) .tradeNotFound

def viewOf (t : Trade) : DisputeView :=
  { isDisputed := t.status = .disputed
    provider := t.usdcProvider
    recipient := t.usdcRecipient
    amount := t.usdcAmount
    preSettlement := !(t.effective = .released || t.effective = .refunded)
    released := t.effective = .released
    postSettleRaised :=
      t.providerPostSettleUsed || t.recipientPostSettleUsed || t.resolverPostSettleUsed
    liabilityEstablished := t.liabilityEstablished
    slashDeadline := t.slashDeadline }

def disputeView (h : EscrowHost) (tradeId : TradeId) : Outcome Error DisputeView := do
  let t ← getTrade h tradeId
  .ok (viewOf t)

structure CreateArgs where
  usdcProvider : Address
  usdcRecipient : Address
  confirmer : Address
  usdcAmount : ℤ
  fiatAmount : ℤ
  fiatCurrency : String
  flow : Flow
  platformFeeBps : ℕ
  lpFeeBps : ℕ
  platformWallet : Address
  lpWallet : Address
  payDeadline : ℕ
  confirmDeadline : ℕ
  disputeDeadline : ℕ
  deriving DecidableEq, Repr

def rejectOperator (cfg : Config) (party : Address) : Outcome Error Unit :=
  rejectIf (party = cfg.resolver ∨ party = cfg.fiatAttestor ∨ party = cfg.admin) .invalidRoles

def openingTrade (cfg : Config) (now : ℕ) (a : CreateArgs) : Trade :=
  { status := .funded
    usdcProvider := a.usdcProvider
    usdcRecipient := a.usdcRecipient
    confirmer := a.confirmer
    usdcToken := cfg.usdcToken
    usdcAmount := a.usdcAmount
    fiatAmount := a.fiatAmount
    fiatCurrency := a.fiatCurrency
    flow := a.flow
    platformFeeBps := a.platformFeeBps
    lpFeeBps := a.lpFeeBps
    platformWallet := a.platformWallet
    lpWallet := a.lpWallet
    createdAt := now
    payDeadline := a.payDeadline
    confirmDeadline := a.confirmDeadline
    disputeDeadline := a.disputeDeadline
    disputedBy := none
    resolverDeadline := 0
    settledAt := 0
    hasPreDisputeStatus := false
    preDisputeStatus := .funded
    providerPostSettleUsed := false
    recipientPostSettleUsed := false
    resolverPostSettleUsed := false
    postSettleDeadline := 0
    slashDeadline := 0
    liabilityEstablished := false
    disputeWindow := cfg.disputeWindow }

def createTrade (env : Env) (h : EscrowHost) (tradeId : TradeId) (a : CreateArgs) :
    Outcome Error EscrowHost := do
  let cfg ← getConfig h
  rejectIf cfg.paused .paused
  rejectIf (storageGetTrade h tradeId).isSome .tradeExists
  rejectIf (a.usdcAmount ≤ 0 ∨ a.fiatAmount ≤ 0) .invalidAmount
  rejectIf (a.confirmer ≠ a.usdcProvider ∨ a.usdcProvider = a.usdcRecipient) .invalidRoles
  rejectOperator cfg a.usdcProvider
  rejectOperator cfg a.usdcRecipient
  rejectIf (a.platformFeeBps + a.lpFeeBps ≥ 10000) .invalidFee
  rejectIf (a.platformFeeBps ≠ cfg.defaultPlatformFeeBps ∨
    a.platformWallet ≠ cfg.defaultPlatformWallet) .invalidFee
  rejectIf (a.lpFeeBps > maxLpFeeBps) .invalidFee
  let now := env.timestamp
  rejectIf (¬(now < a.payDeadline ∧ a.payDeadline < a.confirmDeadline ∧
    a.confirmDeadline < a.disputeDeadline)) .invalidDeadlines
  let earliestPay ← addU64 now minPayWindow
  rejectIf (a.payDeadline < earliestPay) .invalidDeadlines
  -- The disjunction of the source is lazy: the second sum is formed only if the first test passes.
  let latestPay ← addU64 now maxPayWindow
  rejectIf (a.payDeadline > latestPay) .invalidDeadlines
  let latestDispute ← addU64 now maxTotalWindow
  rejectIf (a.disputeDeadline > latestDispute) .invalidDeadlines
  requireAuth env a.usdcProvider
  let h := setTrade h tradeId (openingTrade cfg now a)
  let h ← h.transfer env ⟨cfg.usdcToken, a.usdcProvider, env.contract, a.usdcAmount⟩
  .ok (h.publish (.tradeCreated tradeId a.usdcAmount))

/-- `min(confirm_deadline, pay_deadline + ATTEST_GRACE_SECS)`, with its checked sum. -/
def gracedDeadline (t : Terms) : Outcome Error ℕ := do
  let graced ← addU64 t.payDeadline attestGraceSecs
  .ok (min t.confirmDeadline graced)

def markDeadline (cfg : Config) (trade : Trade) (caller : Address) : Outcome Error ℕ :=
  if caller = cfg.fiatAttestor ∧ trade.flow = .topUp then do
    rejectIf cfg.paused .paused
    gracedDeadline trade.toTerms
  else if caller = trade.usdcRecipient then
    .ok (if trade.flow = .topUp then trade.payDeadline else trade.confirmDeadline)
  else .error (.error .unauthorized)

def markFiatPaid (env : Env) (h : EscrowHost) (tradeId : TradeId) (caller : Address) :
    Outcome Error EscrowHost := do
  let cfg ← getConfig h
  let trade ← getTrade h tradeId
  rejectIf (trade.status ≠ .funded) .invalidState
  let deadline ← markDeadline cfg trade caller
  rejectIf (env.timestamp > deadline) .deadlinePassed
  requireAuth env caller
  .ok ((setTrade h tradeId { trade with status := .fiatPaid }).publish (.fiatPaid tradeId))

def payFee (env : Env) (h : EscrowHost) (t : Transfer) : Outcome Error EscrowHost :=
  if t.amount > 0 then h.transfer env t else .ok h

/-- The payout that the three releasing functions of the source share. The
record is written before any token moves. -/
def payRelease (env : Env) (h : EscrowHost) (tradeId : TradeId) (trade : Trade) :
    Outcome Error (EscrowHost × FeeSplit) := do
  let fees ← splitFees trade.usdcAmount trade.platformFeeBps trade.lpFeeBps
  let deadline ← addU64 env.timestamp trade.disputeWindow
  let h := setTrade h tradeId (trade.settled .released env.timestamp deadline)
  let h ← payFee env h ⟨trade.usdcToken, env.contract, trade.platformWallet, fees.platformFee⟩
  let h ← payFee env h ⟨trade.usdcToken, env.contract, trade.lpWallet, fees.lpFee⟩
  let h ← h.transfer env ⟨trade.usdcToken, env.contract, trade.usdcRecipient, fees.net⟩
  .ok (h, fees)

def doRefund (env : Env) (h : EscrowHost) (tradeId : TradeId) (trade : Trade) :
    Outcome Error EscrowHost := do
  let deadline ← addU64 env.timestamp trade.disputeWindow
  let h := setTrade h tradeId (trade.settled .refunded env.timestamp deadline)
  let h ← h.transfer env ⟨trade.usdcToken, env.contract, trade.usdcProvider, trade.usdcAmount⟩
  .ok (h.publish (.refunded tradeId trade.usdcAmount))

def releaseFromFunded (env : Env) (h : EscrowHost) (tradeId : TradeId) :
    Outcome Error EscrowHost := do
  let cfg ← getConfig h
  let trade ← getTrade h tradeId
  rejectIf (trade.status ≠ .funded) .invalidState
  rejectIf cfg.paused .paused
  rejectIf (trade.flow ≠ .topUp) .earlyReleaseNotAllowed
  rejectIf (trade.usdcProvider ∉ cfg.earlyReleaseProviders) .earlyReleaseNotAllowed
  let deadline ← gracedDeadline trade.toTerms
  rejectIf (env.timestamp > deadline) .deadlinePassed
  requireAuth env cfg.fiatAttestor
  requireAuth env trade.confirmer
  let (h, fees) ← payRelease env h tradeId trade
  .ok (h.publish (.earlyReleased tradeId fees.net fees.platformFee fees.lpFee))

def confirmAndRelease (env : Env) (h : EscrowHost) (tradeId : TradeId) :
    Outcome Error EscrowHost := do
  let _ ← getConfig h
  let trade ← getTrade h tradeId
  rejectIf (trade.status ≠ .fiatPaid) .invalidState
  requireAuth env trade.confirmer
  let (h, fees) ← payRelease env h tradeId trade
  .ok (h.publish (.released tradeId fees.net fees.platformFee fees.lpFee))

def refundOpensAt (t : Terms) : Outcome Error ℕ :=
  if t.flow = .topUp then gracedDeadline t else .ok t.confirmDeadline

def refund (env : Env) (h : EscrowHost) (tradeId : TradeId) : Outcome Error EscrowHost := do
  let _ ← getConfig h
  let trade ← getTrade h tradeId
  rejectIf (trade.status ≠ .funded) .invalidState
  let opensAt ← refundOpensAt trade.toTerms
  rejectIf (env.timestamp ≤ opensAt) .deadlineNotReached
  doRefund env h tradeId trade

def cancel (env : Env) (h : EscrowHost) (tradeId : TradeId) : Outcome Error EscrowHost := do
  let _ ← getConfig h
  let trade ← getTrade h tradeId
  rejectIf (trade.status ≠ .funded) .invalidState
  requireAuth env trade.usdcProvider
  requireAuth env trade.usdcRecipient
  doRefund env h tradeId trade

/-- Each of the two parties, and all resolvers together, can dispute a settlement once. -/
def postSettleSpent (trade : Trade) (raiser : Address) : Bool :=
  if raiser = trade.usdcProvider then trade.providerPostSettleUsed
  else if raiser = trade.usdcRecipient then trade.recipientPostSettleUsed
  else trade.resolverPostSettleUsed

def spendPostSettle (trade : Trade) (raiser : Address) : Trade :=
  if raiser = trade.usdcProvider then { trade with providerPostSettleUsed := true }
  else if raiser = trade.usdcRecipient then { trade with recipientPostSettleUsed := true }
  else { trade with resolverPostSettleUsed := true }

/-- The status that a dispute raised now has to remember; none for a trade marked as paid. -/
def priorStatus (cfg : Config) (trade : Trade) (raiser : Address) (now : ℕ) :
    Outcome Error (Option Status) :=
  match trade.status with
  | .fiatPaid => .ok none
  | .funded => do
    rejectIf cfg.paused .paused
    rejectIf (trade.flow ≠ .topUp) .disputeNotAllowed
    rejectIf (now > trade.disputeDeadline) .deadlinePassed
    .ok (some .funded)
  | .released | .refunded => do
    rejectIf (postSettleSpent trade raiser) .alreadyResolved
    rejectIf (now > trade.postSettleDeadline) .disputeWindowPassed
    .ok (some trade.status)
  | .disputed => .error (.error .invalidState)

def recordPrior (trade : Trade) : Option Status → Trade
  | some prior => trade.setPreDisputeStatus (some prior)
  | none => trade

/-- A dispute about a settlement keeps the slash window open and uses up the raiser's only try. -/
def reopenSettled (trade : Trade) (raiser : Address) (deadline : ℕ) : Option Status → Trade
  | some .released | some .refunded =>
    spendPostSettle { trade with slashDeadline := max trade.slashDeadline deadline } raiser
  | _ => trade

def raiseDispute (env : Env) (h : EscrowHost) (tradeId : TradeId) (raiser : Address) :
    Outcome Error EscrowHost := do
  let trade ← getTrade h tradeId
  let now := env.timestamp
  let cfg ← getConfig h
  let prior ← priorStatus cfg trade raiser now
  rejectIf (if trade.status = .funded then raiser ≠ cfg.resolver
    else raiser ≠ cfg.resolver ∧ raiser ≠ trade.usdcProvider ∧ raiser ≠ trade.usdcRecipient)
    .unauthorized
  requireAuth env raiser
  let deadline ← addU64 now resolverWindow
  let trade := reopenSettled (recordPrior trade prior) raiser deadline prior
  let trade :=
    { trade with status := .disputed, disputedBy := some raiser, resolverDeadline := deadline }
  .ok ((setTrade h tradeId trade).publish (.disputed tradeId raiser))

def holderOf (t : Terms) (prior : Status) : Address :=
  if prior = .released then t.usdcRecipient else t.usdcProvider

def upheld (prior : Status) (outcome : ResolveOutcome) : Bool :=
  decide (prior = .released) == decide (outcome = .release)

def claimedAgainstTheHolder (trade : Trade) (prior : Status) : Bool :=
  trade.disputedBy ≠ some (holderOf trade.toTerms prior)

/-- What a verdict on a settled trade does to the record. The three sums of
the source are checked, each where it is formed. -/
def verdict (trade : Trade) (prior : Status) (outcome : ResolveOutcome) (now : ℕ) :
    Outcome Error Trade :=
  if upheld prior outcome ∧ claimedAgainstTheHolder trade prior ∧ ¬trade.liabilityEstablished then
    .ok { trade with slashDeadline := 0 }
  else do
    let window ← addU64 trade.postSettleDeadline (2 * resolverWindow)
    let ceiling ← addU64 window postVerdictGrace
    let graced ← addU64 now postVerdictGrace
    .ok { trade with
      liabilityEstablished := trade.liabilityEstablished || !upheld prior outcome
      slashDeadline := max trade.slashDeadline (min graced ceiling) }

/-- The settling arm of `resolve`: the principal leaves the contract. -/
def settleResolved (env : Env) (h : EscrowHost) (tradeId : TradeId) (trade : Trade) :
    ResolveOutcome → Outcome Error EscrowHost
  | .refund => do
    let h ← doRefund env h tradeId trade
    .ok (h.publish (.resolved tradeId false false))
  | .release => do
    let (h, _) ← payRelease env h tradeId trade
    .ok (h.publish (.resolved tradeId true false))

/-- Settling a dispute that was raised before any payment takes the attestor's
authorisation as well, unless the administrator unwinds the trade. -/
def attestorCoSigns (env : Env) (cfg : Config) (adminUnwind : Bool) : Outcome Error Unit :=
  if adminUnwind then .ok () else requireAuth env cfg.fiatAttestor

def resolve (env : Env) (h : EscrowHost) (tradeId : TradeId) (outcome : ResolveOutcome)
    (caller : Address) : Outcome Error EscrowHost := do
  let cfg ← getConfig h
  let trade ← getTrade h tradeId
  rejectIf (trade.status ≠ .disputed) .notDisputed
  let now := env.timestamp
  rejectIf (caller = trade.usdcProvider ∨ caller = trade.usdcRecipient) .unauthorized
  let isResolver : Bool := caller = cfg.resolver
  let isAdminFallback : Bool := now > trade.resolverDeadline ∧ caller = cfg.admin
  rejectIf (¬(isResolver ∨ isAdminFallback)) .unauthorized
  requireAuth env caller
  match trade.preDisputeStatus? with
  | some .funded => do
    let adminUnwind : Bool := isAdminFallback ∧ outcome = .refund
    attestorCoSigns env cfg adminUnwind
    settleResolved env h tradeId (trade.setPreDisputeStatus none) outcome
  | some prior => do
    let trade ← verdict trade prior outcome now
    let trade := Trade.setPreDisputeStatus { trade with status := prior } none
    .ok ((setTrade h tradeId trade).publish (.resolved tradeId (outcome = .release) true))
  | none => settleResolved env h tradeId trade outcome

end Lolipay.Escrow.Contract
