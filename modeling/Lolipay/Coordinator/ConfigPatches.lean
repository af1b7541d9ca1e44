import Lolipay.Escrow.Custody
import Lolipay.Async.Scheduling
import Lolipay.Coordinator.Limits
import Lolipay.Coordinator.RateGuard

namespace Lolipay.Coordinator.ConfigPatches

open Lolipay.Ledger.Calls Lolipay.Ledger.Invocation Lolipay.Ledger.Runs
open Lolipay.Async.Process Lolipay.Async.Scheduling
open Lolipay.Escrow.Types (TradeId Flow EscrowHost Error)
open Lolipay.Escrow.Contract (CreateArgs createTrade getConfig maxLpFeeBps maxPlatformFeeBps)
open Lolipay.Coordinator.Orders Lolipay.Coordinator.Database
open Lolipay.Coordinator.Creation (Settings LpMatch orderData dailyLimitBaseUnits)
open Lolipay.Coordinator.Limits
open Lolipay.Coordinator.Desk (sampleSettings)
open Lolipay.Coordinator.RateGuard (spreadCoversPriceDeviation platformFeeFitsSpread)
open Lolipay.Coordinator.Signing (Composed)

structure Config extends PlatformConfig where
  spreadBps : ℕ
  platformFeeBps : ℕ
  lpFeeBps : ℕ
  requireProof : Bool
  postSettleDisputeWindowSecs : ℕ
  updatedAt : ℕ

def defaultConfig (platformWallet : Option Address) (now : ℕ) : Config :=
  { Desk.defaultConfig with
    platformWallet := platformWallet
    spreadBps := 150
    platformFeeBps := 30
    lpFeeBps := 120
    requireProof := true
    postSettleDisputeWindowSecs := 3600
    updatedAt := now }

/-- What `POSITIVE_INT_STRING` leaves of the texts. -/
abbrev PositiveInt := {n : ℕ // 0 < n}

/-- A field that is not in the request is `none`. -/
structure UpdateConfigDto where
  spreadBps : Option ℕ := none
  platformFeeBps : Option ℕ := none
  lpFeeBps : Option ℕ := none
  platformWallet : Option Address := none
  paused : Option Bool := none
  requireProof : Option Bool := none
  autoRefund : Option Bool := none
  dailyLimitByTier : Option (UserTier → ℕ) := none
  postSettleDisputeWindowSecs : Option ℕ := none
  payWindowSecs : Option ℕ := none
  confirmWindowSecs : Option ℕ := none
  disputeWindowSecs : Option ℕ := none
  minOrder : Option PositiveInt := none
  maxOrder : Option PositiveInt := none

def tierLevels : List UserTier := [.bronze, .silver, .trusted, .gold]

def maxDailyLimitUsdc : ℕ := 10000000

def bpsAllowed (bps : ℕ) : Bool := bps ≤ 9999

/-- The form's own bound, which is not the contract's. -/
def postSettleWindowAllowed (secs : ℕ) : Bool := 1 ≤ secs && secs ≤ 604800

def dailyLimitsAllowed (limits : UserTier → ℕ) : Bool :=
  tierLevels.all fun tier => 0 < limits tier && limits tier ≤ maxDailyLimitUsdc

def UpdateConfigDto.validate (dto : UpdateConfigDto) : Bool :=
  dto.spreadBps.all bpsAllowed && dto.platformFeeBps.all bpsAllowed && dto.lpFeeBps.all bpsAllowed &&
    dto.dailyLimitByTier.all dailyLimitsAllowed &&
    dto.postSettleDisputeWindowSecs.all postSettleWindowAllowed &&
    dto.payWindowSecs.all (fun secs => payWindowAllowed secs) &&
    dto.confirmWindowSecs.all (fun secs => laterWindowAllowed secs) &&
    dto.disputeWindowSecs.all (fun secs => laterWindowAllowed secs)

def UpdateConfigDto.nextMinOrder (patch : UpdateConfigDto) (current : Config) : ℤ :=
  (patch.minOrder.map fun n => (n.val : ℤ)).getD current.minOrder

def UpdateConfigDto.nextMaxOrder (patch : UpdateConfigDto) (current : Config) : ℤ :=
  (patch.maxOrder.map fun n => (n.val : ℤ)).getD current.maxOrder

def UpdateConfigDto.nextLimits (patch : UpdateConfigDto) (current : Config) : UserTier → Option ℕ :=
  match patch.dailyLimitByTier with
  | some limits => fun tier => some (limits tier)
  | none => current.dailyLimitByTier

theorem nextMinOrder_pos (patch : UpdateConfigDto) (current : Config) :
    0 < patch.nextMinOrder current := by
  rw [UpdateConfigDto.nextMinOrder]
  cases patch.minOrder with
  | none => exact current.minOrder_pos
  | some n => exact Int.natCast_pos.mpr n.property

def UpdateConfigDto.onto (patch : UpdateConfigDto) (row : Config) (now : ℕ) : Config where
  paused := patch.paused.getD row.paused
  autoRefund := patch.autoRefund.getD row.autoRefund
  platformWallet := patch.platformWallet.or row.platformWallet
  minOrder := patch.nextMinOrder row
  maxOrder := patch.nextMaxOrder row
  payWindowSecs := patch.payWindowSecs.getD row.payWindowSecs
  confirmWindowSecs := patch.confirmWindowSecs.getD row.confirmWindowSecs
  disputeWindowSecs := patch.disputeWindowSecs.getD row.disputeWindowSecs
  dailyLimitByTier := patch.nextLimits row
  minOrder_pos := nextMinOrder_pos patch row
  spreadBps := patch.spreadBps.getD row.spreadBps
  platformFeeBps := patch.platformFeeBps.getD row.platformFeeBps
  lpFeeBps := patch.lpFeeBps.getD row.lpFeeBps
  requireProof := patch.requireProof.getD row.requireProof
  postSettleDisputeWindowSecs :=
    patch.postSettleDisputeWindowSecs.getD row.postSettleDisputeWindowSecs
  updatedAt := now

def configWriteConflictSentence : String :=
  "the configuration moved between this save's read and its write, so nothing was changed"

def tierLabel : UserTier → String
  | .bronze => "Bronze"
  | .silver => "Silver"
  | .trusted => "Trusted"
  | .gold => "Gold"

def throwIf (p : Prop) [Decidable p] (message : String) : Except String Unit :=
  if p then .error message else .ok ()

def throwProblem (label : String) : Option String → Except String Unit
  | some problem => .error (label ++ ": " ++ problem)
  | none => .ok ()

section

-- How an address and how an amount of USDC is printed belongs to the language.
variable (printed : Address → String) (usdcText : ℤ → String) (priceDeviationMaxBps : ℕ)

def dailyLimitBelowMinOrderMessage (belowFloor : List (UserTier × ℤ)) (nextMinOrder : ℤ) : String :=
  let many : Bool := 1 < belowFloor.length
  let parts := belowFloor.map fun p =>
    "the " ++ tierLabel p.1 ++ " daily limit of " ++ usdcText p.2 ++ " USDC"
  let list :=
    if parts.length = 1 then parts.headD ""
    else ", ".intercalate parts.dropLast ++ " and " ++ parts.getLastD ""
  "DAILY_LIMIT_BELOW_MIN_ORDER: " ++ list ++ (if many then " are" else " is") ++
    " below the Min order of " ++ usdcText nextMinOrder ++ " USDC, so nobody on " ++
    (if many then "those tiers" else "that tier") ++ " could ever place an order — every amount is " ++
    "either below Min order or over the daily limit. Raise " ++
    (if many then "those limits" else "that limit") ++ ", or lower Min order."

/-- The checks of the transaction, against the row that it has read. -/
def checkPatch (patch : UpdateConfigDto) (chainPlatformFeeBps : Option ℕ)
    (deployedCooldownSecs : Option ℤ) (current : Config) : Except String Unit := do
  let effectivePlatformFee := patch.platformFeeBps.getD current.platformFeeBps
  let effectiveLpFee := patch.lpFeeBps.getD current.lpFeeBps
  throwIf (effectivePlatformFee + effectiveLpFee ≥ 10000) "BPS_OVERFLOW"
  throwProblem "WINDOW_BOUNDS_INVALID" (windowsFitTheContract
    ⟨patch.payWindowSecs.getD current.payWindowSecs,
      patch.confirmWindowSecs.getD current.confirmWindowSecs,
      patch.disputeWindowSecs.getD current.disputeWindowSecs⟩ deployedCooldownSecs)
  match patch.spreadBps with
  | some spreadBps =>
    throwProblem "SPREAD_TOO_NARROW" (spreadCoversPriceDeviation spreadBps priceDeviationMaxBps)
  | none => .ok ()
  if patch.platformFeeBps.isSome || patch.spreadBps.isSome then
    throwProblem "PLATFORM_FEE_EXCEEDS_SPREAD" (platformFeeFitsSpread effectivePlatformFee
      (patch.spreadBps.getD current.spreadBps) priceDeviationMaxBps)
  else .ok ()
  match chainPlatformFeeBps with
  | some fee =>
    throwIf (patch.platformFeeBps ≠ some fee)
      ("PLATFORM_FEE_DIVERGES_FROM_CHAIN: platformFeeBps (" ++
        (patch.platformFeeBps.map toString).getD "undefined" ++
        ") must equal the escrow contract default_platform_fee_bps (" ++ toString fee ++
        "), because create_trade refuses any other value and every funding would revert")
  | none => .ok ()
  throwIf (¬patch.nextMinOrder current < patch.nextMaxOrder current) "ORDER_BOUNDS_INVALID"
  if patch.minOrder.isSome || patch.dailyLimitByTier.isSome then
    let belowFloor := (tierLevels.map fun tier =>
      (tier, dailyLimitBaseUnits tier (patch.nextLimits current))).filter fun p =>
        p.2 < patch.nextMinOrder current
    throwIf (belowFloor ≠ [])
      (dailyLimitBelowMinOrderMessage usdcText belowFloor (patch.nextMinOrder current))
  else .ok ()

end

inductive Effect where
  | readEscrowPlatformDefaults
  | stakingCooldownSecs
  | findCurrent
  /-- The guarded update with its line in the audit log. -/
  | update (updatedAt : ℕ) (patch : UpdateConfigDto)
  | invalidateAllConfigCaches
  | throw (message : String)

/-- An outer `none` is a statement or a read that threw, an inner one an update
that found no row. -/
@[reducible] def Reply : Effect → Type
  | .readEscrowPlatformDefaults => Except String (ℕ × Address)
  | .stakingCooldownSecs => Option ℤ
  | .findCurrent => Option Config
  | .update _ _ => Option (Option Config)
  | .invalidateAllConfigCaches | .throw _ => Unit

abbrev Service (α : Type) := Program Effect Reply α

def raise {α : Type} (message : String) : Service α := .step (.throw message) fun _ => .fail

def orThrow : Except String Unit → Service Unit
  | .ok () => .pure ()
  | .error message => raise message

section

variable (printed : Address → String) (usdcText : ℤ → String) (priceDeviationMaxBps : ℕ)

/-- The contract's fee, when the patch has to be held against it. -/
def readChainPlatformFee (patch : UpdateConfigDto) : Service (Option ℕ) := do
  if patch.platformWallet.isSome || patch.platformFeeBps.isSome then
    match ← issue Effect.readEscrowPlatformDefaults with
    | .error reason =>
      raise ("ESCROW_CONFIG_UNREADABLE: the escrow contract defaults could not be read, so " ++
        "platformFeeBps and platformWallet cannot be checked against them: " ++ reason)
    | .ok (platformFeeBps, platformWallet) =>
      let _ ← orThrow (throwIf (patch.platformWallet.isSome ∧ patch.platformWallet ≠ some platformWallet)
        ("PLATFORM_WALLET_DIVERGES_FROM_CHAIN: platformWallet must equal the escrow contract " ++
          "default_platform_wallet (" ++ printed platformWallet ++ "), which the contract will not let " ++
          "anyone change, because create_trade refuses any other value and every funding would revert"))
      .pure (if patch.platformFeeBps.isSome then some platformFeeBps else none)
  else .pure none

def readCooldown (patch : UpdateConfigDto) : Service (Option ℤ) := do
  if patch.payWindowSecs.isSome || patch.confirmWindowSecs.isSome then
    match ← issue Effect.stakingCooldownSecs with
    | some secs => .pure (some secs)
    | none =>
      raise ("WINDOW_BOUNDS_INVALID: the deployed staking cooldown could not be read, so these " ++
        "windows cannot be checked against it")
  else .pure none

def updateConfigTransactional (patch : UpdateConfigDto) : Service Unit := do
  let chainPlatformFeeBps ← readChainPlatformFee printed patch
  let deployedCooldownSecs ← readCooldown patch
  let current ← (attempt .findCurrent fun r => r : Service Config)
  let _ ← orThrow (checkPatch usdcText priceDeviationMaxBps patch chainPlatformFeeBps deployedCooldownSecs
    current)
  let updated ← (attempt (.update current.updatedAt patch) fun r => r : Service (Option Config))
  match updated with
  | none => raise configWriteConflictSentence
  | some _ => issue Effect.invalidateAllConfigCaches

end

/-- The row, the escrow contract and the clock. The rest is no data of the services: the
patches that were written, the latest one first, and what administrators were told. -/
structure Shared where
  row : Config
  chain : Escrow.System.World
  now : ℕ
  accepted : List UpdateConfigDto
  thrown : List String

/-- A read or a statement may fail, and the staking contract is not part of this. -/
structure Choice where
  fails : Bool := false
  reason : String := ""
  cooldownSecs : ℤ := 0

def platformDefaults (chain : Escrow.System.World) : Except String (ℕ × Address) :=
  match chain.contents.config with
  | some cfg => .ok (cfg.defaultPlatformFeeBps, cfg.defaultPlatformWallet)
  | none => .error "readEscrowPlatformDefaults: no readable default_platform_fee_bps"

def runUpdate (updatedAt : ℕ) (patch : UpdateConfigDto) (s : Shared) : Shared × Option Config :=
  if s.row.updatedAt = updatedAt then
    let row := patch.onto s.row s.now
    ({ s with row, accepted := patch :: s.accepted }, some row)
  else (s, none)

def effect (_ : Pid) (e : Effect) (o : Choice) (s : Shared) : Shared × Reply e :=
  match e with
  | .readEscrowPlatformDefaults => (s, if o.fails then .error o.reason else platformDefaults s.chain)
  | .stakingCooldownSecs => (s, if o.fails then none else some o.cooldownSecs)
  | .findCurrent => (s, if o.fails then none else some s.row)
  | .update updatedAt patch =>
    if o.fails then (s, none)
    else ((runUpdate updatedAt patch s).1, some (runUpdate updatedAt patch s).2)
  | .invalidateAllConfigCaches => (s, ())
  | .throw message => ({ s with thrown := message :: s.thrown }, ())

inductive Move where
  | ledger (a : Escrow.System.Action)
  | clock (time : ℕ)

def moves (self : Address) (s : Shared) : Move → Prop
  | .ledger a => Escrow.System.admits self s.chain a
  | .clock time => s.now ≤ time

def moved (s : Shared) : Move → Shared
  | .ledger a => { s with chain := Escrow.System.next s.chain a }
  | .clock time => { s with now := time }

/-- Any number of administrators at once, over a contract that goes on by itself. -/
def office (printed : Address → String) (usdcText : ℤ → String) (priceDeviationMaxBps : ℕ)
    (self : Address) : System UpdateConfigDto Choice Move Effect Reply Shared where
  body := updateConfigTransactional printed usdcText priceDeviationMaxBps
  delivers _ dto := dto.validate = true
  permits _ _ _ _ := True
  effect := effect
  dies _ s := s
  moves := moves self
  moved := moved

def opened (platformWallet : Option Address) (chain : Escrow.System.World) (now : ℕ) :
    Pool Effect Reply Shared :=
  idle ⟨defaultConfig platformWallet now, chain, now, [], []⟩

def quoteTtlMs : ℕ := 300000

structure Wish where
  userAddress : Address
  flow : Flow
  rail : Rail
  usdcAmount : ℤ
  fiatAmount : ℤ
  fiatCurrency : String

def quoteData (conf : Config) (wish : Wish) (now : ℕ) : Quote where
  userAddress := wish.userAddress
  flow := wish.flow
  rail := wish.rail
  usdcAmount := wish.usdcAmount
  fiatAmount := wish.fiatAmount
  fiatCurrency := wish.fiatCurrency
  platformFeeBps := conf.platformFeeBps
  lpFeeBps := conf.lpFeeBps
  expiresAt := now + quoteTtlMs
  usedAt := none

/-- The order of a customer who was quoted and who orders under one row. -/
def orderUnder (y : Settings) (conf : Config) (wish : Wish) (personId : PersonId) (tradeId : TradeId)
    (lp : LpMatch) (quotedAt now : ℕ) : Placement :=
  orderData y (quoteData conf wish quotedAt) conf.toPlatformConfig wish.userAddress personId tradeId lp
    now

def latestLpFee (accepted : List UpdateConfigDto) : Option ℕ := accepted.findSome? (·.lpFeeBps)

variable {printed : Address → String} {usdcText : ℤ → String} {priceDeviationMaxBps : ℕ}
  {self : Address} {cfg cfg₀ : Escrow.Types.Config} {chain : Escrow.System.World}
  {platformWallet : Option Address} {start : ℕ} {s t : Shared} {pool : Pool Effect Reply Shared}
  {tr : List (Entry (Pool Effect Reply Shared) (Act UpdateConfigDto Choice Move)
    (Option (Pid × Effect)))} {a : CreateArgs} {lp : LpMatch}

/-- The row has the fee that the patches have left in it, and the contract has come
to where it is by its own steps. -/
structure Tracks (escrow : Address) (chain : Escrow.System.World) (s : Shared) : Prop where
  lpFee : s.row.lpFeeBps = (latestLpFee s.accepted).getD 120
  ledger : ∃ trace, Run (Escrow.System.machine escrow) chain trace s.chain

theorem latestLpFee_cons (patch : UpdateConfigDto) (accepted : List UpdateConfigDto) :
    latestLpFee (patch :: accepted) = patch.lpFeeBps.or (latestLpFee accepted) := by
  rw [latestLpFee, List.findSome?_cons]
  cases patch.lpFeeBps <;> rfl

theorem Tracks.update (h : Tracks self chain s) (updatedAt : ℕ) (patch : UpdateConfigDto) :
    Tracks self chain (runUpdate updatedAt patch s).1 := by
  rw [runUpdate]
  split
  next =>
    refine ⟨?_, h.ledger⟩
    simp only [UpdateConfigDto.onto, latestLpFee_cons, h.lpFee]
    cases patch.lpFeeBps <;> rfl
  next => exact h

theorem Tracks.effect (h : Tracks self chain s) (pid : Pid) (e : Effect) (o : Choice) :
    Tracks self chain (effect pid e o s).1 := by
  cases e with
  | readEscrowPlatformDefaults | stakingCooldownSecs | findCurrent | invalidateAllConfigCaches => exact h
  | throw message => exact ⟨h.lpFee, h.ledger⟩
  | update updatedAt patch =>
    simp only [ConfigPatches.effect]
    split
    next => exact h
    next => exact h.update updatedAt patch

theorem Tracks.moved (h : Tracks self chain s) {m : Move} (hm : moves self s m) :
    Tracks self chain (moved s m) := by
  cases m with
  | clock time => exact ⟨h.lpFee, h.ledger⟩
  | ledger a =>
    obtain ⟨trace, hr⟩ := h.ledger
    exact ⟨h.lpFee, _, hr.snoc a hm⟩

def listedConfig : Escrow.Types.Config := { Escrow.Custody.sampleConfig with defaultPlatformFeeBps := 30 }

def listedWorld : Escrow.System.World := ⟨⟨some listedConfig, ∅⟩, fun _ _ => 0, 1000⟩

def sampleOffice : System UpdateConfigDto Choice Move Effect Reply Shared :=
  office (fun address => toString address.key) toString 100 ⟨0⟩

def sampleOpening : Pool Effect Reply Shared := opened (some ⟨4⟩) listedWorld 1000

def sampleWish : Wish := ⟨⟨7⟩, .topUp, .bank, 1000000, 16000, "IDR"⟩

def sampleMatch : LpMatch := ⟨0, ⟨6⟩, 0, 5000000⟩

def sampleOrder (conf : Config) : Placement :=
  orderUnder sampleSettings conf sampleWish 1 1 sampleMatch 1000000 1000000

end Lolipay.Coordinator.ConfigPatches
