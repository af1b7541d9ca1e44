import Lolipay.Escrow.Effects
import Lolipay.Coordinator.Creation
import Lolipay.Coordinator.Signing

namespace Lolipay.Coordinator.Limits

open Lolipay.Ledger.Calls Lolipay.Ledger.Invocation
open Lolipay.Escrow.Types Lolipay.Escrow.Contract
open Lolipay.Escrow.Custody (sampleEnv sampleArgs)
open Lolipay.Coordinator.Orders Lolipay.Coordinator.Database
open Lolipay.Coordinator.Creation (Settings LpMatch orderData minPayWindowSecs
  longestTailPastSettlementSecs)
open Lolipay.Coordinator.Signing (signingDeadlineSecs)

def minUsablePayWindowSecs : ℤ := minPayWindowSecs * 2
def maxPayWindowSecs : ℤ := 86400
def maxTotalWindowSecs : ℤ := 2592000

def cooldownFloorSecs (payWindowSecs confirmWindowSecs : ℤ) : ℤ :=
  payWindowSecs + confirmWindowSecs + longestTailPastSettlementSecs + 1

structure Windows where
  payWindowSecs : ℤ
  confirmWindowSecs : ℤ
  disputeWindowSecs : ℤ
  deriving DecidableEq, Repr

/-- Whether a patch may set one of the windows, as the decorators have it. -/
def payWindowAllowed (secs : ℤ) : Bool := minUsablePayWindowSecs ≤ secs && secs ≤ maxPayWindowSecs

def laterWindowAllowed (secs : ℤ) : Bool := 1 ≤ secs && secs ≤ maxTotalWindowSecs

def Windows.allowed (w : Windows) : Bool :=
  payWindowAllowed w.payWindowSecs && laterWindowAllowed w.confirmWindowSecs &&
    laterWindowAllowed w.disputeWindowSecs

def windowsFitTheContract (w : Windows) (deployedCooldownSecs : Option ℤ) : Option String :=
  let total := w.payWindowSecs + w.confirmWindowSecs + w.disputeWindowSecs
  let floor := cooldownFloorSecs w.payWindowSecs w.confirmWindowSecs
  if w.payWindowSecs < minUsablePayWindowSecs then
    some ("payWindowSecs must be at least " ++ toString minUsablePayWindowSecs ++
      ", because the contract refuses a funding signature inside the last " ++
      toString minPayWindowSecs ++ " seconds of the window")
  else if maxPayWindowSecs < w.payWindowSecs then
    some ("payWindowSecs must be at most " ++ toString maxPayWindowSecs)
  else if maxTotalWindowSecs < total then
    some ("payWindowSecs + confirmWindowSecs + disputeWindowSecs must be at most " ++
      toString maxTotalWindowSecs ++ " (got " ++ toString total ++ ")")
  else
    match deployedCooldownSecs with
    | some cooldown =>
      if cooldown < floor then
        some ("these windows need the staking cooldown to be at least " ++ toString floor ++
          " seconds, but the deployed contract runs " ++ toString cooldown)
      else none
    | none => none

/-- The moments that `Date` knows, in milliseconds. -/
structure Date where
  ms : ℕ
  valid : ms ≤ 8640000000000000

structure Deadlines where
  payDeadline : ℤ
  confirmDeadline : ℤ
  disputeDeadline : ℤ
  expiresAt : ℤ
  deriving DecidableEq, Repr

def computeWindows (w : Windows) (now : ℕ) : Deadlines :=
  let payDeadline := (now / 1000 : ℕ) + w.payWindowSecs
  let confirmDeadline := payDeadline + w.confirmWindowSecs
  { payDeadline
    confirmDeadline
    disputeDeadline := confirmDeadline + w.disputeWindowSecs
    expiresAt := signingDeadlineSecs payDeadline * 1000 }

def windowsOf (config : PlatformConfig) : Windows :=
  ⟨config.payWindowSecs, config.confirmWindowSecs, config.disputeWindowSecs⟩

theorem orderData_windows (y : Settings) (quote : Quote) (config : PlatformConfig) (user : Address)
    (personId : PersonId) (tradeId : TradeId) (lp : LpMatch) (now : ℕ) :
    let p := orderData y quote config user personId tradeId lp now
    let d := computeWindows (windowsOf config) now
    p.payDeadline = d.payDeadline ∧ p.confirmDeadline = d.confirmDeadline ∧
      p.disputeDeadline = d.disputeDeadline := by
  simp only [orderData, computeWindows, windowsOf]
  omega

variable {w : Windows} {cooldown : Option ℤ}

/-- What the two validations together say about the windows. -/
theorem windows_bounds (hallowed : w.allowed = true) (hfit : windowsFitTheContract w cooldown = none) :
    1200 ≤ w.payWindowSecs ∧ w.payWindowSecs ≤ 86400 ∧ 1 ≤ w.confirmWindowSecs ∧
      1 ≤ w.disputeWindowSecs ∧
      w.payWindowSecs + w.confirmWindowSecs + w.disputeWindowSecs ≤ 2592000 := by
  simp only [Windows.allowed, payWindowAllowed, laterWindowAllowed, Bool.and_eq_true,
    decide_eq_true_eq] at hallowed
  obtain ⟨⟨⟨hpay, hpay'⟩, hconfirm, -⟩, hdispute, -⟩ := hallowed
  have htotal : w.payWindowSecs + w.confirmWindowSecs + w.disputeWindowSecs ≤ maxTotalWindowSecs := by
    by_contra hlate
    simp only [windowsFitTheContract] at hfit
    split at hfit
    next => cases hfit
    next =>
      split at hfit
      next => cases hfit
      next =>
        rw [if_pos (not_le.mp hlate)] at hfit
        cases hfit
  exact ⟨hpay, hpay', hconfirm, hdispute, htotal⟩

def checkTerms (h : EscrowHost) (tradeId : TradeId) (a : CreateArgs) : Outcome Error Config := do
  let cfg ← getConfig h
  rejectIf cfg.paused .paused
  rejectIf (storageGetTrade h tradeId).isSome .tradeExists
  rejectIf (a.usdcAmount ≤ 0 ∨ a.fiatAmount ≤ 0) .invalidAmount
  rejectIf (a.confirmer ≠ a.usdcProvider ∨ a.usdcProvider = a.usdcRecipient) .invalidRoles
  rejectOperator cfg a.usdcProvider
  rejectOperator cfg a.usdcRecipient
  rejectIf (a.platformFeeBps + a.lpFeeBps ≥ 10000) .invalidFee
  rejectIf (a.platformFeeBps ≠ cfg.defaultPlatformFeeBps ∨
    a.platformWallet ≠ cfg.defaultPlatformWallet) .invalidFee
  rejectIf (a.lpFeeBps > maxLpFeeBps) .invalidFee
  .ok cfg

def checkDeadlines (now : ℕ) (a : CreateArgs) : Outcome Error Unit := do
  rejectIf (¬(now < a.payDeadline ∧ a.payDeadline < a.confirmDeadline ∧
    a.confirmDeadline < a.disputeDeadline)) .invalidDeadlines
  let earliestPay ← addU64 now minPayWindow
  rejectIf (a.payDeadline < earliestPay) .invalidDeadlines
  let latestPay ← addU64 now maxPayWindow
  rejectIf (a.payDeadline > latestPay) .invalidDeadlines
  let latestDispute ← addU64 now maxTotalWindow
  rejectIf (a.disputeDeadline > latestDispute) .invalidDeadlines

def fund (env : Env) (h : EscrowHost) (tradeId : TradeId) (cfg : Config) (a : CreateArgs) :
    Outcome Error EscrowHost := do
  requireAuth env a.usdcProvider
  let h := setTrade h tradeId (openingTrade cfg env.timestamp a)
  let h ← h.transfer env ⟨cfg.usdcToken, a.usdcProvider, env.contract, a.usdcAmount⟩
  .ok (h.publish (.tradeCreated tradeId a.usdcAmount))

theorem createTrade_eq (env : Env) (h : EscrowHost) (tradeId : TradeId) (a : CreateArgs) :
    createTrade env h tradeId a = (do
      let cfg ← checkTerms h tradeId a
      checkDeadlines env.timestamp a
      fund env h tradeId cfg a) := by
  simp only [createTrade, checkTerms, checkDeadlines, fund, bind_assoc, ok_bind]

/-- The arguments of a funding with the deadlines of the order. -/
structure Carries (a : CreateArgs) (d : Deadlines) : Prop where
  pay : (a.payDeadline : ℤ) = d.payDeadline
  confirm : (a.confirmDeadline : ℤ) = d.confirmDeadline
  dispute : (a.disputeDeadline : ℤ) = d.disputeDeadline

variable {a : CreateArgs} {c : Date} {t : ℕ}

theorem checkDeadlines_eq_ok (t : ℕ) (a : CreateArgs) :
    checkDeadlines t a = .ok () ↔
      (a.payDeadline < a.confirmDeadline ∧ a.confirmDeadline < a.disputeDeadline) ∧
      (t + minPayWindow ≤ a.payDeadline ∧ a.payDeadline ≤ t + maxPayWindow ∧
        a.disputeDeadline ≤ t + maxTotalWindow) ∧ t + maxTotalWindow < u64Limit := by
  simp only [checkDeadlines, bind_eq_ok, rejectIf_eq_ok, addU64_eq_ok, not_not, not_lt, minPayWindow,
    maxPayWindow, maxTotalWindow]
  constructor
  · rintro ⟨-, ⟨-, hpc, hcd⟩, _, ⟨-, rfl⟩, -, hmin, _, ⟨-, rfl⟩, -, hmax, _, ⟨hlim, rfl⟩, htot⟩
    exact ⟨⟨hpc, hcd⟩, ⟨hmin, hmax, htot⟩, hlim⟩
  · rintro ⟨⟨hpc, hcd⟩, ⟨hmin, hmax, htot⟩, hlim⟩
    exact ⟨(), ⟨by omega, hpc, hcd⟩, _, ⟨by omega, rfl⟩, (), hmin, _, ⟨by omega, rfl⟩, (), hmax, _,
      ⟨hlim, rfl⟩, htot⟩

theorem checkDeadlines_iff (hallowed : w.allowed = true)
    (hfit : windowsFitTheContract w cooldown = none) (ha : Carries a (computeWindows w c.ms))
    (ht : c.ms / 1000 ≤ t) :
    checkDeadlines t a = .ok () ↔ (t : ℤ) * 1000 ≤ (computeWindows w c.ms).expiresAt := by
  obtain ⟨hmin, hmax, hconfirm, hdispute, htotal⟩ := windows_bounds hallowed hfit
  obtain ⟨hpay, hpc, hcd⟩ := ha
  have hdate := c.valid
  rw [checkDeadlines_eq_ok]
  simp only [computeWindows, signingDeadlineSecs, minPayWindow, maxPayWindow, maxTotalWindow,
    minPayWindowSecs, u64Limit] at *
  omega

/-- Windows that are accepted can be funded from the creation up to the deadline
for signing, which leaves at least ten minutes, and not a second longer. -/
theorem accepted_windows_fundable (hallowed : w.allowed = true)
    (hfit : windowsFitTheContract w cooldown = none) (c : Date)
    (ha : Carries a (computeWindows w c.ms)) :
    ((c.ms / 1000 : ℕ) + 600 : ℤ) * 1000 ≤ (computeWindows w c.ms).expiresAt ∧
    ∀ env h id, c.ms / 1000 ≤ env.timestamp →
      (checkDeadlines env.timestamp a = .ok () ↔
        (env.timestamp : ℤ) * 1000 ≤ (computeWindows w c.ms).expiresAt) ∧
      ((env.timestamp : ℤ) * 1000 ≤ (computeWindows w c.ms).expiresAt →
        createTrade env h id a = (do let cfg ← checkTerms h id a; fund env h id cfg a)) ∧
      ((computeWindows w c.ms).expiresAt < (env.timestamp : ℤ) * 1000 →
        ∀ h', createTrade env h id a ≠ .ok h') := by
  refine ⟨?_, fun env h id ht => ?_⟩
  · obtain ⟨hmin, -⟩ := windows_bounds hallowed hfit
    simp only [computeWindows, signingDeadlineSecs, minPayWindowSecs]
    omega
  · have hiff := checkDeadlines_iff hallowed hfit ha ht
    refine ⟨hiff, fun htime => ?_, fun hlate h' hok => ?_⟩
    · simp only [createTrade_eq, hiff.mpr htime, ok_bind]
    · rw [createTrade_eq] at hok
      obtain ⟨cfg, -, hok⟩ := (bind_eq_ok _ _ _).mp hok
      obtain ⟨u, hchecked, -⟩ := (bind_eq_ok _ _ _).mp hok
      exact absurd (hiff.mp hchecked) (not_le.mpr hlate)

def defaultWindows : Windows := ⟨1800, 1800, 7200⟩

/-- The default windows, one minute after the creation. -/
theorem default_windows_fundable :
    checkDeadlines 1060 { sampleArgs with
      payDeadline := 2800, confirmDeadline := 4600, disputeDeadline := 11800 } = .ok () := by
  have hallowed : defaultWindows.allowed = true := by decide
  have hfit : windowsFitTheContract defaultWindows (some 349201) = none := by decide
  have hfund := accepted_windows_fundable hallowed hfit ⟨1000500, by decide⟩
    (a := { sampleArgs with payDeadline := 2800, confirmDeadline := 4600, disputeDeadline := 11800 })
    ⟨rfl, rfl, rfl⟩
  exact ((hfund.2 (sampleEnv 1060 []) ⟨⟨none, ∅⟩, fun _ _ => 0, [], []⟩ 1 (by decide)).1).mpr (by decide)

end Lolipay.Coordinator.Limits
