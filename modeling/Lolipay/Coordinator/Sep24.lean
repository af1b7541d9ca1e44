import Lolipay.Escrow.Traps
import Lolipay.Coordinator.Signing
import Lolipay.Coordinator.Money

namespace Lolipay.Coordinator.Sep24

open Lolipay.Ledger
open Lolipay.Ledger.Calls Lolipay.Ledger.Invocation Lolipay.Ledger.Decimal
open Lolipay.Escrow.Types Lolipay.Escrow.Contract Lolipay.Escrow.System Lolipay.Escrow.Payout
open Lolipay.Escrow.Transitions Lolipay.Escrow.Effects
open Lolipay.Escrow.Traps (I128Safe splitFees_of_safe)
open Lolipay.Escrow.Custody (sampleEnv sampleConfig)
open Lolipay.Coordinator.Orders Lolipay.Coordinator.Binding Lolipay.Coordinator.Money
open Lolipay.Coordinator.Desk (samplePlacement samplePaid)
open Lolipay.Coordinator.Signing (signingCutoffSecs Composed argsOf)

inductive Sep24Status where
  | incomplete
  | pendingAnchor
  | pendingUserTransferStart
  | pendingUser
  | completed
  | refunded
  | expired
  deriving DecidableEq, Repr

def byOrderStatus : OrderStatus → Sep24Status
  | .created | .matched | .awaitingOnchain | .fiatPaid | .disputed => .pendingAnchor
  | .funded => .pendingUserTransferStart
  | .released => .completed
  | .refunded => .refunded
  | .expired | .cancelled => .expired

def withdrawByOrderStatus : OrderStatus → Option Sep24Status
  | .matched | .awaitingOnchain | .fiatPaid => some .pendingUser
  | .funded => some .pendingAnchor
  | _ => none

structure Sep24Order where
  status : OrderStatus
  usdcAmount : ℤ
  fiatAmount : ℤ
  fiatCurrency : String
  platformFeeBps : ℕ
  lpFeeBps : ℕ
  settlementTxHash : Option String
  settledAt : Option ℕ
  ref : Option String
  payDeadline : ℤ
  confirmDeadline : ℤ
  userClaimedPaidAt : Option ℕ

structure Sep24Record where
  id : String
  stellarAccount : String
  startedAt : ℕ
  kycVerified : Bool
  flow : Flow
  order : Option Sep24Order

inductive Kind where
  | deposit
  | withdrawal
  deriving DecidableEq, Repr

structure FeeDetails where
  total : String
  asset : String
  deriving DecidableEq, Repr

/-- The fields that are always null are left out. A field that is missing is
`none`, a null in one that is there is `some none`. -/
structure Sep24TransactionJson where
  id : String
  kind : Kind
  status : Sep24Status
  moreInfoUrl : String
  startedAt : String
  toAccount : Option String
  fromAccount : Option String
  kycVerified : Bool
  amountIn : Option String
  amountInAsset : Option String
  amountOut : Option String
  amountOutAsset : Option String
  feeDetails : Option FeeDetails
  userActionRequiredBy : Option String
  message : Option String
  externalTransactionId : Option String
  stellarTransactionId : Option (Option String)
  completedAt : Option (Option String)
  deriving DecidableEq, Repr

structure Sep24Assets where
  baseUrl : String
  usdcIssuer : String

def sep24Status (order : Option Sep24Order) (flow : Flow) : Sep24Status :=
  match order with
  | none => .incomplete
  | some order =>
    if flow = .topUp ∧ order.status = .funded ∧ order.userClaimedPaidAt.isSome then .pendingAnchor
    else if flow = .withdraw then
      (withdrawByOrderStatus order.status).getD (byOrderStatus order.status)
    else byOrderStatus order.status

section

-- The printing of times and the reading of a muxed account belong to libraries.
variable (toISOString : ℤ → String) (formatDeadline : ℤ → String) (accountOf : String → String)

structure Awaited where
  deadline : Option ℤ
  message : String

def withdrawalAction (order : Sep24Order) (now : ℕ) : Option Awaited :=
  if order.status = .matched ∨ order.status = .awaitingOnchain then
    let cutoff := signingCutoffSecs order.payDeadline
    some ⟨some cutoff,
      if cutoff * 1000 > now then
        "Open the withdrawal page and sign in your wallet to lock your USDC in escrow."
      else
        "The signing window for this withdrawal has closed; it will expire on its own. " ++
        "Start a new one from your wallet when you are ready."⟩
  else if order.status = .fiatPaid then
    some ⟨none, "The provider says the rupiah was sent. Check your bank account, then open the " ++
      "withdrawal page to confirm and release the USDC."⟩
  else none

def claimedMessage (order : Sep24Order) (refundAtSecs : ℤ) (now : ℕ) : String :=
  if order.payDeadline * 1000 > now then
    "You told this anchor you sent the rupiah, and the provider has been asked to check their " ++
    "account. Do not send it a second time. Keep your transfer receipt. If it is not confirmed by " ++
    formatDeadline refundAtSecs ++
    ", the escrow can be returned to the provider and this deposit closes."
  else if refundAtSecs ≥ (now / 1000 : ℕ) then
    "You told this anchor you sent the rupiah, and the provider has been asked to check their " ++
    "account. The time to send it has passed — do not start a transfer now. Keep your transfer " ++
    "receipt. One already sent can still be confirmed until " ++ formatDeadline refundAtSecs ++
    "; after that anyone, including the provider, can return the escrow to them."
  else
    "You told this anchor you sent the rupiah. The time to confirm it has passed, and anyone, " ++
    "including the provider, can now return the escrow to them. Do not send any more money for this " ++
    "deposit. Keep your transfer receipt."

def unclaimedMessage (order : Sep24Order) (refundAtSecs : ℤ) (now : ℕ) : String :=
  if order.payDeadline * 1000 > now then
    "Send the rupiah to the provider account shown on the deposit page you opened from your wallet."
  else if refundAtSecs ≥ (now / 1000 : ℕ) then
    "The time to send the rupiah has passed. Do not start a transfer now. One you already sent can " ++
    "still be confirmed by the anchor until " ++ formatDeadline refundAtSecs ++
    "; after that anyone, including the provider, can return the escrow to them."
  else
    "The time to send the rupiah has passed. Do not send it now; anyone, including the provider, " ++
    "can now return the escrow to them."

def depositAction (order : Sep24Order) (now : ℕ) : Option Awaited :=
  if order.status = .funded then
    -- `refundOpensAt` of a top-up
    let refundAtSecs := min (order.payDeadline + Services.attestGraceSecs) order.confirmDeadline
    if order.userClaimedPaidAt.isSome then
      some ⟨none, claimedMessage formatDeadline order refundAtSecs now⟩
    else some ⟨some order.payDeadline, unclaimedMessage formatDeadline order refundAtSecs now⟩
  else if order.status = .refunded then
    some ⟨none, "This deposit closed without completing, and the escrow sent no USDC to you. If you " ++
      "did send the rupiah, keep your transfer receipt: sign in with this same wallet at " ++
      "app.lolipay.app, where the order shows whether a dispute can still be opened and until when."⟩
  else none

def userAction (withdrawing : Bool) (order : Sep24Order) (now : ℕ) : Option Awaited :=
  if withdrawing then withdrawalAction order now else depositAction formatDeadline order now

/-- The part of a record that does not depend on an order. -/
def recordHead (record : Sep24Record) (assets : Sep24Assets) : Sep24TransactionJson :=
  let withdrawing : Bool := record.flow = .withdraw
  { id := record.id
    kind := if withdrawing then .withdrawal else .deposit
    status := sep24Status record.order record.flow
    moreInfoUrl := assets.baseUrl ++ "/sep24/more-info/" ++ record.id
    startedAt := toISOString record.startedAt
    toAccount := if withdrawing then none else some (accountOf record.stellarAccount)
    fromAccount := if withdrawing then some (accountOf record.stellarAccount) else none
    kycVerified := record.kycVerified
    amountIn := none
    amountInAsset := none
    amountOut := none
    amountOutAsset := none
    feeDetails := none
    userActionRequiredBy := none
    message := none
    externalTransactionId := none
    stellarTransactionId := none
    completedAt := none }

def serializeSep24 (record : Sep24Record) (assets : Sep24Assets) (now : ℕ) : Sep24TransactionJson :=
  let json := recordHead toISOString accountOf record assets
  match record.order with
  | none => json
  | some order =>
    let withdrawing : Bool := record.flow = .withdraw
    let usdc := "stellar:USDC:" ++ assets.usdcIssuer
    let fees := Money.splitFees order.usdcAmount order.platformFeeBps order.lpFeeBps
    let fiat := toString order.fiatAmount
    let fiatAsset := "iso4217:" ++ order.fiatCurrency
    let netUsdc := baseUnitsToUsdcString fees.net
    let grossUsdc := baseUnitsToUsdcString order.usdcAmount
    let awaited := userAction formatDeadline withdrawing order now
    let closed := json.status = .completed ∨ json.status = .refunded
    { json with
      amountIn := some (if withdrawing then grossUsdc else fiat)
      amountInAsset := some (if withdrawing then usdc else fiatAsset)
      amountOut := some (if withdrawing then fiat else netUsdc)
      amountOutAsset := some (if withdrawing then fiatAsset else usdc)
      feeDetails := some
        ⟨baseUnitsToUsdcString (if withdrawing then 0 else fees.platformFee + fees.lpFee), usdc⟩
      userActionRequiredBy := awaited.bind fun a => a.deadline.map fun secs => toISOString (secs * 1000)
      message := awaited.map (·.message)
      externalTransactionId := order.ref.filter fun ref => ref ≠ ""
      stellarTransactionId := if closed then some order.settlementTxHash else none
      completedAt := if closed then some (order.settledAt.map fun t => toISOString t) else none }

/-- The record shows the columns of an order with these terms. -/
structure Shows (order : Sep24Order) (fields : OrderBindingFields) : Prop where
  usdcAmount : order.usdcAmount = fields.usdcAmount
  fiatAmount : order.fiatAmount = fields.fiatAmount
  fiatCurrency : order.fiatCurrency = fields.fiatCurrency
  platformFeeBps : (order.platformFeeBps : ℤ) = fields.platformFeeBps
  lpFeeBps : (order.lpFeeBps : ℤ) = fields.lpFeeBps

variable {amount : ℤ} {platformBps lpBps : ℕ}

/-- The two implementations of the split agree. -/
theorem splitFees_eq_contract (h : I128Safe amount) (hb : platformBps + lpBps < 10000) :
    Escrow.Contract.splitFees amount platformBps lpBps =
      .ok ⟨(Money.splitFees amount platformBps lpBps).platformFee,
        (Money.splitFees amount platformBps lpBps).lpFee,
        (Money.splitFees amount platformBps lpBps).net⟩ :=
  splitFees_of_safe h hb

def releases (id : TradeId) : Op → Prop
  | .confirmAndRelease i | .releaseFromFunded i => i = id
  | .resolve i d _ => i = id ∧ d = .release
  | _ => False

/-- The verdicts that only judge a settlement, with nothing left to pay. -/
def judgesSettlement (t : Trade) (op : Op) : Prop :=
  ∃ id d caller prior, op = .resolve id d caller ∧ t.preDisputeStatus? = some prior ∧ prior ≠ .funded

variable {env : Env} {h h' : EscrowHost} {id : TradeId} {op : Op} {t : Trade}

theorem release_pays (hlook : h.storage.trades.lookup id = some t) (hop : releases id op)
    (hx : exec env h op = .ok h') :
    h'.transfers = h.transfers ++ payout env.contract t.toTerms .release ∨
      (judgesSettlement t op ∧ h'.transfers = h.transfers) := by
  obtain ⟨ts, heff, -, htransfers⟩ := exec_effect env h op h' hx
  generalize h'.storage = c at heff
  rw [htransfers]
  cases heff with
  | opened | configured | pauseSet => exact hop.elim
  | @moved cfg id' t' _ _ _ hcfg hlook' hm =>
    have hsame : id' = id → t' = t := by
      rintro rfl
      exact Option.some.inj (hlook'.symm.trans hlook)
    cases hm with
    | mark | refundLate | cancelBoth | disputePaid | disputeFunded | disputeSettled => exact hop.elim
    | releaseEarly | confirm =>
      rw [hsame hop]
      exact .inl rfl
    | settlePaid | settleFunded =>
      obtain ⟨hid, rfl⟩ := hop
      rw [hsame hid]
      exact .inl rfl
    | judge hst hj hpre hprior =>
      obtain ⟨hid, rfl⟩ := hop
      rw [hsame hid] at hpre
      exact .inr ⟨⟨_, _, _, _, rfl, hpre, hprior⟩, List.append_nil _⟩

theorem createTrade_pulls {a : CreateArgs} (hx : createTrade env h id a = .ok h') :
    ∃ token, h'.transfers = h.transfers ++ [⟨token, a.usdcProvider, env.contract, a.usdcAmount⟩] := by
  obtain ⟨ts, heff, -, htransfers⟩ := createTrade_effect hx
  generalize hop : Op.createTrade id a = op at heff
  generalize h'.storage = c at heff
  cases heff with
  | opened hcfg hnew ho =>
    obtain ⟨rfl, rfl⟩ := Op.createTrade.inj hop
    exact ⟨_, htransfers⟩
  | moved hcfg hlook hm =>
    subst hop
    cases hm
  | configured | pauseSet => cases hop

variable {fields : OrderBindingFields} {lp : Address} {order : Sep24Order}

theorem net_of_composed (hshows : Shows order fields) (hc : Composed fields lp (argsOf t.toTerms)) :
    (feesOf t.toTerms).net =
      (Money.splitFees order.usdcAmount order.platformFeeBps order.lpFeeBps).net := by
  have hamount : t.usdcAmount = order.usdcAmount := hc.usdcAmount.trans hshows.usdcAmount.symm
  have hplatform : t.platformFeeBps = order.platformFeeBps :=
    Int.natCast_inj.mp (hc.platformFeeBps.trans hshows.platformFeeBps.symm)
  have hlp : t.lpFeeBps = order.lpFeeBps :=
    Int.natCast_inj.mp (hc.lpFeeBps.trans hshows.lpFeeBps.symm)
  rw [feesOf, hamount, hplatform, hlp]
  rfl

theorem decimalValue_add (a b : ℤ) :
    decimalValue (baseUnitsToUsdcString a) + decimalValue (baseUnitsToUsdcString b) =
      decimalValue (baseUnitsToUsdcString (a + b)) := by
  simp only [(decimalValue_baseUnits _).1]
  rw [← add_div, ← Int.cast_add]

/-- What a wallet is told is what the contract pays, and what it takes. -/
theorem told_what_is_paid {record : Sep24Record} (hshows : Shows order fields)
    (hsafe : I128Safe fields.usdcAmount) (hrates : order.platformFeeBps + order.lpFeeBps < 10000)
    (horder : record.order = some order) (hflow : record.flow = fields.flow) (lp : Address)
    (assets : Sep24Assets) (now : ℕ) :
    (∃ fees, Escrow.Contract.splitFees fields.usdcAmount order.platformFeeBps order.lpFeeBps = .ok fees ∧
      Money.splitFees fields.usdcAmount order.platformFeeBps order.lpFeeBps =
        ⟨fees.platformFee, fees.lpFee, fees.net⟩) ∧
    (fields.flow = .topUp → ∃ out total,
      (serializeSep24 toISOString formatDeadline accountOf record assets now).amountOut = some out ∧
      (serializeSep24 toISOString formatDeadline accountOf record assets now).feeDetails = some total ∧
      fractionDigits out = 7 ∧ fractionDigits total.total = 7 ∧
      decimalValue out + decimalValue total.total = fields.usdcAmount / usdcBaseUnits ∧
      ∀ env h h' id t op, h.storage.trades.lookup id = some t →
        Composed fields lp (argsOf t.toTerms) → releases id op → exec env h op = .ok h' →
        (∃ fees, ∃ net : ℤ, decimalValue out = net / usdcBaseUnits ∧ h'.transfers = h.transfers ++
          (fees ++ [⟨t.usdcToken, env.contract, fields.userAddress, net⟩])) ∨
        (judgesSettlement t op ∧ h'.transfers = h.transfers)) ∧
    (fields.flow = .withdraw → ∃ taken,
      (serializeSep24 toISOString formatDeadline accountOf record assets now).amountIn = some taken ∧
      fractionDigits taken = 7 ∧
      ∀ env h h' id a, Composed fields lp a → createTrade env h id a = .ok h' →
        ∃ token, ∃ pulled : ℤ, decimalValue taken = pulled / usdcBaseUnits ∧
          h'.transfers = h.transfers ++ [⟨token, fields.userAddress, env.contract, pulled⟩]) ∧
    (∀ base, decimalValue (baseUnitsToUsdcString base) = base / usdcBaseUnits ∧
      fractionDigits (baseUnitsToUsdcString base) = 7) ∧
    Function.Injective baseUnitsToUsdcString := by
  refine ⟨⟨_, splitFees_eq_contract hsafe hrates, rfl⟩, fun htop => ?_, fun hwith => ?_,
    decimalValue_baseUnits, baseUnitsToUsdcString_injective⟩
  · have hdeposit : record.flow ≠ .withdraw := by
      rw [hflow, htop]
      decide
    simp only [serializeSep24, horder, hdeposit, decide_false, Bool.false_eq_true, if_false]
    refine ⟨_, _, rfl, rfl, (decimalValue_baseUnits _).2, (decimalValue_baseUnits _).2, ?_,
      fun env h h' id t op hlook hc hop hx => ?_⟩
    · have hwhole : (Money.splitFees order.usdcAmount order.platformFeeBps order.lpFeeBps).net +
          ((Money.splitFees order.usdcAmount order.platformFeeBps order.lpFeeBps).platformFee +
            (Money.splitFees order.usdcAmount order.platformFeeBps order.lpFeeBps).lpFee) =
          fields.usdcAmount := by
        rw [← hshows.usdcAmount]
        simp only [Money.splitFees]
        omega
      rw [decimalValue_add, hwhole, (decimalValue_baseUnits _).1]
    · apply (release_pays hlook hop hx).imp_left
      intro hpaid
      have huser : t.usdcRecipient = fields.userAddress := by
        have hroles := hc.roles
        rw [htop] at hroles
        exact congrArg Roles.usdcRecipient hroles
      obtain ⟨fees, hfees⟩ : ∃ fees, payout env.contract t.toTerms .release =
          fees ++ [⟨t.usdcToken, env.contract, t.usdcRecipient, (feesOf t.toTerms).net⟩] := ⟨_, rfl⟩
      refine ⟨fees, (feesOf t.toTerms).net, ?_, ?_⟩
      · rw [net_of_composed hshows hc, (decimalValue_baseUnits _).1]
      · rw [hpaid, hfees, huser]
  · simp only [serializeSep24, horder, hflow, hwith, decide_true, if_true]
    refine ⟨_, rfl, (decimalValue_baseUnits _).2, fun env h h' id a hc hx => ?_⟩
    obtain ⟨token, hpulled⟩ := createTrade_pulls hx
    have huser : a.usdcProvider = fields.userAddress := by
      have hroles := hc.roles
      rw [hwith] at hroles
      exact congrArg Roles.usdcProvider hroles
    refine ⟨token, a.usdcAmount, ?_, ?_⟩
    · rw [(decimalValue_baseUnits _).1, hc.usdcAmount, hshows.usdcAmount]
    · rw [hpulled, huser]

end

def sampleOrder : Sep24Order :=
  { status := .funded, usdcAmount := 1000000, fiatAmount := 16000, fiatCurrency := "IDR",
    platformFeeBps := 50, lpFeeBps := 100, settlementTxHash := none, settledAt := none,
    ref := some "LP-1", payDeadline := 2000, confirmDeadline := 8000, userClaimedPaidAt := none }

def sampleRecord : Sep24Record :=
  { id := "1", stellarAccount := "GUSER", startedAt := 1000000, kycVerified := true, flow := .topUp,
    order := some sampleOrder }

def samplePrinted (ms : ℤ) : String :=
  if ms = 1000000 then "1970-01-01T00:16:40.000Z" else "1970-01-01T00:33:20.000Z"

def paidSample : EscrowHost :=
  ⟨⟨some sampleConfig, (∅ : Storage.Store TradeId Trade).insert 1 samplePaid⟩, fun _ _ => 0, [], []⟩

theorem paidSample_releases : ∃ h',
    exec (sampleEnv 1600 [⟨6⟩]) paidSample (.confirmAndRelease 1) = .ok h' ∧
      h'.transfers = [⟨⟨2⟩, ⟨0⟩, ⟨4⟩, 5000⟩, ⟨⟨2⟩, ⟨0⟩, ⟨6⟩, 10000⟩, ⟨⟨2⟩, ⟨0⟩, ⟨7⟩, 985000⟩] :=
  ⟨_, rfl, rfl⟩

/-- The sample order while it waits for the rupiah: the wallet is told the net that
the release pays. -/
theorem sample_told_what_is_paid :
    ∃ out h', (serializeSep24 samplePrinted (fun _ => "1 January 1970 at 08:33 WIB") id sampleRecord
        ⟨"https://lolipay.app", "GISSUER"⟩ 1000000).amountOut = some out ∧
      decimalValue out = (985000 : ℤ) / usdcBaseUnits ∧
      exec (sampleEnv 1600 [⟨6⟩]) paidSample (.confirmAndRelease 1) = .ok h' ∧
      h'.transfers = [⟨⟨2⟩, ⟨0⟩, ⟨4⟩, 5000⟩, ⟨⟨2⟩, ⟨0⟩, ⟨6⟩, 10000⟩, ⟨⟨2⟩, ⟨0⟩, ⟨7⟩, 985000⟩] := by
  have hshows : Shows sampleOrder samplePlacement.toOrderBindingFields := ⟨rfl, rfl, rfl, rfl, rfl⟩
  have hcomposed : Composed samplePlacement.toOrderBindingFields ⟨6⟩ (argsOf samplePaid.toTerms) :=
    ⟨rfl, rfl, rfl, rfl, rfl, rfl, rfl, rfl, rfl, rfl, rfl, rfl⟩
  obtain ⟨-, hdeposit, -⟩ := told_what_is_paid samplePrinted (fun _ => "1 January 1970 at 08:33 WIB") id
    hshows ⟨by decide, by decide⟩ (by decide) (show sampleRecord.order = some sampleOrder from rfl) rfl
    ⟨6⟩ ⟨"https://lolipay.app", "GISSUER"⟩ 1000000
  obtain ⟨out, total, hout, -, -, -, -, hpays⟩ := hdeposit rfl
  obtain ⟨h', hx, hpaid⟩ := paidSample_releases
  obtain ⟨fees, net, hnet, htransfers⟩ | ⟨hjudged, -⟩ :=
    hpays _ paidSample h' 1 samplePaid (.confirmAndRelease 1) (AList.lookup_insert _) hcomposed rfl hx
  · have hlast : net = 985000 := by
      rw [hpaid] at htransfers
      have hend := congrArg List.getLast? htransfers
      rw [show paidSample.transfers = [] from rfl, List.nil_append, List.getLast?_append] at hend
      exact (congrArg Transfer.amount (Option.some.inj hend)).symm
    exact ⟨out, h', hout, hlast ▸ hnet, hx, hpaid⟩
  · obtain ⟨_, _, _, _, hop, -⟩ := hjudged
    cases hop

end Lolipay.Coordinator.Sep24
