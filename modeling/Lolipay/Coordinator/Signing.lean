import Lolipay.Escrow.Lifecycle
import Lolipay.Coordinator.Desk

namespace Lolipay.Coordinator.Signing

open Lolipay.Ledger.Calls Lolipay.Ledger.Storage Lolipay.Ledger.Invocation Lolipay.Ledger.Runs
open Lolipay.Escrow.Types Lolipay.Escrow.Contract Lolipay.Escrow.System Lolipay.Escrow.Effects
open Lolipay.Escrow.Lifecycle
open Lolipay.Escrow.Custody (sampleEnv sampleWorld sampleArgs sampleActions sampleFinal
  sampleActions_admitted)
open Lolipay.Coordinator.Orders Lolipay.Coordinator.Binding Lolipay.Coordinator.Database
open Lolipay.Coordinator.Creation (minPayWindowSecs)
open Lolipay.Coordinator.Desk (samplePlacement sampleLp)

/-- An argument of a contract call as it stands in a transaction. -/
inductive ScVal where
  | bytes (b : TradeId)
  | address (a : Address)
  | i128 (n : ℤ)
  | symbol (s : String)
  | u32 (n : ℕ)
  | u64 (n : ℕ)
  deriving DecidableEq, Repr

def u32Limit : ℕ := 2 ^ 32

/-- The encoders for numbers throw on what their type cannot hold. -/
def toI128 (n : ℤ) : Option ScVal :=
  if -i128Limit ≤ n ∧ n < i128Limit then some (.i128 n) else none

def toU32 (n : ℤ) : Option ScVal :=
  if 0 ≤ n ∧ n < u32Limit then some (.u32 n.toNat) else none

def toU64 (n : ℤ) : Option ScVal :=
  if 0 ≤ n ∧ n < u64Limit then some (.u64 n.toNat) else none

/-- A transaction that waits for the signature of its source account. -/
structure BuiltTx where
  source : Address
  contractId : Address
  function : String
  args : List ScVal
  notAfter : ℤ
  deriving DecidableEq, Repr

/-- `Flow` is an enumeration without fields, which the host reads from its number. -/
def flowOfU32 : ℕ → Option Flow
  | 0 => some .topUp
  | 1 => some .withdraw
  | _ => none

/-- The host fills the parameters of `create_trade` by position. -/
def createTradeOp : List ScVal → Option Op
  | [.bytes tradeId, .address usdcProvider, .address usdcRecipient, .address confirmer,
      .i128 usdcAmount, .i128 fiatAmount, .symbol fiatCurrency, .u32 flow, .u32 platformFeeBps,
      .u32 lpFeeBps, .address platformWallet, .address lpWallet, .u64 payDeadline,
      .u64 confirmDeadline, .u64 disputeDeadline] => do
    let flow ← flowOfU32 flow
    some (.createTrade tradeId
      { usdcProvider, usdcRecipient, confirmer, usdcAmount, fiatAmount, fiatCurrency, flow,
        platformFeeBps, lpFeeBps, platformWallet, lpWallet, payDeadline, confirmDeadline,
        disputeDeadline })
  | _ => none

def markFiatPaidOp : List ScVal → Option Op
  | [.bytes tradeId, .address caller] => some (.markFiatPaid tradeId caller)
  | _ => none

def BuiltTx.op (tx : BuiltTx) : Option Op :=
  if tx.function = "create_trade" then createTradeOp tx.args
  else if tx.function = "mark_fiat_paid" then markFiatPaidOp tx.args
  else none

def signingSubmitMarginSecs : ℤ := 60

def signingDeadlineSecs (payDeadline : ℤ) : ℤ := payDeadline - minPayWindowSecs

def signingCutoffSecs (payDeadline : ℤ) : ℤ :=
  signingDeadlineSecs payDeadline - signingSubmitMarginSecs

/-- The upper time bound: five minutes, but never past the given second. -/
def timeBound (now : ℕ) (notAfterSecs : ℤ) : ℤ := max 1 (min ((now / 1000 : ℕ) + 300) notAfterSecs)

/-- The table of `StellarReadService`, a copy of the one that the comparison uses. -/
def flowArgument : Flow → ℤ
  | .topUp => 0
  | .withdraw => 1

structure BuildCreateTradeTxParams where
  contractId : Address
  tradeIdHex : TradeId
  usdcProvider : Address
  usdcRecipient : Address
  confirmer : Address
  usdcAmount : ℤ
  fiatAmount : ℤ
  fiatCurrency : String
  flow : Flow
  platformFeeBps : ℤ
  lpFeeBps : ℤ
  platformWallet : Address
  lpWallet : Address
  payDeadline : ℤ
  confirmDeadline : ℤ
  disputeDeadline : ℤ

def createTradeTx (params : BuildCreateTradeTxParams) (now : ℕ) : Option BuiltTx := do
  let usdcAmount ← toI128 params.usdcAmount
  let fiatAmount ← toI128 params.fiatAmount
  let flow ← toU32 (flowArgument params.flow)
  let platformFeeBps ← toU32 params.platformFeeBps
  let lpFeeBps ← toU32 params.lpFeeBps
  let payDeadline ← toU64 params.payDeadline
  let confirmDeadline ← toU64 params.confirmDeadline
  let disputeDeadline ← toU64 params.disputeDeadline
  some
    { source := params.usdcProvider
      contractId := params.contractId
      function := "create_trade"
      args :=
        [.bytes params.tradeIdHex, .address params.usdcProvider, .address params.usdcRecipient,
          .address params.confirmer, usdcAmount, fiatAmount, .symbol params.fiatCurrency, flow,
          platformFeeBps, lpFeeBps, .address params.platformWallet, .address params.lpWallet,
          payDeadline, confirmDeadline, disputeDeadline]
      notAfter := timeBound now (signingDeadlineSecs params.payDeadline) }

def markFiatPaidTx (contractId userAddress : Address) (tradeIdHex : TradeId) (notAfterSecs : ℤ)
    (now : ℕ) : BuiltTx where
  source := userAddress
  contractId := contractId
  function := "mark_fiat_paid"
  args := [.bytes tradeIdHex, .address userAddress]
  notAfter := timeBound now notAfterSecs

def getFiatPayer (flow : Flow) (user lpAddress : Address) : Address :=
  if flow = .topUp then user else lpAddress

variable (home : Address)

/-- What `OrderTxService` puts into the call. The roles come from the row that
was read first, the rest from the refreshed one. -/
def createTradeParams (order currentOrder : Order) (lp : Lp) : BuildCreateTradeTxParams :=
  let roles := mapRoles order.flow order.userAddress lp.stellarAddress
  { contractId := contractIdFor currentOrder.toPlacement home
    tradeIdHex := currentOrder.tradeId
    usdcProvider := roles.usdcProvider
    usdcRecipient := roles.usdcRecipient
    confirmer := roles.confirmer
    usdcAmount := currentOrder.usdcAmount
    fiatAmount := currentOrder.fiatAmount
    fiatCurrency := currentOrder.fiatCurrency
    flow := currentOrder.flow
    platformFeeBps := currentOrder.platformFeeBps
    lpFeeBps := currentOrder.lpFeeBps
    platformWallet := currentOrder.platformWallet
    lpWallet := currentOrder.lpWallet.getD lp.stellarAddress
    payDeadline := currentOrder.payDeadline
    confirmDeadline := currentOrder.confirmDeadline
    disputeDeadline := currentOrder.disputeDeadline }

/-- The building of the funding transaction from what the service has read: the
row, its provider and the row after the refresh. -/
def buildCreateTradeTx (order currentOrder : Order) (lp : Lp) (callerAddress : Address) (now : ℕ) :
    Option BuiltTx :=
  if callerAddress ≠ (mapRoles order.flow order.userAddress lp.stellarAddress).usdcProvider then
    none
  else if currentOrder.status ≠ .matched ∧ currentOrder.status ≠ .awaitingOnchain then none
  else if signingCutoffSecs currentOrder.payDeadline * 1000 ≤ now then none
  else createTradeTx (createTradeParams home order currentOrder lp) now

/-- The building of the payment mark. Outside deposits the platform may ask for
a proof first; `proofMissing` says that it does and there is none. -/
def buildMarkFiatPaidTx (order currentOrder : Order) (lp : Lp) (callerAddress : Address)
    (proofMissing : Bool) (now : ℕ) : Option BuiltTx :=
  if callerAddress ≠ getFiatPayer order.flow order.userAddress lp.stellarAddress then none
  else if currentOrder.status ≠ .funded then none
  else if order.flow ≠ .topUp ∧ proofMissing then none
  else
    some (markFiatPaidTx (contractIdFor currentOrder.toPlacement home) callerAddress
      currentOrder.tradeId
      (if currentOrder.flow = .topUp then currentOrder.payDeadline
        else currentOrder.confirmDeadline) now)

/-- The fourteen values that a stored trade has from its opening call. -/
def argsOf (t : Terms) : CreateArgs where
  usdcProvider := t.usdcProvider
  usdcRecipient := t.usdcRecipient
  confirmer := t.confirmer
  usdcAmount := t.usdcAmount
  fiatAmount := t.fiatAmount
  fiatCurrency := t.fiatCurrency
  flow := t.flow
  platformFeeBps := t.platformFeeBps
  lpFeeBps := t.lpFeeBps
  platformWallet := t.platformWallet
  lpWallet := t.lpWallet
  payDeadline := t.payDeadline
  confirmDeadline := t.confirmDeadline
  disputeDeadline := t.disputeDeadline

/-- The arguments are the order's values, for the provider with the given address. -/
structure Composed (order : OrderBindingFields) (lp : Address) (a : CreateArgs) : Prop where
  roles : (⟨a.usdcProvider, a.usdcRecipient, a.confirmer⟩ : Roles) =
    mapRoles order.flow order.userAddress lp
  usdcAmount : a.usdcAmount = order.usdcAmount
  fiatAmount : a.fiatAmount = order.fiatAmount
  fiatCurrency : a.fiatCurrency = order.fiatCurrency
  flow : a.flow = order.flow
  platformFeeBps : (a.platformFeeBps : ℤ) = order.platformFeeBps
  lpFeeBps : (a.lpFeeBps : ℤ) = order.lpFeeBps
  platformWallet : a.platformWallet = order.platformWallet
  lpWallet : a.lpWallet = lp
  payDeadline : (a.payDeadline : ℤ) = order.payDeadline
  confirmDeadline : (a.confirmDeadline : ℤ) = order.confirmDeadline
  disputeDeadline : (a.disputeDeadline : ℤ) = order.disputeDeadline

theorem toI128_eq_some {n : ℤ} {v : ScVal} (h : toI128 n = some v) : v = .i128 n := by
  rw [toI128] at h
  split at h
  next => exact (Option.some.inj h).symm
  next => cases h

theorem toU32_eq_some {n : ℤ} {v : ScVal} (h : toU32 n = some v) : ∃ m : ℕ, v = .u32 m ∧ m = n := by
  rw [toU32] at h
  split at h
  next hn => exact ⟨n.toNat, (Option.some.inj h).symm, Int.toNat_of_nonneg hn.1⟩
  next => cases h

theorem toU64_eq_some {n : ℤ} {v : ScVal} (h : toU64 n = some v) : ∃ m : ℕ, v = .u64 m ∧ m = n := by
  rw [toU64] at h
  split at h
  next hn => exact ⟨n.toNat, (Option.some.inj h).symm, Int.toNat_of_nonneg hn.1⟩
  next => cases h

theorem flowOfU32_flowArgument {flow : Flow} {n : ℕ} (h : (n : ℤ) = flowArgument flow) :
    flowOfU32 n = some flow := by
  cases flow with
  | topUp =>
    obtain rfl : n = 0 := Int.natCast_inj.mp h
    rfl
  | withdraw =>
    obtain rfl : n = 1 := Int.natCast_inj.mp h
    rfl

variable {home}

theorem createTradeTx_op {params : BuildCreateTradeTxParams} {now : ℕ} {tx : BuiltTx}
    (h : createTradeTx params now = some tx) :
    ∃ a, tx.op = some (.createTrade params.tradeIdHex a) ∧
      a.usdcProvider = params.usdcProvider ∧ a.usdcRecipient = params.usdcRecipient ∧
      a.confirmer = params.confirmer ∧ a.usdcAmount = params.usdcAmount ∧
      a.fiatAmount = params.fiatAmount ∧ a.fiatCurrency = params.fiatCurrency ∧
      a.flow = params.flow ∧ (a.platformFeeBps : ℤ) = params.platformFeeBps ∧
      (a.lpFeeBps : ℤ) = params.lpFeeBps ∧ a.platformWallet = params.platformWallet ∧
      a.lpWallet = params.lpWallet ∧ (a.payDeadline : ℤ) = params.payDeadline ∧
      (a.confirmDeadline : ℤ) = params.confirmDeadline ∧
      (a.disputeDeadline : ℤ) = params.disputeDeadline := by
  simp only [createTradeTx, Option.bind_eq_bind, Option.bind_eq_some_iff, Option.some.injEq] at h
  obtain ⟨vUsdc, hUsdc, vFiat, hFiat, vFlow, hFlow, vPlatform, hPlatform, vLp, hLp, vPay, hPay,
    vConfirm, hConfirm, vDispute, hDispute, rfl⟩ := h
  obtain rfl := toI128_eq_some hUsdc
  obtain rfl := toI128_eq_some hFiat
  obtain ⟨flow, rfl, hflow⟩ := toU32_eq_some hFlow
  obtain ⟨platformFee, rfl, hplatform⟩ := toU32_eq_some hPlatform
  obtain ⟨lpFee, rfl, hlp⟩ := toU32_eq_some hLp
  obtain ⟨pay, rfl, hpay⟩ := toU64_eq_some hPay
  obtain ⟨confirm, rfl, hconfirm⟩ := toU64_eq_some hConfirm
  obtain ⟨dispute, rfl, hdispute⟩ := toU64_eq_some hDispute
  simp only [BuiltTx.op, if_true, createTradeOp, flowOfU32_flowArgument hflow, Option.bind_eq_bind,
    Option.bind_some]
  exact ⟨_, rfl, rfl, rfl, rfl, rfl, rfl, rfl, rfl, hplatform, hlp, rfl, rfl, hpay, hconfirm,
    hdispute⟩

variable {order currentOrder : Order} {lp : Lp} {caller : Address} {now : ℕ} {tx : BuiltTx}

theorem buildCreateTradeTx_composed (hsame : currentOrder.toPlacement = order.toPlacement)
    (hlp : order.lpWallet = some lp.stellarAddress)
    (h : buildCreateTradeTx home order currentOrder lp caller now = some tx) :
    ∃ a, tx.op = some (.createTrade order.tradeId a) ∧
      Composed order.toOrderBindingFields lp.stellarAddress a := by
  simp only [buildCreateTradeTx] at h
  split at h
  · cases h
  split at h
  · cases h
  split at h
  · cases h
  obtain ⟨a, hop, hprov, hrec, hconf, husdc, hfiat, hcur, hflow, hplat, hlpf, hwallet, hlpw, hpay,
    hconfirm, hdispute⟩ := createTradeTx_op h
  simp only [createTradeParams, hsame, hlp, Option.getD_some]
    at hop hprov hrec hconf husdc hfiat hcur hflow hplat hlpf hwallet hlpw hpay hconfirm hdispute
  refine ⟨a, hop, ?_, husdc, hfiat, hcur, hflow, hplat, hlpf, hwallet, hlpw, hpay, hconfirm,
    hdispute⟩
  rw [hprov, hrec, hconf]

theorem asString_eq_some {s c : String} (hc : c ≠ "") : asString s = some c ↔ s = c := by
  rw [asString]
  split
  next h =>
    obtain rfl : s = "" := String.isEmpty_iff.mp h
    simp [hc.symm]
  next => exact Option.some_inj

theorem flowDiscriminant_inj {f f' : Flow} (h : flowDiscriminant f = flowDiscriminant f') :
    f = f' := by
  cases f <;> cases f' <;> first | rfl | cases h

/-- The comparison accepts a record exactly if it holds the composed arguments. -/
theorem verify_eq_nil_iff_args {fields : OrderBindingFields} {provider : Address} {a : CreateArgs}
    (hlp : fields.lpWallet = some provider) (hcur : fields.fiatCurrency ≠ "")
    (hc : Composed fields provider a) (t : Trade) :
    verifyTradeMatchesOrder (decodeTradeStatus t) fields = [] ↔ argsOf t.toTerms = a := by
  rw [verify_eq_nil_iff]
  simp only [hlp, Option.some.injEq, exists_eq_left', ← hc.roles, decodeTradeStatus,
    asString_eq_some hcur]
  simp only [← hc.usdcAmount, ← hc.fiatAmount, ← hc.fiatCurrency, ← hc.flow, ← hc.platformFeeBps,
    ← hc.lpFeeBps, ← hc.platformWallet, ← hc.payDeadline, ← hc.confirmDeadline,
    ← hc.disputeDeadline, Nat.cast_inj]
  constructor
  · rintro ⟨h₁, h₂, h₃, h₄, h₅, h₆, h₇, h₈, h₉, h₁₀, h₁₁, h₁₂, h₁₃, h₁₄⟩
    have hflow := flowDiscriminant_inj h₄
    have hlpw := h₉.trans hc.lpWallet.symm
    cases a
    simp only [argsOf, CreateArgs.mk.injEq]
    exact ⟨h₅, h₆, h₇, h₁, h₂, h₃, hflow, h₁₀, h₁₁, h₈, hlpw, h₁₂, h₁₃, h₁₄⟩
  · rintro rfl
    exact ⟨rfl, rfl, rfl, rfl, rfl, rfl, rfl, rfl, hc.lpWallet, rfl, rfl, rfl, rfl, rfl⟩

theorem argsOf_opening (cfg : Config) (time : ℕ) (a : CreateArgs) :
    argsOf (openingTrade cfg time a).toTerms = a := rfl

theorem created_args {w : World} {env : Env} {id : TradeId} {a : CreateArgs}
    (hok : receipt w (.call env (.createTrade id a)) ≠ none) :
    ∃ t, (next w (.call env (.createTrade id a))).trade id = some t ∧ argsOf t.toTerms = a := by
  obtain ⟨-, hnone⟩ | ⟨c, ts, evs, heff, hnext, -⟩ :=
    Ledger.Deployment.call_cases exec_effect w env (.createTrade id a)
  · exact absurd hnone hok
  · generalize hop : Op.createTrade id a = op at heff
    cases heff with
    | @opened cfg id' a' hcfg hnew ho =>
      obtain ⟨rfl, rfl⟩ := Op.createTrade.inj hop
      refine ⟨openingTrade cfg env.timestamp a, ?_, argsOf_opening _ _ _⟩
      rw [next, hnext]
      exact AList.lookup_insert _
    | moved hcfg hlook hm => subst hop; cases hm
    | configured | pauseSet => cases hop

/-- What the coordinator composes from an order and the contract stores, the
coordinator recognises, from the funding on; and it recognises nothing else.
The currency of an order is the code of a market, which is never empty. -/
theorem funding_round_trip (hsame : currentOrder.toPlacement = order.toPlacement)
    (hlp : order.lpWallet = some lp.stellarAddress) (hcur : order.fiatCurrency ≠ "")
    (hbuilt : buildCreateTradeTx home order currentOrder lp caller now = some tx) :
    ∃ a, tx.op = some (.createTrade order.tradeId a) ∧
      (∀ self w env, admits self w (.call env (.createTrade order.tradeId a)) →
        receipt w (.call env (.createTrade order.tradeId a)) ≠ none →
        ∀ tr w', Run (machine self) (next w (.call env (.createTrade order.tradeId a))) tr w' →
          ∃ t, getTrade (enter w'.contents w'.balances) order.tradeId = .ok t ∧
            verifyTradeMatchesOrder (decodeTradeStatus t) order.toOrderBindingFields = []) ∧
      ∀ t : Trade, argsOf t.toTerms ≠ a →
        verifyTradeMatchesOrder (decodeTradeStatus t) order.toOrderBindingFields ≠ [] := by
  obtain ⟨a, hop, hcomp⟩ := buildCreateTradeTx_composed hsame hlp hbuilt
  refine ⟨a, hop, fun self w env _ hok tr w' hr => ?_, fun t hne => ?_⟩
  · obtain ⟨t, ht, hargs⟩ := created_args hok
    obtain ⟨t', ht', hterms⟩ := run_toTerms hr ht
    refine ⟨t', (okOr_eq_ok _ _ _).mpr ht', ?_⟩
    rw [verify_toTerms hterms]
    exact (verify_eq_nil_iff_args hlp hcur hcomp t).mpr hargs
  · rw [ne_eq, verify_eq_nil_iff_args hlp hcur hcomp t]
    exact hne

/-- The sample order's own transaction opens the sample trade, which is recognised
after it was paid, released and disputed. -/
theorem sample_funding_round_trip :
    ∃ tx t, buildCreateTradeTx ⟨0⟩ samplePlacement.opened samplePlacement.opened sampleLp ⟨6⟩
        900000 = some tx ∧
      tx.op = some (.createTrade 1 sampleArgs) ∧ tx.notAfter = 1200 ∧
      getTrade (enter sampleFinal.contents sampleFinal.balances) 1 = .ok t ∧
      t.status = .disputed ∧
      verifyTradeMatchesOrder (decodeTradeStatus t) samplePlacement.toOrderBindingFields = [] := by
  obtain ⟨tx, htx⟩ := Option.isSome_iff_exists.mp (show (buildCreateTradeTx ⟨0⟩
    samplePlacement.opened samplePlacement.opened sampleLp ⟨6⟩ 900000).isSome = true by decide)
  obtain ⟨a, hop, hstored, -⟩ := funding_round_trip rfl rfl (by decide) htx
  obtain rfl := Option.some.inj htx
  obtain rfl : sampleArgs = a := (Op.createTrade.inj (Option.some.inj hop)).2
  obtain ⟨t, ht, hv⟩ := hstored ⟨0⟩ sampleWorld (sampleEnv 1000 [⟨6⟩]) ⟨rfl, le_rfl⟩ (by decide) _ _
    (Run.of_actions sampleActions.tail _ sampleActions_admitted.2)
  have hst : getTrade (enter sampleFinal.contents sampleFinal.balances) 1 = .ok t := ht
  refine ⟨_, t, rfl, rfl, rfl, ht, ?_, hv⟩
  have hread : (getTrade (enter sampleFinal.contents sampleFinal.balances) 1).map (·.status) =
      .ok .disputed := rfl
  rw [hst] at hread
  exact Except.ok.inj hread

end Lolipay.Coordinator.Signing
