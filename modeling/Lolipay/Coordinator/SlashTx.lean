import Lolipay.Coordinator.Exposure
import Lolipay.Coordinator.Signing
import Lolipay.Coordinator.Guards

namespace Lolipay.Coordinator.SlashTx

open Lolipay.Ledger Lolipay.Ledger.Calls Lolipay.Ledger.Storage Lolipay.Ledger.Invocation Lolipay.Ledger.Runs
open Lolipay.Async.Process
open Lolipay.Escrow.Types (TradeId Trade Flow ResolveOutcome Status)
open Lolipay.Escrow.Invariant (settlement direction settlement_of_unflagged)
open Lolipay.Staking.Contract (slashedOf)
open Lolipay.Joint.System Lolipay.Joint.Slash
open Lolipay.Joint.Bond (sampleSite sampleWorld sampleWorld_deployed)
open Lolipay.Coordinator.Orders Lolipay.Coordinator.Binding Lolipay.Coordinator.Writes
open Lolipay.Coordinator.Database Lolipay.Coordinator.Exposure
open Lolipay.Coordinator.Guards (settlementFieldsFrom_status)
open Lolipay.Coordinator.Steps (write_toPlacement)
open Lolipay.Coordinator.Services (refreshOrderStatus)
open Lolipay.Coordinator.Signing (ScVal BuiltTx toI128)

inductive Refusal where
  | notFound (message : String)
  | conflict (message : String)
  | badRequest (message : String)
  | forbidden (message : String)
  | unavailable (message : String)
  deriving DecidableEq, Repr

def refuseIf (p : Prop) [Decidable p] (r : Refusal) : Except Refusal Unit :=
  if p then .error r else .ok ()

/-- How the preparation of a transaction ends: it is ready, the contract refuses
it with an error that is known, or something else fails. -/
inductive Prepared where
  | ready
  | refused (contractProblem : String)
  | failed
  deriving DecidableEq, Repr

/-- What the service is told while it builds one transaction. A read that
throws is `none`; `getTradeStatus` swallows its failures and answers from a cache. -/
structure SlashReads where
  getTradeStatus : Option TradeOnChain
  readDisputeSigners : Option (Address × Address)
  getTradeStatusStrict : Option (Option TradeOnChain)
  getSlashedSoFar : Option ℤ
  getTradeStatusAgain : Option (Option TradeOnChain)
  prepareTransaction : Prepared

def clockSkewMarginSecs : ℤ := 900

/-- `refreshOrderStatus` when nobody else writes the row meanwhile. -/
def refreshed (now : ℕ) (onChain : Option TradeOnChain) (order : Order) : Order :=
  if refreshFromChainStatuses.contains order.status then
    match onChain with
    | none => order
    | some trade =>
      if tradeBindsToOrder trade order then
        if h : isAhead (statusMap trade.status) order.status then
          (RowWrite.refresh ⟨order.status, trade, h⟩ order.disputeAt.isNone).data now order
        else order
      else order
  else order

/-- The direction test: a settlement that left the user with the money has no
provider to slash, and an order that has not settled has another remedy. -/
def checkDirection (flow : Flow) (status : OrderStatus) : Except Refusal Unit :=
  if status = .released ∨ status = .refunded then
    refuseIf (¬(flow = .topUp ∧ status = .refunded) ∧ ¬(flow = .withdraw ∧ status = .released))
      (.conflict ("this settlement left the user holding the money, not the provider — there is " ++
        "no provider bond to draw on"))
  else
    refuseIf (status ≠ .disputed)
      (.conflict ("a slash is restitution after settlement — this order has not settled, and while " ++
        "it has not, releasing or refunding the escrow is the remedy"))

structure SlashState where
  tradeAmount : ℤ
  recovered : ℤ
  remaining : ℤ
  deadline : Option ℤ
  liabilityEstablished : Option Bool
  deriving DecidableEq, Repr

def slashState (usdcAmount : ℤ) (reads : SlashReads) : Except Refusal SlashState :=
  match reads.getSlashedSoFar with
  | none =>
    .error (.unavailable ("cannot read how much has already been recovered on this trade — refusing " ++
      "rather than risking a double recovery"))
  | some recovered =>
    let chain := reads.getTradeStatusAgain.join
    .ok
      { tradeAmount := usdcAmount
        recovered
        remaining := max (usdcAmount - recovered) 0
        deadline := (chain.bind (·.slashDeadline)).filter fun d => 0 < d
        liabilityEstablished := chain.bind (·.liabilityEstablished) }

section

-- How an address is printed belongs to a library.
variable (printed : Address → String)

/-- `assertDisputeSigner`, for the staking contract. -/
def assertDisputeSigner (signers : Option (Address × Address)) (callerAddress : Address) :
    Except Refusal Unit :=
  match signers with
  | none =>
    .error (.unavailable ("cannot read who may settle this dispute right now — refusing rather than " ++
      "sending you to sign something that will be rejected"))
  | some (resolver, admin) =>
    refuseIf (callerAddress ≠ resolver ∧ callerAddress ≠ admin)
      (.forbidden ("the staking contract lets only its resolver " ++ printed resolver ++
        " or its admin " ++ printed admin ++ " slash a provider; " ++ printed callerAddress ++
        " is neither"))

/-- The verdict and the window, as the chain has them. -/
def checkVerdict (chain : Option (Option TradeOnChain)) (now : ℕ) : Except Refusal Unit :=
  match chain with
  | none =>
    .error (.unavailable ("cannot read the verdict on chain right now — refusing rather than sending " ++
      "you to sign something that will be rejected"))
  | some none => .error (.conflict "the escrow has no record of this trade")
  | some (some trade) =>
    match trade.liabilityEstablished with
    | none =>
      .error (.unavailable ("the deployed escrow did not report whether liability was established — " ++
        "refusing rather than guessing at a verdict"))
    | some false =>
      .error (.conflict ("no liability has been established on this trade — resolving a dispute " ++
        "against the party holding the money is what establishes it, and the contract will refuse a " ++
        "slash until then"))
    | some true => do
      let deadline := trade.slashDeadline.getD 0
      refuseIf (deadline = 0)
        (.conflict "the slash window on this trade has been closed by an exonerating verdict")
      refuseIf ((now / 1000 : ℕ) > deadline + clockSkewMarginSecs)
        (.conflict ("the window to slash this trade closed some time ago — the bond is no longer " ++
          "reachable for it"))

def checkRemaining (state : SlashState) (usdcAmount amount : ℤ) : Except Refusal Unit := do
  refuseIf (state.remaining ≤ 0)
    (.conflict "this trade has already been recovered in full — nothing is left to take")
  refuseIf (amount > state.remaining)
    (.badRequest ("amount exceeds what is left on this trade — " ++ toString state.recovered ++ " of " ++
      toString usdcAmount ++ " base units has already been recovered, leaving " ++
      toString state.remaining))

def slashTx (stakingContractId callerAddress lpAddress : Address) (tradeIdHex : TradeId) (amount : ℤ)
    (now : ℕ) : Option BuiltTx := do
  let amount ← toI128 amount
  some
    { source := callerAddress
      contractId := stakingContractId
      function := "slash"
      args := [.address lpAddress, .bytes tradeIdHex, amount, .address callerAddress]
      notAfter := (now / 1000 : ℕ) + 300 }

def prepareSlashTx (tx : Option BuiltTx) (prepared : Prepared) : Except Refusal BuiltTx :=
  match tx, prepared with
  | some tx, .ready => .ok tx
  | some _, .refused contractProblem => .error (.conflict contractProblem)
  | _, _ => .error (.unavailable "Stellar RPC unavailable, retry later")

/-- The order and its provider as the database has them come first. -/
def buildSlashTx (stakingContractId : Address) (row : Option (Order × Option Lp)) (reads : SlashReads)
    (callerAddress : Address) (amount : ℤ) (now : ℕ) : Except Refusal BuiltTx :=
  match row with
  | none => .error (.notFound "order not found")
  | some (_, none) => .error (.conflict "order has no matched LP yet")
  | some (order, some lp) => do
    refuseIf (amount ≤ 0) (.badRequest "amount must be positive")
    let current := refreshed now reads.getTradeStatus order
    checkDirection current.flow current.status
    assertDisputeSigner printed reads.readDisputeSigners callerAddress
    checkVerdict reads.getTradeStatusStrict now
    let state ← slashState current.usdcAmount reads
    checkRemaining state order.usdcAmount amount
    prepareSlashTx (slashTx stakingContractId callerAddress lp.stellarAddress current.tradeId amount now)
      reads.prepareTransaction

end

theorem refuseIf_eq_ok {p : Prop} [Decidable p] {r : Refusal} (h : ¬p) : refuseIf p r = .ok () :=
  if_neg h

section

variable {effect : (e : Effect) → Order → Order × Reply e} {onChain : Option TradeOnChain} {now : ℕ}
  {home : Address} {id : OrderId} {order : Order}

/-- The service's own refresh, over a database that holds the row and is left alone. -/
theorem refreshOrderStatus_refreshed
    (hread : ∀ contractId tradeId row,
      effect (.ask (.getTradeStatus contractId tradeId)) row = (row, onChain))
    (hfind : ∀ row, effect (.ask (.findOrder id)) row = (row, some row))
    (hwrite : ∀ w row, effect (.write id w) row =
      ((w.run now row).getD row, some (if w.matchesRow row then 1 else 0))) :
    (complete effect (refreshOrderStatus home id order) order).2.2 =
      some (refreshed now onChain order) := by
  unfold refreshOrderStatus refreshed
  split
  next =>
    simp only [ask, bind, Program.bind, complete, hread]
    cases onChain with
    | none => rfl
    | some trade =>
      simp only
      split
      next =>
        split
        next h =>
          have hmatch : (RowWrite.refresh ⟨order.status, trade, h⟩
              order.disputeAt.isNone).matchesRow order = true := by
            simp [RowWrite.matchesRow]
          simp only [update, attempt, Program.bind, complete, hwrite, hfind]
          rw [RowWrite.run, if_pos hmatch]
          rfl
        next => rfl
      next => rfl
  next => rfl

theorem refreshed_toPlacement : (refreshed now onChain order).toPlacement = order.toPlacement := by
  unfold refreshed
  split
  next =>
    split
    next => rfl
    next =>
      split
      next =>
        split
        next => exact write_toPlacement _ _ _
        next => rfl
      next => rfl
  next => rfl

theorem refreshed_status : (refreshed now onChain order).status = order.status ∨
    (refreshFromChainStatuses.contains order.status = true ∧ ∃ trade, onChain = some trade ∧
      isAhead (statusMap trade.status) order.status = true ∧
      (refreshed now onChain order).status = statusMap trade.status) := by
  unfold refreshed
  split
  next hrefresh =>
    split
    next => exact .inl rfl
    next trade =>
      split
      next =>
        split
        next h =>
          refine .inr ⟨hrefresh, trade, rfl, h, ?_⟩
          simp only [RowWrite.data]
          split
          next => exact settlementFieldsFrom_status _ _ _
          next => exact settlementFieldsFrom_status _ _ _
        next => exact .inl rfl
      next => exact .inl rfl
  next => exact .inl rfl

end

def SlashReads.Failed (reads : SlashReads) : Prop :=
  reads.readDisputeSigners = none ∨ reads.getTradeStatusStrict = none ∨
    reads.getSlashedSoFar = none ∨ reads.prepareTransaction = .failed

/-- What is read is what the ledger has, when it can be read at all. The first read may
come from a cache: it shows the trade in some earlier world `u`. The preparation runs the
call, so it reports an error of the contract only when the contract refuses the call. -/
structure Honest (site : Site) (u w : World) (tradeId : TradeId) (call : Action)
    (reads : SlashReads) : Prop where
  getTradeStatus : ∀ trade, reads.getTradeStatus = some trade →
    ∃ t, u.trade tradeId = some t ∧ trade = decodeTradeStatus t
  readDisputeSigners : ∀ signers, reads.readDisputeSigners = some signers →
    ∃ cfg, w.staking.config = some cfg ∧ signers = (cfg.resolver, cfg.admin)
  getTradeStatusStrict : ∀ chain, reads.getTradeStatusStrict = some chain →
    chain = (w.trade tradeId).map decodeTradeStatus
  getSlashedSoFar : ∀ recovered, reads.getSlashedSoFar = some recovered →
    recovered = slashedOf w.staking tradeId
  prepareTransaction : ∀ contractProblem, reads.prepareTransaction = .refused contractProblem →
    out site w call = none

variable {site : Site} {ecfg : Escrow.Types.Config} {scfg : Staking.Types.Config}
  {w₀ u w : World} {tr₀ tr : History} {env : Env} {caller : Address} {amount : ℤ}
  {t : Trade} {d : ResolveOutcome} {row : Order} {lp : Lp} {now : ℕ} {reads : SlashReads}

theorem amount_fits {escrow : Address → TradeId → Staking.Types.Reply}
    {h h' : Staking.Types.StakingHost} {provider : Address} {id : TradeId}
    (hx : Staking.Contract.slash env escrow h provider id amount caller = .ok h') :
    amount < i128Limit := by
  simp only [Staking.Contract.slash, subI128, bind_eq_ok, okOr_eq_ok, rejectIf_eq_ok, checkI128_eq_ok,
    not_lt] at hx
  obtain ⟨cfg, -, -, -, -, -, -, -, found, -, view, -, -, -, -, -, -, -, -, -, -, -, -, -, -, -, remaining,
    ⟨hfits, rfl⟩, -, hle, -⟩ := hx
  exact hle.trans_lt hfits.2

theorem slash_checks {provider : Address} {id : TradeId}
    (hout : (out site w (.staking env (.slash provider id amount caller))).isSome = true) :
    0 < amount ∧ amount < i128Limit ∧ ∃ cfg, w.staking.config = some cfg ∧
      (caller = cfg.resolver ∨ caller = cfg.admin) := by
  cases hx : Staking.Contract.slash env (answers site w) (enter w.staking w.balances) provider id amount
      caller with
  | error f =>
    have hnone : out site w (.staking env (.slash provider id amount caller)) = none := by
      have hinvoke : Deployment.invoke Staking.System.exec w.stakingSide env
          ⟨.slash provider id amount caller, answers site w⟩ = .error f := hx
      simp only [out, stakingCall, Staking.System.receipt, Deployment.receipt, hinvoke, Option.map_none]
    rw [hnone] at hout
    cases hout
  | ok h' =>
    obtain ⟨ts, he, -, -⟩ := Staking.Effects.slash_performs hx
    generalize h'.storage = c at he
    cases he with
    | slashed hcfg hs => exact ⟨hs.amount_pos, amount_fits hx, _, hcfg, hs.operator⟩

theorem status_of_settlement (hf : Escrow.Invariant.Flagged t) (hset : settlement t = some d)
    (hst : t.status ≠ .disputed) : t.status = settledAs d := by
  rw [settlement_of_unflagged (hf.unflagged hst)] at hset
  cases hstatus : t.status with
  | released | refunded =>
    rw [hstatus] at hset
    obtain rfl := Option.some.inj hset
    rfl
  | funded | fiatPaid | disputed =>
    rw [hstatus] at hset
    cases hset

theorem refreshed_settlement (hd : Deployed site ecfg scfg w₀) (hr₀ : Run (machine site) w₀ tr₀ u)
    (hr : Run (machine site) u tr w) (ht : w.trade row.tradeId = some t) (hsync : InSync row t)
    (hset : settlement t = some d) {onChain : Option TradeOnChain}
    (hcached : ∀ trade, onChain = some trade →
      ∃ t₀, u.trade row.tradeId = some t₀ ∧ trade = decodeTradeStatus t₀) :
    (refreshed now onChain row).status = .disputed ∨
      (refreshed now onChain row).status = statusMap (settledAs d) := by
  have hiu := Coherent.of_run hd hr₀
  have hf := ((Coherent.of_run hd (hr₀.trans hr)).escrow.trades _ t ht).flagged
  have hrow : row.status = .disputed ∨ row.status = statusMap (settledAs d) := by
    rw [hsync.status]
    by_cases hst : t.status = .disputed
    · exact .inl (congrArg statusMap hst)
    · exact .inr (congrArg statusMap (status_of_settlement hf hset hst))
  obtain hkept | ⟨hrefresh, trade, hread, hahead, hstatus⟩ :=
    @refreshed_status onChain now row
  · rw [hkept]
    exact hrow
  · -- Only a row in dispute is refreshed here, and what is ahead of it has settled.
    obtain ⟨t₀, ht₀, rfl⟩ := hcached trade hread
    have hdisp : row.status = .disputed := by
      obtain hdisp | hsettled := hrow
      · exact hdisp
      · rw [hsettled] at hrefresh
        cases d <;> cases hrefresh
    have hstale : ∃ d₀, t₀.status = settledAs d₀ := by
      rw [hdisp] at hahead
      cases hst : t₀.status with
      | released => exact ⟨.release, rfl⟩
      | refunded => exact ⟨.refund, rfl⟩
      | funded | fiatPaid | disputed =>
        simp only [decodeTradeStatus, hst] at hahead
        exact absurd hahead (by decide)
    obtain ⟨d₀, hd₀⟩ := hstale
    have hset₀ : settlement t₀ = some d₀ := by
      have hne : t₀.status ≠ .disputed := by
        rw [hd₀]
        cases d₀ <;> simp [settledAs]
      rw [settlement_of_unflagged ((hiu.escrow.trades _ t₀ ht₀).flagged.unflagged hne), hd₀]
      cases d₀ <;> rfl
    obtain ⟨t₁, ht₁, hset₁, -⟩ := settled_stays hiu hr ht₀ hset₀
    obtain rfl := Option.some.inj (ht.symm.trans ht₁)
    obtain rfl := Option.some.inj (hset.symm.trans hset₁)
    right
    rw [hstatus, decodeTradeStatus, hd₀]

theorem checkDirection_disputed (flow : Flow) : checkDirection flow .disputed = .ok () := rfl

theorem checkDirection_slashedWhen (flow : Flow) :
    checkDirection flow (statusMap (settledAs (slashedWhen flow))) = .ok () := by
  cases flow <;> rfl

/-- The direction test lets every settlement pass that leaves the money with the
provider, with or without a later dispute over it. -/
theorem direction_passes (hd : Deployed site ecfg scfg w₀) (hr₀ : Run (machine site) w₀ tr₀ u)
    (hr : Run (machine site) u tr w) (ht : w.trade row.tradeId = some t) (hsync : InSync row t)
    (hwallet : row.lpWallet = some lp.stellarAddress) (hset : settlement t = some d)
    (hculprit : lp.stellarAddress = holder t.toTerms d) {onChain : Option TradeOnChain}
    (hcached : ∀ trade, onChain = some trade →
      ∃ t₀, u.trade row.tradeId = some t₀ ∧ trade = decodeTradeStatus t₀) :
    checkDirection (refreshed now onChain row).flow (refreshed now onChain row).status = .ok () := by
  have hne := ((Coherent.of_run hd (hr₀.trans hr)).escrow.trades _ t ht).terms.parties_ne
  have hside : d = slashedWhen row.flow := direction_of_holder hsync hwallet hne hculprit
  have hflow : (refreshed now onChain row).flow = row.flow :=
    congrArg (·.flow) (@refreshed_toPlacement onChain now row)
  rw [hflow]
  obtain hdisp | hsettled := refreshed_settlement hd hr₀ hr ht hsync hset hcached
  · rw [hdisp]
    exact checkDirection_disputed _
  · rw [hsettled, hside]
    exact checkDirection_slashedWhen _

theorem checkVerdict_open (hl : t.liabilityEstablished = true) (hpos : 0 < t.slashDeadline)
    (hclock : ((now / 1000 : ℕ) : ℤ) ≤ t.slashDeadline + clockSkewMarginSecs) :
    checkVerdict (some (some (decodeTradeStatus t))) now = .ok () := by
  have hzero : ¬((decodeTradeStatus t).slashDeadline.getD 0 = 0) := by
    simp only [decodeTradeStatus, Option.getD_some]
    omega
  have hlate : ¬(((now / 1000 : ℕ) : ℤ) >
      (decodeTradeStatus t).slashDeadline.getD 0 + clockSkewMarginSecs) := by
    simp only [decodeTradeStatus, Option.getD_some]
    omega
  have hliable : (decodeTradeStatus t).liabilityEstablished = some true := congrArg some hl
  simp only [checkVerdict, hliable, refuseIf_eq_ok hzero, refuseIf_eq_ok hlate, bind, Except.bind]

theorem checkRemaining_covered {usdcAmount recovered shown : ℤ} {state : SlashState}
    (hstate : state.remaining = max (usdcAmount - recovered) 0) (hpos : 0 < amount)
    (hcap : recovered + amount ≤ usdcAmount) : checkRemaining state shown amount = .ok () := by
  have hsome : ¬(state.remaining ≤ 0) := by omega
  have hle : ¬(amount > state.remaining) := by omega
  simp only [checkRemaining, refuseIf_eq_ok hsome, refuseIf_eq_ok hle, bind, Except.bind]

theorem slashTx_of_fits (hpos : 0 < amount) (hfits : amount < i128Limit)
    (stakingContractId callerAddress lpAddress : Address) (tradeIdHex : TradeId) (now : ℕ) :
    ∃ tx, slashTx stakingContractId callerAddress lpAddress tradeIdHex amount now = some tx := by
  have henc : toI128 amount = some (.i128 amount) := by
    rw [toI128, if_pos]
    exact ⟨(by decide : -i128Limit ≤ 0).trans hpos.le, hfits⟩
  exact ⟨_, by rw [slashTx, henc]; rfl⟩

/-- A slash that passes the checks is refused only because a read fails. -/
theorem buildSlashTx_of_checks (printed : Address → String) {stakingContractId : Address} {tx : BuiltTx}
    (hpos : 0 < amount)
    (hdirection : checkDirection (refreshed now reads.getTradeStatus row).flow
      (refreshed now reads.getTradeStatus row).status = .ok ())
    (hsigner : ∀ signers, reads.readDisputeSigners = some signers →
      assertDisputeSigner printed (some signers) caller = .ok ())
    (hverdict : ∀ chain, reads.getTradeStatusStrict = some chain →
      checkVerdict (some chain) now = .ok ())
    (hremaining : ∀ state,
      slashState (refreshed now reads.getTradeStatus row).usdcAmount reads = .ok state →
      checkRemaining state row.usdcAmount amount = .ok ())
    (htx : slashTx stakingContractId caller lp.stellarAddress row.tradeId amount now = some tx)
    (hprep : ∀ contractProblem, reads.prepareTransaction ≠ .refused contractProblem) :
    (reads.Failed → ∃ message,
      buildSlashTx printed stakingContractId (some (row, some lp)) reads caller amount now =
        .error (.unavailable message)) ∧
    (¬reads.Failed →
      buildSlashTx printed stakingContractId (some (row, some lp)) reads caller amount now =
        .ok tx) := by
  have htrade : (refreshed now reads.getTradeStatus row).tradeId = row.tradeId :=
    congrArg (·.tradeId) (@refreshed_toPlacement reads.getTradeStatus now row)
  have hopened : buildSlashTx printed stakingContractId (some (row, some lp)) reads caller amount now =
      (do
        assertDisputeSigner printed reads.readDisputeSigners caller
        checkVerdict reads.getTradeStatusStrict now
        let state ← slashState (refreshed now reads.getTradeStatus row).usdcAmount reads
        checkRemaining state row.usdcAmount amount
        prepareSlashTx (some tx) reads.prepareTransaction) := by
    rw [← htx, ← htrade]
    simp only [buildSlashTx, refuseIf_eq_ok (not_le.mpr hpos), hdirection, bind, Except.bind]
  rw [hopened]
  cases hsign : reads.readDisputeSigners with
  | none => exact ⟨fun _ => ⟨_, rfl⟩, fun hno => absurd (.inl hsign) hno⟩
  | some signers =>
  rw [hsigner signers hsign]
  cases hstrict : reads.getTradeStatusStrict with
  | none => exact ⟨fun _ => ⟨_, rfl⟩, fun hno => absurd (.inr (.inl hstrict)) hno⟩
  | some chain =>
  rw [hverdict chain hstrict]
  cases hslashed : reads.getSlashedSoFar with
  | none =>
    simp only [slashState, hslashed]
    exact ⟨fun _ => ⟨_, rfl⟩, fun hno => absurd (.inr (.inr (.inl hslashed))) hno⟩
  | some recovered =>
  simp only [slashState, hslashed] at hremaining
  simp only [slashState, hslashed, bind, Except.bind, hremaining _ rfl]
  cases hprepared : reads.prepareTransaction with
  | ready =>
    refine ⟨fun hfailed => ?_, fun _ => rfl⟩
    simp [SlashReads.Failed, hsign, hstrict, hslashed, hprepared] at hfailed
  | failed => exact ⟨fun _ => ⟨_, rfl⟩, fun hno => absurd (.inr (.inr (.inr hprepared))) hno⟩
  | refused contractProblem => exact absurd hprepared (hprep contractProblem)

section

variable {call : Action} (hreads : Honest site u w row.tradeId call reads)

include hreads

theorem signer_passes (printed : Address → String) {cfg : Staking.Types.Config}
    (hcfg : w.staking.config = some cfg) (hcaller : caller = cfg.resolver ∨ caller = cfg.admin)
    {signers : Address × Address} (hread : reads.readDisputeSigners = some signers) :
    assertDisputeSigner printed (some signers) caller = .ok () := by
  obtain ⟨cfg', hcfg', rfl⟩ := hreads.readDisputeSigners signers hread
  obtain rfl := Option.some.inj (hcfg.symm.trans hcfg')
  apply refuseIf_eq_ok
  exact fun hneither => hcaller.elim hneither.1 hneither.2

theorem verdict_passes (ht : w.trade row.tradeId = some t) (hl : t.liabilityEstablished = true)
    (hpos : 0 < t.slashDeadline)
    (hclock : ((now / 1000 : ℕ) : ℤ) ≤ t.slashDeadline + clockSkewMarginSecs)
    {chain : Option TradeOnChain} (hread : reads.getTradeStatusStrict = some chain) :
    checkVerdict (some chain) now = .ok () := by
  rw [hreads.getTradeStatusStrict chain hread, ht]
  exact checkVerdict_open hl hpos hclock

theorem remaining_passes {usdcAmount shown : ℤ} (hpos : 0 < amount)
    (hcap : slashedOf w.staking row.tradeId + amount ≤ usdcAmount) {state : SlashState}
    (hstate : slashState usdcAmount reads = .ok state) : checkRemaining state shown amount = .ok () := by
  cases hslashed : reads.getSlashedSoFar with
  | none =>
    simp only [slashState, hslashed] at hstate
    cases hstate
  | some recovered =>
    simp only [slashState, hslashed] at hstate
    rw [← hreads.getSlashedSoFar recovered hslashed] at hcap
    cases hstate
    exact checkRemaining_covered rfl hpos hcap

end

/-- The coordinator builds every slash that the contract accepts, whatever has been
recovered before and whatever a cache still shows of the trade, unless a read fails. -/
theorem slash_not_refused (printed : Address → String) (hd : Deployed site ecfg scfg w₀)
    (hr₀ : Run (machine site) w₀ tr₀ u) (hr : Run (machine site) u tr w)
    (ht : w.trade row.tradeId = some t) (hsync : InSync row t)
    (hwallet : row.lpWallet = some lp.stellarAddress)
    (hreads : Honest site u w row.tradeId
      (.staking env (.slash lp.stellarAddress row.tradeId amount caller)) reads) :
    (∀ d, settlement t = some d → lp.stellarAddress = holder t.toTerms d →
      checkDirection (refreshed now reads.getTradeStatus row).flow
        (refreshed now reads.getTradeStatus row).status = .ok ()) ∧
    (admits site w (.staking env (.slash lp.stellarAddress row.tradeId amount caller)) →
      (out site w (.staking env (.slash lp.stellarAddress row.tradeId amount caller))).isSome = true →
      |((now / 1000 : ℕ) : ℤ) - env.timestamp| ≤ 900 →
      (reads.Failed → ∃ message,
        buildSlashTx printed site.staking (some (row, some lp)) reads caller amount now =
          .error (.unavailable message)) ∧
      (¬reads.Failed → ∃ tx,
        slashTx site.staking caller lp.stellarAddress row.tradeId amount now = some tx ∧
        buildSlashTx printed site.staking (some (row, some lp)) reads caller amount now = .ok tx)) := by
  refine ⟨fun d hset hculprit => direction_passes hd hr₀ hr ht hsync hwallet hset hculprit
    hreads.getTradeStatus, fun ha hout hclock => ?_⟩
  have hi := Coherent.of_run hd (hr₀.trans hr)
  obtain ⟨hpos, hfits, cfg, hcfg, hcaller⟩ := slash_checks hout
  obtain ⟨ts, hts⟩ := Option.isSome_iff_exists.mp hout
  obtain ⟨t', d, hs⟩ := slash_inversion hi ha hts
  obtain rfl := Option.some.inj (ht.symm.trans hs.trade)
  have hamount : (refreshed now reads.getTradeStatus row).usdcAmount = t.usdcAmount := by
    obtain ⟨-, -, hamount, -⟩ := (verify_eq_nil_iff _ _).mp hsync.bound
    exact (congrArg (·.usdcAmount) refreshed_toPlacement).trans (Option.some.inj hamount).symm
  have hopen := Escrow.Liability.liable_window hd.escrow (run_escrow (hr₀.trans hr)) ht hs.liable
  have hlate : ((now / 1000 : ℕ) : ℤ) ≤ t.slashDeadline + clockSkewMarginSecs := by
    have htimely := hs.timely
    have hnear := (le_abs_self _).trans hclock
    simp only [clockSkewMarginSecs]
    omega
  obtain ⟨tx, htx⟩ := slashTx_of_fits hpos hfits site.staking caller lp.stellarAddress row.tradeId now
  have hcap := hs.capped
  rw [← hamount] at hcap
  have hanswer := buildSlashTx_of_checks printed hpos
    (direction_passes hd hr₀ hr ht hsync hwallet hs.direction hs.culprit hreads.getTradeStatus)
    (fun _ => signer_passes hreads printed hcfg hcaller)
    (fun _ => verdict_passes hreads ht hs.liable hopen hlate)
    (fun _ => remaining_passes hreads hpos hcap) htx
    fun contractProblem hrefused => by
      rw [hreads.prepareTransaction contractProblem hrefused] at hout
      cases hout
  exact ⟨hanswer.1, fun hread => ⟨tx, htx, hanswer.2 hread⟩⟩

def reopenedActions : List Action :=
  [.escrow (Escrow.Custody.sampleEnv 1900 [⟨6⟩]) (.raiseDispute 1 ⟨6⟩)]

def reopenedWorld : World := final (machine sampleSite) liableWorld reopenedActions

theorem reopened_run : Run (machine sampleSite) liableWorld
    (history (machine sampleSite) liableWorld reopenedActions) reopenedWorld := by
  apply Run.of_actions
  exact ⟨⟨rfl, by decide⟩, trivial⟩

def reopenedTrade : Trade := (reopenedWorld.trade 1).get (by decide)

def reopenedRow : Order :=
  { refundedRow with
    status := .disputed
    slashDeadline := some reopenedTrade.slashDeadline }

theorem reopenedRow_inSync : InSync reopenedRow reopenedTrade where
  bound := by decide
  status := by decide
  settledAt := by decide
  postSettle _ := by decide
  slash _ := by decide

/-- The cache still has the trade as it was before the first dispute. -/
def reopenedReads : SlashReads where
  getTradeStatus := some (decodeTradeStatus refundedTrade)
  readDisputeSigners := some (⟨3⟩, ⟨1⟩)
  getTradeStatusStrict := some (some (decodeTradeStatus reopenedTrade))
  getSlashedSoFar := some 0
  getTradeStatusAgain := some (some (decodeTradeStatus reopenedTrade))
  prepareTransaction := .ready

theorem reopenedReads_honest :
    Honest sampleSite refundedWorld reopenedWorld 1 lateSlash reopenedReads where
  getTradeStatus trade h :=
    ⟨refundedTrade, (Option.some_get _).symm, (Option.some.inj h).symm⟩
  readDisputeSigners signers h := by
    obtain rfl := Option.some.inj h
    exact ⟨reopenedWorld.staking.config.get (by decide), by decide, by decide⟩
  getTradeStatusStrict chain h := by
    obtain rfl := Option.some.inj h
    have htrade : reopenedWorld.trade 1 = some reopenedTrade := (Option.some_get _).symm
    rw [htrade]
    rfl
  getSlashedSoFar recovered h := by
    obtain rfl := Option.some.inj h
    decide
  prepareTransaction contractProblem h := by cases h

theorem sample_slash_not_refused :
    (out sampleSite reopenedWorld lateSlash).isSome = true ∧
    ∃ tx, buildSlashTx (fun a => toString a.key) sampleSite.staking
      (some (reopenedRow, some Desk.sampleLp)) reopenedReads ⟨3⟩ 400000 2000000 = .ok tx := by
  have hadm : admits sampleSite reopenedWorld lateSlash := ⟨rfl, by decide, by decide⟩
  have hout : (out sampleSite reopenedWorld lateSlash).isSome = true := by decide
  have hread : ¬reopenedReads.Failed := by simp [SlashReads.Failed, reopenedReads]
  have hwallet : reopenedRow.lpWallet = some Desk.sampleLp.stellarAddress := rfl
  have hclock : |((2000000 / 1000 : ℕ) : ℤ) - (2000 : ℕ)| ≤ 900 := by decide
  have hbuilt := (slash_not_refused (fun a => toString a.key) sampleWorld_deployed
    refunded_run (disputed_run.trans reopened_run) (Option.some_get _).symm reopenedRow_inSync hwallet
    reopenedReads_honest).2 hadm hout hclock
  obtain ⟨tx, -, htx⟩ := hbuilt.2 hread
  exact ⟨hout, tx, htx⟩

end Lolipay.Coordinator.SlashTx
