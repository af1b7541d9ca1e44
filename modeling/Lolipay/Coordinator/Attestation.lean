import Lolipay.Coordinator.Desk

namespace Lolipay.Coordinator.Attestation

open Lolipay.Ledger.Storage Lolipay.Ledger.Invocation Lolipay.Ledger.Runs
open Lolipay.Async.Process Lolipay.Async.Scheduling
open Lolipay.Escrow.Types
open Lolipay.Coordinator.Orders Lolipay.Coordinator.Writes Lolipay.Coordinator.Database
open Lolipay.Coordinator.Services Lolipay.Coordinator.Creation Lolipay.Coordinator.Desk

/-- The settings of the anchor, how it prints ids and references, and the check
of a signature. -/
structure Config extends Settings where
  orderText : OrderId → String
  orderText_injective : Function.Injective orderText
  tradeText : TradeId → String
  refText : ℕ → String
  verifySep53 : Address → String → String → Bool
  challengeTtl : ℕ
  hasAttestorKey : Bool
  escrowContractIdsExtra : List Address

variable (x : Config)

def printableToken (token : String) : Bool :=
  token ≠ "" && token.toList.all fun c => c.isAlphanum || c = '-'

def receiptStatement : String :=
  "I confirm I received the full payment for this order, and I authorize lolipay to mark this order as paid on chain."

/-- The statement that a provider signs; it throws on a token that would not print as one. -/
def providerReceiptMessage (id : OrderId) (order : Placement) (at' : ℤ) : Option String :=
  let reference := (order.ref.map x.refText).getD "-"
  if [x.orderText id, x.tradeText order.tradeId, order.fiatCurrency, reference].all printableToken then
    some ("lolipay-confirm-receipt:v1 " ++ receiptStatement ++ " order=" ++ x.orderText id ++
      " trade=" ++ x.tradeText order.tradeId ++ " amount=" ++ toString order.fiatAmount ++
      " currency=" ++ order.fiatCurrency ++ " reference=" ++ reference ++ " at=" ++ toString at')
  else none

/-- A statement with its signature, and the order and the time that it was made for. -/
structure SignedReceipt where
  order : OrderId
  at' : ℤ
  message : String
  signature : String
  deriving DecidableEq, Repr

/-- The nonce `confirm-receipt:order:at`. -/
abbrev Nonce := OrderId × ℤ

def SignedReceipt.nonce (r : SignedReceipt) : Nonce := (r.order, r.at')

/-- What an attestation rests on: an administrator's evidence, or a receipt that
the account signed. -/
inductive Evidence where
  | text (actor : Address) (evidence : String)
  | receipt (caller : Address) (r : SignedReceipt)
  deriving DecidableEq, Repr

/-- A `mark_fiat_paid` transaction, with the order and the evidence it is sent for. -/
structure Submission where
  order : OrderId
  contractId : Address
  tradeId : TradeId
  evidence : Evidence
  deriving DecidableEq, Repr

/-- The effects of the attestation on top of those of the other services. The
check of the time and the insertion of the nonce are one, `accept`. -/
inductive Effect where
  | own (e : Database.Effect)
  | findReceiptOrder (id : OrderId)
  | accept (caller : Address) (r : SignedReceipt)
  | enter (id : OrderId)
  | leave (id : OrderId)
  | recordAudit
  | readEscrowFiatAttestor (contractId : Address)
  | buildMarkFiatPaidTx (contractId : Address) (tradeId : TradeId) (notAfter : ℤ)
  | submit (sub : Submission)

/-- A failure is `none`, or `false` where nothing else is answered. -/
@[reducible] def Reply : Effect → Type
  | .own e => Database.Reply e
  | .findReceiptOrder _ => Option (Order × Option Address)
  | .accept _ _ | .enter _ | .recordAudit | .readEscrowFiatAttestor _
  | .buildMarkFiatPaidTx _ _ _ => Bool
  | .leave _ => Unit
  | .submit _ => Option Bool

abbrev Handler (α : Type) := Program Effect Reply α

variable {α : Type}

/-- `attest` and `submitInTurn`: the key, the contract and the time are checked
before anything is signed. The turns only order the submissions. -/
def attest (sub : Submission) (notAfter : ℤ) : Handler Bool := do
  demand (x.hasAttestorKey && (x.escrowContractId :: x.escrowContractIdsExtra).contains sub.contractId)
  let ours : Bool ← issue (Effect.readEscrowFiatAttestor sub.contractId)
  demand ours
  let now ← (ask .clock).embed .own
  demand (nowSecs now ≤ notAfter)
  let built : Bool ← issue (Effect.buildMarkFiatPaidTx sub.contractId sub.tradeId notAfter)
  demand built
  let sent : Option Bool ← issue (Effect.submit sub)
  match sent with
  | none => .fail
  | some success => .pure success

def whileAttesting (id : OrderId) (work : Handler Unit) : Handler Unit := do
  let free : Bool ← issue (Effect.enter id)
  demand free
  work.ensuring (issue (Effect.leave id))

/-- The attempt is recorded whether or not it comes to a submission. -/
def attestFiatPaidOnce (id : OrderId) (evidence : Evidence) : Handler Unit := do
  let order ← (ask (.findOrder id)).embed .own
  match order with
  | none => .fail
  | some order =>
    demand (order.flow = .topUp)
    demand (order.status = .funded)
    let contractId := contractIdFor order.toPlacement x.escrowContractId
    let success ← (attest x ⟨id, contractId, order.tradeId, evidence⟩
      (refundOpensAt order.toOrderBindingFields)).ensuring (do
        let _ ← issue Effect.recordAudit
        .pure ())
    demand success
    let _ ← (update id .attest).embed .own
    .pure ()

def attestFiatPaid (id : OrderId) (actor : Address) (evidence : String) : Handler Unit :=
  whileAttesting id (attestFiatPaidOnce x id (.text actor evidence))

def providerReceiptOrder (id : OrderId) (caller : Address) : Handler Order := do
  let found : Option (Order × Option Address) ← issue (Effect.findReceiptOrder id)
  match found with
  | none => .fail
  | some (order, lp) => if lp = some caller then .pure order else .fail

/-- `windowClosed`, at the moment of the check. -/
def checkWindow (order : Order) : Handler Unit := do
  let now ← (ask .clock).embed .own
  demand (nowSecs now ≤ refundOpensAt order.toOrderBindingFields)

def confirmOnChain (order : Order) (caller : Address) (r : SignedReceipt) : Handler Unit := do
  let onChain ← (ask (.getTradeStatusStrict
    (contractIdFor order.toPlacement x.escrowContractId) order.tradeId)).embed .own
  match onChain with
  | none => .fail
  | some none => .fail
  | some (some trade) =>
    demand (trade.usdcProvider = some caller)
    if trade.status = .fiatPaid then do
      let _ ← issue Effect.recordAudit
      .pure ()
    else do
      demand (trade.status = .funded)
      checkWindow order
      attestFiatPaidOnce x r.order (.receipt caller r)

def confirmReceiptAsProvider (id : OrderId) (caller : Address) (at' : ℤ) (signature : String) :
    Handler Unit := do
  let order ← providerReceiptOrder id caller
  match providerReceiptMessage x id order.toPlacement at' with
  | none => .fail
  | some message =>
    demand (x.verifySep53 caller message signature)
    let r : SignedReceipt := ⟨id, at', message, signature⟩
    let unspent : Bool ← issue (Effect.accept caller r)
    demand unspent
    whileAttesting id (confirmOnChain x order caller r)

/-- A receipt at the moment it is accepted, in seconds. -/
structure Acceptance where
  caller : Address
  receipt : SignedReceipt
  time : ℤ

/-- The tables and the chain, the spent nonces with when they expire, the orders
whose attestation is in flight, and the transactions sent. `holding` and
`accepted` only record which call has its receipt accepted and not yet used, and
what was ever accepted. -/
structure Chamber where
  shared : Shared
  consumed : Store Nonce ℤ
  attesting : OrderId → Option Pid
  holding : Pid → Option Nonce
  accepted : List Acceptance
  submitted : List Submission

def expiresAt (n : Nonce) : ℤ := (n.2 + x.challengeTtl + 1) * 1000

def timely (n : Nonce) (now : ℕ) : Bool :=
  nowSecs now - x.challengeTtl ≤ n.2 && n.2 ≤ nowSecs now

def accept (pid : Pid) (caller : Address) (r : SignedReceipt) (v : Chamber) : Chamber × Bool :=
  if timely x r.nonce v.shared.now then
    match v.consumed.lookup r.nonce with
    | some _ => (v, false)
    | none =>
      ({ v with
        consumed := v.consumed.insert r.nonce (expiresAt x r.nonce)
        holding := fun q => if q = pid then some r.nonce else v.holding q
        accepted := ⟨caller, r, nowSecs v.shared.now⟩ :: v.accepted }, true)
  else (v, false)

def providerOfRow (s : Shared) (row : Order) : Option Address :=
  (row.lpId.bind s.db.lps.lookup).map (·.stellarAddress)

def effect (pid : Pid) (e : Effect) (o : Choice) (v : Chamber) : Chamber × Reply e :=
  match e with
  | .own e => ({ v with shared := after pid e o v.shared }, reply pid e o v.shared)
  | .findReceiptOrder id =>
    (v, (v.shared.db.orders.lookup id).map fun row => (row, providerOfRow v.shared row))
  | .accept caller r => if o.fails then (v, false) else accept x pid caller r v
  | .enter id =>
    if (v.attesting id).isSome then (v, false)
    else ({ v with attesting := fun i => if i = id then some pid else v.attesting i }, true)
  | .leave id => ({ v with attesting := fun i => if i = id then none else v.attesting i }, ())
  | .recordAudit | .readEscrowFiatAttestor _ | .buildMarkFiatPaidTx _ _ _ => (v, !o.fails)
  | .submit sub =>
    ({ v with
      holding := fun q => if q = pid then none else v.holding q
      submitted := sub :: v.submitted }, if o.fails then none else some o.verdict)

inductive Call where
  | attestFiatPaid (id : OrderId) (actor : Address) (evidence : String)
  | confirmReceiptAsProvider (id : OrderId) (caller : Address) (at' : ℤ) (signature : String)
  | other (c : Desk.Call)

def body : Call → Handler Unit
  | .attestFiatPaid id actor evidence => attestFiatPaid x id actor evidence
  | .confirmReceiptAsProvider id caller at' signature =>
    confirmReceiptAsProvider x id caller at' signature
  | .other c => (Desk.body x.toSettings c).embed .own

/-- The moves of the world, and the prune of spent nonces. -/
inductive Move where
  | desk (a : Desk.Move)
  | pruneOldQuotes

def prunable (v : Chamber) : List Nonce :=
  v.consumed.keys.filter fun n => (v.consumed.lookup n).any fun expiresAt =>
    expiresAt < (v.shared.now : ℤ)

def moved (v : Chamber) : Move → Chamber
  | .desk a => { v with shared := Desk.moved v.shared a }
  | .pruneOldQuotes =>
    { v with consumed := (prunable v).foldl (fun st n => st.erase n) v.consumed }

/-- The anchor with all that its services do; the administrators' calls are the
ones here, in full. -/
def anchor : System Call Choice Move Effect Reply Chamber where
  body := body x
  delivers _
    | .other c => ∀ id, c ≠ .attestFiatPaid id
    | _ => True
  permits pid e o v :=
    match e with
    | .own e => Permits x.toSettings pid e o v.shared
    | _ => True
  effect := effect x
  dies pid v :=
    { v with
      shared := release pid v.shared
      attesting := fun i => if v.attesting i = some pid then none else v.attesting i
      holding := fun q => if q = pid then none else v.holding q }
  moves v
    | .desk a => Moves v.shared a
    | .pruneOldQuotes => True
  moved := moved

end Lolipay.Coordinator.Attestation
