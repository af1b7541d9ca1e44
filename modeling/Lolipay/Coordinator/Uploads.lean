import Lolipay.Async.Stages
import Lolipay.Ledger.Decimal
import Lolipay.Coordinator.Evidence

namespace Lolipay.Coordinator.Uploads

open Lolipay.Ledger.Storage Lolipay.Ledger.Invocation Lolipay.Ledger.Decimal
open Lolipay.Async.Process Lolipay.Async.Scheduling
open Lolipay.Escrow.Types
open Lolipay.Coordinator.Orders Lolipay.Coordinator.Binding Lolipay.Coordinator.Writes
open Lolipay.Coordinator.Evidence (Ext UploadedFile extContentType sniffFileType)

/-- The columns of an order row that the proof of a payment fills. -/
structure Proof where
  proofUrl : Option String := none
  proofUploadedAt : Option ℕ := none
  proofRrn : Option String := none
  proofAmount : Option ℕ := none
  proofPaidAt : Option ℤ := none
  deriving DecidableEq, Repr

structure Row where
  order : Order
  proof : Proof
  deriving DecidableEq, Repr

structure UploadProofDto where
  rrn : Option String := none
  paidAmount : Option String := none
  paidAt : Option String := none

/-- An object with the order that it was uploaded for, if a call did that. -/
structure Stored where
  buffer : List UInt8
  contentType : String
  uploadedFor : Option OrderId
  deriving DecidableEq, Repr

/-- What a call throws; `thrown` stands for whatever the database threw. -/
inductive Refusal where
  | notFound (message : String)
  | badRequest (message : String)
  | forbidden (message : String)
  | conflict (message : String)
  | serviceUnavailable (message : String)
  | thrown
  deriving DecidableEq, Repr

/-- The outcome of an update: it threw, for a unique column or otherwise, or it
matched so many rows. -/
inductive Claimed where
  | threw (p2002 : Bool)
  | count (n : ℕ)
  deriving DecidableEq, Repr

inductive Effect where
  | findOrder (id : OrderId)
  | getTradeStatus (contractId : Address) (tradeId : TradeId)
  | refresh (id : OrderId) (a : Advance) (stamps : Bool)
  | clock
  | findClash (rrn : String) (lpId : Option LpId) (id : OrderId)
  | newProofKey (ext : Ext)
  | putObject (key : String) (buffer : List UInt8) (contentType : String) (id : OrderId)
  | removeObject (key : String)
  | claim (id : OrderId) (previousProofUrl : Option String) (data : Proof)
  | reread (id : OrderId)
  | answer (r : Except Refusal Row)

/-- An outer `none`, or `false`, is a call that threw. A row comes with the
address of its provider. -/
@[reducible] def Reply : Effect → Type
  | .findOrder _ => Option (Option (Row × Option Address))
  | .getTradeStatus _ _ => Option TradeOnChain
  | .refresh _ _ _ => Option ℕ
  | .clock => ℕ
  | .findClash _ _ _ => Option Bool
  | .newProofKey _ => String
  | .putObject _ _ _ _ => Bool
  | .claim _ _ _ => Claimed
  | .reread _ => Option (Option Row)
  | .removeObject _ | .answer _ => Unit

abbrev Handler (α : Type) := ExceptT Refusal (Program Effect Reply) α

variable {α β : Type}

def issue (e : Effect) : Handler (Reply e) := ExceptT.lift (.step e .pure)

def orThrow (why : Refusal) : Option α → Handler α
  | some a => pure a
  | none => throw why

def refuseIf (c : Prop) [Decidable c] (why : Refusal) : Handler Unit :=
  if c then throw why else pure ()

def findOrder (id : OrderId) : Handler (Option (Row × Option Address)) := do
  let found : Option (Option (Row × Option Address)) ← issue (.findOrder id)
  orThrow .thrown found

def advance (id : OrderId) (row : Row) (a : Advance) : Handler Row := do
  let written : Option ℕ ← issue (.refresh id a row.order.disputeAt.isNone)
  let _ ← orThrow .thrown written
  let updated ← findOrder id
  pure (updated.elim row (·.1))

def refreshOrderStatus (home : Address) (id : OrderId) (row : Row) : Handler Row :=
  if refreshFromChainStatuses.contains row.order.status then do
    let onChain : Option TradeOnChain ←
      issue (.getTradeStatus (contractIdFor row.order.toPlacement home) row.order.tradeId)
    match onChain with
    | none => pure row
    | some trade =>
      if tradeBindsToOrder trade row.order then
        if h : isAhead (statusMap trade.status) row.order.status then
          advance id row ⟨row.order.status, trade, h⟩
        else pure row
      else pure row
  else pure row

def usedReference : Refusal := .conflict "this payment reference has already been used for another order"

def notFunded : Refusal := .conflict "order must be FUNDED to upload payment proof"

/-- Letters and digits in capitals; nothing left counts as nothing given. -/
def normalRrn (rrn : Option String) : Option String :=
  (rrn.map fun text => String.ofList ((text.toList.filter Char.isAlphanum).map Char.toUpper)).filter
    fun text => text ≠ ""

/-- One to fifteen digits, the first of which is no zero. -/
def isPaidAmount (digits : List Char) : Bool :=
  digits.all Char.isDigit && digits.head? ≠ some '0' && 0 < digits.length && digits.length ≤ 15

def readAmount : Option String → Handler (Option ℕ)
  | none => pure none
  | some paidAmount => do
    refuseIf (¬ isPaidAmount paidAmount.toList)
      (.badRequest "paidAmount must be a positive integer (base units)")
    pure (some (digitsValue paidAmount.toList))

/-- The date of the payment; `dateOf` is the parser of dates. -/
def readPaidAt (dateOf : String → Option ℤ) (createdAt : ℕ) : Option String → Handler (Option ℤ)
  | none => pure none
  | some paidAt => do
    let time ← orThrow (.badRequest "paidAt must be a valid timestamp") (dateOf paidAt)
    let now : ℕ ← issue .clock
    refuseIf (now + 5 * 60000 < time) (.badRequest "payment time cannot be in the future")
    refuseIf (time < createdAt) (.badRequest "payment time cannot predate the order")
    pure (some time)

def checkReference (id : OrderId) (lpId : Option LpId) : Option String → Handler Unit
  | none => pure ()
  | some rrn => do
    let clash : Option Bool ← issue (.findClash rrn lpId id)
    let clash ← orThrow .thrown clash
    refuseIf (clash = true) usedReference

/-- Everything before the file is looked at: the proof that the row has, and what
the caller says about the payment. -/
def checkUpload (home : Address) (dateOf : String → Option ℤ) (id : OrderId) (caller : Address)
    (dto : UploadProofDto) : Handler (Option String × Proof) := do
  let found ← findOrder id
  let (row, lp) ← orThrow (.notFound "order not found") found
  refuseIf (row.order.flow = .topUp) (.badRequest
    "payment proof upload does not apply to TOP_UP orders — the user pays fiat there, not the LP")
  let lp ← orThrow (.conflict "order has no matched LP yet") lp
  refuseIf (caller ≠ lp)
    (.forbidden "only the assigned LP may upload payment proof for this order")
  let current ← refreshOrderStatus home id row
  refuseIf (current.order.status ≠ .funded) notFunded
  let proofAmount ← readAmount dto.paidAmount
  let proofPaidAt ← readPaidAt dateOf row.order.createdAt dto.paidAt
  checkReference id row.order.lpId (normalRrn dto.rrn)
  pure (current.proof.proofUrl, { proofRrn := normalRrn dto.rrn, proofAmount, proofPaidAt })

def sniffOrThrow (file : Option UploadedFile) : Handler (UploadedFile × Ext) := do
  let file ← orThrow (.badRequest "a file is required") (file.filter fun file => file.buffer ≠ [])
  let sniffed ← orThrow
    (.badRequest "unsupported or unrecognized file type (allowed: jpg, png, webp, pdf)")
    (sniffFileType file.buffer)
  refuseIf (file.mimetype ≠ extContentType sniffed)
    (.badRequest "file content does not match its declared Content-Type")
  pure (file, sniffed)

def storeNew (id : OrderId) (file : UploadedFile) (ext : Ext) : Handler String := do
  let key : String ← issue (.newProofKey ext)
  let stored : Bool ← issue (.putObject key file.buffer (extContentType ext) id)
  refuseIf (stored = false) (.serviceUnavailable "could not store the uploaded file, retry")
  pure key

def sniffAndStore (id : OrderId) (file : Option UploadedFile) : Handler String := do
  let (file, sniffed) ← sniffOrThrow file
  storeNew id file sniffed

/-- The new object goes where no row will name it. -/
def discard (key : String) (why : Refusal) : Handler Row := do
  issue (.removeObject key)
  throw why

def removePrevious : Option String → Handler Unit
  | none => pure ()
  | some url => if url = "" then pure () else issue (.removeObject url)

def finish (id : OrderId) (previousProofUrl : Option String) : Handler Row := do
  removePrevious previousProofUrl
  let updated : Option (Option Row) ← issue (.reread id)
  orThrow .thrown (updated.getD none)

def claimProof (id : OrderId) (previousProofUrl : Option String) (key : String) (data : Proof) :
    Handler Row := do
  let now : ℕ ← issue .clock
  let claimed : Claimed ← issue (.claim id previousProofUrl
    { data with proofUrl := some key, proofUploadedAt := some now })
  match claimed with
  | .threw true => discard key usedReference
  | .threw false => discard key .thrown
  | .count 0 => discard key notFunded
  | .count (_ + 1) => finish id previousProofUrl

def uploadProof (home : Address) (dateOf : String → Option ℤ) (id : OrderId) (caller : Address)
    (file : Option UploadedFile) (dto : UploadProofDto) : Handler Row := do
  let (previousProofUrl, data) ← checkUpload home dateOf id caller dto
  let key ← sniffAndStore id file
  claimProof id previousProofUrl key data

/-- The tables as far as the uploads read them, the object store, and the keys in
use so far. Three columns are no data of the program: whether a call to the object
store has thrown, and of each call whether its update has matched the row, and
whether its last read then failed. -/
structure Depot where
  orders : Store OrderId Row
  lps : LpId → Option Address
  now : ℕ
  objects : String → Option Stored
  issued : List String
  storageErrors : Bool := false
  wrote : Pid → Bool := fun _ => false
  unread : Pid → Bool := fun _ => false

/-- The environment's part: whether an effect throws, whether the object store then
did it all the same, the answer of the chain, and the random part of a key. -/
structure Choice where
  fails : Bool := false
  lands : Bool := false
  onChain : Option TradeOnChain := none
  uuid : String := ""

def proofKey (uuid : String) (ext : Ext) : String := "proofs/" ++ uuid ++ "." ++ ext.text

def updated {V : Type} (f : Pid → V) (pid : Pid) (v : V) : Pid → V := fun q => if q = pid then v else f q

/-- The object store after a call that puts, or removes, an object. -/
def stores (v : Depot) (key : String) (stored : Option Stored) (o : Choice) : Depot :=
  { v with
    objects := fun k =>
      if k = key then if o.fails ∧ ¬ o.lands then v.objects k else stored else v.objects k
    storageErrors := v.storageErrors || o.fails }

/-- Another order of the same provider with the same reference. -/
def clashes (v : Depot) (rrn : Option String) (lpId : Option LpId) (id : OrderId) : Bool :=
  v.orders.entries.any fun e => e.1 ≠ id && e.2.proof.proofRrn = rrn && e.2.order.lpId = lpId

def claimable (v : Depot) (id : OrderId) (previousProofUrl : Option String) : Option Row :=
  (v.orders.lookup id).filter fun row =>
    row.order.status = .funded && row.proof.proofUrl = previousProofUrl

def runClaim (pid : Pid) (id : OrderId) (previousProofUrl : Option String) (data : Proof)
    (v : Depot) : Depot × Claimed :=
  match claimable v id previousProofUrl with
  | none => (v, .count 0)
  | some row =>
    if data.proofRrn.isSome && row.order.lpId.isSome && clashes v data.proofRrn row.order.lpId id then
      (v, .threw true)
    else
      ({ v with
          orders := v.orders.insert id { row with proof := data }
          wrote := updated v.wrote pid true }, .count 1)

def runRefresh (id : OrderId) (a : Advance) (stamps : Bool) (v : Depot) : Depot × ℕ :=
  match v.orders.lookup id with
  | none => (v, 0)
  | some row =>
    match (RowWrite.refresh a stamps).run v.now row.order with
    | none => (v, 0)
    | some order => ({ v with orders := v.orders.insert id { row with order } }, 1)

def effect (pid : Pid) (e : Effect) (o : Choice) (v : Depot) : Depot × Reply e :=
  match e with
  | .findOrder id =>
    (v, if o.fails then none else
      some ((v.orders.lookup id).map fun row => (row, row.order.lpId.bind v.lps)))
  | .getTradeStatus _ _ => (v, o.onChain)
  | .refresh id a stamps =>
    if o.fails then (v, none) else ((runRefresh id a stamps v).1, some (runRefresh id a stamps v).2)
  | .clock => (v, v.now)
  | .findClash rrn lpId id => (v, if o.fails then none else some (clashes v (some rrn) lpId id))
  | .newProofKey ext =>
    ({ v with issued := proofKey o.uuid ext :: v.issued }, proofKey o.uuid ext)
  | .putObject key buffer contentType id =>
    (stores v key (some ⟨buffer, contentType, some id⟩) o, !o.fails)
  | .removeObject key => (stores v key none o, ())
  | .claim id previousProofUrl data =>
    if o.fails then (v, .threw false) else runClaim pid id previousProofUrl data v
  | .reread id =>
    if o.fails then ({ v with unread := updated v.unread pid true }, none)
    else ({ v with unread := updated v.unread pid (v.orders.lookup id).isNone }, some (v.orders.lookup id))
  | .answer _ => (v, ())

structure Call where
  id : OrderId
  caller : Address
  file : Option UploadedFile
  dto : UploadProofDto

/-- What everybody else does: the clock, the providers, and any change of an order
row that leaves the proof alone. A row starts without one. -/
inductive Move where
  | tick (now : ℕ)
  | setLp (id : LpId) (address : Option Address)
  | edit (id : OrderId) (order : Order)

def moved (v : Depot) : Move → Depot
  | .tick now => { v with now }
  | .setLp id address => { v with lps := fun i => if i = id then address else v.lps i }
  | .edit id order =>
    { v with orders := v.orders.insert id ⟨order, ((v.orders.lookup id).map (·.proof)).getD {}⟩ }

variable (home : Address) (dateOf : String → Option ℤ)

def body (c : Call) : Program Effect Reply Unit :=
  (uploadProof home dateOf c.id c.caller c.file c.dto).run >>= fun r => .step (.answer r) .pure

def Permits (e : Effect) (o : Choice) (v : Depot) : Prop :=
  match e with
  | .newProofKey ext => proofKey o.uuid ext ∉ v.issued
  | _ => True

instance (e : Effect) (o : Choice) (v : Depot) : Decidable (Permits e o v) := by
  cases e <;> unfold Permits <;> infer_instance

def uploads : System Call Choice Move Effect Reply Depot where
  body := body home dateOf
  delivers _ _ := True
  permits _ := Permits
  effect := effect
  dies pid v :=
    { v with wrote := updated v.wrote pid false, unread := updated v.unread pid false }
  moves _ _ := True
  moved := moved

end Lolipay.Coordinator.Uploads
