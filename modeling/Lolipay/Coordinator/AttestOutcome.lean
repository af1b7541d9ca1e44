import Lolipay.Async.Polling
import Lolipay.Coordinator.Signing
import Lolipay.Coordinator.Services

namespace Lolipay.Coordinator.AttestOutcome

open Lolipay.Ledger.Invocation Lolipay.Async.Polling
open Lolipay.Escrow.Types hiding Config
open Lolipay.Coordinator.Orders Lolipay.Coordinator.Services
open Lolipay.Coordinator.Signing (ScVal)

inductive Http where
  | notFound
  | badRequest
  | conflict
  | serviceUnavailable
  | internalServerError
  | badGateway
  deriving DecidableEq, Repr

inductive Thrown where
  | http (kind : Http) (message : String)
  | plain (message : String)
  deriving DecidableEq, Repr

def Thrown.message : Thrown → String
  | .http _ message | .plain message => message

structure Invocation where
  contractId : Address
  functionName : String
  args : List ScVal
  deriving DecidableEq, Repr

/-- An authorisation entry: that of the source account for a call, or another one. -/
inductive AuthEntry where
  | sourceAccount (call : Invocation)
  | other (xdr : String)
  deriving DecidableEq, Repr

inductive HostFunction where
  | invokeContract (call : Invocation)
  | other (type : String)
  deriving DecidableEq, Repr

inductive Operation where
  | invokeHostFunction (func : HostFunction) (auth : List AuthEntry)
  | other (type : String)
  deriving DecidableEq, Repr

structure Tx where
  fee : ℕ
  operations : List Operation
  deriving DecidableEq, Repr

/-- The settings, the key of the attestor, and how addresses and ids are printed. -/
structure Config where
  escrowContractId : Address
  escrowContractIdsExtra : List Address
  attestorKey : Option Address
  addressText : Address → String
  tradeText : TradeId → String

def maxAttestFeeStroops : ℕ := 10000000

structure AttestationBinding where
  contractId : Address
  tradeIdHex : TradeId
  attestor : Address

def refusal (why : String) : Thrown := .plain ("AttestorService: refused to sign — " ++ why)

/-- An argument of another kind, which the contract does not take, throws. -/
def tradeIdArg : ScVal → Except Thrown TradeId
  | .bytes tradeId => .ok tradeId
  | _ => .error (.plain "the first argument is no array of bytes")

def callerArg : ScVal → Except Thrown Address
  | .address caller => .ok caller
  | _ => .error (.plain "Unsupported address type")

def checkAuth (call : Invocation) : List AuthEntry → Except Thrown Unit
  | [] => .ok ()
  | [entry] =>
    if entry = .sourceAccount call then .ok ()
    else .error (refusal "the authorisation entry is not the one this call implies")
  | auth =>
    .error (refusal ("expected at most 1 authorisation entry, got " ++ toString auth.length))

def checkArgs (x : Config) (expected : AttestationBinding) : List ScVal → Except Thrown Unit
  | [first, second] => do
    let tradeIdHex ← tradeIdArg first
    if tradeIdHex ≠ expected.tradeIdHex then
      .error (refusal ("expected trade " ++ x.tradeText expected.tradeIdHex ++ ", got " ++
        x.tradeText tradeIdHex))
    else do
      let caller ← callerArg second
      if caller ≠ expected.attestor then
        .error (refusal ("expected caller " ++ x.addressText expected.attestor ++ ", got " ++
          x.addressText caller))
      else .ok ()
  | args => .error (refusal ("expected 2 arguments to mark_fiat_paid, got " ++ toString args.length))

def checkCall (x : Config) (expected : AttestationBinding) (call : Invocation)
    (auth : List AuthEntry) : Except Thrown Unit :=
  if call.functionName ≠ "mark_fiat_paid" then
    .error (refusal ("expected function \"mark_fiat_paid\", got \"" ++ call.functionName ++ "\""))
  else if call.contractId ≠ expected.contractId then
    .error (refusal ("expected contract " ++ x.addressText expected.contractId ++ ", got " ++
      x.addressText call.contractId))
  else do
    checkArgs x expected call.args
    checkAuth call auth

def assertIsThisTradesAttestation (x : Config) (tx : Tx) (expected : AttestationBinding) :
    Except Thrown Unit :=
  match tx.operations with
  | [op] =>
    if maxAttestFeeStroops < tx.fee then
      .error (refusal ("expected a fee at or under " ++ toString maxAttestFeeStroops ++
        " stroops, got " ++ toString tx.fee))
    else
      match op with
      | .other type =>
        .error (refusal ("expected an invokeHostFunction operation, got \"" ++ type ++ "\""))
      | .invokeHostFunction (.other _) _ =>
        .error (refusal "expected the host function to invoke a contract")
      | .invokeHostFunction (.invokeContract call) auth => checkCall x expected call auth
  | ops => .error (refusal ("expected exactly 1 operation, got " ++ toString ops.length))

inductive SendStatus where
  | pending
  | duplicate
  | tryAgainLater
  | error (code : Option String)
  deriving DecidableEq, Repr

def SendStatus.text : SendStatus → String
  | .pending => "PENDING"
  | .duplicate => "DUPLICATE"
  | .tryAgainLater => "TRY_AGAIN_LATER"
  | .error _ => "ERROR"

inductive GetStatus where
  | success
  | failed
  | notFound
  deriving DecidableEq, Repr

/-- What becomes of the signed transaction: the network never takes it in, or does,
and then applies it, with or without success, or never comes to that. -/
inductive Fate where
  | never
  | taken (applied : Option Bool)
  deriving DecidableEq, Repr

def Fate.accepted : Fate → Bool
  | .never => false
  | .taken _ => true

def Fate.takesEffect : Fate → Bool
  | .taken (some true) => true
  | _ => false

/-- What one call meets: the replies of the database, of the chain and of the network,
with the message of an error, what the clock says when it is read, and what becomes of
the transaction, which nobody tells. -/
structure World where
  findOrder : Except String (Option Order)
  confirmed : Bool
  readEscrowFiatAttestor : Except String Address
  submitsAt : ℕ
  buildMarkFiatPaidTx : Except String Tx
  sendTransaction : Except String (SendStatus × String)
  pollsFrom : ℕ
  pollsAt : ℕ → ℕ
  getTransaction : ℕ → Except String GetStatus
  recordAudit : Except String Unit
  updateMany : Except String ℕ
  fate : Fate

variable (x : Config) (w : World)

def pollTimeoutMs : ℕ := 30000

inductive FinalStatus where
  | success
  | failed
  deriving DecidableEq, Repr

/-- The loop over the rounds; `none` is one that is still at it. -/
def pollTransaction (label hash : String) : ℕ → ℕ → Bool → Option (Except Thrown FinalStatus)
  | 0, _, _ => none
  | fuel + 1, round, usedTransientRetry =>
    if w.pollsAt round < w.pollsFrom + pollTimeoutMs then
      match w.getTransaction round with
      | .error msg =>
        if usedTransientRetry then
          some (.error (.plain (label ++ ": getTransaction failed for hash=" ++ hash ++ ": " ++ msg)))
        else pollTransaction label hash fuel (round + 1) true
      | .ok .success => some (.ok .success)
      | .ok .failed => some (.ok .failed)
      | .ok .notFound => pollTransaction label hash fuel (round + 1) usedTransientRetry
    else some (.error (.plain (label ++ ": getTransaction poll timed out for hash=" ++ hash)))

def rejected (label hash : String) (code : Option String) : Thrown :=
  .plain (label ++ ": sendTransaction rejected (hash=" ++ hash ++
    (code.map fun code => ", " ++ code).getD "" ++
    (if code = some "txTooLate" then "; the transaction window has closed" else "") ++ ")")

def signSendAndPoll (label : String) (fuel : ℕ) : Option (Except Thrown (FinalStatus × String)) :=
  match w.sendTransaction with
  | .error msg => some (.error (.plain (label ++ ": sendTransaction failed: " ++ msg)))
  | .ok (.error code, hash) => some (.error (rejected label hash code))
  | .ok (_, hash) =>
    (pollTransaction w label hash fuel 0 false).map fun result => result.map fun status => (status, hash)

def knownContracts : List Address := x.escrowContractId :: x.escrowContractIdsExtra

def assertIsTheChainsAttestor (contractId held : Address) : Except Thrown Unit :=
  if w.confirmed then .ok ()
  else
    match w.readEscrowFiatAttestor with
    | .error msg => .error (.plain msg)
    | .ok onChain =>
      if onChain ≠ held then
        .error (.plain ("AttestorService: this key is not the attestor " ++ x.addressText contractId ++
          " names — it names " ++ x.addressText onChain ++ ", and that is immutable"))
      else .ok ()

/-- Everything before the transaction is signed: the checks of `attest`, and what
`submitInTurn` does before it sends. -/
def prepare (contractId : Address) (tradeIdHex : TradeId) (notAfterSecs : ℤ) : Except Thrown Tx := do
  let key ← match x.attestorKey with
    | none => .error (.http .serviceUnavailable
        "this anchor cannot attest deposits right now: no attestor key is configured")
    | some key => .ok key
  if contractId ∉ knownContracts x then
    .error (.plain ("AttestorService: " ++ x.addressText contractId ++
      " is not an escrow this anchor recognises, so nothing it says about itself can be trusted"))
  else do
    assertIsTheChainsAttestor x w contractId key
    if notAfterSecs < (w.submitsAt / 1000 : ℕ) then
      .error (.http .conflict
        "The time to confirm this payment has passed, so it can no longer be confirmed, and nothing was sent to the network.")
    else do
      let tx ← w.buildMarkFiatPaidTx.mapError Thrown.plain
      assertIsThisTradesAttestation x tx ⟨contractId, tradeIdHex, key⟩
      .ok tx

/-- The transaction that was signed, if it came to that, and how the attempt ended. -/
def attest (fuel : ℕ) (contractId : Address) (tradeIdHex : TradeId) (notAfterSecs : ℤ) :
    Option (Option Tx × Except Thrown (FinalStatus × String)) :=
  match prepare x w contractId tradeIdHex notAfterSecs with
  | .error thrown => some (none, .error thrown)
  | .ok tx => (signSendAndPoll w "AttestorService" fuel).map fun result => (some tx, result)

inductive Submission where
  | success
  | failed
  | notSubmitted
  deriving DecidableEq, Repr

def Submission.text : Submission → String
  | .success => "SUCCESS"
  | .failed => "FAILED"
  | .notSubmitted => "NOT_SUBMITTED"

structure Outcome where
  submission : Submission
  txHash : Option String := none
  error : Option String := none
  deriving DecidableEq, Repr

def outcomeOf : Except Thrown (FinalStatus × String) → Outcome
  | .ok (.success, hash) => { submission := .success, txHash := some hash }
  | .ok (.failed, hash) => { submission := .failed, txHash := some hash }
  | .error thrown => { submission := .notSubmitted, error := some thrown.message }

variable {Ev : Type}

/-- The row of the audit trail; action and target are those of an attestation. -/
structure AuditRow (Ev : Type) where
  actorAddress : Address
  targetId : OrderId
  status : OrderStatus
  contractId : Address
  tradeId : TradeId
  evidence : Ev
  outcome : Outcome

structure Attested where
  orderId : OrderId
  submission : Submission
  txHash : Option String
  deriving DecidableEq, Repr

/-- What a call leaves: the transaction that it signed, the row that it recorded, and
what it answers. -/
structure Report (Ev : Type) where
  signed : Option Tx := none
  recorded : Option (AuditRow Ev) := none
  answer : Except Thrown Attested

def notSubmittedMessage (recorded : Bool) (error : String) : String :=
  (if recorded then "this attestation was not submitted, and the attempt is recorded: "
    else "this attestation was not submitted, and the attempt could not be recorded either: ") ++ error

def refusedMessage (submission : Submission) (txHash : String) : String :=
  "the chain refused this attestation (" ++ submission.text ++ ", tx " ++ txHash ++
    ") — the deposit is still FUNDED"

def statusText : OrderStatus → String
  | .created => "CREATED"
  | .matched => "MATCHED"
  | .awaitingOnchain => "AWAITING_ONCHAIN"
  | .funded => "FUNDED"
  | .fiatPaid => "FIAT_PAID"
  | .released => "RELEASED"
  | .refunded => "REFUNDED"
  | .disputed => "DISPUTED"
  | .expired => "EXPIRED"
  | .cancelled => "CANCELLED"

def answerTo (id : OrderId) (recorded : Bool) (result : Except Thrown (FinalStatus × String)) :
    Except Thrown Attested :=
  match result with
  | .error (.http kind message) => .error (.http kind message)
  | .error (.plain message) =>
    .error (.http .internalServerError (notSubmittedMessage recorded message))
  | .ok (.failed, hash) => .error (.http .badGateway (refusedMessage .failed hash))
  | .ok (.success, hash) => do
    let _ ← w.updateMany.mapError Thrown.plain
    .ok ⟨id, .success, some hash⟩

def attestOrder (fuel : ℕ) (id : OrderId) (order : Order) (actorAddress : Address) (evidence : Ev) :
    Option (Report Ev) :=
  let contractId := contractIdFor order.toPlacement x.escrowContractId
  (attest x w fuel contractId order.tradeId (refundOpensAt order.toOrderBindingFields)).map
    fun (signed, result) =>
      let row : AuditRow Ev := ⟨actorAddress, id, order.status, contractId, order.tradeId, evidence,
        outcomeOf result⟩
      { signed
        recorded := w.recordAudit.toOption.map fun _ => row
        answer := answerTo w id w.recordAudit.isOk result }

/-- `none` is a call that has not come to an answer. -/
def attestFiatPaidOnce (fuel : ℕ) (id : OrderId) (actorAddress : Address) (evidence : Ev) :
    Option (Report Ev) :=
  match w.findOrder with
  | .error msg => some { answer := .error (.plain msg) }
  | .ok none => some { answer := .error (.http .notFound "no such order") }
  | .ok (some order) =>
    if order.flow ≠ .topUp then
      some { answer := .error (.http .badRequest
        "only a top-up is attested by this anchor — on any other flow the fiat is sent by the provider, who marks it themselves") }
    else if order.status ≠ .funded then
      some { answer := .error (.http .conflict
        ("this order is " ++ statusText order.status ++ "; only a FUNDED top-up can be attested")) }
    else attestOrder x w fuel id order actorAddress evidence

def watch : Watch FinalStatus String where
  mayAsk round := w.pollsAt round < w.pollsFrom + pollTimeoutMs
  hears round :=
    match w.getTransaction round with
    | .error msg => .error msg
    | .ok .success => .answer .success
    | .ok .failed => .answer .failed
    | .ok .notFound => .pending

def ending (label hash : String) :
    Async.Polling.Outcome FinalStatus String → Except Thrown FinalStatus
  | .answered status => .ok status
  | .failed msg =>
    .error (.plain (label ++ ": getTransaction failed for hash=" ++ hash ++ ": " ++ msg))
  | .timedOut => .error (.plain (label ++ ": getTransaction poll timed out for hash=" ++ hash))

/-- The loop is a poll that can spare one error. -/
theorem pollTransaction_eq (label hash : String) (fuel round : ℕ) (used : Bool) :
    pollTransaction w label hash fuel round used =
      (poll ((watch w).drop round) fuel (if used then 0 else 1)).map (ending label hash) := by
  induction fuel generalizing round used with
  | zero => rfl
  | succ fuel ih =>
    unfold pollTransaction poll
    have hdrop : ((watch w).drop round).drop 1 = (watch w).drop (round + 1) := drop_drop _ _ _
    by_cases hask : w.pollsAt round < w.pollsFrom + pollTimeoutMs
    · have hmay : ((watch w).drop round).mayAsk 0 = true := decide_eq_true hask
      rw [if_pos hask, if_pos hmay]
      cases hget : w.getTransaction round with
      | error msg =>
        have hround : ((watch w).drop round).hears 0 = .error msg := by
          simp [Watch.drop, watch, hget]
        rw [hround]
        cases used with
        | true => rfl
        | false => exact (ih _ _).trans (by rw [← hdrop]; rfl)
      | ok status =>
        cases status with
        | success =>
          have hround : ((watch w).drop round).hears 0 = .answer .success := by
            simp [Watch.drop, watch, hget]
          rw [hround]
          rfl
        | failed =>
          have hround : ((watch w).drop round).hears 0 = .answer .failed := by
            simp [Watch.drop, watch, hget]
          rw [hround]
          rfl
        | notFound =>
          have hround : ((watch w).drop round).hears 0 = .pending := by
            simp [Watch.drop, watch, hget]
          rw [hround]
          exact (ih _ _).trans (by rw [← hdrop])
    · have hmay : ¬ ((watch w).drop round).mayAsk 0 = true := by simpa [Watch.drop, watch] using hask
      rw [if_neg hask, if_neg hmay]
      rfl

/-- What the network says is true, and time passes. -/
structure Truthful : Prop where
  rejected : ∀ code hash, w.sendTransaction = .ok (.error code, hash) → w.fate = .never
  failed : ∀ round, w.getTransaction round = .ok .failed → w.fate = .taken (some false)
  passes : ∀ t, ∃ round, t ≤ w.pollsAt round

/-- The submission is answered, and one of the rounds then brings a final status: in
time, and with at most one error before. -/
structure Settles : Prop where
  sent : ∃ status hash, w.sendTransaction = .ok (status, hash)
  answers : ∃ status n, Answers (watch w) 1 status n

variable {w} {label hash : String} {fuel : ℕ}

theorem poll_error_iff (hw : Truthful w) :
    (∃ fuel thrown, pollTransaction w label hash fuel 0 false = some (.error thrown)) ↔
      ¬ ∃ status n, Answers (watch w) 1 status n := by
  have heq (fuel : ℕ) : pollTransaction w label hash fuel 0 false =
      (poll (watch w) fuel 1).map (ending label hash) := by
    rw [pollTransaction_eq]
    simp [Watch.drop]
  constructor
  · rintro ⟨fuel, thrown, herror⟩ ⟨status, n, hanswers⟩
    rw [heq] at herror
    obtain ⟨outcome, houtcome, hending⟩ := Option.map_eq_some_iff.mp herror
    rw [poll_unique houtcome (poll_of_answers hanswers)] at hending
    cases hending
  · intro hno
    obtain ⟨n, hn⟩ := hw.passes (w.pollsFrom + pollTimeoutMs)
    have hclosed : (watch w).mayAsk n = false := decide_eq_false (Nat.not_lt.mpr hn)
    have hends : ∃ outcome, poll (watch w) (n + 1) 1 = some outcome := poll_ends hclosed
    obtain ⟨outcome, houtcome⟩ := hends
    refine ⟨n + 1, ?_⟩
    rw [heq, houtcome]
    cases outcome with
    | answered status => exact absurd ⟨status, answers_of_poll houtcome⟩ hno
    | failed msg => exact ⟨_, rfl⟩
    | timedOut => exact ⟨_, rfl⟩

theorem signSendAndPoll_error_iff (hw : Truthful w) (haccepted : w.fate.accepted = true) :
    (∃ fuel thrown, signSendAndPoll w label fuel = some (.error thrown)) ↔ ¬ Settles w := by
  cases hsend : w.sendTransaction with
  | error msg =>
    refine iff_of_true ⟨0, _, by rw [signSendAndPoll, hsend]⟩ fun hsettles => ?_
    obtain ⟨status, hash, hsent⟩ := hsettles.sent
    cases hsend.symm.trans hsent
  | ok reply =>
    obtain ⟨status, hash⟩ := reply
    have herror (code : Option String) : status ≠ .error code := by
      rintro rfl
      rw [hw.rejected code hash hsend] at haccepted
      cases haccepted
    have hpoll (fuel : ℕ) : signSendAndPoll w label fuel =
        (pollTransaction w label hash fuel 0 false).map fun result =>
          result.map fun final => (final, hash) := by
      rw [signSendAndPoll, hsend]
      cases status with
      | error code => exact absurd rfl (herror code)
      | pending | duplicate | tryAgainLater => rfl
    have hiff : (∃ fuel thrown, signSendAndPoll w label fuel = some (.error thrown)) ↔
        ∃ fuel thrown, pollTransaction w label hash fuel 0 false = some (.error thrown) := by
      refine exists_congr fun fuel => exists_congr fun thrown => ?_
      rw [hpoll]
      cases pollTransaction w label hash fuel 0 false with
      | none => simp
      | some result => cases result <;> simp [Except.map]
    rw [hiff, poll_error_iff hw]
    exact not_congr ⟨fun h => ⟨⟨status, hash, hsend⟩, h⟩, fun h => h.answers⟩

theorem plain_of_signSendAndPoll {thrown : Thrown}
    (h : signSendAndPoll w label fuel = some (.error thrown)) : ∃ message, thrown = .plain message := by
  unfold signSendAndPoll at h
  split at h
  next => exact ⟨_, (Except.error.inj (Option.some.inj h)).symm⟩
  next => exact ⟨_, (Except.error.inj (Option.some.inj h)).symm⟩
  next =>
    rw [pollTransaction_eq] at h
    obtain ⟨result, hresult, hmap⟩ := Option.map_eq_some_iff.mp h
    obtain ⟨outcome, -, rfl⟩ := Option.map_eq_some_iff.mp hresult
    cases outcome with
    | answered status => cases hmap
    | failed msg => exact ⟨_, (Except.error.inj hmap).symm⟩
    | timedOut => exact ⟨_, (Except.error.inj hmap).symm⟩

theorem failed_of_signSendAndPoll (hw : Truthful w) {hash : String}
    (h : signSendAndPoll w label fuel = some (.ok (.failed, hash))) :
    w.fate = .taken (some false) := by
  unfold signSendAndPoll at h
  split at h
  next => cases h
  next => cases h
  next =>
    rw [pollTransaction_eq] at h
    obtain ⟨result, hresult, hmap⟩ := Option.map_eq_some_iff.mp h
    obtain ⟨outcome, houtcome, rfl⟩ := Option.map_eq_some_iff.mp hresult
    cases outcome with
    | failed | timedOut => cases hmap
    | answered status =>
      obtain ⟨rfl, -⟩ := Prod.mk.inj (Except.ok.inj hmap)
      obtain ⟨n, hn⟩ := answers_of_poll houtcome
      have hhears := hn.answer
      simp only [Watch.drop, watch] at hhears
      split at hhears
      next => cases hhears
      next => cases hhears
      next hget => exact hw.failed _ hget
      next => cases hhears

/-- A call that comes to sign: the order is one to attest, and all checks pass. -/
structure Ready (x : Config) (w : World) (order : Order) (key : Address) (tx : Tx) : Prop where
  found : w.findOrder = .ok (some order)
  flow : order.flow = .topUp
  status : order.status = .funded
  holds : x.attestorKey = some key
  known : contractIdFor order.toPlacement x.escrowContractId ∈ knownContracts x
  attestor : w.confirmed = true ∨ w.readEscrowFiatAttestor = .ok key
  inTime : ((w.submitsAt / 1000 : ℕ) : ℤ) ≤ refundOpensAt order.toOrderBindingFields
  built : w.buildMarkFiatPaidTx = .ok tx
  guarded : assertIsThisTradesAttestation x tx
    ⟨contractIdFor order.toPlacement x.escrowContractId, order.tradeId, key⟩ = .ok ()

variable {x} {order : Order} {key : Address} {tx : Tx} {contractId : Address} {tradeIdHex : TradeId}
  {notAfterSecs : ℤ}

theorem assertIsTheChainsAttestor_ok_iff (x : Config) (contractId : Address) {held : Address} :
    assertIsTheChainsAttestor x w contractId held = .ok () ↔
      w.confirmed = true ∨ w.readEscrowFiatAttestor = .ok held := by
  unfold assertIsTheChainsAttestor
  split
  next h => simp [h]
  next h =>
    split
    next msg heq => simp [h, heq]
    next onChain heq =>
      by_cases hheld : onChain = held
      · simp [hheld, heq]
      · simp [hheld, h, heq]

theorem prepare_ok_iff : prepare x w contractId tradeIdHex notAfterSecs = .ok tx ↔
    ∃ key, x.attestorKey = some key ∧ contractId ∈ knownContracts x ∧
      (w.confirmed = true ∨ w.readEscrowFiatAttestor = .ok key) ∧
      ((w.submitsAt / 1000 : ℕ) : ℤ) ≤ notAfterSecs ∧ w.buildMarkFiatPaidTx = .ok tx ∧
      assertIsThisTradesAttestation x tx ⟨contractId, tradeIdHex, key⟩ = .ok () := by
  unfold prepare
  cases hkey : x.attestorKey with
  | none => simp [bind, Except.bind]
  | some key =>
    simp only [Option.some.injEq, exists_eq_left', bind, Except.bind]
    by_cases hknown : contractId ∈ knownContracts x
    · rw [if_neg (not_not.mpr hknown), ← assertIsTheChainsAttestor_ok_iff x contractId]
      cases assertIsTheChainsAttestor x w contractId key with
      | error thrown => simp
      | ok _ =>
        by_cases htime : notAfterSecs < (w.submitsAt / 1000 : ℕ)
        · simp only [htime, if_true, reduceCtorEq, false_iff]
          rintro ⟨-, -, hle, -⟩
          exact absurd htime (Int.not_lt.mpr hle)
        · simp only [htime, if_false, hknown, true_and, Int.not_lt.mp htime]
          cases w.buildMarkFiatPaidTx with
          | error msg => simp [Except.mapError]
          | ok built =>
            simp only [Except.mapError]
            cases hguard : assertIsThisTradesAttestation x built ⟨contractId, tradeIdHex, key⟩ with
            | error thrown =>
              simp only [reduceCtorEq, Except.ok.injEq, false_iff]
              rintro ⟨rfl, hok⟩
              cases hguard.symm.trans hok
            | ok _ =>
              simp only [Except.ok.injEq]
              refine ⟨?_, fun h => h.1⟩
              rintro rfl
              exact ⟨rfl, hguard⟩
    · simp [hknown]

variable {Ev : Type} {id : OrderId} {actor : Address} {evidence : Ev} {r : Report Ev}

def reportOf (x : Config) (w : World) (id : OrderId) (order : Order) (actor : Address)
    (evidence : Ev) (tx : Tx) (result : Except Thrown (FinalStatus × String)) : Report Ev where
  signed := some tx
  recorded := w.recordAudit.toOption.map fun _ =>
    ⟨actor, id, order.status, contractIdFor order.toPlacement x.escrowContractId, order.tradeId,
      evidence, outcomeOf result⟩
  answer := answerTo w id w.recordAudit.isOk result

theorem attest_of_ready (h : Ready x w order key tx) :
    attestFiatPaidOnce x w fuel id actor evidence =
      (signSendAndPoll w "AttestorService" fuel).map
        (reportOf x w id order actor evidence tx) := by
  have hprepare : prepare x w (contractIdFor order.toPlacement x.escrowContractId) order.tradeId
      (refundOpensAt order.toOrderBindingFields) = .ok tx :=
    prepare_ok_iff.mpr ⟨key, h.holds, h.known, h.attestor, h.inTime, h.built, h.guarded⟩
  rw [attestFiatPaidOnce, h.found]
  simp only [h.flow, h.status, ne_eq, not_true_eq_false, if_false]
  rw [attestOrder, attest, hprepare, Option.map_map]
  rfl

theorem ready_of_signed (h : attestFiatPaidOnce x w fuel id actor evidence = some r)
    (hsigned : r.signed = some tx) : ∃ order key, Ready x w order key tx := by
  unfold attestFiatPaidOnce at h
  split at h
  next =>
    obtain rfl := Option.some.inj h
    cases hsigned
  next =>
    obtain rfl := Option.some.inj h
    cases hsigned
  next order hfound =>
    split_ifs at h with hflow hstatus
    · obtain rfl := Option.some.inj h
      cases hsigned
    · obtain rfl := Option.some.inj h
      cases hsigned
    · rw [attestOrder, attest] at h
      cases hprepare : prepare x w (contractIdFor order.toPlacement x.escrowContractId) order.tradeId
          (refundOpensAt order.toOrderBindingFields) with
      | error thrown =>
        rw [hprepare] at h
        obtain rfl := Option.some.inj h
        cases hsigned
      | ok tx' =>
        rw [hprepare, Option.map_map] at h
        obtain ⟨result, -, rfl⟩ := Option.map_eq_some_iff.mp h
        obtain rfl := Option.some.inj hsigned
        obtain ⟨key, hkey, hknown, hattestor, htime, hbuilt, hguard⟩ := prepare_ok_iff.mp hprepare
        exact ⟨order, key, hfound, not_not.mp hflow, not_not.mp hstatus, hkey, hknown, hattestor,
          htime, hbuilt, hguard⟩

/-- The audit trail says that nothing was submitted, or the answer does. -/
def SaysNotSubmitted (r : Report Ev) : Prop :=
  (∃ row, r.recorded = some row ∧ row.outcome.submission = .notSubmitted) ∨
    ∃ recorded error, r.answer =
      .error (.http .internalServerError (notSubmittedMessage recorded error))

/-- The answer says that the chain has refused, and the deposit is still funded. -/
def SaysRefused (r : Report Ev) : Prop :=
  ∃ submission hash, r.answer = .error (.http .badGateway (refusedMessage submission hash))

/-- What a report says is so. -/
structure Honest (w : World) (r : Report Ev) : Prop where
  notSubmitted : SaysNotSubmitted r → ∀ tx, r.signed = some tx → w.fate.accepted = false
  refused : SaysRefused r → ∀ tx, r.signed = some tx → w.fate.takesEffect = false

theorem saysNotSubmitted_iff {result : Except Thrown (FinalStatus × String)}
    (hplain : ∀ thrown, result = .error thrown → ∃ message, thrown = .plain message) :
    SaysNotSubmitted (reportOf x w id order actor evidence tx result) ↔
      ∃ thrown, result = .error thrown := by
  match result with
  | .error thrown =>
    obtain ⟨message, rfl⟩ := hplain thrown rfl
    exact iff_of_true (.inr ⟨_, _, rfl⟩) ⟨_, rfl⟩
  | .ok (.failed, hash) =>
    refine iff_of_false ?_ (by simp)
    rintro (⟨row, hrow, hsubmission⟩ | ⟨recorded, error, heq⟩)
    · obtain ⟨_, -, rfl⟩ := Option.map_eq_some_iff.mp hrow
      cases hsubmission
    · cases heq
  | .ok (.success, hash) =>
    refine iff_of_false ?_ (by simp)
    rintro (⟨row, hrow, hsubmission⟩ | ⟨recorded, error, heq⟩)
    · obtain ⟨_, -, rfl⟩ := Option.map_eq_some_iff.mp hrow
      cases hsubmission
    · simp only [reportOf, answerTo] at heq
      cases hupdate : w.updateMany <;> rw [hupdate] at heq <;> cases heq

theorem of_saysRefused {result : Except Thrown (FinalStatus × String)}
    (hplain : ∀ thrown, result = .error thrown → ∃ message, thrown = .plain message)
    (h : SaysRefused (reportOf x w id order actor evidence tx result)) :
    ∃ hash, result = .ok (.failed, hash) := by
  obtain ⟨submission, hash', heq⟩ := h
  match result with
  | .error thrown =>
    obtain ⟨message, rfl⟩ := hplain thrown rfl
    cases heq
  | .ok (.failed, hash) => exact ⟨hash, rfl⟩
  | .ok (.success, hash) =>
    simp only [reportOf, answerTo] at heq
    cases hupdate : w.updateMany <;> rw [hupdate] at heq <;> cases heq

/-- The report of a submission is honest unless it says of an accepted transaction that
it was not submitted. -/
theorem honest_report_iff (hw : Truthful w) {result : Except Thrown (FinalStatus × String)}
    (hresult : signSendAndPoll w "AttestorService" fuel = some result) :
    Honest w (reportOf x w id order actor evidence tx result) ↔
      ((∃ thrown, result = .error thrown) → w.fate.accepted = false) := by
  have hplain : ∀ thrown, result = .error thrown → ∃ message, thrown = .plain message := by
    rintro thrown rfl
    exact plain_of_signSendAndPoll hresult
  constructor
  · intro h herror
    exact h.notSubmitted ((saysNotSubmitted_iff hplain).mpr herror) tx rfl
  · intro h
    refine ⟨fun hsays tx' _ => h ((saysNotSubmitted_iff hplain).mp hsays), fun hsays tx' _ => ?_⟩
    obtain ⟨hash, rfl⟩ := of_saysRefused hplain hsays
    rw [failed_of_signSendAndPoll hw hresult]
    rfl

/-- A call tells the truth about its transaction, however long it takes, exactly if it
does not come to sign one that the network takes in without the network saying so in time. -/
theorem outcome_honest_iff (hw : Truthful w) :
    (∀ fuel r, attestFiatPaidOnce x w fuel id actor evidence = some r → Honest w r) ↔
      ((∃ order key tx, Ready x w order key tx) → w.fate.accepted = true → Settles w) := by
  constructor
  · rintro h ⟨order, key, tx, hready⟩ haccepted
    by_contra hsettles
    obtain ⟨fuel, thrown, herror⟩ := (signSendAndPoll_error_iff hw haccepted).mpr hsettles
    have hhonest := h fuel _ ((attest_of_ready hready).trans (congrArg _ herror))
    have hnever := (honest_report_iff hw herror).mp hhonest ⟨thrown, rfl⟩
    cases hnever.symm.trans haccepted
  · intro h fuel r hr
    cases hsigned : r.signed with
    | none =>
      constructor
      · intro _ tx htx
        cases hsigned.symm.trans htx
      · intro _ tx htx
        cases hsigned.symm.trans htx
    | some tx =>
      obtain ⟨order, key, hready⟩ := ready_of_signed hr hsigned
      rw [attest_of_ready hready] at hr
      obtain ⟨result, hresult, rfl⟩ := Option.map_eq_some_iff.mp hr
      apply (honest_report_iff hw hresult).mpr
      rintro ⟨thrown, rfl⟩
      by_contra haccepted
      rw [Bool.not_eq_false] at haccepted
      exact (signSendAndPoll_error_iff hw haccepted).mp ⟨fuel, thrown, hresult⟩
        (h ⟨order, key, tx, hready⟩ haccepted)

section Samples

def sampleConfig : Config where
  escrowContractId := ⟨0⟩
  escrowContractIdsExtra := []
  attestorKey := some ⟨9⟩
  addressText a := toString a.key
  tradeText tradeId := toString tradeId.toNat

def sampleOrder : Order := Desk.samplePlacement.opened.setStatus .funded

def sampleCall : Invocation := ⟨⟨0⟩, "mark_fiat_paid", [.bytes 1, .address ⟨9⟩]⟩

def sampleTx : Tx := ⟨100, [.invokeHostFunction (.invokeContract sampleCall) [.sourceAccount sampleCall]]⟩

/-- A submission that the network takes in and applies; a round takes two seconds. -/
def sampleWorld (getTransaction : ℕ → Except String GetStatus) : World where
  findOrder := .ok (some sampleOrder)
  confirmed := false
  readEscrowFiatAttestor := .ok ⟨9⟩
  submitsAt := 1000000
  buildMarkFiatPaidTx := .ok sampleTx
  sendTransaction := .ok (.pending, "ab")
  pollsFrom := 1000000
  pollsAt round := 1000000 + 2000 * round
  getTransaction := getTransaction
  recordAudit := .ok ()
  updateMany := .ok 1
  fate := .taken (some true)

theorem sampleWorld_truthful {getTransaction : ℕ → Except String GetStatus}
    (h : ∀ round, getTransaction round ≠ .ok .failed) : Truthful (sampleWorld getTransaction) where
  rejected code hash hsend := by cases hsend
  failed round hget := absurd hget (h round)
  passes t := ⟨t, by simp only [sampleWorld]; omega⟩

def sampleRounds (round : ℕ) : Except String GetStatus :=
  if round = 0 then .ok .notFound else .ok .success

theorem sample_outcome_honest : ∃ r,
    attestFiatPaidOnce sampleConfig (sampleWorld sampleRounds) 16 0 ⟨4⟩ "BCA 12345" = some r ∧
      r.signed = some sampleTx ∧ Honest (sampleWorld sampleRounds) r := by
  have htruthful : Truthful (sampleWorld sampleRounds) := by
    apply sampleWorld_truthful
    intro round
    unfold sampleRounds
    split <;> simp
  have hsettles : Settles (sampleWorld sampleRounds) := by
    refine ⟨⟨.pending, "ab", rfl⟩, .success, 1, rfl, by decide, fun round hround status => ?_, by decide⟩
    obtain rfl : round = 0 := by omega
    intro heq
    cases heq
  obtain ⟨r, hr, hsigned⟩ : ∃ r, attestFiatPaidOnce sampleConfig (sampleWorld sampleRounds) 16 0 ⟨4⟩
      "BCA 12345" = some r ∧ r.signed = some sampleTx := ⟨_, rfl, rfl⟩
  exact ⟨r, hr, hsigned, (outcome_honest_iff htruthful).mpr (fun _ _ => hsettles) 16 r hr⟩

/-- The status does not come before the time is up, and then the transaction is applied. -/
theorem accepted_attestation_not_submitted : ∃ fuel r,
    Truthful (sampleWorld fun _ => .ok .notFound) ∧
    attestFiatPaidOnce sampleConfig (sampleWorld fun _ => .ok .notFound) fuel 0 ⟨4⟩ "BCA 12345" =
      some r ∧
    r.signed = some sampleTx ∧ SaysNotSubmitted r ∧
    (sampleWorld fun _ => .ok .notFound).fate.accepted = true := by
  exact ⟨16, _, sampleWorld_truthful (by simp), rfl, rfl, .inl ⟨_, rfl, rfl⟩, rfl⟩

end Samples

end Lolipay.Coordinator.AttestOutcome
