import Lolipay.Async.Stages
import Lolipay.Coordinator.Desk

namespace Lolipay.Coordinator.Submission

open Lolipay.Ledger.Storage Lolipay.Ledger.Invocation Lolipay.Ledger.Runs
open Lolipay.Async.Process Lolipay.Async.Scheduling
open Lolipay.Escrow.Types
open Lolipay.Coordinator.Orders Lolipay.Coordinator.Writes Lolipay.Coordinator.Database
open Lolipay.Coordinator.Services Lolipay.Coordinator.Creation Lolipay.Coordinator.Desk

abbrev TxnId := ℕ

/-- One process of the coordinator, with a memory of its own. -/
abbrev Host := ℕ

structure Sep24Transaction where
  stellarAccount : String
  flow : Flow
  orderId : Option OrderId
  deriving DecidableEq, Repr

/-- `accountOf` takes a muxed account to the account that is behind it. -/
structure Config extends Settings where
  accountOf : String → Address

/-- What the services do for others is `desk`; the creation of an order for a
SEP-24 transaction is `within` it. The rest are the statements of `submitAmount`
itself, its map of running submissions, and the answers of other services. -/
inductive Effect where
  | desk (e : Database.Effect)
  | within (id : TxnId) (e : Database.Effect)
  | enter (host : Host) (id : TxnId)
  | leave (host : Host) (id : TxnId)
  | wait (host : Host) (id : TxnId) (run : Pid)
  | findTransaction (id : TxnId)
  | lookupPerson (account : String)
  | screenFor (id : TxnId)
  | createQuote (user : Address) (flow : Flow) (fiatAmount : ℕ)
  | created
  | link (id : TxnId) (orderId : OrderId) (account : String)
  | undo (orderId : OrderId)

/-- `enter` answers with the run that is already in flight, `findTransaction`
with the row and the status of its order. -/
@[reducible] def Reply : Effect → Type
  | .desk e | .within _ e => Database.Reply e
  | .enter _ _ => Option Pid
  | .leave _ _ | .wait _ _ _ => Unit
  | .findTransaction _ => Option (Sep24Transaction × Option OrderStatus)
  | .lookupPerson _ | .screenFor _ => Bool
  | .createQuote _ _ _ => Option QuoteId
  | .created => OrderId
  | .link _ _ _ | .undo _ => ℕ

abbrev Handler (α : Type) := Program Effect Reply α

variable {α : Type} (x : Config)

/-- The refresh of the linked order; its errors are swallowed. -/
def refreshLinked (row : Sep24Transaction) (status : Option OrderStatus) : Handler Unit :=
  match row.orderId, status with
  | some orderId, some status =>
    if refreshFromChainStatuses.contains status then do
      let full ← (ask (.findOrder orderId)).embed .desk
      match full with
      | none => .pure ()
      | some full =>
        let _ ← ((refreshOrderStatus x.escrowContractId orderId full).embed .desk).caught
        .pure ()
    else .pure ()
  | _, _ => .pure ()

/-- `token` is the account that the token of the page speaks for, if it is good. -/
def interactiveState (id : TxnId) (token : Option String) : Handler Sep24Transaction :=
  match token with
  | none => .fail
  | some account => do
    let found : Option (Sep24Transaction × Option OrderStatus) ← issue (Effect.findTransaction id)
    match found with
    | none => .fail
    | some (row, status) =>
      demand (row.stellarAccount = account)
      let known : Bool ← issue (Effect.lookupPerson row.stellarAccount)
      demand known
      refreshLinked x row status
      .pure row

/-- The order goes to the transaction that it was opened for, unless that has
one by now: then it is taken back, if it is still as it was created. -/
def linkOrUndo (id : TxnId) (row : Sep24Transaction) : Handler Unit := do
  let orderId : OrderId ← issue Effect.created
  let linked : ℕ ← issue (Effect.link id orderId row.stellarAccount)
  if linked = 1 then .pure ()
  else do
    let _ ← issue (Effect.undo orderId)
    .pure ()

/-- `amount` and `destination` are what the form says, once it has passed its checks. -/
def openOrderForAmount (id : TxnId) (token : Option String) (amount : Option ℕ)
    (destination : Option String) : Handler Unit := do
  let row ← interactiveState x id token
  if row.orderId.isSome then .pure ()
  else do
    let atAmount : Bool ← issue (Effect.screenFor id)
    demand atAmount
    match amount with
    | none => .fail
    | some amount =>
      demand (row.flow = .topUp || destination.isSome)
      let user := x.accountOf row.stellarAccount
      let quote : Option QuoteId ← issue (Effect.createQuote user row.flow amount)
      match quote with
      | none => .fail
      | some quoteId =>
        (createFromQuote x.toSettings user quoteId
          (if row.flow = .withdraw then destination else none)).embed (.within id)
        linkOrUndo id row

def submitAmount (host : Host) (id : TxnId) (token : Option String) (amount : Option ℕ)
    (destination : Option String) : Handler Unit := do
  let running : Option Pid ← issue (Effect.enter host id)
  match running with
  | some run =>
    let _ ← interactiveState x id token
    issue (Effect.wait host id run)
  | none => (openOrderForAmount x id token amount destination).ensuring (issue (Effect.leave host id))

/-- The shared tables, the SEP-24 transactions, the map of running submissions
of each process, and the order that a call's creation returns. The rest only
records what has happened: the orders opened for a transaction with the calls
that opened them, who moved an order out of MATCHED, the orders that their
creators cancelled, and those that they could not, with who had moved them. -/
structure Counter where
  shared : Shared
  transactions : TxnId → Option Sep24Transaction
  inFlight : Host → TxnId → Option Pid
  opened : Pid → OrderId
  created : TxnId → List (OrderId × Pid)
  movedBy : OrderId → Option Pid
  cancelled : List (OrderId × Pid)
  late : List (OrderId × Pid × Option Pid)

def isMatched (s : Shared) (id : OrderId) : Bool :=
  (s.db.orders.lookup id).any fun row => row.status = .matched

def Counter.write (v : Counter) (pid : Pid) (s : Shared) : Counter :=
  { v with
    shared := s
    movedBy := fun id =>
      if isMatched v.shared id && !isMatched s id then some pid else v.movedBy id }

def Counter.setInFlight (v : Counter) (host : Host) (id : TxnId) (run : Option Pid) : Counter :=
  { v with
    inFlight := fun h i => if h = host ∧ i = id then run else v.inFlight h i }

/-- What the commit of a creation leaves for the rest of the call. -/
def Counter.noteCreated (v : Counter) (pid : Pid) (id : TxnId) (orderId : OrderId) : Counter :=
  { v with
    opened := fun p => if p = pid then orderId else v.opened p
    created := fun i => if i = id then (orderId, pid) :: v.created i else v.created i }

def commits (pid : Pid) (e : Database.Effect) (o : Desk.Choice) (s : Shared) : Option OrderId :=
  match e with
  | .commit => if o.fails then none else ((s.txs pid).bind (·.created)).map (·.1)
  | _ => none

def quoteTtlMs : ℕ := 300000

structure Priced where
  usdcAmount : ℤ
  platformFeeBps : ℤ
  lpFeeBps : ℤ

structure Choice extends Desk.Choice where
  quoteId : QuoteId := 0
  priced : Option Priced := none

def createQuote (user : Address) (flow : Flow) (fiatAmount : ℕ) (o : Choice) (s : Shared) :
    Shared × Option QuoteId :=
  match o.priced with
  | none => (s, none)
  | some p =>
    if (s.db.quotes.lookup o.quoteId).isSome then (s, none)
    else
      ({ s with db := { s.db with
          quotes := s.db.quotes.insert o.quoteId
            { userAddress := user, flow, rail := .bank, usdcAmount := p.usdcAmount, fiatAmount,
              fiatCurrency := "IDR", platformFeeBps := p.platformFeeBps, lpFeeBps := p.lpFeeBps,
              expiresAt := s.now + quoteTtlMs, usedAt := none } } }, some o.quoteId)

def link (id : TxnId) (orderId : OrderId) (account : String) (v : Counter) : Counter × ℕ :=
  match v.transactions id with
  | none => (v, 0)
  | some row =>
    if row.orderId = none ∧ row.stellarAccount = account then
      ({ v with
        transactions := fun i =>
          if i = id then some { row with orderId := some orderId } else v.transactions i }, 1)
    else (v, 0)

def undo (pid : Pid) (orderId : OrderId) (v : Counter) : Counter × ℕ :=
  match v.shared.db.orders.lookup orderId with
  | none => (v, 0)
  | some row =>
    if row.status = .matched then
      let v' := v.write pid (v.shared.setOrder orderId (row.setStatus .cancelled))
      ({ v' with cancelled := (orderId, pid) :: v.cancelled }, 1)
    else ({ v with late := (orderId, pid, v.movedBy orderId) :: v.late }, 0)

def effect (pid : Pid) (e : Effect) (o : Choice) (v : Counter) : Counter × Reply e :=
  match e with
  | .desk e => (v.write pid (after pid e o.toChoice v.shared), reply pid e o.toChoice v.shared)
  | .within id e =>
    let v' := v.write pid (after pid e o.toChoice v.shared)
    ((commits pid e o.toChoice v.shared).elim v' (v'.noteCreated pid id),
      reply pid e o.toChoice v.shared)
  | .enter host id =>
    match v.inFlight host id with
    | some run => (v, some run)
    | none => (v.setInFlight host id (some pid), none)
  | .leave host id => (v.setInFlight host id none, ())
  | .wait _ _ _ => (v, ())
  | .findTransaction id =>
    (v, (v.transactions id).map fun row =>
      (row, (row.orderId.bind v.shared.db.orders.lookup).map (·.status)))
  | .lookupPerson _ | .screenFor _ => (v, o.verdict)
  | .createQuote user flow fiatAmount =>
    ({ v with shared := (createQuote user flow fiatAmount o v.shared).1 },
      (createQuote user flow fiatAmount o v.shared).2)
  | .created => (v, v.opened pid)
  | .link id orderId account => link id orderId account v
  | .undo orderId => undo pid orderId v

inductive Call where
  | submitAmount (host : Host) (id : TxnId) (token : Option String) (amount : Option ℕ)
      (destination : Option String)
  | other (c : Desk.Call)

def body : Call → Handler Unit
  | .submitAmount host id token amount destination =>
    submitAmount x host id token amount destination
  | .other c => (Desk.body x.toSettings c).embed .desk

inductive Move where
  | desk (a : Desk.Move)
  | interactive (id : TxnId) (stellarAccount : String) (flow : Flow)

def moved (v : Counter) : Move → Counter
  | .desk a => { v with shared := Desk.moved v.shared a }
  | .interactive id stellarAccount flow =>
    { v with
      transactions := fun i =>
        if i = id then some ⟨stellarAccount, flow, none⟩ else v.transactions i }

/-- The anchor with all its processes. The map of a process that dies goes with
it, so what that says about a dead call is never read again. -/
def anchor : System Call Choice Move Effect Reply Counter where
  body := body x
  delivers _ _ := True
  permits pid e o v :=
    match e with
    | .desk e | .within _ e => Permits x.toSettings pid e o.toChoice v.shared
    | .wait host id run => v.inFlight host id ≠ some run
    | _ => True
  effect := effect
  dies pid v := { v with shared := release pid v.shared }
  moves v
    | .desk a => Moves v.shared a
    | .interactive id _ _ => v.transactions id = none
  moved := moved

abbrev CounterAct := Act Call Choice Move

abbrev CounterPool := Pool Effect Reply Counter

abbrev CounterHistory := List (Entry CounterPool CounterAct (Option (Pid × Effect)))

end Lolipay.Coordinator.Submission
