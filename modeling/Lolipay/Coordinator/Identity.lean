import Lolipay.Async.AdvisoryLock
import Lolipay.Ledger.Storage
import Lolipay.Coordinator.Orders

namespace Lolipay.Coordinator.Identity

open Lolipay.Ledger.Storage Lolipay.Ledger.Runs
open Lolipay.Async Lolipay.Async.Process Lolipay.Async.Scheduling
open Lolipay.Coordinator.Orders

abbrev CustomerRef := String

inductive KycStatus where
  | needsInfo
  | processing
  | accepted
  | rejected
  deriving DecidableEq, Repr

structure KycVerification where
  personId : PersonId
  status : KycStatus
  providerRef : Option String
  rejectionReason : Option String
  environment : Option String
  verificationUrl : Option String
  deliveredAt : Option ℕ
  screenedAt : Option ℕ
  verifiedAt : Option ℕ
  updatedAt : ℕ
  deriving DecidableEq, Repr

inductive Listed (α : Type) where
  | absent
  | list (items : List α)
  | other (text : String)

structure Screening where
  status : Option String
  totalHits : Option ℤ
  hits : Listed Unit
  warnings : Listed String

/-- What the vendor delivers; `none` stands for what is missing or no text. -/
structure Payload where
  status : Option String
  environment : Option String
  sessionId : Option String
  vendorData : Option String
  amlScreenings : Listed Screening
  idVerifications : Listed (Option String)

structure DiditConclusion where
  status : KycStatus
  screened : Bool
  environment : Option String
  providerRef : Option String
  customerRef : Option CustomerRef
  rejectionReason : Option String := none
  unrecognisedStatus : Option String := none
  notStarted : Bool := false

def unreadableScreening : String := "the screening could not be read"

def screeningDidNotRun : String := "the screening did not run"

def hitRefusal : String := "sanctions or watchlist match"

def screeningRequiredFailed : String := "the required screening could not be carried out"

def unreadableDecline : String := "the refusal carried no readable cause"

def notPerformed : String := "COULD_NOT_PERFORM_AML_SCREENING"

def Listed.emptyOrAbsent {α : Type} : Listed α → Bool
  | .absent => true
  | .list items => items.isEmpty
  | .other _ => false

def Listed.items {α : Type} : Listed α → List α
  | .list items => items
  | _ => []

def cleared (entry : Screening) : Bool :=
  entry.status = some "Approved" && entry.totalHits = some 0 && entry.hits.emptyOrAbsent &&
    entry.warnings.emptyOrAbsent

def purelyNotPerformed (entry : Screening) : Bool :=
  (match entry.warnings with
    | .absent => false
    | .list items => !items.isEmpty && items.all (· = notPerformed)
    | .other text => text = notPerformed) &&
    entry.totalHits = some 0 && entry.hits.emptyOrAbsent

def ranAndFoundNothing (payload : Payload) : Bool :=
  !payload.amlScreenings.items.isEmpty && payload.amlScreenings.items.all cleared

def onlyCouldNotScreen (payload : Payload) : Bool :=
  !payload.amlScreenings.items.isEmpty &&
    (payload.amlScreenings.items.all fun s => cleared s || purelyNotPerformed s) &&
    payload.amlScreenings.items.any purelyNotPerformed

def adverse (entry : Screening) : Bool := !cleared entry && !purelyNotPerformed entry

def hitsPresent (entry : Screening) : Bool :=
  (entry.totalHits.any fun n => 0 < n) || !entry.hits.items.isEmpty

def foundSomething (payload : Payload) : Bool := payload.amlScreenings.items.any adverse

def foundHits (payload : Payload) : Bool := payload.amlScreenings.items.any hitsPresent

def documentFailed (payload : Payload) : Bool :=
  payload.idVerifications.items.any fun status => status ≠ some "Approved"

def processingStatuses : List String := ["In Progress", "In Review"]

def retryableStatuses : List String :=
  ["Awaiting User", "Resubmitted", "Abandoned", "Expired", "Kyc Expired"]

def readApproved (payload : Payload) (base : DiditConclusion) : DiditConclusion :=
  if foundHits payload then { base with status := .rejected, rejectionReason := some hitRefusal }
  else if payload.amlScreenings.emptyOrAbsent then { base with status := .accepted }
  else if ranAndFoundNothing payload then { base with status := .accepted, screened := true }
  else if onlyCouldNotScreen payload then
    { base with status := .needsInfo, rejectionReason := some screeningDidNotRun }
  else { base with status := .needsInfo, rejectionReason := some unreadableScreening }

def readDeclined (payload : Payload) (requireAml : Bool) (base : DiditConclusion) :
    DiditConclusion :=
  if foundHits payload then { base with status := .rejected, rejectionReason := some hitRefusal }
  else if foundSomething payload then
    { base with status := .needsInfo, rejectionReason := some unreadableScreening }
  else if documentFailed payload then { base with status := .needsInfo }
  else if onlyCouldNotScreen payload then
    if requireAml then
      { base with status := .rejected, rejectionReason := some screeningRequiredFailed }
    else { base with status := .needsInfo, rejectionReason := some screeningDidNotRun }
  else { base with status := .rejected, rejectionReason := some unreadableDecline }

def readDiditDecision (payload : Payload) (requireAml : Bool) : DiditConclusion :=
  let base : DiditConclusion :=
    { status := .processing, screened := false, environment := payload.environment,
      providerRef := payload.sessionId, customerRef := payload.vendorData }
  match payload.status with
  | none => { base with unrecognisedStatus := some "" }
  | some status =>
    if status = "Approved" then readApproved payload base
    else if status = "Declined" then readDeclined payload requireAml base
    else if status = "Not Started" then { base with notStarted := true }
    else if processingStatuses.contains status then base
    else if retryableStatuses.contains status then { base with status := .needsInfo }
    else { base with unrecognisedStatus := some status }

structure KycDecision where
  status : KycStatus
  rejectionReason : Option String := none
  providerRef : Option String := none
  verificationUrl : Option String := none

/-- The settings, the database's hash for lock keys, and the person behind the
wallet of a customer, which never changes. -/
structure Settings where
  kycRequireAml : Bool
  diditEnvironment : String
  hashtext : PersonId → ℤ
  ownerOf : CustomerRef → PersonId

def sessionLifetimeMs : ℕ := 24 * 60 * 60 * 1000

def acceptedForFunds (requireAml : Bool) (row : KycVerification) : Bool :=
  row.status = .accepted && if requireAml then row.screenedAt.isSome else row.deliveredAt.isSome

def staleAcceptance (row : KycVerification) (requireAml : Bool) (now : ℕ) : Bool :=
  if row.status ≠ .accepted ∨ row.screenedAt.isSome then false
  else if row.deliveredAt.isSome then requireAml
  else row.verifiedAt.any fun time => time + sessionLifetimeMs < now

def hasRef (row : KycVerification) : Bool := (row.providerRef.filter (· ≠ "")).isSome

def stillInFlight (row : KycVerification) (now : ℕ) : Bool :=
  row.status = .processing && hasRef row && now < row.updatedAt + sessionLifetimeMs

def standsAccepted (row : KycVerification) (requireAml : Bool) (now : ℕ) : Bool :=
  row.status = .accepted && !staleAcceptance row requireAml now

inductive Scope where
  | either (ref : CustomerRef) (personId : PersonId)
  | elsewhere (ref : CustomerRef) (personId : PersonId)
  deriving DecidableEq, Repr

def Scope.covers (ref : CustomerRef) (row : KycVerification) : Scope → Bool
  | .either ref' personId => ref = ref' || row.personId = personId
  | .elsewhere ref' personId => row.personId = personId && ref ≠ ref'

/-- The statements of the service. The last write of a transaction is one
effect with its commit. -/
inductive Effect where
  | lookupPerson (ref : CustomerRef)
  | findRow (ref : CustomerRef)
  | anyRefused (scope : Scope)
  | findRefusals (ref : CustomerRef) (personId : PersonId)
  | clock
  | saveEmail
  | isOpening (ref : CustomerRef)
  | start (ref : CustomerRef)
  | lock (key : ℤ)
  | upsertIncomplete (ref : CustomerRef) (personId : PersonId)
  | upsertStarted (ref : CustomerRef) (personId : PersonId) (decision : KycDecision) (startedAt : ℕ)
  | writeDelivery (ref : CustomerRef) (personId : PersonId) (conclusion : DiditConclusion)
      (deliveredAt : ℕ) (standing : Option KycVerification)
  | deleteMany (ref : CustomerRef) (personId : Option PersonId)
  | redact (refs : List CustomerRef)
  | rollback
  | findAccepted (personId : PersonId)
  /-- The second query of `identityVerified`: whether the person stands refused. -/
  | findRefusal (personId : PersonId)

/-- An outer `none`, and `false` from a transaction, is a call that threw. -/
@[reducible] def Reply : Effect → Type
  | .lookupPerson _ => Option (Option PersonId)
  | .findRow _ => Option (Option KycVerification)
  | .anyRefused _ | .findRefusal _ => Option Bool
  | .findRefusals _ _ => Option (List CustomerRef)
  | .clock => ℕ
  | .saveEmail | .deleteMany _ _ => Option Unit
  | .isOpening _ => Bool
  | .start _ => Option KycDecision
  | .lock _ | .rollback => Unit
  | .upsertIncomplete _ _ | .upsertStarted _ _ _ _ | .writeDelivery _ _ _ _ _ | .redact _ => Bool
  | .findAccepted _ => Option Bool

abbrev Service (α : Type) := Program Effect Reply α

def leave : Service Unit := do
  issue Effect.rollback
  .pure ()

/-- The row is accepted for good, or its session is still open. -/
def isSettled (y : Settings) (row : Option KycVerification) (now now' : ℕ) : Bool :=
  row.any fun row => standsAccepted row y.kycRequireAml now || stillInFlight row now'

def upsertUnsettled (y : Settings) (ref : CustomerRef) (personId : PersonId) : Service Unit := do
  let settled : Option (Option KycVerification) ← issue (Effect.findRow ref)
  match settled with
  | none => failAfter .rollback
  | some settled =>
    let now : ℕ ← issue Effect.clock
    let now' : ℕ ← issue Effect.clock
    if isSettled y settled now now' then leave
    else do
      let done : Bool ← issue (Effect.upsertIncomplete ref personId)
      demand done

def recordIncomplete (y : Settings) (ref : CustomerRef) (personId : PersonId) : Service Unit := do
  issue (Effect.lock (y.hashtext personId))
  let refused : Option Bool ← issue (Effect.anyRefused (.either ref personId))
  match refused with
  | none | some true => failAfter .rollback
  | some false => upsertUnsettled y ref personId

def drops (conclusion : DiditConclusion) (deliveredAt : ℕ) (standing : KycVerification) : Bool :=
  standing.status = .rejected || conclusion.status ≠ .rejected &&
    ((standing.status = .accepted || standing.status = .processing) && hasRef standing &&
        standing.providerRef ≠ conclusion.providerRef ||
      standing.deliveredAt.any fun time => deliveredAt < time)

def deliverUnrefused (ref : CustomerRef) (personId : PersonId) (conclusion : DiditConclusion)
    (deliveredAt : ℕ) : Service Unit := do
  let standing : Option (Option KycVerification) ← issue (Effect.findRow ref)
  match standing with
  | none => failAfter .rollback
  | some standing =>
    if standing.any (drops conclusion deliveredAt) then leave
    else do
      let done : Bool ← issue (Effect.writeDelivery ref personId conclusion deliveredAt standing)
      demand done

def deliverLocked (y : Settings) (ref : CustomerRef) (personId : PersonId)
    (conclusion : DiditConclusion) (deliveredAt : ℕ) : Service Unit := do
  issue (Effect.lock (y.hashtext personId))
  let elsewhere : Option Bool ← issue (Effect.anyRefused (.elsewhere ref personId))
  match elsewhere with
  | none => failAfter .rollback
  | some elsewhere =>
    if elsewhere ∧ conclusion.status ≠ .rejected then leave
    else deliverUnrefused ref personId conclusion deliveredAt

def applyDelivery (y : Settings) (conclusion : DiditConclusion) (deliveredAt : ℕ) :
    Service Unit :=
  match conclusion.customerRef.filter (· ≠ "") with
  | none => .pure ()
  | some ref =>
    if conclusion.unrecognisedStatus ≠ none ∨
        conclusion.environment ≠ some y.diditEnvironment then .pure ()
    else do
      let person ← (attempt (.lookupPerson ref) fun r => r : Service (Option PersonId))
      match person with
      | none => .pure ()
      | some personId => deliverLocked y ref personId conclusion deliveredAt

def redactLocked (y : Settings) (ref : CustomerRef) (personId : PersonId) : Service Unit := do
  issue (Effect.lock (y.hashtext personId))
  let refusals : Option (List CustomerRef) ← issue (Effect.findRefusals ref personId)
  match refusals with
  | none => failAfter .rollback
  | some [] => leave
  | some refs =>
    let done : Bool ← issue (Effect.redact refs)
    demand done

def forget (y : Settings) (ref : CustomerRef) : Service Unit := do
  let person ← (attempt (.lookupPerson ref) fun r => r : Service (Option PersonId))
  let _ ← (attempt (.deleteMany ref person) fun r => r : Service Unit)
  match person with
  | none => .pure ()
  | some personId => redactLocked y ref personId

/-- A session was opened, but the customer was settled meanwhile. -/
def overtaken (y : Settings) (decision : KycDecision) (row : Option KycVerification)
    (now now' : ℕ) : Bool :=
  row.any fun row => standsAccepted row y.kycRequireAml now ||
    stillInFlight row now' && row.providerRef ≠ decision.providerRef

def startLocked (y : Settings) (ref : CustomerRef) (personId : PersonId) (decision : KycDecision)
    (startedAt : ℕ) : Service Unit := do
  issue (Effect.lock (y.hashtext personId))
  let settled : Option (Option KycVerification) ← issue (Effect.findRow ref)
  match settled with
  | none => failAfter .rollback
  | some settled =>
    let now : ℕ ← issue Effect.clock
    let now' : ℕ ← issue Effect.clock
    if overtaken y decision settled now now' then leave
    else do
      let refused : Option Bool ← issue (Effect.anyRefused (.either ref personId))
      match refused with
      | none => failAfter .rollback
      | some true => leave
      | some false =>
        let done : Bool ← issue (Effect.upsertStarted ref personId decision startedAt)
        demand done

/-- Another process has a set of open sessions of its own. -/
def openSession (y : Settings) (ref : CustomerRef) (personId : PersonId) : Service Unit := do
  let opening : Bool ← issue (Effect.isOpening ref)
  if opening then .pure ()
  else do
    let decision ← (attempt (.start ref) fun r => r : Service KycDecision)
    let startedAt : ℕ ← issue Effect.clock
    startLocked y ref personId decision startedAt

def resubmit (y : Settings) (ref : CustomerRef) (personId : PersonId) (complete : Bool) :
    Service Unit := do
  let row ← (attempt (.findRow ref) fun r => r : Service (Option KycVerification))
  let now : ℕ ← issue Effect.clock
  let now' : ℕ ← issue Effect.clock
  if isSettled y row now now' then .pure ()
  else if complete then openSession y ref personId
  else recordIncomplete y ref personId

/-- `mail` is whether the form carries an address that can be stored, and
`complete` whether every required field of it is filled in. -/
def put (y : Settings) (ref : CustomerRef) (mail complete : Bool) : Service Unit := do
  let person ← (attempt (.lookupPerson ref) fun r => r : Service (Option PersonId))
  match person with
  | none => .fail
  | some personId =>
    let refused ← (attempt (.anyRefused (.either ref personId)) fun r => r : Service Bool)
    if refused then .fail
    else if mail then do
      let _ ← (attempt .saveEmail fun r => r : Service Unit)
      resubmit y ref personId complete
    else resubmit y ref personId complete

def identityVerified (personId : PersonId) : Service Unit := do
  let accepted ← (attempt (.findAccepted personId) fun r => r : Service Bool)
  if accepted then do
    let _ ← (attempt (.findRefusal personId) fun r => r : Service Bool)
    .pure ()
  else .pure ()

abbrev Rows := Store CustomerRef KycVerification

/-- A delivery that was written to the row of a customer. -/
structure Delivery where
  ref : CustomerRef
  conclusion : DiditConclusion
  deliveredAt : ℕ

/-- A positive answer of `identityVerified`, with the table at its two queries. -/
structure Answer where
  personId : PersonId
  accepted : Rows
  unrefused : Rows

/-- The table with the advisory locks and the clock. `deliveries`, `looked` (the
table that a call of `identityVerified` has seen first) and `answers` are no
data of the service. -/
structure Shared where
  rows : Rows
  locks : ℤ → Option Pid
  now : ℕ
  deliveries : List Delivery
  looked : Pid → Rows
  answers : List Answer

structure Choice where
  fails : Bool := false
  linked : Bool := true
  opening : Bool := false
  decision : KycDecision := { status := .processing }

def release (pid : Pid) (s : Shared) : Shared :=
  { s with locks := AdvisoryLock.release pid s.locks }

def setRow (ref : CustomerRef) (row : KycVerification) (s : Shared) : Shared :=
  { s with rows := s.rows.insert ref row }

def anyRow (p : CustomerRef → KycVerification → Bool) (rows : Rows) : Bool :=
  rows.entries.any fun e => p e.1 e.2

def refusedIn (scope : Scope) : Rows → Bool :=
  anyRow fun ref row => row.status = .rejected && scope.covers ref row

def refusals (ref : CustomerRef) (personId : PersonId) (rows : Rows) : List CustomerRef :=
  rows.keys.filter fun ref' =>
    (rows.lookup ref').any fun row =>
      row.status = .rejected && (Scope.either ref personId).covers ref' row

def incompleteRow (personId : PersonId) (now : ℕ) : Option KycVerification → KycVerification
  | none => ⟨personId, .needsInfo, none, none, none, none, none, none, none, now⟩
  | some row =>
    { row with
      personId, status := .needsInfo, providerRef := none, verificationUrl := none
      rejectionReason := none, verifiedAt := none, updatedAt := now }

def startedRow (personId : PersonId) (decision : KycDecision) (startedAt now : ℕ) :
    KycVerification where
  personId
  status := decision.status
  providerRef := decision.providerRef
  verificationUrl := decision.verificationUrl
  rejectionReason := decision.rejectionReason
  verifiedAt := if decision.status = .accepted then some startedAt else none
  screenedAt := none
  deliveredAt := none
  environment := none
  updatedAt := now

def deliveredRow (personId : PersonId) (conclusion : DiditConclusion) (deliveredAt now : ℕ)
    (standing : Option KycVerification) (verificationUrl : Option String) : KycVerification where
  personId
  status := conclusion.status
  providerRef := conclusion.providerRef
  environment := conclusion.environment
  rejectionReason := conclusion.rejectionReason
  verificationUrl
  deliveredAt :=
    if conclusion.notStarted then standing.bind (·.deliveredAt) else some deliveredAt
  screenedAt := if conclusion.screened then some deliveredAt else none
  verifiedAt := if conclusion.status = .accepted then some deliveredAt else none
  updatedAt := now

/-- An update needs a row, an insertion must find none. -/
def deliveryTo (standing found : Option KycVerification) : Option (Option String) :=
  match standing, found with
  | some _, some row => some row.verificationUrl
  | none, none => some none
  | _, _ => none

def runDelivery (pid : Pid) (ref : CustomerRef) (personId : PersonId) (conclusion : DiditConclusion)
    (deliveredAt : ℕ) (standing : Option KycVerification) (s : Shared) : Shared × Bool :=
  match deliveryTo standing (s.rows.lookup ref) with
  | none => (release pid s, false)
  | some url =>
    (release pid { setRow ref (deliveredRow personId conclusion deliveredAt s.now standing url) s with
      deliveries := ⟨ref, conclusion, deliveredAt⟩ :: s.deliveries }, true)

def redactedRow (now : ℕ) (row : KycVerification) : KycVerification :=
  { row with
    rejectionReason := none, screenedAt := none, verifiedAt := none, verificationUrl := none
    providerRef := none, environment := none, updatedAt := now }

def redactOne (now : ℕ) (rows : Rows) (ref : CustomerRef) : Rows :=
  match rows.lookup ref with
  | none => rows
  | some row => rows.insert ref (redactedRow now row)

def erasable (ref : CustomerRef) (personId : Option PersonId) (rows : Rows) : List CustomerRef :=
  rows.keys.filter fun ref' =>
    (rows.lookup ref').any fun row =>
      row.status ≠ .rejected && (ref' = ref || personId.any fun p => row.personId = p)

def isAcceptedFor (y : Settings) (personId : PersonId) (row : KycVerification) : Bool :=
  row.personId = personId && acceptedForFunds y.kycRequireAml row

def isRefusalOf (personId : PersonId) (row : KycVerification) : Bool :=
  row.personId = personId && row.status = .rejected

def runFindRefusal (pid : Pid) (personId : PersonId) (s : Shared) : Shared × Option Bool :=
  if anyRow (fun _ row => isRefusalOf personId row) s.rows then (s, some true)
  else ({ s with answers := ⟨personId, s.looked pid, s.rows⟩ :: s.answers }, some false)

def effect (y : Settings) (pid : Pid) (e : Effect) (o : Choice) (s : Shared) : Shared × Reply e :=
  match e with
  | .lookupPerson ref =>
    (s, if o.fails then none else some (if o.linked then some (y.ownerOf ref) else none))
  | .findRow ref => (s, if o.fails then none else some (s.rows.lookup ref))
  | .anyRefused scope => (s, if o.fails then none else some (refusedIn scope s.rows))
  | .findRefusals ref personId =>
    (s, if o.fails then none else some (refusals ref personId s.rows))
  | .clock => (s, s.now)
  | .saveEmail => (s, if o.fails then none else some ())
  | .isOpening _ => (s, o.opening)
  | .start _ => (s, if o.fails then none else some o.decision)
  | .lock key => ({ s with locks := AdvisoryLock.acquire key pid s.locks }, ())
  | .upsertIncomplete ref personId =>
    if o.fails then (release pid s, false)
    else (release pid (setRow ref (incompleteRow personId s.now (s.rows.lookup ref)) s), true)
  | .upsertStarted ref personId decision startedAt =>
    if o.fails then (release pid s, false)
    else (release pid (setRow ref (startedRow personId decision startedAt s.now) s), true)
  | .writeDelivery ref personId conclusion deliveredAt standing =>
    if o.fails then (release pid s, false)
    else runDelivery pid ref personId conclusion deliveredAt standing s
  | .deleteMany ref personId =>
    if o.fails then (s, none)
    else
      ({ s with
          rows := (erasable ref personId s.rows).foldl (fun rows ref => rows.erase ref) s.rows },
        some ())
  | .redact refs =>
    if o.fails then (release pid s, false)
    else (release pid { s with rows := refs.foldl (redactOne s.now) s.rows }, true)
  | .rollback => (release pid s, ())
  | .findAccepted personId =>
    if o.fails then (s, none)
    else
      ({ s with looked := fun q => if q = pid then s.rows else s.looked q },
        some (anyRow (fun _ row => isAcceptedFor y personId row) s.rows))
  | .findRefusal personId => if o.fails then (s, none) else runFindRefusal pid personId s

inductive Call where
  | put (ref : CustomerRef) (mail complete : Bool)
  | recordIncomplete (ref : CustomerRef)
  | applyDelivery (payload : Payload) (deliveredAt : ℕ)
  | forget (ref : CustomerRef)
  | identityVerified (personId : PersonId)

def bureau (y : Settings) : System Call Choice ℕ Effect Reply Shared where
  body
    | .put ref mail complete => put y ref mail complete
    | .recordIncomplete ref => recordIncomplete y ref (y.ownerOf ref)
    | .applyDelivery payload deliveredAt =>
      applyDelivery y (readDiditDecision payload y.kycRequireAml) deliveredAt
    | .forget ref => forget y ref
    | .identityVerified personId => identityVerified personId
  delivers _ _ := True
  permits pid e _ s :=
    match e with
    | .lock key => AdvisoryLock.Available key pid s.locks
    | _ => True
  effect := effect y
  dies := release
  moves s time := s.now ≤ time
  moved s time := { s with now := time }

abbrev Office := Pool Effect Reply Shared

instance (y : Settings) (s : Shared) (call : Call) : Decidable ((bureau y).delivers s call) :=
  .isTrue trivial

instance (y : Settings) (pid : Pid) (o : Choice) (s : Shared) :
    (e : Effect) → Decidable ((bureau y).permits pid e o s)
  | .lock key => inferInstanceAs (Decidable (AdvisoryLock.Available key pid s.locks))
  | .lookupPerson _ | .findRow _ | .anyRefused _ | .findRefusals _ _ | .clock | .saveEmail
  | .isOpening _ | .start _ | .upsertIncomplete _ _ | .upsertStarted _ _ _ _
  | .writeDelivery _ _ _ _ _ | .deleteMany _ _ | .redact _ | .rollback | .findAccepted _
  | .findRefusal _ => .isTrue trivial

instance (y : Settings) (s : Shared) (time : ℕ) : Decidable ((bureau y).moves s time) :=
  inferInstanceAs (Decidable (s.now ≤ time))

end Lolipay.Coordinator.Identity
