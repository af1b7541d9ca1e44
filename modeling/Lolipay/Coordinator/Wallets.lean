import Lolipay.Async.AdvisoryLock
import Lolipay.Ledger.Storage
import Lolipay.Coordinator.Orders

namespace Lolipay.Coordinator.Wallets

open Lolipay.Ledger.Storage Lolipay.Ledger.Runs
open Lolipay.Async Lolipay.Async.Process Lolipay.Async.Scheduling
open Lolipay.Coordinator.Orders

inductive WalletAuthMethod where
  | sep10
  | sep53
  deriving DecidableEq, Repr

inductive WalletLinkStatus where
  | active
  | revoked
  deriving DecidableEq, Repr

structure WalletLink where
  personId : PersonId
  authMethod : WalletAuthMethod
  status : WalletLinkStatus
  provenAt : ℕ
  deriving DecidableEq, Repr

structure LinkChallenge where
  personId : PersonId
  stellarAddress : String
  expiresAt : ℕ
  consumedAt : Option ℕ
  deriving DecidableEq, Repr

structure LinkProof where
  challenge : String
  signature : String
  deriving DecidableEq, Repr

/-- What the service gets from elsewhere: the account behind a subject, the
check of a signature, and the database's hash for lock keys. -/
structure Settings where
  accountOf : String → String
  verifySep53 : String → String → String → Bool
  hashtext : PersonId → ℤ

def walletCap : ℤ := 5

def linkChallengeTtlMs : ℕ := 5 * 60 * 1000

def linkPrefix : String := "lolipay-wallet-link"

/-- What a `linkWallet` has checked by the time it links. -/
structure Activation where
  nonce : String
  personId : PersonId
  address : String
  proof : LinkProof
  checkedAt : ℕ
  deriving DecidableEq, Repr

/-- The statements of the service. The writes of a transaction show when it
commits, and keep others waiting until then, so they are one effect with it. -/
inductive Effect where
  | findLink (address : String)
  | clock
  | randomNonce
  | createPerson (address : String) (authMethod : WalletAuthMethod)
  | createChallenge (nonce : String) (challenge : LinkChallenge)
  | findChallenge (nonce : String)
  | lock (key : ℤ)
  | countActive (personId : PersonId)
  | link (a : Activation) (existing : Option WalletLink)
  | revoke (address : String) (personId : PersonId)
  | rollback

inductive Created where
  | person
  | uniqueViolation
  | failed
  deriving DecidableEq, Repr

/-- An outer `none`, and `false` from a transaction, is a call that threw. -/
@[reducible] def Reply : Effect → Type
  | .findLink _ => Option (Option WalletLink)
  | .clock => ℕ
  | .randomNonce => String
  | .createPerson _ _ => Created
  | .createChallenge _ _ => Option Unit
  | .findChallenge _ => Option (Option LinkChallenge)
  | .lock _ | .rollback => Unit
  | .countActive _ => Option ℤ
  | .link _ _ | .revoke _ _ => Bool

abbrev Service (α : Type) := Program Effect Reply α

def linkedPerson (address : String) : Service (Option WalletLink) :=
  attempt (.findLink address) fun r => r

def proveWallet (address : String) (authMethod : WalletAuthMethod) : Service Unit := do
  let existing ← linkedPerson address
  match existing with
  | some _ => .pure ()
  | none =>
    let created : Created ← issue (Effect.createPerson address authMethod)
    match created with
    | .person => .pure ()
    | .failed => .fail
    | .uniqueViolation =>
      let raced ← linkedPerson address
      if raced.isSome then .pure () else .fail

def requirePersonId (y : Settings) (callerAddress : String) : Service PersonId := do
  let link ← linkedPerson (y.accountOf callerAddress)
  match link.filter fun l => l.status = .active with
  | none => .fail
  | some link => .pure link.personId

def issueLinkChallenge (y : Settings) (callerAddress address : String) : Service Unit := do
  let personId ← requirePersonId y callerAddress
  let nonce : String ← issue Effect.randomNonce
  let now : ℕ ← issue Effect.clock
  attempt (.createChallenge nonce ⟨personId, address, now + linkChallengeTtlMs, none⟩) fun r => r

def splitAtColons (text : String) : List String := (text.toList.splitOn ':').map String.ofList

def linkNonce (address challenge : String) : Option String :=
  match splitAtColons challenge with
  | [tag, named, nonce, _] => if tag = linkPrefix ∧ named = address then some nonce else none
  | _ => none

def usable (issued : LinkChallenge) (personId : PersonId) (address : String) (now : ℕ) : Bool :=
  issued.consumedAt = none && issued.personId = personId && issued.stellarAddress = address &&
    now < issued.expiresAt

def concludeLink (a : Activation) (existing : Option WalletLink) : Service Unit := do
  let done : Bool ← issue (Effect.link a existing)
  demand done

/-- A link that is not active yet counts against the cap. -/
def linkUnderCap (a : Activation) (existing : Option WalletLink) : Service Unit := do
  let active : Option ℤ ← issue (Effect.countActive a.personId)
  match active with
  | none => failAfter .rollback
  | some active => if walletCap ≤ active then failAfter .rollback else concludeLink a existing

def linkLocked (y : Settings) (a : Activation) : Service Unit := do
  issue (Effect.lock (y.hashtext a.personId))
  let existing : Option (Option WalletLink) ← issue (Effect.findLink a.address)
  match existing with
  | none => failAfter .rollback
  | some existing =>
    if existing.any fun l => l.personId ≠ a.personId then failAfter .rollback
    else if existing.all fun l => l.status = .revoked then linkUnderCap a existing
    else concludeLink a existing

def linkWallet (y : Settings) (callerAddress address : String) (proof : LinkProof) :
    Service Unit := do
  let personId ← requirePersonId y callerAddress
  match linkNonce address proof.challenge with
  | none => .fail
  | some nonce =>
    if y.verifySep53 address proof.challenge proof.signature then do
      let issued ← (attempt (.findChallenge nonce) fun r => r : Service (Option LinkChallenge))
      let now : ℕ ← issue Effect.clock
      if issued.any fun issued => usable issued personId address now then
        linkLocked y ⟨nonce, personId, address, proof, now⟩
      else .fail
    else .fail

def revokeLocked (y : Settings) (personId : PersonId) (address : String) : Service Unit := do
  issue (Effect.lock (y.hashtext personId))
  let active : Option ℤ ← issue (Effect.countActive personId)
  match active with
  | none => failAfter .rollback
  | some active =>
    if active ≤ 1 then failAfter .rollback
    else do
      let done : Bool ← issue (Effect.revoke address personId)
      demand done

def revokeWallet (y : Settings) (callerAddress address : String) : Service Unit := do
  let personId ← requirePersonId y callerAddress
  revokeLocked y personId address

/-- The tables with the advisory locks and the clock. `activations` is no data
of the service. -/
structure Shared where
  persons : List PersonId
  links : Store String WalletLink
  challenges : Store String LinkChallenge
  locks : ℤ → Option Pid
  now : ℕ
  activations : List Activation

structure Choice where
  fails : Bool := false
  person : PersonId := 0
  nonce : String := ""

def isActive (personId : PersonId) (l : WalletLink) : Bool :=
  l.personId = personId && l.status = .active

def active (personId : PersonId) (links : Store String WalletLink) : ℤ :=
  total (fun l => if isActive personId l then 1 else 0) links

def release (pid : Pid) (s : Shared) : Shared :=
  { s with locks := AdvisoryLock.release pid s.locks }

def enrol (address : String) (authMethod : WalletAuthMethod) (person : PersonId) (s : Shared) :
    Shared :=
  { s with
    persons := person :: s.persons
    links := s.links.insert address ⟨person, authMethod, .active, s.now⟩ }

def runCreatePerson (address : String) (authMethod : WalletAuthMethod) (o : Choice) (s : Shared) :
    Shared × Created :=
  if o.fails then (s, .failed)
  else if o.person ∈ s.persons ∨ (s.links.lookup address).isSome then (s, .uniqueViolation)
  else (enrol address authMethod o.person s, .person)

/-- The row that a link leaves: an update needs a row, an insertion must find none. -/
def linkRow (a : Activation) (existing found : Option WalletLink) (now : ℕ) : Option WalletLink :=
  match existing, found with
  | some _, some l => some { l with status := .active, authMethod := .sep53, provenAt := now }
  | none, none => some ⟨a.personId, .sep53, .active, now⟩
  | _, _ => none

def spend (a : Activation) (issued : LinkChallenge) (row : WalletLink) (s : Shared) : Shared :=
  { s with
    challenges := s.challenges.insert a.nonce { issued with consumedAt := some s.now }
    links := s.links.insert a.address row
    activations := a :: s.activations }

def runLink (pid : Pid) (a : Activation) (existing : Option WalletLink) (s : Shared) :
    Shared × Bool :=
  match (s.challenges.lookup a.nonce).filter fun issued => issued.consumedAt = none,
      linkRow a existing (s.links.lookup a.address) s.now with
  | some issued, some row => (release pid (spend a issued row s), true)
  | _, _ => (release pid s, false)

def runRevoke (pid : Pid) (address : String) (personId : PersonId) (s : Shared) : Shared × Bool :=
  match (s.links.lookup address).filter (isActive personId) with
  | none => (release pid s, false)
  | some l =>
    (release pid { s with links := s.links.insert address { l with status := .revoked } }, true)

def effect (pid : Pid) (e : Effect) (o : Choice) (s : Shared) : Shared × Reply e :=
  match e with
  | .findLink address => (s, if o.fails then none else some (s.links.lookup address))
  | .clock => (s, s.now)
  | .randomNonce => (s, o.nonce)
  | .createPerson address authMethod => runCreatePerson address authMethod o s
  | .createChallenge nonce challenge =>
    if o.fails ∨ (s.challenges.lookup nonce).isSome then (s, none)
    else ({ s with challenges := s.challenges.insert nonce challenge }, some ())
  | .findChallenge nonce => (s, if o.fails then none else some (s.challenges.lookup nonce))
  | .lock key => ({ s with locks := AdvisoryLock.acquire key pid s.locks }, ())
  | .countActive personId => (s, if o.fails then none else some (active personId s.links))
  | .link a existing => if o.fails then (release pid s, false) else runLink pid a existing s
  | .revoke address personId =>
    if o.fails then (release pid s, false) else runRevoke pid address personId s
  | .rollback => (release pid s, ())

inductive Call where
  | proveWallet (address : String) (authMethod : WalletAuthMethod)
  | issueLinkChallenge (callerAddress address : String)
  | linkWallet (callerAddress address : String) (proof : LinkProof)
  | revokeWallet (callerAddress address : String)

/-- Any number of calls by anybody. An advisory lock makes others wait. -/
def registry (y : Settings) : System Call Choice ℕ Effect Reply Shared where
  body
    | .proveWallet address authMethod => proveWallet address authMethod
    | .issueLinkChallenge caller address => issueLinkChallenge y caller address
    | .linkWallet caller address proof => linkWallet y caller address proof
    | .revokeWallet caller address => revokeWallet y caller address
  delivers _ _ := True
  permits pid e _ s :=
    match e with
    | .lock key => AdvisoryLock.Available key pid s.locks
    | _ => True
  effect := effect
  dies := release
  moves s time := s.now ≤ time
  moved s time := { s with now := time }

abbrev Office := Pool Effect Reply Shared

instance (y : Settings) (s : Shared) (call : Call) : Decidable ((registry y).delivers s call) :=
  .isTrue trivial

instance (y : Settings) (pid : Pid) (o : Choice) (s : Shared) :
    (e : Effect) → Decidable ((registry y).permits pid e o s)
  | .lock key => inferInstanceAs (Decidable (AdvisoryLock.Available key pid s.locks))
  | .findLink _ | .clock | .randomNonce | .createPerson _ _ | .createChallenge _ _
  | .findChallenge _ | .countActive _ | .link _ _ | .revoke _ _ | .rollback => .isTrue trivial

instance (y : Settings) (s : Shared) (time : ℕ) : Decidable ((registry y).moves s time) :=
  inferInstanceAs (Decidable (s.now ≤ time))

end Lolipay.Coordinator.Wallets
