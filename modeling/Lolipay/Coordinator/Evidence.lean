import Lolipay.Coordinator.Desk
import Lolipay.Coordinator.Notices

namespace Lolipay.Coordinator.Evidence

open Lolipay.Ledger.Storage Lolipay.Ledger.Invocation Lolipay.Ledger.Runs
open Lolipay.Async.Process Lolipay.Async.Scheduling
open Lolipay.Escrow.Types
open Lolipay.Coordinator.Orders Lolipay.Coordinator.Writes Lolipay.Coordinator.Database
open Lolipay.Coordinator.Services Lolipay.Coordinator.Creation Lolipay.Coordinator.Desk
open Lolipay.Coordinator.Notices (Party)

inductive Ext where
  | jpg
  | png
  | webp
  | pdf
  deriving DecidableEq, Repr

def Ext.text : Ext → String
  | .jpg => "jpg"
  | .png => "png"
  | .webp => "webp"
  | .pdf => "pdf"

def extContentType : Ext → String
  | .jpg => "image/jpeg"
  | .png => "image/png"
  | .webp => "image/webp"
  | .pdf => "application/pdf"

/-- The keys of `EXT_CONTENT_TYPE`, which are also the `EVIDENCE_EXTENSIONS`. -/
def extensions : List Ext := [.jpg, .png, .webp, .pdf]

structure UploadedFile where
  buffer : List UInt8
  mimetype : String
  deriving DecidableEq, Repr

/-- `toString('ascii')` drops the high bit of every byte. -/
def ascii (bytes : List UInt8) : List ℕ := bytes.map fun b => b.toNat % 128

def magicCheck (b : List UInt8) : Ext → Bool
  | .jpg => 3 ≤ b.length && b.take 3 = [0xff, 0xd8, 0xff]
  | .png => 8 ≤ b.length && b.take 8 = [0x89, 0x50, 0x4e, 0x47, 0x0d, 0x0a, 0x1a, 0x0a]
  | .webp =>
    12 ≤ b.length && ascii (b.take 4) = [0x52, 0x49, 0x46, 0x46] &&
      ascii ((b.drop 8).take 4) = [0x57, 0x45, 0x42, 0x50]
  | .pdf => 4 ≤ b.length && ascii (b.take 4) = [0x25, 0x50, 0x44, 0x46]

def sniffFileType (b : List UInt8) : Option Ext := extensions.find? (magicCheck b)

def sniffOrThrow (file : Option UploadedFile) : Option Ext :=
  file.bind fun file =>
    if file.buffer = [] then none
    else (sniffFileType file.buffer).filter fun ext => file.mimetype = extContentType ext

def roleText : Party → String
  | .user => "user"
  | .lp => "lp"

def disputerOf : Party → Disputer
  | .user => .user
  | .lp => .lp

def uuidChar (c : Char) : Bool := "0123456789abcdef-".toList.contains c

/-- The ids of orders as the tables show them. -/
structure Uuids where
  text : OrderId → String
  chars : ∀ id, ∀ c ∈ (text id).toList, uuidChar c = true
  injective : Function.Injective text

variable (ids : Uuids)

def evidenceKeyFor (id : OrderId) (role : Party) (closedAt : Option ℕ) : String :=
  match closedAt with
  | some closedAt => ids.text id ++ "-" ++ roleText role ++ "-" ++ toString closedAt
  | none => ids.text id ++ "-" ++ roleText role

def deterministicKey (key : String) (ext : Ext) : String := "evidence/" ++ key ++ "." ++ ext.text

def isOwnEvidencePath (evidenceUrl : String) (id : OrderId) (role : Party) (closedAt : Option ℕ) :
    Bool :=
  let start := ("evidence/" ++ evidenceKeyFor ids id role closedAt ++ ".").toList
  start.isPrefixOf evidenceUrl.toList &&
    extensions.any fun ext => evidenceUrl.toList.drop start.length = ext.text.toList

/-- When the window for a dispute after settlement ends; a deadline of zero is falsy. -/
def postSettleDeadlineMs (order : Order) (windowSecs : ℕ) : Option ℤ :=
  match truthy order.postSettleDeadline with
  | some deadline => some (deadline * 1000)
  | none => order.settledAt.map fun settledAt => (settledAt : ℤ) + windowSecs * 1000

def canDispute (order : Order) (windowSecs now : ℕ) : Bool :=
  match order.status with
  | .fiatPaid => true
  | .released | .refunded => (postSettleDeadlineMs order windowSecs).any fun ms => (now : ℤ) ≤ ms
  | _ => false

def allowedDisputeReasons : Flow → List String
  | .topUp => ["USDC_NOT_RELEASED", "PAID_WRONG_AMOUNT", "OTHER"]
  | .withdraw => ["PAYMENT_NOT_RECEIVED", "WRONG_AMOUNT", "FAKE_PROOF", "OTHER"]

/-- What `trim` strips: white space and line ends. -/
def isSpace (c : Char) : Bool :=
  (9 ≤ c.toNat && c.toNat ≤ 13) || (0x2000 ≤ c.toNat && c.toNat ≤ 0x200a) ||
    [0x20, 0xa0, 0x1680, 0x2028, 0x2029, 0x202f, 0x205f, 0x3000, 0xfeff].contains c.toNat

def trim (note : String) : String :=
  String.ofList ((note.toList.dropWhile isSpace).reverse.dropWhile isSpace).reverse

/-- The effects of the two services on top of those of the others. An object
comes with the role in which it is put. -/
inductive Effect where
  | own (e : Database.Effect)
  | postSettleDisputeWindowSecs
  | statObject (key : String)
  | putObject (key : String) (role : Party)
  | removeObject (key : String)
  | buildRaiseDisputeTx (id : OrderId) (caller : Address)
  | file (id : OrderId) (role : Party) (reason note : String) (evidenceUrl : Option String)

/-- An outer `none`, or `false`, is a call that threw. -/
@[reducible] def Reply : Effect → Type
  | .own e => Database.Reply e
  | .postSettleDisputeWindowSecs => ℕ
  | .statObject _ => Option Bool
  | .putObject _ _ | .buildRaiseDisputeTx _ _ => Bool
  | .removeObject _ => Unit
  | .file _ _ _ _ _ => Option ℕ

abbrev Handler (α : Type) := Program Effect Reply α

variable {α : Type}

/-- The role of the caller; a wallet on both sides counts as the user's. -/
def roleOf (order : Order) (lp : Option Lp) (caller : Address) : Option Party :=
  if order.userAddress = caller then some .user
  else if lp.map (·.stellarAddress) = some caller then some .lp
  else none

/-- What both services begin with: the order after a refresh, the role of the
caller, and whether a dispute is possible. -/
def partyOf (home : Address) (id : OrderId) (caller : Address) : Handler (Order × Party) := do
  let order ← (ask (.findOrder id)).embed .own
  match order with
  | none => .fail
  | some order =>
    let lp ← (providerOf order).embed .own
    match roleOf order lp caller with
    | none => .fail
    | some role =>
      let current ← (refreshOrderStatus home id order).embed .own
      let windowSecs ← issue Effect.postSettleDisputeWindowSecs
      let now ← (ask .clock).embed .own
      if canDispute current windowSecs now then .pure (current, role) else .fail

/-- The siblings are removed all at once, so in any order. -/
def removeSiblings (key : String) : List Ext → Handler Unit
  | [] => .pure ()
  | ext :: exts => do
    issue (Effect.removeObject (deterministicKey key ext))
    removeSiblings key exts

def sniffAndStoreDeterministic (file : Option UploadedFile) (key : String) (role : Party)
    (inOrder : Ext → List Ext) : Handler String :=
  match sniffOrThrow file with
  | none => .fail
  | some ext => do
    let stored : Bool ← issue (Effect.putObject (deterministicKey key ext) role)
    if stored then do
      removeSiblings key (inOrder ext)
      .pure (deterministicKey key ext)
    else .fail

def uploadDisputeEvidence (home : Address) (id : OrderId) (caller : Address)
    (file : Option UploadedFile) (inOrder : Ext → List Ext) : Handler String := do
  let (current, role) ← partyOf home id caller
  sniffAndStoreDeterministic file (evidenceKeyFor ids id role current.disputeClosedAt) role inOrder

def checkEvidence (id : OrderId) (role : Party) (closedAt : Option ℕ) :
    Option String → Handler Unit
  | none => .pure ()
  | some evidenceUrl =>
    if isOwnEvidencePath ids evidenceUrl id role closedAt then do
      let stat : Option Bool ← issue (Effect.statObject evidenceUrl)
      if stat = some true then .pure () else .fail
    else .fail

def fileDispute (id : OrderId) (caller : Address) (role : Party) (reason note : String)
    (evidenceUrl : Option String) : Handler (Option Order) := do
  let built : Bool ← issue (Effect.buildRaiseDisputeTx id caller)
  if built then do
    let claimed : Option ℕ ← issue (Effect.file id role reason note evidenceUrl)
    if claimed = some 1 then (ask (.findOrder id)).embed .own else .fail
  else .fail

def postDispute (home : Address) (id : OrderId) (caller : Address) (reason note : String)
    (evidenceUrl : Option String) : Handler (Option Order) := do
  let (current, role) ← partyOf home id caller
  if current.disputeBy.isSome then .fail
  else if (allowedDisputeReasons current.flow).contains reason then
    if trim note = "" then .fail
    else do
      checkEvidence ids id role current.disputeClosedAt evidenceUrl
      fileDispute id caller role reason (trim note) evidenceUrl
  else .fail

/-- The tables and the chain, the column `disputeEvidenceUrl` of the orders with
the role that wrote it, and the object store with who put what. `lookedUp` is no
data of the service: it records what each filing under way has found in the store. -/
structure Vault where
  shared : Shared
  disputeEvidenceUrl : OrderId → Option String
  filer : OrderId → Option Party
  objects : String → Option Party
  lookedUp : Pid → Option String

structure Choice extends Desk.Choice where
  windowSecs : ℕ := 0

def Vault.look (v : Vault) (pid : Pid) (key : Option String) : Vault :=
  { v with lookedUp := fun q => if q = pid then key else v.lookedUp q }

/-- The update of a filing: `updateMany` where `disputeBy` is null. -/
def runFile (id : OrderId) (role : Party) (reason note : String) (evidenceUrl : Option String)
    (v : Vault) : Vault × ℕ :=
  match (v.shared.db.orders.lookup id).filter fun row => row.disputeBy = none with
  | none => (v, 0)
  | some row =>
    ({ v with
        shared := v.shared.setOrder id
          { row with
            disputeBy := some (disputerOf role)
            disputeReason := some reason
            disputeNote := some note
            disputeAt := some v.shared.now }
        disputeEvidenceUrl := fun i => if i = id then evidenceUrl else v.disputeEvidenceUrl i
        filer := fun i => if i = id then some role else v.filer i }, 1)

def effect (pid : Pid) (e : Effect) (o : Choice) (v : Vault) : Vault × Reply e :=
  match e with
  | .own e =>
    ({ v with shared := after pid e o.toChoice v.shared }, reply pid e o.toChoice v.shared)
  | .postSettleDisputeWindowSecs => (v, o.windowSecs)
  | .statObject key =>
    if o.fails then (v, none)
    else if (v.objects key).isSome then (v.look pid (some key), some true)
    else (v, some false)
  | .putObject key role =>
    if o.fails then (v, false)
    else ({ v with objects := fun k => if k = key then some role else v.objects k }, true)
  | .removeObject key =>
    if o.fails then (v, ())
    else ({ v with objects := fun k => if k = key then none else v.objects k }, ())
  -- A filing that fails here is over, and so is one that has come to its update.
  | .buildRaiseDisputeTx _ _ => if o.fails then (v.look pid none, false) else (v, true)
  | .file id role reason note evidenceUrl =>
    if o.fails then (v.look pid none, none)
    else ((runFile id role reason note evidenceUrl v).1.look pid none,
      some (runFile id role reason note evidenceUrl v).2)

/-- The calls: an upload, with the order in which the siblings go, a filing, or
a call to any of the other services. -/
inductive Call where
  | uploadDisputeEvidence (id : OrderId) (caller : Address) (file : Option UploadedFile)
      (inOrder : Ext → List Ext)
  | postDispute (id : OrderId) (caller : Address) (reason note : String)
      (evidenceUrl : Option String)
  | other (c : Desk.Call)

def body (y : Settings) : Call → Handler Unit
  | .uploadDisputeEvidence id caller file inOrder => do
    let _ ← uploadDisputeEvidence ids y.escrowContractId id caller file inOrder
    .pure ()
  | .postDispute id caller reason note evidenceUrl => do
    let _ ← postDispute ids y.escrowContractId id caller reason note evidenceUrl
    .pure ()
  | .other c => (Desk.body y c).embed .own

/-- Everything else that goes on, the indexer with the ends of the rounds
included, are calls and moves of the other services. -/
def office (y : Settings) : System Call Choice Move Effect Reply Vault where
  body := body ids y
  delivers _
    | .uploadDisputeEvidence _ _ _ inOrder =>
      ∀ ext, (inOrder ext).Perm (extensions.filter fun other => other ≠ ext)
    | _ => True
  permits pid e o v :=
    match e with
    | .own e => Permits y pid e o.toChoice v.shared
    | _ => True
  effect := effect
  dies pid v := { v.look pid none with shared := release pid v.shared }
  moves v a := Moves v.shared a
  moved v a := { v with shared := moved v.shared a }

/-- The object that an order names is there, and comes from whoever filed it. -/
def Kept (v : Vault) : Prop :=
  ∀ id url, v.disputeEvidenceUrl id = some url →
    ∃ role, v.objects url = some role ∧ v.filer id = some role

structure Empty (v : Vault) : Prop where
  urls : ∀ id, v.disputeEvidenceUrl id = none
  objects : ∀ key, v.objects key = none
  lookedUp : ∀ pid, v.lookedUp pid = none

/-- A removal takes no object that an order names, and none that a filing under
way has looked up. -/
def SparesEffect (_ : Pid) (e : Effect) (o : Choice) (v : Vault) : Prop :=
  match e with
  | .removeObject key => o.fails = true ∨
      (∀ id, v.disputeEvidenceUrl id ≠ some key) ∧ ∀ pid, v.lookedUp pid ≠ some key
  | _ => True

def Spares : Pool Effect Reply Vault → Act Call Choice Move → Prop :=
  Heeds SparesEffect fun _ _ => True

/-- A key under which evidence of that role for that order is stored. -/
def Own (id : OrderId) (role : Party) (key : String) : Prop :=
  ∃ closedAt ext, key = deterministicKey (evidenceKeyFor ids id role closedAt) ext

variable {ids} {id id' : OrderId} {role role' : Party} {key url : String}

theorem Own.form (h : Own ids id role key) : ∃ rest, key.toList =
    "evidence/".toList ++ ((ids.text id).toList ++ ('-' :: ((roleText role).toList ++ rest))) := by
  obtain ⟨closedAt, ext, rfl⟩ := h
  cases closedAt with
  | none => exact ⟨'.' :: ext.text.toList, by simp [deterministicKey, evidenceKeyFor]⟩
  | some closedAt =>
    exact ⟨'-' :: ((toString closedAt).toList ++ '.' :: ext.text.toList),
      by simp [deterministicKey, evidenceKeyFor]⟩

theorem takeWhile_form (ids : Uuids) (id : OrderId) (role : Party) (rest : List Char) :
    ((ids.text id).toList ++ ('-' :: ((roleText role).toList ++ rest))).takeWhile uuidChar =
      (ids.text id).toList ++ ['-'] := by
  rw [List.takeWhile_append_of_pos (ids.chars id)]
  congr 1
  cases role <;> rfl

theorem Own.unique (h : Own ids id role key) (h' : Own ids id' role' key) :
    id = id' ∧ role = role' := by
  obtain ⟨rest, hrest⟩ := h.form
  obtain ⟨rest', hrest'⟩ := h'.form
  have hsame := List.append_cancel_left (hrest.symm.trans hrest')
  have htext := congrArg (List.takeWhile uuidChar) hsame
  rw [takeWhile_form, takeWhile_form] at htext
  obtain rfl := ids.injective (String.toList_injective (List.append_cancel_right htext))
  have htail := List.append_cancel_left hsame
  refine ⟨rfl, ?_⟩
  cases role <;> cases role' <;> simp_all [roleText]

theorem own_of_isOwnEvidencePath {closedAt : Option ℕ}
    (h : isOwnEvidencePath ids url id role closedAt = true) : Own ids id role url := by
  simp only [isOwnEvidencePath, Bool.and_eq_true, List.any_eq_true, decide_eq_true_eq] at h
  obtain ⟨hstart, ext, -, hext⟩ := h
  obtain ⟨rest, hrest⟩ := List.isPrefixOf_iff_prefix.mp hstart
  refine ⟨closedAt, ext, String.toList_injective ?_⟩
  rw [← hrest, List.drop_left] at hext
  rw [← hrest, hext]
  simp [deterministicKey]

/-- An effect that files no evidence, and puts only under keys of its own role. -/
def Tidy (ids : Uuids) : Effect → Prop
  | .putObject key role => ∃ id, Own ids id role key
  | .file _ _ _ _ (some _) => False
  | _ => True

theorem tidy_embed (p : Service α) : Every (Tidy ids) (p.embed .own : Handler α) := by
  apply Every.embed
  induction p with
  | pure | fail => trivial
  | step e k ih => exact ⟨trivial, ih⟩

theorem tidy_partyOf (home : Address) (id : OrderId) (caller : Address) :
    Every (Tidy ids) (partyOf home id caller) := by
  apply (tidy_embed _).bind
  intro order
  cases order with
  | none => trivial
  | some order =>
    apply (tidy_embed _).bind
    intro lp
    split
    next => trivial
    next =>
      refine (tidy_embed _).bind fun current => ⟨trivial, fun windowSecs => ?_⟩
      apply (tidy_embed _).bind
      intro now
      split <;> trivial

theorem tidy_removeSiblings (key : String) (exts : List Ext) :
    Every (Tidy ids) (removeSiblings key exts) := by
  induction exts with
  | nil => trivial
  | cons ext exts ih => exact ⟨trivial, fun _ => ih⟩

theorem tidy_upload (home : Address) (id : OrderId) (caller : Address)
    (file : Option UploadedFile) (inOrder : Ext → List Ext) :
    Every (Tidy ids) (uploadDisputeEvidence ids home id caller file inOrder) := by
  apply (tidy_partyOf home id caller).bind
  intro ⟨current, role⟩
  change Every _ (sniffAndStoreDeterministic _ _ _ _)
  rw [sniffAndStoreDeterministic]
  split
  next => trivial
  next ext _ =>
    refine ⟨⟨id, _, ext, rfl⟩, fun stored => ?_⟩
    change Every _ (if stored = true then _ else _)
    split
    next => exact (tidy_removeSiblings _ _).bind fun _ => trivial
    next => trivial

/-- The store and the column go by the keys; what an order names and what a
filing has looked up is there. -/
structure Sound (ids : Uuids) (v : Vault) : Prop where
  objects : ∀ key role, v.objects key = some role → ∃ id, Own ids id role key
  urls : ∀ id url, v.disputeEvidenceUrl id = some url →
    ∃ role, v.filer id = some role ∧ Own ids id role url
  named : ∀ id url, v.disputeEvidenceUrl id = some url → (v.objects url).isSome = true
  found : ∀ pid key, v.lookedUp pid = some key → (v.objects key).isSome = true

variable {v v' : Vault} {pid : Pid} {e : Effect} {o : Choice}

theorem Sound.of_empty (h : Empty v) : Sound ids v where
  objects key role hk := by simp [h.objects] at hk
  urls id url hu := by simp [h.urls] at hu
  named id url hu := by simp [h.urls] at hu
  found pid key hk := by simp [h.lookedUp] at hk

theorem Sound.kept (h : Sound ids v) : Kept v := by
  intro id url hu
  obtain ⟨role, hfiler, hown⟩ := h.urls id url hu
  obtain ⟨role', hrole'⟩ := Option.isSome_iff_exists.mp (h.named id url hu)
  obtain ⟨id', hown'⟩ := h.objects url role' hrole'
  obtain ⟨-, rfl⟩ := hown.unique hown'
  exact ⟨role, hrole', hfiler⟩

theorem Sound.share (h : Sound ids v) (s : Shared) : Sound ids { v with shared := s } :=
  ⟨h.objects, h.urls, h.named, h.found⟩

theorem Sound.look {key : Option String} (h : Sound ids v) (pid : Pid)
    (hkey : ∀ k, key = some k → (v.objects k).isSome = true) : Sound ids (v.look pid key) := by
  refine ⟨h.objects, h.urls, h.named, fun q k hk => ?_⟩
  dsimp only [Vault.look] at hk
  split at hk
  next => exact hkey k hk
  next => exact h.found q k hk

theorem Sound.leave (h : Sound ids v) (pid : Pid) : Sound ids (v.look pid none) :=
  h.look pid fun _ hk => by cases hk

theorem Sound.put (h : Sound ids v) (hown : ∃ id, Own ids id role key) :
    Sound ids { v with objects := fun k => if k = key then some role else v.objects k } := by
  have hstill (k : String) (hk : (v.objects k).isSome = true) :
      (if k = key then some role else v.objects k).isSome = true := by
    split
    next => rfl
    next => exact hk
  refine ⟨fun k r hk => ?_, h.urls, fun id url hu => hstill url (h.named id url hu),
    fun q k hk => hstill k (h.found q k hk)⟩
  dsimp only at hk
  split at hk
  next heq =>
    obtain rfl := Option.some.inj hk
    exact heq ▸ hown
  next => exact h.objects k r hk

theorem Sound.remove (h : Sound ids v) (hnamed : ∀ id, v.disputeEvidenceUrl id ≠ some key)
    (hfound : ∀ pid, v.lookedUp pid ≠ some key) :
    Sound ids { v with objects := fun k => if k = key then none else v.objects k } := by
  refine ⟨fun k r hk => ?_, h.urls, fun id url hu => ?_, fun q k hk => ?_⟩
  · dsimp only at hk
    split at hk
    next => cases hk
    next => exact h.objects k r hk
  · have hne : url ≠ key := fun heq => hnamed id (heq ▸ hu)
    dsimp only
    rw [if_neg hne]
    exact h.named id url hu
  · have hne : k ≠ key := fun heq => hfound q (heq ▸ hk)
    dsimp only
    rw [if_neg hne]
    exact h.found q k hk

/-- What is filed has been looked up, and is still there. -/
theorem Sound.file {reason note : String} {evidenceUrl : Option String} (h : Sound ids v)
    (hurl : ∀ url, evidenceUrl = some url → Own ids id role url ∧ (v.objects url).isSome = true) :
    Sound ids (runFile id role reason note evidenceUrl v).1 := by
  rw [runFile]
  split
  next => exact h
  next row _ =>
    refine ⟨h.objects, fun i url hu => ?_, fun i url hu => ?_, h.found⟩
    · dsimp only at hu ⊢
      split at hu
      next heq => exact ⟨role, if_pos heq, heq ▸ (hurl url hu).1⟩
      next hne =>
        rw [if_neg hne]
        exact h.urls i url hu
    · dsimp only at hu ⊢
      split at hu
      next => exact (hurl url hu).2
      next => exact h.named i url hu

theorem runFile_lookedUp (id : OrderId) (role : Party) (reason note : String)
    (evidenceUrl : Option String) (v : Vault) :
    (runFile id role reason note evidenceUrl v).1.lookedUp = v.lookedUp := by
  rw [runFile]
  split <;> rfl

theorem lookedUp_other {q : Pid} (hq : q ≠ pid) (v : Vault) (key : Option String) :
    (v.look pid key).lookedUp q = v.lookedUp q :=
  if_neg hq

theorem effect_lookedUp (pid : Pid) (e : Effect) (o : Choice) (v : Vault) (q : Pid) (hq : q ≠ pid) :
    (effect pid e o v).1.lookedUp q = v.lookedUp q := by
  cases e with
  | own | postSettleDisputeWindowSecs => rfl
  | putObject | removeObject =>
    simp only [effect]
    split <;> rfl
  | statObject key =>
    simp only [effect]
    split
    next => rfl
    next =>
      split
      next => exact lookedUp_other hq v _
      next => rfl
  | buildRaiseDisputeTx =>
    simp only [effect]
    split
    next => exact lookedUp_other hq v _
    next => rfl
  | file id role reason note evidenceUrl =>
    simp only [effect]
    split
    next => exact lookedUp_other hq v _
    next => rw [lookedUp_other hq, runFile_lookedUp]

theorem Sound.effect (h : Sound ids v) (he : Tidy ids e) (hspares : SparesEffect pid e o v) :
    Sound ids (effect pid e o v).1 := by
  cases e with
  | own e => exact h.share _
  | postSettleDisputeWindowSecs => exact h
  | statObject key =>
    simp only [Evidence.effect]
    split
    next => exact h
    next =>
      split
      next hthere => exact h.look pid fun k hk => Option.some.inj hk ▸ hthere
      next => exact h
  | putObject key role =>
    simp only [Evidence.effect]
    split
    next => exact h
    next => exact h.put he
  | removeObject key =>
    simp only [Evidence.effect]
    split
    next => exact h
    next hf =>
      obtain ⟨hnamed, hfound⟩ := hspares.resolve_left hf
      exact h.remove hnamed hfound
  | buildRaiseDisputeTx =>
    simp only [Evidence.effect]
    split
    next => exact h.leave pid
    next => exact h
  | file id role reason note evidenceUrl =>
    cases evidenceUrl with
    | some url => exact he.elim
    | none =>
      simp only [Evidence.effect]
      split
      next => exact h.leave pid
      next => exact (h.file fun url hu => by cases hu).leave pid

variable {y : Settings}

def sparing (ids : Uuids) (y : Settings) : System Call Choice Move Effect Reply Vault :=
  (office ids y).restrict SparesEffect fun _ _ => True

/-- Nobody else has a say in what a filing has looked up. -/
def filingProtocol (ids : Uuids) (y : Settings) : Protocol (sparing ids y) where
  rely pid v v' := v'.lookedUp pid = v.lookedUp pid
  guar pid v v' := ∀ q ≠ pid, v'.lookedUp q = v.lookedUp q
  inv := Sound ids
  refl _ _ := rfl
  trans _ _ _ _ h h' := h'.trans h
  shares _ q _ _ hne _ h := h q (Ne.symm hne)
  dies pid _ hv := ⟨(hv.leave pid).share _, fun _ hq => lookedUp_other (Ne.symm hq) _ _⟩
  moved _ _ hv _ := ⟨hv.share _, fun _ => rfl⟩

theorem tidy_safe {p : Handler α} (hp : Every (Tidy ids) p) (v : Vault) :
    Safe ((filingProtocol ids y).of pid) (fun _ _ => True) p v :=
  safe_every (filingProtocol ids y)
    (fun e he t o ht hperm => ⟨effect_lookedUp pid e o t, ht.effect he hperm.2⟩) hp v

/-- The process has looked up the evidence that it names, under a key of its own. -/
def Ready (ids : Uuids) (pid : Pid) (id : OrderId) (role : Party) (evidenceUrl : Option String)
    (v : Vault) : Prop :=
  ∀ url, evidenceUrl = some url → Own ids id role url ∧ v.lookedUp pid = some url

theorem Ready.keep {evidenceUrl : Option String} (h : Ready ids pid id role evidenceUrl v)
    (hrely : (filingProtocol ids y).rely pid v v') : Ready ids pid id role evidenceUrl v' := by
  intro url hu
  obtain ⟨hown, hlooked⟩ := h url hu
  exact ⟨hown, hrely.trans hlooked⟩

theorem checkEvidence_safe (id : OrderId) (role : Party) (closedAt : Option ℕ)
    (evidenceUrl : Option String) (v : Vault) :
    Safe ((filingProtocol ids y).of pid) (fun _ => Ready ids pid id role evidenceUrl)
      (checkEvidence ids id role closedAt evidenceUrl) v := by
  cases evidenceUrl with
  | none =>
    intro t _ _ url hu
    cases hu
  | some url =>
    rw [checkEvidence]
    split
    next hown =>
      apply safe_step
      intro t o _ ht hperm
      refine ⟨effect_lookedUp pid _ o t, ht.effect trivial hperm.2, ?_⟩
      simp only [sparing, System.restrict, office, effect]
      split
      next => trivial
      next =>
        split
        next =>
          intro t' hrely _ u hu
          obtain rfl := Option.some.inj hu
          exact ⟨own_of_isOwnEvidencePath hown, hrely.trans (if_pos rfl)⟩
        next => trivial
    next => trivial

theorem Sound.filing {reason note : String} {evidenceUrl : Option String} (h : Sound ids v)
    (hready : Ready ids pid id role evidenceUrl v) :
    Sound ids (Evidence.effect pid (.file id role reason note evidenceUrl) o v).1 := by
  simp only [Evidence.effect]
  split
  next => exact h.leave pid
  next =>
    refine (h.file fun url hurl => ?_).leave pid
    obtain ⟨hown, hlooked⟩ := hready url hurl
    exact ⟨hown, h.found pid url hlooked⟩

theorem fileDispute_safe {evidenceUrl : Option String} (caller : Address) (reason note : String)
    (h : Ready ids pid id role evidenceUrl v) :
    Safe ((filingProtocol ids y).of pid) (fun _ _ => True)
      (fileDispute id caller role reason note evidenceUrl) v := by
  apply safe_step
  intro t o hvt ht hperm
  refine ⟨effect_lookedUp pid _ o t, ht.effect trivial hperm.2, ?_⟩
  simp only [sparing, System.restrict, office, effect]
  split
  next => trivial
  next =>
    apply safe_step
    intro u o' htu hu _
    have hready := (h.keep hvt).keep htu
    refine ⟨effect_lookedUp pid _ o' u, hu.filing hready, ?_⟩
    change Safe _ _ (if _ = some 1 then _ else _) _
    split
    next => exact tidy_safe (tidy_embed _) _
    next => trivial

theorem postDispute_safe (home : Address) (id : OrderId) (caller : Address) (reason note : String)
    (evidenceUrl : Option String) (hv : Sound ids v) :
    Safe ((filingProtocol ids y).of pid) (fun _ _ => True)
      (postDispute ids home id caller reason note evidenceUrl) v := by
  refine (tidy_safe (tidy_partyOf home id caller) v).bind (fun _ => rfl) hv
    fun ⟨current, role⟩ t ht _ => ?_
  dsimp only
  split
  next => trivial
  next =>
    split
    next =>
      split
      next => trivial
      next =>
        refine (checkEvidence_safe id role _ evidenceUrl t).bind (fun _ => rfl) ht
          fun _ u hu hready => ?_
        exact fileDispute_safe caller reason _ hready
    next => trivial

theorem body_safe (c : Call) (hv : Sound ids v) :
    Safe ((filingProtocol ids y).of pid) (fun _ _ => True) (body ids y c) v := by
  cases c with
  | uploadDisputeEvidence id caller file inOrder =>
    have hupload : Every (Tidy ids) (body ids y (.uploadDisputeEvidence id caller file inOrder)) :=
      (tidy_upload _ _ _ _ _).bind fun _ => trivial
    exact tidy_safe hupload v
  | postDispute id caller reason note evidenceUrl =>
    refine (postDispute_safe _ id caller reason note evidenceUrl hv).bind (fun _ => rfl) hv
      fun _ _ _ _ => ?_
    intro _ _ _
    trivial
  | other c => exact tidy_safe (tidy_embed _) v

variable {w : Pool Effect Reply Vault}

abbrev Log := List (Entry (Pool Effect Reply Vault) (Act Call Choice Move) (Option (Pid × Effect)))

/-- Along a run whose removals are sparing, the evidence of every filing stays
where it was, from the party that filed it. -/
theorem filed_evidence_kept {tr : Log} (hv : Empty v)
    (hr : Run (machine (office ids y)) (idle v) tr w) (hspares : ∀ e ∈ tr, Spares e.pre e.act) :
    Kept w.shared := by
  have horder : Orderly (filingProtocol ids y) w :=
    run_orderly_of_heeds (fun _ c _ hs _ => body_safe c hs) hr (.of_empty hv) hspares
  exact horder.1.kept

section Samples

def sampleUuids : Uuids where
  text id := "1b4e28ba-2fa1-41d2-883f-0016d3fba42" ++ String.ofList (List.replicate (id + 1) '7')
  chars id c hc := by
    rw [String.toList_append, List.mem_append] at hc
    obtain hc | hc := hc
    · have hall : "1b4e28ba-2fa1-41d2-883f-0016d3fba42".toList.all uuidChar = true := by
        decide +kernel
      exact List.all_eq_true.mp hall c hc
    · rw [String.toList_ofList] at hc
      obtain rfl := List.eq_of_mem_replicate hc
      rfl
  injective id id' h := by
    have hlength := congrArg (fun text => text.toList.length) h
    simpa using hlength

/-- A paid order of the user `⟨7⟩`, before the first upload. -/
def sampleVault : Vault where
  shared := sampleDesk ((∅ : Store OrderId Order).insert 0 (samplePlacement.opened.setStatus .fiatPaid))
  disputeEvidenceUrl _ := none
  filer _ := none
  objects _ := none
  lookedUp _ := none

def sampleJpg : UploadedFile := ⟨[0xff, 0xd8, 0xff], "image/jpeg"⟩

def samplePng : UploadedFile := ⟨[0x89, 0x50, 0x4e, 0x47, 0x0d, 0x0a, 0x1a, 0x0a], "image/png"⟩

def others (ext : Ext) : List Ext := extensions.filter fun other => other ≠ ext

def sampleUrl : String := deterministicKey (evidenceKeyFor sampleUuids 0 .user none) .jpg

def through (pid : Pid) (c : Call) : List (Act Call Choice Move) :=
  .spawn pid c :: List.replicate 9 (.go pid {})

def filedActions : List (Act Call Choice Move) :=
  through 0 (.uploadDisputeEvidence 0 ⟨7⟩ (some sampleJpg) others) ++
    through 1 (.postDispute 0 ⟨7⟩ "OTHER" "paid" (some sampleUrl))

def replacedActions : List (Act Call Choice Move) :=
  filedActions ++ through 2 (.uploadDisputeEvidence 0 ⟨7⟩ (some samplePng) others)

theorem replacedActions_admitted :
    Admitted (machine (office sampleUuids sampleSettings)) (idle sampleVault) replacedActions := by
  refine ⟨⟨rfl, fun _ => .rfl⟩, trivial, trivial, .inl rfl, trivial, trivial, trivial, trivial, trivial, trivial,
    ⟨rfl, trivial⟩, trivial, trivial, .inl rfl, trivial, trivial, trivial, trivial, trivial, trivial,
    ⟨rfl, fun _ => .rfl⟩, trivial, trivial, .inl rfl, trivial, trivial, trivial, trivial, trivial, trivial, trivial⟩

def sampleOffice : Machine (Pool Effect Reply Vault) (Act Call Choice Move) (Option (Pid × Effect)) :=
  machine (office sampleUuids sampleSettings)

theorem sampleVault_empty : Empty sampleVault := ⟨fun _ => rfl, fun _ => rfl, fun _ => rfl⟩

theorem filedActions_spare :
    ∀ e ∈ history sampleOffice (idle sampleVault) filedActions, Spares e.pre e.act := by
  refine history_meets _ _ ?_
  have hnone {f : ℕ → Option String} (hf : ∀ n, f n = none) (key : String) (n : ℕ) :
      f n ≠ some key := by simp [hf]
  exact ⟨trivial, trivial, trivial, trivial, trivial, trivial, trivial,
    .inr ⟨hnone (fun _ => rfl) _, hnone (fun _ => rfl) _⟩,
    .inr ⟨hnone (fun _ => rfl) _, hnone (fun _ => rfl) _⟩,
    .inr ⟨hnone (fun _ => rfl) _, hnone (fun _ => rfl) _⟩,
    trivial, trivial, trivial, trivial, trivial, trivial, trivial, trivial, trivial, trivial, trivial⟩

theorem sample_filed_evidence_kept :
    (final sampleOffice (idle sampleVault) filedActions).shared.disputeEvidenceUrl 0 = some sampleUrl ∧
    (final sampleOffice (idle sampleVault) filedActions).shared.objects sampleUrl = some .user ∧
    Kept (final sampleOffice (idle sampleVault) filedActions).shared :=
  ⟨by decide +kernel, by decide +kernel, filed_evidence_kept sampleVault_empty
    (Run.of_actions _ _ (Admitted.of_append replacedActions_admitted).1) filedActions_spare⟩

/-- The second upload takes away what the filing names. -/
theorem second_upload_removes_evidence : ∃ tr w,
    Empty sampleVault ∧ Run sampleOffice (idle sampleVault) tr w ∧
    w.shared.disputeEvidenceUrl 0 = some sampleUrl ∧ w.shared.objects sampleUrl = none ∧
    ¬ ∀ e ∈ tr, Kept e.post.shared := by
  have hadmitted : Admitted sampleOffice (idle sampleVault) (replacedActions.take 29 ++ [.go 2 {}]) :=
    replacedActions_admitted
  obtain ⟨hbefore, hlast, -⟩ := Admitted.of_append hadmitted
  have hurl : (sampleOffice.next (final sampleOffice (idle sampleVault) (replacedActions.take 29))
      (.go 2 {})).shared.disputeEvidenceUrl 0 = some sampleUrl := by
    decide +kernel
  have hgone : (sampleOffice.next (final sampleOffice (idle sampleVault) (replacedActions.take 29))
      (.go 2 {})).shared.objects sampleUrl = none := by
    decide +kernel
  refine ⟨_, _, sampleVault_empty, (Run.of_actions _ _ hbefore).snoc (.go 2 {}) hlast, hurl, hgone,
    fun h => ?_⟩
  obtain ⟨role, hrole, -⟩ := h _ (List.mem_append_right _ (List.mem_singleton_self _)) 0 sampleUrl hurl
  cases hgone.symm.trans hrole

end Samples

end Lolipay.Coordinator.Evidence
