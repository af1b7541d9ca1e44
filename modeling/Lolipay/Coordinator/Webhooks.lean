import Mathlib.Algebra.Order.Archimedean.Basic
import Mathlib.Data.Rat.Floor
import Lolipay.Coordinator.DeliveryOrder

namespace Lolipay.Coordinator.Webhooks

open Lolipay.Ledger.Storage Lolipay.Ledger.Runs
open Lolipay.Async.Process Lolipay.Async.Scheduling
open Lolipay.Coordinator.Orders Lolipay.Coordinator.Identity
open Lolipay.Coordinator.DeliveryOrder (conclusion_base)
open Lolipay.Coordinator.IdentityGate (gateProtocol Opening Unrefused Grounded body_safe sampleSettings
  emptyBureau emptyBureau_opening clearance)

abbrev Raw := List UInt8

/-- What a body says, once it is read as JSON; a time is `none` if it is no
finite number. -/
structure Event where
  webhookType : Option String
  timestamp : Option ℚ
  payload : Payload

/-- A request: the bytes that were captured and the two headers, with the number
that the time is read as. -/
structure Request where
  raw : Raw
  signature : String
  timestamp : Option ℚ

/-- The secret shared with the vendor, the keyed hash and the reader of JSON. -/
structure Setting where
  kyc : Settings
  diditWebhookSecret : String
  hmac : String → Raw → String
  parse : Raw → Option Event

def diditFreshnessSecs : ℚ := 300

def fresh (nowSecs : ℕ) (sent : ℚ) : Bool := |(nowSecs : ℚ) - sent| < diditFreshnessSecs

def verifyDiditDelivery (d : Setting) (r : Request) (nowSecs : ℕ) : Except String Unit :=
  if d.diditWebhookSecret = "" then .error "no webhook secret is configured"
  else if r.raw = [] then .error "the bytes of this delivery were not captured"
  else if !r.timestamp.any (fresh nowSecs) then .error "timestamp is outside the freshness window"
  else if d.hmac d.diditWebhookSecret r.raw ≠ r.signature then
    .error "signature does not match the bytes that arrived"
  else .ok ()

def nonSessionEventFamilies : List String :=
  ["user.", "business.", "activity.", "transaction.", "travel_rule.", "workflow."]

def isNonSession (eventName : String) : Bool :=
  nonSessionEventFamilies.any fun family => family.toList.isPrefixOf eventName.toList

/-- What becomes of a request: it is refused, something is recorded, it is about
something else, or it is handed on with the time it was sent at. -/
inductive Outcome where
  | unauthorized (reason : String)
  | recorded (reason : String)
  | ignored
  | delivered (payload : Payload) (deliveredAt : ℕ)

/-- The handler up to its first wait. It reads the clock twice. -/
def receive (d : Setting) (r : Request) (checkedSecs nowSecs : ℕ) : Outcome :=
  match verifyDiditDelivery d r checkedSecs with
  | .error reason => .unauthorized reason
  | .ok () =>
    match d.parse r.raw with
    | none => .recorded "a signed delivery did not carry readable json"
    | some event =>
      if event.webhookType.any isNonSession then .ignored
      else
        match event.timestamp.filter (fresh nowSecs) with
        | none => .recorded "a delivery carried a time this anchor will not order by"
        | some sent => .delivered event.payload ⌊sent * 1000⌋₊

/-- The office behind the webhook, and the bodies that the vendor has signed,
which are no data of the service. -/
structure Doorway where
  office : Office
  signed : List Raw

inductive DoorAct where
  | sign (raw : Raw)
  | request (pid : Pid) (r : Request) (checked : ℕ)
  | inside (a : Act Call Choice ℕ)

def Doorway.secs (s : Doorway) : ℕ := s.office.shared.now / 1000

def taken (d : Setting) (s : Doorway) (pid : Pid) (r : Request) (checked : ℕ) : Act Call Choice ℕ :=
  match receive d r checked s.secs with
  | .delivered payload deliveredAt => .spawn pid (.applyDelivery payload deliveredAt)
  | _ => .outside s.office.shared.now

def isDelivery : Act Call Choice ℕ → Bool
  | .spawn _ (.applyDelivery _ _) => true
  | _ => false

/-- Anybody may send anything, but only who has the secret can sign. -/
def doorAdmits (d : Setting) (s : Doorway) : DoorAct → Prop
  | .sign _ => True
  | .request pid r checked => s.office.running pid = none ∧ checked ≤ s.secs ∧
    (r.signature = d.hmac d.diditWebhookSecret r.raw → r.raw ∈ s.signed)
  | .inside a => (machine (bureau d.kyc)).admits s.office a ∧ isDelivery a = false

def doorNext (d : Setting) (s : Doorway) : DoorAct → Doorway
  | .sign raw => { s with signed := raw :: s.signed }
  | .request pid r checked =>
    { s with office := (machine (bureau d.kyc)).next s.office (taken d s pid r checked) }
  | .inside a => { s with office := (machine (bureau d.kyc)).next s.office a }

def doorway (d : Setting) : Machine Doorway DoorAct Unit where
  admits := doorAdmits d
  next := doorNext d
  out _ _ := ()

abbrev Log := List (Entry Doorway DoorAct Unit)

/-- Behind a delivery on record is a request with a body that the vendor had
signed, which was sent within five minutes of the request. -/
structure Vouched (d : Setting) (tr : Log) (dl : Delivery) (raw : Raw) (event : Event) (sent : ℚ) :
    Prop where
  request : ∃ e ∈ tr, ∃ pid r checked, e.act = .request pid r checked ∧ r.raw = raw ∧
    raw ∈ e.pre.signed ∧ fresh e.pre.secs sent = true
  parse : d.parse raw = some event
  timestamp : event.timestamp = some sent
  customer : event.payload.vendorData = some dl.ref
  environment : event.payload.environment = some d.kyc.diditEnvironment
  conclusion : dl.conclusion = readDiditDecision event.payload d.kyc.kycRequireAml
  deliveredAt : dl.deliveredAt = ⌊sent * 1000⌋₊

variable {d : Setting} {y : Settings} {s : Doorway} {w : Office} {pid : Pid} {P : Effect → Prop}

section Calls

/-- A call writes no delivery but the one that it was made for. -/
def Accounts (y : Settings) (call : Call) : Effect → Prop
  | .writeDelivery ref _ conclusion deliveredAt _ =>
    ∃ payload, call = .applyDelivery payload deliveredAt ∧
      conclusion = readDiditDecision payload y.kycRequireAml ∧
      payload.vendorData = some ref ∧ payload.environment = some y.diditEnvironment
  | _ => True

variable {call : Call} {ref : CustomerRef} {personId : PersonId}

theorem attempt_accounts {α β : Type} {e : Effect} {get : Reply e → Option α} {f : α → Service β}
    (h : Accounts y call e) (hf : ∀ a, Every (Accounts y call) (f a)) :
    Every (Accounts y call) ((attempt e get : Service α) >>= f) := by
  refine ⟨h, fun r => ?_⟩
  dsimp only
  cases get r with
  | none => trivial
  | some a => exact hf a

theorem rollback_accounts : Every (Accounts y call) (failAfter .rollback : Service Unit) :=
  every_failAfter trivial

theorem leave_accounts : Every (Accounts y call) leave := ⟨trivial, fun _ => trivial⟩

theorem recordIncomplete_accounts : Every (Accounts y call) (recordIncomplete y ref personId) := by
  refine every_issue trivial fun _ => every_issue trivial ?_
  rintro (_ | _ | _)
  · exact rollback_accounts
  · refine every_issue trivial ?_
    rintro (_ | settled)
    · exact rollback_accounts
    · refine every_issue trivial fun now => every_issue trivial fun now' => ?_
      split
      · exact leave_accounts
      · exact every_issue trivial every_demand
  · exact rollback_accounts

theorem startLocked_accounts (decision : KycDecision) (startedAt : ℕ) :
    Every (Accounts y call) (startLocked y ref personId decision startedAt) := by
  refine every_issue trivial fun _ => every_issue trivial ?_
  rintro (_ | settled)
  · exact rollback_accounts
  · refine every_issue trivial fun now => every_issue trivial fun now' => ?_
    split
    · exact leave_accounts
    · refine every_issue trivial ?_
      rintro (_ | _ | _)
      · exact rollback_accounts
      · exact every_issue trivial every_demand
      · exact leave_accounts

theorem openSession_accounts : Every (Accounts y call) (openSession y ref personId) := by
  refine every_issue trivial fun opening => ?_
  split
  · trivial
  · exact attempt_accounts trivial fun decision =>
      every_issue trivial (startLocked_accounts decision)

theorem resubmit_accounts (complete : Bool) :
    Every (Accounts y call) (resubmit y ref personId complete) := by
  refine attempt_accounts trivial fun row => ?_
  refine every_issue trivial fun now => every_issue trivial fun now' => ?_
  split
  · trivial
  · split
    · exact openSession_accounts
    · exact recordIncomplete_accounts

theorem put_accounts (mail complete : Bool) :
    Every (Accounts y call) (put y ref mail complete) := by
  refine attempt_accounts trivial ?_
  rintro (_ | personId)
  · trivial
  · refine attempt_accounts trivial fun refused => ?_
    split
    · trivial
    · split
      · exact attempt_accounts trivial fun _ => resubmit_accounts complete
      · exact resubmit_accounts complete

theorem redactLocked_accounts : Every (Accounts y call) (redactLocked y ref personId) := by
  refine every_issue trivial fun _ => every_issue trivial ?_
  rintro (_ | _ | ⟨first, rest⟩)
  · exact rollback_accounts
  · exact leave_accounts
  · exact every_issue trivial every_demand

theorem forget_accounts : Every (Accounts y call) (forget y ref) := by
  refine attempt_accounts trivial fun person => attempt_accounts trivial fun _ => ?_
  cases person with
  | none => trivial
  | some personId => exact redactLocked_accounts

theorem identityVerified_accounts : Every (Accounts y call) (identityVerified personId) := by
  refine attempt_accounts trivial fun accepted => ?_
  split
  · exact attempt_accounts trivial fun _ => trivial
  · trivial

theorem applyDelivery_accounts (payload : Payload) (deliveredAt : ℕ) :
    Every (Accounts y (.applyDelivery payload deliveredAt))
      (applyDelivery y (readDiditDecision payload y.kycRequireAml) deliveredAt) := by
  obtain ⟨hcustomer, -, henvironment⟩ := conclusion_base payload y.kycRequireAml
  rw [applyDelivery, hcustomer, henvironment]
  cases href : payload.vendorData.filter (· ≠ "") with
  | none => trivial
  | some ref =>
    have hvendor : payload.vendorData = some ref := (Option.filter_eq_some_iff.mp href).1
    dsimp only
    split
    next => trivial
    next hskip =>
      have henv : payload.environment = some y.diditEnvironment := by
        by_contra hne
        exact hskip (.inr hne)
      refine attempt_accounts trivial ?_
      rintro (_ | personId)
      · trivial
      · refine every_issue trivial fun _ => every_issue trivial ?_
        rintro (_ | elsewhere)
        · exact rollback_accounts
        · dsimp only
          split
          · exact leave_accounts
          · refine every_issue trivial ?_
            rintro (_ | standing)
            · exact rollback_accounts
            · dsimp only
              split
              · exact leave_accounts
              · exact every_issue ⟨payload, rfl, rfl, hvendor, henv⟩ every_demand

theorem body_accounts (call : Call) : Every (Accounts y call) ((bureau y).body call) := by
  cases call with
  | put ref mail complete => exact put_accounts mail complete
  | recordIncomplete ref => exact recordIncomplete_accounts
  | applyDelivery payload deliveredAt => exact applyDelivery_accounts payload deliveredAt
  | forget ref => exact forget_accounts
  | identityVerified personId => exact identityVerified_accounts

end Calls

theorem effect_deliveries (y : Settings) (pid : Pid) (e : Effect) (o : Choice) (s : Shared) :
    (effect y pid e o s).1.deliveries = s.deliveries ∨
      ∃ ref personId conclusion deliveredAt standing,
        e = .writeDelivery ref personId conclusion deliveredAt standing ∧
        (effect y pid e o s).1.deliveries = ⟨ref, conclusion, deliveredAt⟩ :: s.deliveries := by
  cases e with
  | writeDelivery ref personId conclusion deliveredAt standing =>
    simp only [effect, runDelivery]
    split
    · exact .inl rfl
    · split
      · exact .inl rfl
      · exact .inr ⟨_, _, _, _, _, rfl, rfl⟩
  | findRefusal personId =>
    left
    simp only [effect, runFindRefusal]
    repeat' split
    all_goals rfl
  | lookupPerson | findRow | anyRefused | findRefusals | clock | saveEmail | isOpening | start | lock
  | rollback => exact .inl rfl
  | upsertIncomplete | upsertStarted | deleteMany | redact | findAccepted =>
    left
    simp only [effect]
    split <;> rfl

theorem deliveries_called {s : Shared}
    {tr : List (Entry Office (Act Call Choice ℕ) (Option (Pid × Effect)))}
    (hs : s.deliveries = []) (hr : Run (machine (bureau y)) (idle s) tr w) :
    ∀ dl ∈ w.shared.deliveries, ∃ call, (∃ e ∈ tr, ∃ pid, e.act = .spawn pid call) ∧
      ∃ payload, call = .applyDelivery payload dl.deliveredAt ∧
        dl.conclusion = readDiditDecision payload y.kycRequireAml ∧
        payload.vendorData = some dl.ref ∧ payload.environment = some y.diditEnvironment := by
  induction hr with
  | nil =>
    intro dl hdl
    change dl ∈ s.deliveries at hdl
    rw [hs] at hdl
    cases hdl
  | @snoc tr u h a ha ih =>
    intro dl hdl
    have hold (hdl : dl ∈ u.shared.deliveries) : ∃ call,
        (∃ e ∈ tr ++ [(machine (bureau y)).entry u a], ∃ pid, e.act = .spawn pid call) ∧
        ∃ payload, call = .applyDelivery payload dl.deliveredAt ∧
          dl.conclusion = readDiditDecision payload y.kycRequireAml ∧
          payload.vendorData = some dl.ref ∧ payload.environment = some y.diditEnvironment := by
      obtain ⟨call, ⟨e, he, hspawn⟩, hrest⟩ := ih dl hdl
      exact ⟨call, ⟨e, List.mem_append_left _ he, hspawn⟩, hrest⟩
    cases a with
    | spawn | kill | outside => exact hold hdl
    | go pid o =>
      obtain ⟨e, k, hrun, -, -, hnext⟩ := go_cases ha
      rw [hnext] at hdl
      obtain hsame | ⟨ref, personId, conclusion, deliveredAt, standing, rfl, hcons⟩ :=
        effect_deliveries y pid e o u.shared
      · exact hold (hsame ▸ hdl)
      · obtain rfl | hdl := List.mem_cons.mp (hcons ▸ hdl)
        · obtain ⟨call, ⟨e', he', hspawn⟩, hevery⟩ :=
            spawned_every (P := Accounts y) (fun _ call _ => body_accounts call) h hrun
          exact ⟨call, ⟨e', List.mem_append_left _ he', pid, hspawn⟩, hevery.1⟩
        · exact hold hdl

/-- A request that is handed on was signed with the secret and is fresh. -/
theorem receive_delivered {r : Request} {checked nowSecs deliveredAt : ℕ} {payload : Payload}
    (h : receive d r checked nowSecs = .delivered payload deliveredAt) :
    d.hmac d.diditWebhookSecret r.raw = r.signature ∧ ∃ event sent, d.parse r.raw = some event ∧
      event.timestamp = some sent ∧ fresh nowSecs sent = true ∧ event.payload = payload ∧
      deliveredAt = ⌊sent * 1000⌋₊ := by
  rw [receive] at h
  split at h
  next => cases h
  next hverified =>
    have hsigned : d.hmac d.diditWebhookSecret r.raw = r.signature := by
      rw [verifyDiditDelivery] at hverified
      split_ifs at hverified with _ _ _ hne
      exact not_not.mp hne
    refine ⟨hsigned, ?_⟩
    split at h
    next => cases h
    next event hparse =>
      split at h
      next => cases h
      next =>
        split at h
        next => cases h
        next sent hsent =>
          obtain ⟨rfl, rfl⟩ := Outcome.delivered.inj h
          obtain ⟨htime, hfresh⟩ := Option.filter_eq_some_iff.mp hsent
          exact ⟨event, sent, hparse, htime, hfresh, rfl, rfl⟩

def inner (d : Setting) (s : Doorway) : DoorAct → Act Call Choice ℕ
  | .sign _ => .outside s.office.shared.now
  | .request pid r checked => taken d s pid r checked
  | .inside a => a

theorem taken_admits {r : Request} {checked : ℕ} (h : s.office.running pid = none) :
    (machine (bureau d.kyc)).admits s.office (taken d s pid r checked) := by
  rw [taken]
  split
  · exact ⟨h, trivial⟩
  · exact le_refl s.office.shared.now

theorem office_run {tr : Log} {t : Doorway} (hr : Run (doorway d) s tr t) :
    Run (machine (bureau d.kyc)) s.office
      (tr.map fun e => (machine (bureau d.kyc)).entry e.pre.office (inner d e.pre e.act)) t.office := by
  apply hr.project Doorway.office (inner d) (I := fun _ => True) trivial fun _ _ _ _ => trivial
  rintro u (raw | ⟨pid, r, checked⟩ | a) - ha
  · exact ⟨le_refl u.office.shared.now, rfl⟩
  · exact ⟨taken_admits ha.1, rfl⟩
  · exact ⟨ha.1, rfl⟩

theorem request_of_spawn {a : DoorAct} {payload : Payload} {deliveredAt : ℕ}
    (ha : (doorway d).admits s a) (h : inner d s a = .spawn pid (.applyDelivery payload deliveredAt)) :
    ∃ r checked, a = .request pid r checked ∧
      receive d r checked s.secs = .delivered payload deliveredAt := by
  cases a with
  | sign raw => cases h
  | request q r checked =>
    change taken d s q r checked = _ at h
    rw [taken] at h
    split at h
    next hreceive =>
      obtain ⟨rfl, hcall⟩ := Act.spawn.inj h
      obtain ⟨rfl, rfl⟩ := Call.applyDelivery.inj hcall
      exact ⟨r, checked, rfl, hreceive⟩
    next => cases h
  | inside a =>
    have hnot := ha.2
    rw [show a = _ from h] at hnot
    cases hnot

theorem deliveries_vouched {start : Shared} {signed : List Raw} {tr : Log} {t : Doorway}
    (hs : start.deliveries = []) (hr : Run (doorway d) ⟨idle start, signed⟩ tr t) :
    ∀ dl ∈ t.office.shared.deliveries, ∃ raw event sent, Vouched d tr dl raw event sent := by
  intro dl hdl
  obtain ⟨call, ⟨e', he', pid, hspawn⟩, payload, rfl, hconclusion, hcustomer, henvironment⟩ :=
    deliveries_called hs (office_run hr) dl hdl
  obtain ⟨e, he, rfl⟩ := List.mem_map.mp he'
  obtain ⟨-, -, -, -, ha, -, -⟩ := hr.of_mem he
  obtain ⟨r, checked, hact, hreceive⟩ := request_of_spawn ha hspawn
  obtain ⟨hsigned, event, sent, hparse, htime, hfresh, rfl, hat⟩ := receive_delivered hreceive
  rw [hact] at ha
  exact ⟨r.raw, event, sent, ⟨e, he, pid, r, checked, hact, rfl, ha.2.2 hsigned.symm, hfresh⟩, hparse,
    htime, hcustomer, henvironment, hconclusion, hat⟩

/-- Whatever anybody sends to the webhook: every delivery on record is one that
the vendor signed and that came within five minutes of its time, and whoever is
verified was so by such a delivery that accepts him, and stands refused nowhere. -/
theorem verified_by_vendor {start : Shared} {signed : List Raw} {tr : Log} {t : Doorway}
    (hs : Opening d.kyc start) (hnew : start.deliveries = [])
    (hr : Run (doorway d) ⟨idle start, signed⟩ tr t) :
    (∀ dl ∈ t.office.shared.deliveries, ∃ raw event sent, Vouched d tr dl raw event sent) ∧
    ∀ a ∈ t.office.shared.answers, Unrefused a.personId a.unrefused ∧
      ∃ dl raw event sent row, Vouched d tr dl raw event sent ∧ dl.conclusion.status = .accepted ∧
        (d.kyc.kycRequireAml = true → dl.conclusion.screened = true) ∧
        a.accepted.lookup dl.ref = some row ∧ row.personId = a.personId := by
  have hvouched := deliveries_vouched hnew hr
  refine ⟨hvouched, fun a ha => ?_⟩
  have horderly : Orderly (gateProtocol d.kyc) t.office :=
    run_orderly body_safe (office_run hr) (.idle hs.sound)
  have hgrounded : Grounded d.kyc t.office.shared.deliveries a := horderly.1.answers a ha
  obtain ⟨ref, row, dl, hrow, hperson, -, hdl, rfl, haccepted, hscreened, -⟩ := hgrounded.admits
  obtain ⟨raw, event, sent, hdl⟩ := hvouched dl hdl
  exact ⟨hgrounded.still, dl, raw, event, sent, row, hdl, haccepted, fun h => (hscreened h).1, hrow,
    hperson⟩

section Sample

instance (s : Doorway) : (a : DoorAct) → Decidable ((doorway d).admits s a)
  | .sign _ => .isTrue trivial
  | .request pid r checked =>
    decidable_of_iff ((s.office.running pid).isNone ∧ checked ≤ s.secs ∧
      (r.signature = d.hmac d.diditWebhookSecret r.raw → r.raw ∈ s.signed))
      (by rw [Option.isNone_iff_eq_none]; rfl)
  | .inside a =>
    inferInstanceAs (Decidable ((machine (bureau d.kyc)).admits s.office a ∧ isDelivery a = false))

/-- The vendor's hash of a body is the text of its length. -/
def sampleSetting : Setting where
  kyc := sampleSettings
  diditWebhookSecret := "secret"
  hmac _ raw := toString raw.length
  parse _ := some ⟨some "status.updated", some 90, clearance⟩

def sampleRequest : Request := ⟨[1], "1", some 90⟩

def goes (pid : Pid) (steps : ℕ) : List DoorAct := List.replicate steps (.inside (.go pid {}))

def sampleActions : List DoorAct :=
  [.sign [1], .request 0 sampleRequest 100] ++ goes 0 5 ++
    (.inside (.spawn 1 (.identityVerified 1)) :: goes 1 2)

def sampleEnd : Doorway := final (doorway sampleSetting) ⟨idle emptyBureau, []⟩ sampleActions

theorem verified_by_vendor_sample : sampleEnd.office.shared.answers.length = 1 ∧
    ∀ a ∈ sampleEnd.office.shared.answers, Unrefused a.personId a.unrefused := by
  have hrun : Run (doorway sampleSetting) ⟨idle emptyBureau, []⟩ _ sampleEnd :=
    .of_actions sampleActions _ (by decide +kernel)
  obtain ⟨-, hanswers⟩ := verified_by_vendor emptyBureau_opening rfl hrun
  exact ⟨by decide +kernel, fun a ha => (hanswers a ha).1⟩

end Sample

end Lolipay.Coordinator.Webhooks
