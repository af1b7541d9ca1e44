import Lolipay.Ledger.Latest
import Lolipay.Coordinator.IdentityGate

namespace Lolipay.Coordinator.DeliveryOrder

open Lolipay.Ledger.Storage Lolipay.Ledger.Latest
open Lolipay.Async.Process Lolipay.Async.Scheduling
open Lolipay.Coordinator.Orders Lolipay.Coordinator.Identity
open Lolipay.Coordinator.IdentityGate (anyRow_true anyRow_false sampleSettings sampleChoice emptyBureau
  clearance)

structure Webhook where
  payload : Payload
  deliveredAt : ℕ

def smoothly (y : Settings) (pid : Pid) (e : Effect) (s : Shared) : Shared × Reply e :=
  effect y pid e {} s

def conclusionOf (y : Settings) (d : Webhook) : DiditConclusion :=
  readDiditDecision d.payload y.kycRequireAml

/-- One webhook, received at a time of its own. -/
def deliver (y : Settings) (pid : Pid) (s : Shared) (received : ℕ × Webhook) : Shared :=
  alone (smoothly y pid) (applyDelivery y (conclusionOf y received.2) received.2.deliveredAt)
    { s with now := received.1 }

def deliverAll (y : Settings) (pid : Pid) (s : Shared) (received : List (ℕ × Webhook)) : Shared :=
  received.foldl (deliver y pid) s

/-- Whether `identityVerified` answers that the person is verified: it is then that it
leaves a record of its answer. -/
def identityAnswer (y : Settings) (pid : Pid) (personId : PersonId) (s : Shared) : Bool :=
  s.answers.length < (alone (smoothly y pid) (identityVerified personId) s).answers.length

def verified (y : Settings) (personId : PersonId) (rows : Rows) : Bool :=
  anyRow (fun _ row => isAcceptedFor y personId row) rows &&
    !anyRow (fun _ row => isRefusalOf personId row) rows

variable {y : Settings} {pid : Pid} {ref : CustomerRef} {session : String} {s : Shared} {d b : Webhook}
  {row : KycVerification} {found start : Option KycVerification} {now : ℕ} {ds : List Webhook}

theorem identityAnswer_eq (y : Settings) (pid : Pid) (personId : PersonId) (s : Shared) :
    identityAnswer y pid personId s = verified y personId s.rows := by
  cases haccepted : anyRow (fun _ row => isAcceptedFor y personId row) s.rows with
  | false =>
    simp [identityAnswer, identityVerified, attempt, bind, Program.bind, alone, smoothly, effect, verified,
      haccepted]
  | true =>
    cases hrefused : anyRow (fun _ row => isRefusalOf personId row) s.rows with
    | false | true =>
      simp [identityAnswer, identityVerified, attempt, bind, Program.bind, alone, smoothly, effect,
        runFindRefusal, verified, haccepted, hrefused]

/-- A webhook of one session of one customer that the deployment listens to. -/
structure OfSession (y : Settings) (ref : CustomerRef) (session : String) (d : Webhook) : Prop where
  customer : d.payload.vendorData = some ref
  session : d.payload.sessionId = some session
  environment : d.payload.environment = some y.diditEnvironment
  recognised : (conclusionOf y d).unrecognisedStatus = none

/-- Of the rows of a person there is at most the customer's. -/
def OnlyRow (y : Settings) (ref : CustomerRef) (rows : Rows) : Prop :=
  ∀ ref' row, rows.lookup ref' = some row → row.personId = y.ownerOf ref → ref' = ref

theorem conclusion_base (payload : Payload) (requireAml : Bool) :
    (readDiditDecision payload requireAml).customerRef = payload.vendorData ∧
    (readDiditDecision payload requireAml).providerRef = payload.sessionId ∧
    (readDiditDecision payload requireAml).environment = payload.environment := by
  simp only [readDiditDecision, readApproved, readDeclined]
  repeat' split
  all_goals exact ⟨rfl, rfl, rfl⟩

theorem conclusion_notStarted {payload : Payload} {requireAml : Bool}
    (h : (readDiditDecision payload requireAml).notStarted = true) :
    (readDiditDecision payload requireAml).status = .processing ∧
      (readDiditDecision payload requireAml).screened = false := by
  revert h
  simp only [readDiditDecision, readApproved, readDeclined]
  repeat' split
  all_goals simp

theorem OnlyRow.unrefused (h : OnlyRow y ref s.rows) :
    refusedIn (.elsewhere ref (y.ownerOf ref)) s.rows = false := by
  cases hany : refusedIn (.elsewhere ref (y.ownerOf ref)) s.rows with
  | false => rfl
  | true =>
    obtain ⟨ref', row, hrow, hcovers⟩ := anyRow_true hany
    simp only [Scope.covers, Bool.and_eq_true, decide_eq_true_eq] at hcovers
    exact absurd (h ref' row hrow hcovers.2.1) hcovers.2.2

def rowAfter (y : Settings) (ref : CustomerRef) (d : Webhook) (now : ℕ)
    (found : Option KycVerification) : Option KycVerification :=
  if found.any (drops (conclusionOf y d) d.deliveredAt) then found
  else some (deliveredRow (y.ownerOf ref) (conclusionOf y d) d.deliveredAt now found
    (found.bind (·.verificationUrl)))

theorem deliver_rows (href : ref ≠ "") (hd : OfSession y ref session d) (honly : OnlyRow y ref s.rows) :
    (deliver y pid s (now, d)).rows.lookup ref = rowAfter y ref d now (s.rows.lookup ref) ∧
    ∀ ref' ≠ ref, (deliver y pid s (now, d)).rows.lookup ref' = s.rows.lookup ref' := by
  obtain ⟨hcustomer, -, henv⟩ := conclusion_base d.payload y.kycRequireAml
  have hcustomer' : (conclusionOf y d).customerRef.filter (· ≠ "") = some ref := by
    rw [conclusionOf, hcustomer, hd.customer]
    simp [href]
  have hheard : ¬((conclusionOf y d).unrecognisedStatus ≠ none ∨
      (conclusionOf y d).environment ≠ some y.diditEnvironment) := by
    rw [not_or, not_not, not_not]
    exact ⟨hd.recognised, henv.trans hd.environment⟩
  have helsewhere := honly.unrefused
  by_cases hdrops : (s.rows.lookup ref).any (drops (conclusionOf y d) d.deliveredAt) = true
  · have hkept : (deliver y pid s (now, d)).rows = s.rows := by
      simp only [deliver, applyDelivery, hcustomer', if_neg hheard]
      simp [attempt, bind, Program.bind, alone, smoothly, effect, deliverLocked, issue, helsewhere,
        deliverUnrefused, hdrops, leave, release]
    rw [hkept, rowAfter, if_pos hdrops]
    exact ⟨rfl, fun ref' _ => rfl⟩
  · have hto : deliveryTo (s.rows.lookup ref) (s.rows.lookup ref) =
        some ((s.rows.lookup ref).bind (·.verificationUrl)) := by
      cases s.rows.lookup ref <;> rfl
    have hwritten : (deliver y pid s (now, d)).rows = s.rows.insert ref
        (deliveredRow (y.ownerOf ref) (conclusionOf y d) d.deliveredAt now (s.rows.lookup ref)
          ((s.rows.lookup ref).bind (·.verificationUrl))) := by
      simp only [deliver, applyDelivery, hcustomer', if_neg hheard]
      simp [attempt, bind, Program.bind, alone, smoothly, effect, deliverLocked, issue, helsewhere,
        deliverUnrefused, hdrops, runDelivery, hto, setRow, release, demand]
    rw [hwritten, rowAfter, if_neg hdrops]
    exact ⟨AList.lookup_insert _, fun ref' hne => AList.lookup_insert_ne hne⟩

/-- What the webhooks of a session come to, whatever their order: whether one of them
refuses, and the latest of them. -/
structure Tally where
  refused : Bool
  latest : Option Webhook

def refuses (y : Settings) (d : Webhook) : Bool := (conclusionOf y d).status = .rejected

def Tally.add (y : Settings) (tally : Tally) (d : Webhook) : Tally :=
  ⟨tally.refused || refuses y d, later (·.deliveredAt) tally.latest d⟩

def tallyOf (y : Settings) (ds : List Webhook) : Tally :=
  ⟨ds.any (refuses y), latest (·.deliveredAt) ds⟩

theorem foldl_add (ds : List Webhook) (tally : Tally) : ds.foldl (Tally.add y) tally =
    ⟨tally.refused || ds.any (refuses y), ds.foldl (later (·.deliveredAt)) tally.latest⟩ := by
  induction ds generalizing tally with
  | nil => simp
  | cons d ds ih =>
    rw [List.foldl_cons, ih]
    simp [Tally.add, Bool.or_assoc]

/-- A row that a webhook has written and none has refused. -/
structure Follows (y : Settings) (ref : CustomerRef) (session : String) (d : Webhook)
    (row : KycVerification) : Prop where
  personId : row.personId = y.ownerOf ref
  status : row.status = (conclusionOf y d).status
  unrefused : (conclusionOf y d).status ≠ .rejected
  providerRef : row.providerRef = some session
  deliveredAt : row.deliveredAt = if (conclusionOf y d).notStarted then none else some d.deliveredAt
  screenedAt : row.screenedAt = if (conclusionOf y d).screened then some d.deliveredAt else none

def Started (y : Settings) (ref : CustomerRef) (session : String) (start : Option KycVerification) :
    Prop :=
  start = none ∨ ∃ decision startedAt now, decision.status = .processing ∧
    decision.providerRef = some session ∧
    start = some (startedRow (y.ownerOf ref) decision startedAt now)

def Shows (y : Settings) (ref : CustomerRef) (session : String) (start : Option KycVerification)
    (tally : Tally) (found : Option KycVerification) : Prop :=
  (tally.refused = true → ∃ row, found = some row ∧ row.personId = y.ownerOf ref ∧
    row.status = .rejected) ∧
  (tally.refused = false → tally.latest = none → found = start) ∧
  (tally.refused = false → ∀ d, tally.latest = some d → ∃ row, found = some row ∧
    Follows y ref session d row)

/-- The webhooks of a session can be put in the order of their times, and those that
say that nothing has happened yet come first. -/
structure Ordered (y : Settings) (ds : List Webhook) : Prop where
  distinct : ∀ a ∈ ds, ∀ b ∈ ds, a.deliveredAt = b.deliveredAt → a = b
  notStarted : ∀ a ∈ ds, ∀ b ∈ ds, (conclusionOf y a).notStarted = true →
    (conclusionOf y b).notStarted = false → a.deliveredAt < b.deliveredAt

theorem deliveredRow_follows (hd : OfSession y ref session d) (hne : (conclusionOf y d).status ≠ .rejected)
    (hstanding : (conclusionOf y d).notStarted = true → found.bind (·.deliveredAt) = none)
    (url : Option String) : Follows y ref session d
      (deliveredRow (y.ownerOf ref) (conclusionOf y d) d.deliveredAt now found url) where
  personId := rfl
  status := rfl
  unrefused := hne
  providerRef := (conclusion_base d.payload y.kycRequireAml).2.1.trans hd.session
  deliveredAt := by
    simp only [deliveredRow]
    split
    next h => exact hstanding h
    next => rfl
  screenedAt := rfl

theorem drops_of_session (hd : OfSession y ref session d) (hne : (conclusionOf y d).status ≠ .rejected)
    (hstatus : row.status ≠ .rejected) (href : row.providerRef = some session) :
    drops (conclusionOf y d) d.deliveredAt row = row.deliveredAt.any fun time => d.deliveredAt < time := by
  have hsame : row.providerRef = (conclusionOf y d).providerRef :=
    href.trans ((conclusion_base d.payload y.kycRequireAml).2.1.trans hd.session).symm
  simp [drops, hstatus, hne, hsame]

theorem rowAfter_of_refused (h : found = some row) (hstatus : row.status = .rejected) :
    rowAfter y ref d now found = found := by
  have hdrops : found.any (drops (conclusionOf y d) d.deliveredAt) = true := by
    simp [h, drops, hstatus]
  rw [rowAfter, if_pos hdrops]

theorem rowAfter_of_refusal (hrej : (conclusionOf y d).status = .rejected)
    (hstatus : ∀ row, found = some row → row.status ≠ .rejected) :
    ∃ row, rowAfter y ref d now found = some row ∧ row.personId = y.ownerOf ref ∧
      row.status = .rejected := by
  have hdrops : found.any (drops (conclusionOf y d) d.deliveredAt) = false := by
    cases found with
    | none => rfl
    | some row => simp [drops, hrej, hstatus row rfl]
  rw [rowAfter, hdrops]
  exact ⟨_, rfl, rfl, hrej⟩

theorem rowAfter_of_newer (hd : OfSession y ref session d) (hne : (conclusionOf y d).status ≠ .rejected)
    (hfound : ∀ row, found = some row → row.status ≠ .rejected ∧ row.providerRef = some session ∧
      ∀ time, row.deliveredAt = some time →
        time ≤ d.deliveredAt ∧ (conclusionOf y d).notStarted = false) :
    ∃ row, rowAfter y ref d now found = some row ∧ Follows y ref session d row := by
  have hdrops : found.any (drops (conclusionOf y d) d.deliveredAt) = false := by
    cases found with
    | none => rfl
    | some row =>
      obtain ⟨hstatus, href, htime⟩ := hfound row rfl
      rw [Option.any_some, drops_of_session hd hne hstatus href]
      cases hat : row.deliveredAt with
      | none => rfl
      | some time => simpa using (htime time hat).1
  have hstanding : (conclusionOf y d).notStarted = true → found.bind (·.deliveredAt) = none := by
    intro hns
    cases found with
    | none => rfl
    | some row =>
      cases hat : row.deliveredAt with
      | none => exact hat
      | some time =>
        have hstarted := ((hfound row rfl).2.2 time hat).2
        cases hns.symm.trans hstarted
  rw [rowAfter, hdrops]
  exact ⟨_, rfl, deliveredRow_follows hd hne hstanding _⟩

/-- What a webhook that says that nothing has happened yet leaves does not tell which
of them it was. -/
theorem Follows.of_notStarted (h : Follows y ref session d row)
    (hd : (conclusionOf y d).notStarted = true) (hb : (conclusionOf y b).notStarted = true) :
    Follows y ref session b row := by
  obtain ⟨hstatus, hscreened⟩ := conclusion_notStarted hd
  obtain ⟨hstatus', hscreened'⟩ := conclusion_notStarted hb
  have hsame : (conclusionOf y d).status = (conclusionOf y b).status := hstatus.trans hstatus'.symm
  refine ⟨h.personId, h.status.trans hsame, hsame ▸ h.unrefused, h.providerRef, ?_, ?_⟩
  · rw [h.deliveredAt, hd, hb]
    rfl
  · rw [h.screenedAt, conclusionOf, hscreened, conclusionOf, hscreened']
    rfl

theorem Started.fresh (h : Started y ref session start) (hrow : start = some row) :
    row.status ≠ .rejected ∧ row.providerRef = some session ∧ row.deliveredAt = none := by
  obtain rfl | ⟨decision, startedAt, now, hstatus, href, rfl⟩ := h
  · cases hrow
  · obtain rfl := Option.some.inj hrow
    refine ⟨?_, href, rfl⟩
    simp [startedRow, hstatus]

/-- A webhook after another that the row follows: either it is older and kept out, or it
is written, and then the row follows whichever of the two is later. -/
theorem rowAfter_follows (hds : ∀ d ∈ ds, OfSession y ref session d) (hord : Ordered y ds) (hd : d ∈ ds)
    (hb : b ∈ ds) (hne : (conclusionOf y d).status ≠ .rejected) (hrow : Follows y ref session b row)
    {kept : Webhook} (hkept : later (·.deliveredAt) (some b) d = some kept) :
    ∃ row', rowAfter y ref d now (some row) = some row' ∧ Follows y ref session kept row' := by
  have hstatus : row.status ≠ .rejected := by
    rw [hrow.status]
    exact hrow.unrefused
  have hat := hrow.deliveredAt
  by_cases hold : d.deliveredAt < b.deliveredAt
  · obtain rfl : b = kept := by simpa [later, hold] using hkept
    cases hns : (conclusionOf y b).notStarted with
    | false =>
      have hdrops : (some row).any (drops (conclusionOf y d) d.deliveredAt) = true := by
        rw [Option.any_some, drops_of_session (hds d hd) hne hstatus hrow.providerRef, hat, hns]
        simpa using hold
      rw [rowAfter, if_pos hdrops]
      exact ⟨row, rfl, hrow⟩
    | true =>
      -- Both say that nothing has happened yet, so that is what the row says.
      have hns' : (conclusionOf y d).notStarted = true := by
        cases hd' : (conclusionOf y d).notStarted with
        | true => rfl
        | false => exact absurd (hord.notStarted b hb d hd hns hd') hold.not_gt
      rw [hns] at hat
      have hwritten : ∃ row', rowAfter y ref d now (some row) = some row' ∧
          Follows y ref session d row' := by
        apply rowAfter_of_newer (hds d hd) hne
        intro r hr
        obtain rfl := Option.some.inj hr
        exact ⟨hstatus, hrow.providerRef, fun time htime => by cases hat.symm.trans htime⟩
      obtain ⟨row', hrow', hfollows⟩ := hwritten
      exact ⟨row', hrow', hfollows.of_notStarted hns' hns⟩
  · obtain rfl : d = kept := by simpa [later, hold] using hkept
    apply rowAfter_of_newer (hds d hd) hne
    intro r hr
    obtain rfl := Option.some.inj hr
    refine ⟨hstatus, hrow.providerRef, fun time htime => ?_⟩
    cases hns : (conclusionOf y b).notStarted with
    | true =>
      rw [hns] at hat
      cases hat.symm.trans htime
    | false =>
      rw [hns] at hat
      obtain rfl : b.deliveredAt = time := Option.some.inj (hat.symm.trans htime)
      refine ⟨not_lt.mp hold, ?_⟩
      cases hd' : (conclusionOf y d).notStarted with
      | false => rfl
      | true => exact absurd (hord.notStarted d hd b hb hd' hns) hold

theorem Shows.step {tally : Tally} (hstart : Started y ref session start)
    (hds : ∀ d ∈ ds, OfSession y ref session d) (hord : Ordered y ds) (hd : d ∈ ds)
    (hlatest : ∀ b, tally.latest = some b → b ∈ ds) (h : Shows y ref session start tally found) :
    Shows y ref session start (tally.add y d) (rowAfter y ref d now found) := by
  obtain ⟨hrefused, hnone, hsome⟩ := h
  cases hr : tally.refused with
  | true =>
    obtain ⟨row, hrow, hperson, hstatus⟩ := hrefused hr
    rw [rowAfter_of_refused hrow hstatus]
    have hadd : (tally.add y d).refused = true := by simp [Tally.add, hr]
    refine ⟨fun _ => ⟨row, hrow, hperson, hstatus⟩, fun h => ?_, fun h => ?_⟩
    all_goals cases hadd.symm.trans h
  | false =>
    have hstanding : ∀ row, found = some row → row.status ≠ .rejected := by
      intro row hrow
      cases hl : tally.latest with
      | none => exact (hstart.fresh ((hnone hr hl).symm.trans hrow)).1
      | some b =>
        obtain ⟨row', hrow', hfollows⟩ := hsome hr b hl
        obtain rfl := Option.some.inj (hrow.symm.trans hrow')
        rw [hfollows.status]
        exact hfollows.unrefused
    by_cases hrej : (conclusionOf y d).status = .rejected
    · have hadd : (tally.add y d).refused = true := by simp [Tally.add, refuses, hrej]
      refine ⟨fun _ => rowAfter_of_refusal hrej hstanding, fun h => ?_, fun h => ?_⟩
      all_goals cases hadd.symm.trans h
    · have hadd : (tally.add y d).refused = false := by simp [Tally.add, refuses, hrej, hr]
      refine ⟨fun h => (by cases hadd.symm.trans h), fun _ hl => ?_, fun _ kept hkept => ?_⟩
      · simp only [Tally.add, later] at hl
        split at hl
        next => cases hl
        next => split at hl <;> cases hl
      · cases hl : tally.latest with
        | none =>
          obtain rfl : d = kept := by simpa [Tally.add, later, hl] using hkept
          apply rowAfter_of_newer (hds d hd) hrej
          intro row hrow
          obtain ⟨hstatus, href, hat⟩ := hstart.fresh ((hnone hr hl).symm.trans hrow)
          exact ⟨hstatus, href, fun time htime => by cases hat.symm.trans htime⟩
        | some b =>
          obtain ⟨row, rfl, hfollows⟩ := hsome hr b hl
          have hkept' : later (·.deliveredAt) (some b) d = some kept := by
            rw [← hl]
            exact hkept
          exact rowAfter_follows hds hord hd (hlatest b hl) hrej hfollows hkept'

theorem OnlyRow.deliver (href : ref ≠ "") (hd : OfSession y ref session d) (honly : OnlyRow y ref s.rows) :
    OnlyRow y ref (deliver y pid s (now, d)).rows := by
  intro ref' row hrow hperson
  by_cases hsame : ref' = ref
  · exact hsame
  · rw [(deliver_rows href hd honly).2 ref' hsame] at hrow
    exact honly ref' row hrow hperson

theorem later_mem {kept : Webhook} {held : Option Webhook} (hheld : ∀ b, held = some b → b ∈ ds)
    (hd : d ∈ ds) (h : later (·.deliveredAt) held d = some kept) : kept ∈ ds := by
  cases held with
  | none =>
    obtain rfl := Option.some.inj h
    exact hd
  | some b =>
    rw [later] at h
    split at h
    next =>
      obtain rfl := Option.some.inj h
      exact hheld b rfl
    next =>
      obtain rfl := Option.some.inj h
      exact hd

/-- After any of the webhooks in any order the row shows their tally. -/
theorem deliverAll_shows (href : ref ≠ "") (hstart : Started y ref session start)
    (hds : ∀ d ∈ ds, OfSession y ref session d) (hord : Ordered y ds) (received : List (ℕ × Webhook))
    (hmem : ∀ r ∈ received, r.2 ∈ ds) {tally : Tally} (hlatest : ∀ b, tally.latest = some b → b ∈ ds)
    (honly : OnlyRow y ref s.rows) (hshows : Shows y ref session start tally (s.rows.lookup ref)) :
    OnlyRow y ref (deliverAll y pid s received).rows ∧
      Shows y ref session start ((received.map (·.2)).foldl (Tally.add y) tally)
        ((deliverAll y pid s received).rows.lookup ref) := by
  induction received generalizing s tally with
  | nil => exact ⟨honly, hshows⟩
  | cons r received ih =>
    obtain ⟨now, d⟩ := r
    have hd : d ∈ ds := hmem (now, d) List.mem_cons_self
    have hrow : (deliver y pid s (now, d)).rows.lookup ref = rowAfter y ref d now (s.rows.lookup ref) :=
      (deliver_rows href (hds d hd) honly).1
    apply ih (fun r hr => hmem r (List.mem_cons_of_mem _ hr))
    · exact fun b hb => later_mem hlatest hd hb
    · exact honly.deliver href (hds d hd)
    · rw [hrow]
      exact hshows.step hstart hds hord hd hlatest

theorem anyRow_only {p : KycVerification → Bool} {rows : Rows} (honly : OnlyRow y ref rows)
    (hp : ∀ row, p row = true → row.personId = y.ownerOf ref) :
    anyRow (fun _ row => p row) rows = (rows.lookup ref).any p := by
  cases hany : anyRow (fun _ row => p row) rows with
  | true =>
    obtain ⟨ref', row, hrow, hok⟩ := anyRow_true hany
    rw [honly ref' row hrow (hp row hok)] at hrow
    rw [hrow, Option.any_some, hok]
  | false =>
    cases hrow : rows.lookup ref with
    | none => rfl
    | some row =>
      rw [Option.any_some]
      exact (anyRow_false hany hrow).symm

theorem verified_eq {rows : Rows} (honly : OnlyRow y ref rows) :
    verified y (y.ownerOf ref) rows = ((rows.lookup ref).any (isAcceptedFor y (y.ownerOf ref)) &&
      !(rows.lookup ref).any (isRefusalOf (y.ownerOf ref))) := by
  have haccepted (row : KycVerification) (h : isAcceptedFor y (y.ownerOf ref) row = true) :
      row.personId = y.ownerOf ref := by
    simp only [isAcceptedFor, Bool.and_eq_true, decide_eq_true_eq] at h
    exact h.1
  have hrefused (row : KycVerification) (h : isRefusalOf (y.ownerOf ref) row = true) :
      row.personId = y.ownerOf ref := by
    simp only [isRefusalOf, Bool.and_eq_true, decide_eq_true_eq] at h
    exact h.1
  rw [verified, anyRow_only honly haccepted, anyRow_only honly hrefused]

theorem Shows.agree {tally : Tally} {found' : Option KycVerification}
    (h : Shows y ref session start tally found) (h' : Shows y ref session start tally found') :
    found.map (·.status) = found'.map (·.status) ∧
    found.any (isAcceptedFor y (y.ownerOf ref)) = found'.any (isAcceptedFor y (y.ownerOf ref)) ∧
    found.any (isRefusalOf (y.ownerOf ref)) = found'.any (isRefusalOf (y.ownerOf ref)) := by
  cases hr : tally.refused with
  | true =>
    obtain ⟨row, rfl, hperson, hstatus⟩ := h.1 hr
    obtain ⟨row', rfl, hperson', hstatus'⟩ := h'.1 hr
    simp [isAcceptedFor, acceptedForFunds, isRefusalOf, hperson, hstatus, hperson', hstatus']
  | false =>
    cases hl : tally.latest with
    | none =>
      rw [h.2.1 hr hl, h'.2.1 hr hl]
      exact ⟨rfl, rfl, rfl⟩
    | some d =>
      obtain ⟨row, rfl, hrow⟩ := h.2.2 hr d hl
      obtain ⟨row', rfl, hrow'⟩ := h'.2.2 hr d hl
      simp [isAcceptedFor, acceptedForFunds, isRefusalOf, hrow.personId, hrow.status, hrow.deliveredAt,
        hrow.screenedAt, hrow'.personId, hrow'.status, hrow'.deliveredAt, hrow'.screenedAt]

theorem tallyOf_perm {ds' : List Webhook} (hord : Ordered y ds) (hperm : ds.Perm ds') :
    tallyOf y ds = tallyOf y ds' := by
  have hany : ds.any (refuses y) = ds'.any (refuses y) := by
    rw [Bool.eq_iff_iff, List.any_eq_true, List.any_eq_true]
    simp only [hperm.mem_iff]
  rw [tallyOf, tallyOf, hany, latest_perm hord.distinct hperm]

theorem foldl_tally (ds : List Webhook) : ds.foldl (Tally.add y) ⟨false, none⟩ = tallyOf y ds := by
  rw [foldl_add, Bool.false_or]
  rfl

/-- The webhooks of a session commute: any order of receiving them leaves the same status
and the same answer about the person. A refusal among them decides the status, and without
one the latest of them does. -/
theorem deliveries_commute (pid : Pid) (href : ref ≠ "")
    (hds : ∀ d ∈ ds, OfSession y ref session d) (hord : Ordered y ds)
    (hstart : Started y ref session (s.rows.lookup ref))
    (honly : OnlyRow y ref s.rows) {received : List (ℕ × Webhook)}
    (hperm : (received.map (·.2)).Perm ds) :
    (∀ received' pid', (received'.map (·.2)).Perm ds →
      ((deliverAll y pid' s received').rows.lookup ref).map (·.status) =
        ((deliverAll y pid s received).rows.lookup ref).map (·.status) ∧
      identityAnswer y pid' (y.ownerOf ref) (deliverAll y pid' s received') =
        identityAnswer y pid (y.ownerOf ref) (deliverAll y pid s received)) ∧
    ((∃ d ∈ ds, (conclusionOf y d).status = .rejected) →
      ((deliverAll y pid s received).rows.lookup ref).map (·.status) = some .rejected) ∧
    ((∀ d ∈ ds, (conclusionOf y d).status ≠ .rejected) →
      ∀ d ∈ ds, (∀ b ∈ ds, b.deliveredAt ≤ d.deliveredAt) →
        ((deliverAll y pid s received).rows.lookup ref).map (·.status) =
          some (conclusionOf y d).status) := by
  have hshown (pid' : Pid) {received' : List (ℕ × Webhook)} (hperm' : (received'.map (·.2)).Perm ds) :
      OnlyRow y ref (deliverAll y pid' s received').rows ∧
        Shows y ref session (s.rows.lookup ref) (tallyOf y ds)
          ((deliverAll y pid' s received').rows.lookup ref) := by
    have hmem : ∀ r ∈ received', r.2 ∈ ds := fun r hr =>
      hperm'.mem_iff.mp (List.mem_map_of_mem hr)
    have hempty : Shows y ref session (s.rows.lookup ref) ⟨false, none⟩ (s.rows.lookup ref) :=
      ⟨fun h => (by cases h), fun _ _ => rfl, fun _ d h => (by cases h)⟩
    rw [tallyOf_perm hord hperm'.symm, ← foldl_tally]
    exact deliverAll_shows href hstart hds hord received' hmem (fun b h => by cases h) honly hempty
  obtain ⟨honly', hshows⟩ := hshown pid hperm
  refine ⟨fun received' pid' hperm' => ?_, ?_, ?_⟩
  · obtain ⟨honly'', hshows'⟩ := hshown pid' hperm'
    obtain ⟨hstatus, haccepted, hrefused⟩ := hshows'.agree hshows
    refine ⟨hstatus, ?_⟩
    rw [identityAnswer_eq, identityAnswer_eq, verified_eq honly', verified_eq honly'', haccepted, hrefused]
  · rintro ⟨d, hd, hrej⟩
    have hrefused : (tallyOf y ds).refused = true :=
      List.any_eq_true.mpr ⟨d, hd, by simp [refuses, hrej]⟩
    obtain ⟨row, hrow, -, hstatus⟩ := hshows.1 hrefused
    rw [hrow, Option.map_some, hstatus]
  · intro hnone d hd hmax
    have hunrefused : (tallyOf y ds).refused = false :=
      List.any_eq_false.mpr fun b hb => by simp [refuses, hnone b hb]
    obtain ⟨row, hrow, hfollows⟩ := hshows.2.2 hunrefused d (latest_eq_some hord.distinct hd hmax)
    rw [hrow, Option.map_some, hfollows.status]

def sampleWebhooks : List Webhook :=
  [⟨{ clearance with status := some "Not Started" }, 1000⟩,
    ⟨{ clearance with status := some "In Progress" }, 2000⟩, ⟨clearance, 3000⟩]

def openedBureau : Shared :=
  setRow "GA" (startedRow 1 sampleChoice.decision 100000 100000) emptyBureau

theorem openedBureau_only : OnlyRow sampleSettings "GA" openedBureau.rows := by
  intro ref' row hrow hperson
  by_contra hne
  have hnone : openedBureau.rows.lookup ref' = none := AList.lookup_insert_ne hne
  cases hnone.symm.trans hrow

theorem sampleWebhooks_ofSession : ∀ d ∈ sampleWebhooks, OfSession sampleSettings "GA" "s1" d := by
  intro d hd
  simp only [sampleWebhooks, List.mem_cons, List.not_mem_nil, or_false] at hd
  obtain rfl | rfl | rfl := hd
  all_goals exact ⟨rfl, rfl, rfl, by decide +kernel⟩

theorem sampleWebhooks_ordered : Ordered sampleSettings sampleWebhooks := by
  constructor
  · intro a ha b hb h
    simp only [sampleWebhooks, List.mem_cons, List.not_mem_nil, or_false] at ha hb
    obtain rfl | rfl | rfl := ha <;> obtain rfl | rfl | rfl := hb <;> first | rfl | cases h
  · intro a ha b hb hns hstarted
    simp only [sampleWebhooks, List.mem_cons, List.not_mem_nil, or_false] at ha hb
    obtain rfl | rfl | rfl := ha
    · obtain rfl | rfl | rfl := hb
      · cases hns.symm.trans hstarted
      · decide
      · decide
    · exact absurd hns (by decide +kernel)
    · exact absurd hns (by decide +kernel)

/-- The last webhook arrives first. -/
theorem sample_deliveries_commute :
    ((deliverAll sampleSettings 0 openedBureau
      (sampleWebhooks.reverse.map fun d => (100000, d))).rows.lookup "GA").map (·.status) =
        some .accepted := by
  have hperm : ((sampleWebhooks.reverse.map fun d => (100000, d)).map (·.2)).Perm sampleWebhooks := by
    rw [List.map_map]
    exact (List.map_id _).symm ▸ sampleWebhooks.reverse_perm
  have hstart : Started sampleSettings "GA" "s1" (openedBureau.rows.lookup "GA") :=
    .inr ⟨sampleChoice.decision, 100000, 100000, rfl, rfl, AList.lookup_insert _⟩
  have hlast := (deliveries_commute 0 (by decide) sampleWebhooks_ofSession sampleWebhooks_ordered hstart
    openedBureau_only hperm).2.2 (by decide +kernel)
  exact hlast ⟨clearance, 3000⟩ (by simp [sampleWebhooks]) (by decide +kernel)

end Lolipay.Coordinator.DeliveryOrder
