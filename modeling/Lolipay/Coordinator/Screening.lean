import Lolipay.Script.Values
import Lolipay.Coordinator.Identity
import Mathlib.Order.Defs.LinearOrder

namespace Lolipay.Coordinator.Screening

open Lolipay.Script.Units Lolipay.Script.Values
open Lolipay.Coordinator.Identity (KycStatus unreadableScreening screeningDidNotRun hitRefusal
  screeningRequiredFailed unreadableDecline)

variable {N : Type} [LinearOrder N] [Zero N]

/-- What the reader makes of a delivery. The three references are passed on as they
came. -/
structure DiditConclusion (N : Type) where
  status : KycStatus
  screened : Bool := false
  environment : Value N
  providerRef : Value N
  customerRef : Value N
  rejectionReason : Option String := none
  unrecognisedStatus : Option Text := none
  notStarted : Bool := false

def screeningsPath : List Text := [units "decision", units "aml_screenings"]

def documentsPath : List Text := [units "decision", units "id_verifications"]

def screenings (payload : Value N) : List (Json N) :=
  match getIn payload screeningsPath with
  | some (.array items) => items
  | _ => []

def approved : Text := units "Approved"

def notPerformed : Text := units "COULD_NOT_PERFORM_AML_SCREENING"

def statusOf (value : Value N) : Value N := prop value (units "status")

def totalHits (entry : Json N) : Value N := prop (some entry) (units "total_hits")

def hitsOf (entry : Json N) : Value N := prop (some entry) (units "hits")

def warningsOf (entry : Json N) : Value N := prop (some entry) (units "warnings")

def emptyOrAbsent : Value N → Bool
  | none | some .null => true
  | some (.array items) => items.isEmpty
  | _ => false

def isZero : Value N → Bool
  | some (.number n) => n = 0
  | _ => false

def cleared (entry : Json N) : Bool :=
  if !isString approved (statusOf (some entry)) then false
  else if !isZero (totalHits entry) then false
  else if !emptyOrAbsent (hitsOf entry) then false
  else if !emptyOrAbsent (warningsOf entry) then false
  else true

def purelyNotPerformed (entry : Json N) : Bool :=
  if isFalsy (warningsOf entry) || emptyOrAbsent (warningsOf entry) then false
  else
    let list : List (Value N) :=
      match warningsOf entry with
      | some (.array items) => items.map some
      | warnings => [warnings]
    list.all (isString notPerformed) && isZero (totalHits entry) && emptyOrAbsent (hitsOf entry)

def noScreeningDelivered (payload : Value N) : Bool := emptyOrAbsent (getIn payload screeningsPath)

def ranAndFoundNothing (payload : Value N) : Bool :=
  let list := screenings payload
  if list.length = 0 then false else list.all cleared

def onlyCouldNotScreen (payload : Value N) : Bool :=
  let list := screenings payload
  if list.length = 0 then false
  else (list.all fun s => cleared s || purelyNotPerformed s) && list.any purelyNotPerformed

def adverse (entry : Json N) : Bool :=
  if cleared entry then false else if purelyNotPerformed entry then false else true

def hitsPresent (entry : Json N) : Bool :=
  (match totalHits entry with
    | some (.number n) => 0 < n
    | _ => false) ||
  (match hitsOf entry with
    | some (.array hits) => hits.length > 0
    | _ => false)

def foundSomething (payload : Value N) : Bool := (screenings payload).any adverse

def foundHits (payload : Value N) : Bool := (screenings payload).any hitsPresent

def documentFailed (payload : Value N) : Bool :=
  match getIn payload documentsPath with
  | some (.array list) => list.any fun d => !isString approved (statusOf (some d))
  | _ => false

def processingStatuses : List Text := [units "In Progress", units "In Review"]

def retryableStatuses : List Text :=
  [units "Awaiting User", units "Resubmitted", units "Abandoned", units "Expired",
    units "Kyc Expired"]

def includes (texts : List Text) (value : Value N) : Bool := texts.any fun text => isString text value

def readApproved (payload : Value N) (base : DiditConclusion N) : DiditConclusion N :=
  if foundHits payload then { base with status := .rejected, rejectionReason := some hitRefusal }
  else if noScreeningDelivered payload then { base with status := .accepted }
  else if ranAndFoundNothing payload then { base with status := .accepted, screened := true }
  else if onlyCouldNotScreen payload then
    { base with status := .needsInfo, rejectionReason := some screeningDidNotRun }
  else { base with status := .needsInfo, rejectionReason := some unreadableScreening }

def readDeclined (payload : Value N) (requireAml : Bool) (base : DiditConclusion N) :
    DiditConclusion N :=
  if foundHits payload then { base with status := .rejected, rejectionReason := some hitRefusal }
  else if foundSomething payload then
    { base with status := .needsInfo, rejectionReason := some unreadableScreening }
  else if documentFailed payload then { base with status := .needsInfo }
  else if onlyCouldNotScreen payload then
    if requireAml then
      { base with status := .rejected, rejectionReason := some screeningRequiredFailed }
    else { base with status := .needsInfo, rejectionReason := some screeningDidNotRun }
  else { base with status := .rejected, rejectionReason := some unreadableDecline }

/-- The conclusion before anything is known of the outcome. -/
def baseOf (payload : Value N) : DiditConclusion N where
  status := .processing
  environment := prop payload (units "environment")
  providerRef := prop payload (units "session_id")
  customerRef := prop payload (units "vendor_data")

/-- `none` is a status that cannot be written as a text, on which the reader throws. -/
def readDiditDecision (show' : N → Text) (payload : Value N) (requireAml : Bool) :
    Option (DiditConclusion N) :=
  let base := baseOf payload
  let status := statusOf payload
  if isString approved status then some (readApproved payload base)
  else if isString (units "Declined") status then some (readDeclined payload requireAml base)
  else if isString (units "Not Started") status then some { base with notStarted := true }
  else if includes processingStatuses status then some base
  else if includes retryableStatuses status then some { base with status := .needsInfo }
  else
    match status with
    | none | some .null => some { base with unrecognisedStatus := some [] }
    | some status =>
      (stringOf show' status).map fun text => { base with unrecognisedStatus := some text }

def Nothing (value : Value N) : Prop :=
  value = none ∨ value = some .null ∨ value = some (.array [])

structure Clear (entry : Json N) : Prop where
  status : statusOf (some entry) = some (.string approved)
  total : totalHits entry = some (.number 0)
  hits : Nothing (hitsOf entry)
  warnings : Nothing (warningsOf entry)

def Hit (entry : Json N) : Prop :=
  (∃ n, totalHits entry = some (.number n) ∧ 0 < n) ∨
    ∃ hits, hitsOf entry = some (.array hits) ∧ hits ≠ []

omit [LinearOrder N] [Zero N] in
theorem emptyOrAbsent_iff {value : Value N} : emptyOrAbsent value = true ↔ Nothing value := by
  cases value with
  | none => simp [emptyOrAbsent, Nothing]
  | some json =>
    cases json with
    | array items => simp [emptyOrAbsent, Nothing]
    | null | bool | number | string | object => simp [emptyOrAbsent, Nothing]

theorem isZero_iff {value : Value N} : isZero value = true ↔ value = some (.number 0) := by
  cases value with
  | none => simp [isZero]
  | some json =>
    cases json with
    | number n => simp [isZero]
    | null | bool | string | array | object => simp [isZero]

theorem cleared_iff {entry : Json N} : cleared entry = true ↔ Clear entry := by
  have hfields : cleared entry = (isString approved (statusOf (some entry)) &&
      isZero (totalHits entry) && emptyOrAbsent (hitsOf entry) &&
      emptyOrAbsent (warningsOf entry)) := by
    unfold cleared
    cases isString approved (statusOf (some entry)) <;> cases isZero (totalHits entry) <;>
      cases emptyOrAbsent (hitsOf entry) <;> cases emptyOrAbsent (warningsOf entry) <;> rfl
  rw [hfields]
  simp only [Bool.and_eq_true, isString_iff, isZero_iff, emptyOrAbsent_iff]
  constructor
  · rintro ⟨⟨⟨hstatus, htotal⟩, hhits⟩, hwarnings⟩
    exact ⟨hstatus, htotal, hhits, hwarnings⟩
  · rintro ⟨hstatus, htotal, hhits, hwarnings⟩
    exact ⟨⟨⟨hstatus, htotal⟩, hhits⟩, hwarnings⟩

theorem hitsPresent_iff {entry : Json N} : hitsPresent entry = true ↔ Hit entry := by
  rw [hitsPresent, Bool.or_eq_true, Hit]
  refine or_congr ?_ ?_
  · cases totalHits entry with
    | none => simp
    | some json => cases json <;> simp
  · cases hitsOf entry with
    | none => simp
    | some json =>
      cases json with
      | array hits => simp [List.length_pos_iff]
      | null | bool | number | string | object => simp

variable {show' : N → Text} {payload : Value N} {requireAml : Bool} {c : DiditConclusion N}

def Listed (payload : Value N) (items : List (Json N)) : Prop :=
  getIn payload screeningsPath = some (.array items)

/-- A delivery all of whose screenings ran and found nothing. -/
def AllClear (payload : Value N) : Prop :=
  ∃ items, Listed payload items ∧ items ≠ [] ∧ ∀ entry ∈ items, Clear entry

omit [LinearOrder N] [Zero N] in
theorem screenings_eq {items : List (Json N)} (h : Listed payload items) :
    screenings payload = items := by
  rw [screenings, h]

omit [LinearOrder N] [Zero N] in
theorem listed_of_mem {entry : Json N} (h : entry ∈ screenings payload) :
    Listed payload (screenings payload) := by
  unfold screenings at h ⊢
  split at h
  next items heq => exact heq
  next => exact absurd h List.not_mem_nil

theorem ranAndFoundNothing_iff : ranAndFoundNothing payload = true ↔ AllClear payload := by
  rw [ranAndFoundNothing]
  constructor
  · intro h
    obtain ⟨hlength, hall⟩ : ¬ (screenings payload).length = 0 ∧
        (screenings payload).all cleared = true := by simpa using h
    obtain ⟨entry, hentry⟩ := List.exists_mem_of_length_pos (Nat.pos_of_ne_zero hlength)
    refine ⟨screenings payload, listed_of_mem hentry, List.ne_nil_of_mem hentry, ?_⟩
    intro entry hentry
    exact cleared_iff.mp (List.all_eq_true.mp hall entry hentry)
  · rintro ⟨items, hlisted, hsome, hclear⟩
    rw [screenings_eq hlisted, if_neg (mt List.length_eq_zero_iff.mp hsome), List.all_eq_true]
    intro entry hentry
    exact cleared_iff.mpr (hclear entry hentry)

theorem foundHits_iff :
    foundHits payload = true ↔ ∃ items, Listed payload items ∧ ∃ entry ∈ items, Hit entry := by
  rw [foundHits, List.any_eq_true]
  constructor
  · rintro ⟨entry, hentry, hhit⟩
    exact ⟨screenings payload, listed_of_mem hentry, entry, hentry, hitsPresent_iff.mp hhit⟩
  · rintro ⟨items, hlisted, entry, hentry, hhit⟩
    rw [screenings_eq hlisted]
    exact ⟨entry, hentry, hitsPresent_iff.mpr hhit⟩

theorem not_hit_of_clear {entry : Json N} (h : Clear entry) : ¬ Hit entry := by
  rintro (⟨n, hn, hpos⟩ | ⟨hits, hhits, hsome⟩)
  · rw [h.total] at hn
    cases hn
    exact lt_irrefl _ hpos
  · obtain hnone | hnull | hempty := h.hits
    · rw [hnone] at hhits
      cases hhits
    · rw [hnull] at hhits
      cases hhits
    · rw [hempty] at hhits
      cases hhits
      exact hsome rfl

theorem not_foundHits_of_clear (h : AllClear payload) : foundHits payload = false := by
  obtain ⟨items, hlisted, -, hclear⟩ := h
  rw [← Bool.not_eq_true, foundHits_iff]
  rintro ⟨items', hlisted', entry, hentry, hhit⟩
  have hsame := (screenings_eq hlisted).symm.trans (screenings_eq hlisted')
  exact not_hit_of_clear (hclear entry (hsame ▸ hentry)) hhit

omit [LinearOrder N] in
theorem delivered_of_clear (h : AllClear payload) : noScreeningDelivered payload = false := by
  obtain ⟨items, hlisted, hsome, -⟩ := h
  rw [noScreeningDelivered, hlisted, emptyOrAbsent]
  simpa using hsome

variable {base : DiditConclusion N}

theorem readApproved_screened (hbase : base.screened = false) :
    (readApproved payload base).screened = true ↔ AllClear payload := by
  constructor
  · intro h
    unfold readApproved at h
    split_ifs at h with hhits hnone hclear hcould
    · simp [hbase] at h
    · simp [hbase] at h
    · exact ranAndFoundNothing_iff.mp hclear
    · simp [hbase] at h
    · simp [hbase] at h
  · intro h
    rw [readApproved, not_foundHits_of_clear h, delivered_of_clear h,
      ranAndFoundNothing_iff.mpr h]
    rfl

theorem of_readApproved_accepted (h : (readApproved payload base).status = .accepted) :
    Nothing (getIn payload screeningsPath) ∨ AllClear payload := by
  unfold readApproved at h
  split_ifs at h with hhits hnone hclear hcould
  · exact Or.inl (emptyOrAbsent_iff.mp hnone)
  · exact Or.inr (ranAndFoundNothing_iff.mp hclear)

theorem readApproved_rejected :
    (readApproved payload base).status = .rejected ↔ foundHits payload = true := by
  unfold readApproved
  split_ifs with hhits hnone hclear hcould
  · simp [hhits]
  · simp [hhits]
  · simp [hhits]
  · simp [hhits]
  · simp [hhits]

theorem readDeclined_screened :
    (readDeclined payload requireAml base).screened = base.screened := by
  unfold readDeclined
  split_ifs <;> rfl

theorem readDeclined_status : (readDeclined payload requireAml base).status ≠ .accepted := by
  unfold readDeclined
  split_ifs <;> simp

theorem readDeclined_of_hits (h : foundHits payload = true) :
    (readDeclined payload requireAml base).status = .rejected := by
  rw [readDeclined, if_pos h]

theorem read_of_approved (h : statusOf payload = some (.string approved)) :
    readDiditDecision show' payload requireAml = some (readApproved payload (baseOf payload)) := by
  rw [readDiditDecision, if_pos (isString_iff.mpr h)]

theorem read_of_declined (h : statusOf payload = some (.string (units "Declined"))) :
    readDiditDecision show' payload requireAml =
      some (readDeclined payload requireAml (baseOf payload)) := by
  have happroved : ¬ isString approved (statusOf payload) = true := by
    rw [h]
    change ¬ (units "Declined" == approved) = true
    decide
  rw [readDiditDecision, if_neg happroved, if_pos (isString_iff.mpr h)]

theorem read_of_other (happroved : statusOf payload ≠ some (.string approved))
    (hdeclined : statusOf payload ≠ some (.string (units "Declined")))
    (h : readDiditDecision show' payload requireAml = some c) :
    c.screened = false ∧ (c.status = .processing ∨ c.status = .needsInfo) := by
  unfold readDiditDecision at h
  rw [if_neg (mt isString_iff.mp happroved), if_neg (mt isString_iff.mp hdeclined)] at h
  split_ifs at h
  · obtain rfl := Option.some.inj h
    exact ⟨rfl, Or.inl rfl⟩
  · obtain rfl := Option.some.inj h
    exact ⟨rfl, Or.inl rfl⟩
  · obtain rfl := Option.some.inj h
    exact ⟨rfl, Or.inr rfl⟩
  · split at h
    next =>
      obtain rfl := Option.some.inj h
      exact ⟨rfl, Or.inl rfl⟩
    next =>
      obtain rfl := Option.some.inj h
      exact ⟨rfl, Or.inl rfl⟩
    next =>
      obtain ⟨text, -, rfl⟩ := Option.map_eq_some_iff.mp h
      exact ⟨rfl, Or.inl rfl⟩

theorem screened_iff :
    (∃ c, readDiditDecision show' payload requireAml = some c ∧ c.screened = true) ↔
      statusOf payload = some (.string approved) ∧ AllClear payload := by
  by_cases happroved : statusOf payload = some (.string approved)
  · rw [read_of_approved happroved]
    simp only [Option.some.injEq, exists_eq_left', happroved, true_and]
    exact readApproved_screened rfl
  · simp only [happroved, false_and, iff_false]
    rintro ⟨c, hread, hscreened⟩
    by_cases hdeclined : statusOf payload = some (.string (units "Declined"))
    · rw [read_of_declined hdeclined] at hread
      obtain rfl := Option.some.inj hread
      rw [readDeclined_screened] at hscreened
      cases hscreened
    · rw [(read_of_other happroved hdeclined hread).1] at hscreened
      cases hscreened

theorem of_accepted (hread : readDiditDecision show' payload requireAml = some c)
    (hstatus : c.status = .accepted) :
    statusOf payload = some (.string approved) ∧
      (Nothing (getIn payload screeningsPath) ∨ AllClear payload) := by
  by_cases happroved : statusOf payload = some (.string approved)
  · rw [read_of_approved happroved] at hread
    obtain rfl := Option.some.inj hread
    exact ⟨happroved, of_readApproved_accepted hstatus⟩
  · by_cases hdeclined : statusOf payload = some (.string (units "Declined"))
    · rw [read_of_declined hdeclined] at hread
      obtain rfl := Option.some.inj hread
      exact absurd hstatus readDeclined_status
    · obtain ⟨-, hother | hother⟩ := read_of_other happroved hdeclined hread
      · rw [hother] at hstatus
        cases hstatus
      · rw [hother] at hstatus
        cases hstatus

theorem rejected_of_hits
    (hstatus : statusOf payload = some (.string approved) ∨
      statusOf payload = some (.string (units "Declined")))
    (hhits : ∃ items, Listed payload items ∧ ∃ entry ∈ items, Hit entry) :
    ∃ c, readDiditDecision show' payload requireAml = some c ∧ c.status = .rejected := by
  have hfound := foundHits_iff.mpr hhits
  obtain happroved | hdeclined := hstatus
  · exact ⟨_, read_of_approved happroved, readApproved_rejected.mpr hfound⟩
  · exact ⟨_, read_of_declined hdeclined, readDeclined_of_hits hfound⟩

theorem of_rejected (hread : readDiditDecision show' payload requireAml = some c)
    (hstatus : c.status = .rejected) :
    (statusOf payload = some (.string approved) ∧
        ∃ items, Listed payload items ∧ ∃ entry ∈ items, Hit entry) ∨
      statusOf payload = some (.string (units "Declined")) := by
  by_cases happroved : statusOf payload = some (.string approved)
  · rw [read_of_approved happroved] at hread
    obtain rfl := Option.some.inj hread
    exact Or.inl ⟨happroved, foundHits_iff.mp (readApproved_rejected.mp hstatus)⟩
  · by_cases hdeclined : statusOf payload = some (.string (units "Declined"))
    · exact Or.inr hdeclined
    · obtain ⟨-, hother | hother⟩ := read_of_other happroved hdeclined hread
      · rw [hother] at hstatus
        cases hstatus
      · rw [hother] at hstatus
        cases hstatus

section Permuted

variable {json : Json N} {items items' : List (Json N)}

/-- What the reader looks at besides the two lists. -/
structure SameOutside (payload payload' : Value N) : Prop where
  status : statusOf payload' = statusOf payload
  base : baseOf payload' = baseOf payload

omit [LinearOrder N] [Zero N] in
theorem sameOutside_setIn (new : Json N) (name : Text) :
    SameOutside (some json) (some (setIn new [units "decision", name] json)) := by
  have hne {other : Text} (h : other ≠ units "decision") :
      prop (some (setIn new [units "decision", name] json)) other = prop (some json) other :=
    getIn_setIn_ne h [] [name] []
  constructor
  · exact hne (by decide)
  · rw [baseOf, baseOf, hne (by decide), hne (by decide), hne (by decide)]

/-- The answers that the reader gets about the two lists. -/
structure SameLists (payload payload' : Value N) : Prop where
  found : foundHits payload' = foundHits payload
  delivered : noScreeningDelivered payload' = noScreeningDelivered payload
  ran : ranAndFoundNothing payload' = ranAndFoundNothing payload
  could : onlyCouldNotScreen payload' = onlyCouldNotScreen payload
  something : foundSomething payload' = foundSomething payload
  document : documentFailed payload' = documentFailed payload

theorem read_congr {payload' : Value N} (houtside : SameOutside payload payload')
    (hlists : SameLists payload payload') :
    readDiditDecision show' payload' requireAml = readDiditDecision show' payload requireAml := by
  have happroved : readApproved payload' (baseOf payload) = readApproved payload (baseOf payload) := by
    rw [readApproved, readApproved, hlists.found, hlists.delivered, hlists.ran, hlists.could]
  have hdeclined : readDeclined payload' requireAml (baseOf payload) =
      readDeclined payload requireAml (baseOf payload) := by
    rw [readDeclined, readDeclined, hlists.found, hlists.something, hlists.document, hlists.could]
  unfold readDiditDecision
  simp only [houtside.status, houtside.base, happroved, hdeclined]

theorem sameLists_of_screenings {payload' : Value N} (hperm : items.Perm items')
    (hlisted : Listed payload items) (hlisted' : Listed payload' items')
    (hdocument : getIn payload' documentsPath = getIn payload documentsPath) :
    SameLists payload payload' := by
  have hany (q : Json N → Bool) : items'.any q = items.any q := hperm.any_eq.symm
  have hall (q : Json N → Bool) : items'.all q = items.all q := hperm.all_eq.symm
  have hs := screenings_eq hlisted
  have hs' := screenings_eq hlisted'
  constructor
  · rw [foundHits, foundHits, hs, hs', hany]
  · rw [noScreeningDelivered, noScreeningDelivered, hlisted, hlisted', emptyOrAbsent, emptyOrAbsent,
      hperm.isEmpty_eq]
  · rw [ranAndFoundNothing, ranAndFoundNothing, hs, hs', hperm.length_eq, hall]
  · rw [onlyCouldNotScreen, onlyCouldNotScreen, hs, hs', hperm.length_eq, hall, hany]
  · rw [foundSomething, foundSomething, hs, hs', hany]
  · rw [documentFailed, documentFailed, hdocument]

theorem sameLists_of_documents {payload' : Value N} (hperm : items.Perm items')
    (hlisted : getIn payload documentsPath = some (.array items))
    (hlisted' : getIn payload' documentsPath = some (.array items'))
    (hscreenings : getIn payload' screeningsPath = getIn payload screeningsPath) :
    SameLists payload payload' := by
  have hs : screenings payload' = screenings payload := by
    rw [screenings, screenings, hscreenings]
  constructor
  · rw [foundHits, foundHits, hs]
  · rw [noScreeningDelivered, noScreeningDelivered, hscreenings]
  · rw [ranAndFoundNothing, ranAndFoundNothing, hs]
  · rw [onlyCouldNotScreen, onlyCouldNotScreen, hs]
  · rw [foundSomething, foundSomething, hs]
  · rw [documentFailed, documentFailed, hlisted, hlisted']
    exact hperm.any_eq.symm

theorem read_permuted_screenings (hlisted : Listed (some json) items) (hperm : items.Perm items') :
    readDiditDecision show' (some (setIn (.array items') screeningsPath json)) requireAml =
      readDiditDecision show' (some json) requireAml := by
  have hdocument : getIn (some (setIn (.array items') screeningsPath json)) documentsPath =
      getIn (some json) documentsPath :=
    getIn_setIn_ne (by decide) [units "decision"] [] []
  exact read_congr (sameOutside_setIn _ _)
    (sameLists_of_screenings hperm hlisted (getIn_setIn hlisted) hdocument)

theorem read_permuted_documents (hlisted : getIn (some json) documentsPath = some (.array items))
    (hperm : items.Perm items') :
    readDiditDecision show' (some (setIn (.array items') documentsPath json)) requireAml =
      readDiditDecision show' (some json) requireAml := by
  have hscreenings : getIn (some (setIn (.array items') documentsPath json)) screeningsPath =
      getIn (some json) screeningsPath :=
    getIn_setIn_ne (by decide) [units "decision"] [] []
  exact read_congr (sameOutside_setIn _ _)
    (sameLists_of_documents hperm hlisted (getIn_setIn hlisted) hscreenings)

end Permuted

/-- The reader fails closed, whatever is delivered. -/
theorem reader_fails_closed (show' : N → Text) (payload : Value N) (requireAml : Bool) :
    ((∃ c, readDiditDecision show' payload requireAml = some c ∧ c.screened = true) ↔
      statusOf payload = some (.string approved) ∧ AllClear payload) ∧
    (∀ c, readDiditDecision show' payload requireAml = some c → c.status = .accepted →
      statusOf payload = some (.string approved) ∧
        (Nothing (getIn payload screeningsPath) ∨ AllClear payload)) ∧
    ((statusOf payload = some (.string approved) ∨
        statusOf payload = some (.string (units "Declined"))) →
      (∃ items, Listed payload items ∧ ∃ entry ∈ items, Hit entry) →
        ∃ c, readDiditDecision show' payload requireAml = some c ∧ c.status = .rejected) ∧
    (∀ c, readDiditDecision show' payload requireAml = some c → c.status = .rejected →
      (statusOf payload = some (.string approved) ∧
          ∃ items, Listed payload items ∧ ∃ entry ∈ items, Hit entry) ∨
        statusOf payload = some (.string (units "Declined"))) ∧
    (∀ json items items', payload = some json → items.Perm items' →
      (Listed payload items →
        readDiditDecision show' (some (setIn (.array items') screeningsPath json)) requireAml =
          readDiditDecision show' payload requireAml) ∧
      (getIn payload documentsPath = some (.array items) →
        readDiditDecision show' (some (setIn (.array items') documentsPath json)) requireAml =
          readDiditDecision show' payload requireAml)) := by
  refine ⟨screened_iff, fun c => of_accepted, rejected_of_hits, fun c => of_rejected, ?_⟩
  rintro json items items' rfl hperm
  exact ⟨fun hlisted => read_permuted_screenings hlisted hperm,
    fun hlisted => read_permuted_documents hlisted hperm⟩

end Lolipay.Coordinator.Screening
