import Mathlib.Data.List.Forall2
import Lolipay.Coordinator.Screening

namespace Lolipay.Coordinator.Payloads

open Lolipay.Script.Units Lolipay.Script.Values
open Lolipay.Coordinator.Identity (Listed Payload)
open Lolipay.Coordinator.Screening hiding Listed

variable {N α : Type} [LinearOrder N] [Zero N] {value v v' : Value N} {text : Option String}
  {entry : Json N} {s : Identity.Screening} {p : Payload}

/-- A text, or anything that is none. -/
def TextOf (value : Value N) : Option String → Prop
  | some text => value = some (.string (units text))
  | none => ∀ t, value ≠ some (.string t)

/-- A number, of which the reader only asks whether it is positive or zero. -/
def CountOf (value : Value N) : Option ℤ → Prop
  | some count => ∃ n, value = some (.number n) ∧ (n = 0 ↔ count = 0) ∧ (0 < n ↔ 0 < count)
  | none => ∀ n, value ≠ some (.number n)

inductive ListOf (R : Json N → α → Prop) : Value N → Listed α → Prop
  | missing : ListOf R none .absent
  | null : ListOf R (some .null) .absent
  | list {items : List (Json N)} {items' : List α} (h : List.Forall₂ R items items') :
      ListOf R (some (.array items)) (.list items')
  | text (t : String) : ListOf R (some (.string (units t))) (.other t)

structure ScreeningOf (entry : Json N) (s : Identity.Screening) : Prop where
  status : TextOf (statusOf (some entry)) s.status
  totalHits : CountOf (totalHits entry) s.totalHits
  hits : ListOf (fun _ _ => True) (hitsOf entry) s.hits
  warnings : ListOf (fun warning text => warning = .string (units text)) (warningsOf entry) s.warnings

/-- The body of a delivery says what the payload says. -/
structure Says (value : Value N) (p : Payload) : Prop where
  status : statusOf value = p.status.map fun text => .string (units text)
  environment : TextOf (prop value (units "environment")) p.environment
  sessionId : TextOf (prop value (units "session_id")) p.sessionId
  vendorData : TextOf (prop value (units "vendor_data")) p.vendorData
  amlScreenings : ListOf ScreeningOf (getIn value screeningsPath) p.amlScreenings
  idVerifications :
    ListOf (fun document => TextOf (statusOf (some document))) (getIn value documentsPath)
      p.idVerifications

/-- The two readers conclude the same. -/
structure Agrees (c : DiditConclusion N) (c' : Identity.DiditConclusion) : Prop where
  status : c.status = c'.status
  screened : c.screened = c'.screened
  environment : TextOf c.environment c'.environment
  providerRef : TextOf c.providerRef c'.providerRef
  customerRef : TextOf c.customerRef c'.customerRef
  rejectionReason : c.rejectionReason = c'.rejectionReason
  unrecognisedStatus : c.unrecognisedStatus = c'.unrecognisedStatus.map units
  notStarted : c.notStarted = c'.notStarted

section

omit [LinearOrder N] [Zero N]

theorem isString_string (t t' : String) :
    isString (units t) (some (.string (units t')) : Value N) = decide (t' = t) := by
  rw [Bool.eq_iff_iff, isString_iff, decide_eq_true_iff, Option.some.injEq, Json.string.injEq]
  exact units_injective.eq_iff

theorem includes_map (texts : List String) (t : String) :
    includes (texts.map units) (some (.string (units t)) : Value N) = texts.contains t := by
  rw [includes, List.any_map, ← List.any_beq]
  exact congrArg (List.any texts) (funext fun text => by simp [isString_string, beq_eq_decide])

theorem TextOf.isString_eq (h : TextOf value text) (t : String) :
    isString (units t) value = decide (text = some t) := by
  cases text with
  | some t' =>
    rw [show value = _ from h, isString_string]
    simp
  | none =>
    have hnot : ¬isString (units t) value = true := fun ht => h _ (isString_iff.mp ht)
    simpa using hnot

theorem ListOf.emptyOrAbsent_eq {R : Json N → α → Prop} {l : Listed α} (h : ListOf R value l) :
    emptyOrAbsent value = l.emptyOrAbsent := by
  cases h with
  | missing | null | text => rfl
  | list h => cases h <;> rfl

theorem map_eq_map {β : Type} {R : Json N → α → Prop} {items : List (Json N)} {items' : List α}
    {f : Json N → β} {g : α → β} (h : List.Forall₂ R items items')
    (hf : ∀ a b, R a b → f a = g b) : items.map f = items'.map g :=
  List.forall₂_eq_eq_eq ▸ List.rel_map (fun a b hab => hf a b hab) h

theorem all_eq_all {R : Json N → α → Prop} {items : List (Json N)} {items' : List α}
    {f : Json N → Bool} {g : α → Bool} (h : List.Forall₂ R items items')
    (hf : ∀ a b, R a b → f a = g b) : items.all f = items'.all g := by
  simpa [List.all_map] using congrArg (List.all · id) (map_eq_map h hf)

theorem any_eq_any {R : Json N → α → Prop} {items : List (Json N)} {items' : List α}
    {f : Json N → Bool} {g : α → Bool} (h : List.Forall₂ R items items')
    (hf : ∀ a b, R a b → f a = g b) : items.any f = items'.any g := by
  simpa [List.any_map] using congrArg (List.any · id) (map_eq_map h hf)

variable {base : DiditConclusion N} {base' : Identity.DiditConclusion}

theorem Agrees.concludes (h : Agrees base base') (status : Identity.KycStatus) :
    Agrees { base with status := status } { base' with status := status } :=
  { h with status := rfl }

theorem Agrees.refuses (h : Agrees base base') (status : Identity.KycStatus) (reason : String) :
    Agrees { base with status := status, rejectionReason := some reason }
      { base' with status := status, rejectionReason := some reason } :=
  { h with status := rfl, rejectionReason := rfl }

theorem Agrees.accepts (h : Agrees base base') :
    Agrees { base with status := .accepted, screened := true }
      { base' with status := .accepted, screened := true } :=
  { h with status := rfl, screened := rfl }

/-- What a list holds; anything else holds nothing. -/
def itemsOf : Value N → List (Json N)
  | some (.array items) => items
  | _ => []

theorem ListOf.items {R : Json N → α → Prop} {l : Listed α} (h : ListOf R value l) :
    List.Forall₂ R (itemsOf value) l.items := by
  cases h with
  | missing | null | text => exact .nil
  | list h => exact h

end

theorem CountOf.isZero_eq {count : Option ℤ} (h : CountOf value count) :
    isZero value = decide (count = some 0) := by
  rw [Bool.eq_iff_iff, isZero_iff, decide_eq_true_iff]
  cases count with
  | some z =>
    obtain ⟨n, rfl, hzero, -⟩ := h
    simpa using hzero
  | none => exact ⟨fun hn => absurd hn (h 0), nofun⟩

theorem ScreeningOf.cleared_eq (h : ScreeningOf entry s) : cleared entry = Identity.cleared s := by
  rw [Screening.cleared, Identity.cleared, approved, h.status.isString_eq, h.totalHits.isZero_eq,
    h.hits.emptyOrAbsent_eq, h.warnings.emptyOrAbsent_eq]
  cases decide (s.status = some "Approved") <;> cases decide (s.totalHits = some 0) <;>
    cases s.hits.emptyOrAbsent <;> cases s.warnings.emptyOrAbsent <;> rfl

theorem ScreeningOf.purelyNotPerformed_eq (h : ScreeningOf entry s) :
    purelyNotPerformed entry = Identity.purelyNotPerformed s := by
  have hzero := h.totalHits.isZero_eq
  have hhits := h.hits.emptyOrAbsent_eq
  have hwarnings := h.warnings
  unfold Screening.purelyNotPerformed Identity.purelyNotPerformed
  generalize warningsOf entry = w at hwarnings
  generalize s.warnings = l at hwarnings
  rw [hzero, hhits]
  cases hwarnings with
  | missing | null => rfl
  | @list items items' hitems =>
    have hempty : items.isEmpty = items'.isEmpty := by cases hitems <;> rfl
    have hall : (items.map some).all (isString notPerformed) =
        items'.all (· = Identity.notPerformed) := by
      rw [List.all_map]
      refine all_eq_all hitems fun warning text hw => ?_
      rw [hw]
      exact isString_string _ _
    simp only [isFalsy, Screening.emptyOrAbsent, Bool.false_or, hempty, hall]
    cases items'.isEmpty <;> simp
  | text t =>
    simp only [isFalsy, Screening.emptyOrAbsent, Bool.or_false, List.all_cons, List.all_nil,
      Bool.and_true, notPerformed, isString_string]
    by_cases ht : t = Identity.notPerformed
    · subst ht
      rfl
    · simp [ht, show ¬t = "COULD_NOT_PERFORM_AML_SCREENING" from ht]

theorem ScreeningOf.hitsPresent_eq (h : ScreeningOf entry s) :
    hitsPresent entry = Identity.hitsPresent s := by
  rw [Screening.hitsPresent, Identity.hitsPresent]
  congr 1
  · have htotal := h.totalHits
    generalize Screening.totalHits entry = value at htotal
    cases hcount : s.totalHits with
    | some z =>
      rw [hcount] at htotal
      obtain ⟨n, rfl, -, hpos⟩ := htotal
      simpa using hpos
    | none =>
      rw [hcount] at htotal
      have hnone (n : N) : value ≠ some (.number n) := htotal n
      split
      next n => exact absurd rfl (hnone n)
      next => rfl
  · have hhits := h.hits
    generalize hitsOf entry = value at hhits
    generalize s.hits = l at hhits
    cases hhits with
    | missing | null | text => rfl
    | list h => cases h <;> simp [Identity.Listed.items]

theorem ScreeningOf.adverse_eq (h : ScreeningOf entry s) : adverse entry = Identity.adverse s := by
  rw [Screening.adverse, Identity.adverse, h.cleared_eq, h.purelyNotPerformed_eq]
  cases Identity.cleared s <;> cases Identity.purelyNotPerformed s <;> rfl

section

variable (h : Says value p)
include h

theorem Says.screenings : List.Forall₂ ScreeningOf (screenings value) p.amlScreenings.items :=
  h.amlScreenings.items

theorem Says.foundHits_eq : foundHits value = Identity.foundHits p :=
  any_eq_any h.screenings fun _ _ hs => hs.hitsPresent_eq

theorem Says.foundSomething_eq : foundSomething value = Identity.foundSomething p :=
  any_eq_any h.screenings fun _ _ hs => hs.adverse_eq

theorem Says.ranAndFoundNothing_eq : ranAndFoundNothing value = Identity.ranAndFoundNothing p := by
  have hlist := h.screenings
  have hall := all_eq_all hlist fun _ _ hs => hs.cleared_eq
  simp only [Screening.ranAndFoundNothing, Identity.ranAndFoundNothing, hall, hlist.length_eq]
  cases p.amlScreenings.items <;> simp

theorem Says.onlyCouldNotScreen_eq : onlyCouldNotScreen value = Identity.onlyCouldNotScreen p := by
  have hlist := h.screenings
  have hall : ((Screening.screenings value).all fun s => cleared s || purelyNotPerformed s) =
      p.amlScreenings.items.all fun s => Identity.cleared s || Identity.purelyNotPerformed s :=
    all_eq_all hlist fun _ _ hs => by rw [hs.cleared_eq, hs.purelyNotPerformed_eq]
  have hany := any_eq_any hlist fun _ _ hs => hs.purelyNotPerformed_eq
  simp only [Screening.onlyCouldNotScreen, Identity.onlyCouldNotScreen, hall, hany, hlist.length_eq]
  cases p.amlScreenings.items <;> simp

theorem Says.documentFailed_eq : documentFailed value = Identity.documentFailed p := by
  have hitems : documentFailed value = (itemsOf (getIn value documentsPath)).any
      fun d => !isString approved (statusOf (some d)) := by
    unfold documentFailed
    cases getIn value documentsPath with
    | none => rfl
    | some json => cases json <;> rfl
  rw [hitems, Identity.documentFailed]
  refine any_eq_any h.idVerifications.items fun document status hs => ?_
  rw [approved, hs.isString_eq, decide_not]

end

theorem Says.readApproved (h : Says value p) (hbase : Agrees base base') :
    Agrees (readApproved value base) (Identity.readApproved p base') := by
  simp only [Screening.readApproved, Identity.readApproved, noScreeningDelivered, h.foundHits_eq,
    h.amlScreenings.emptyOrAbsent_eq, h.ranAndFoundNothing_eq, h.onlyCouldNotScreen_eq]
  split_ifs
  · exact hbase.refuses _ _
  · exact hbase.concludes _
  · exact hbase.accepts
  · exact hbase.refuses _ _
  · exact hbase.refuses _ _

theorem Says.readDeclined (h : Says value p) (hbase : Agrees base base') (requireAml : Bool) :
    Agrees (readDeclined value requireAml base) (Identity.readDeclined p requireAml base') := by
  simp only [Screening.readDeclined, Identity.readDeclined, h.foundHits_eq, h.foundSomething_eq,
    h.documentFailed_eq, h.onlyCouldNotScreen_eq]
  split_ifs
  · exact hbase.refuses _ _
  · exact hbase.refuses _ _
  · exact hbase.concludes _
  · exact hbase.refuses _ _
  · exact hbase.refuses _ _
  · exact hbase.refuses _ _

/-- The reader of the body comes to what the reader of the payload comes to. -/
theorem Says.readDiditDecision (h : Says value p) (show' : N → Text) (requireAml : Bool) :
    ∃ c, readDiditDecision show' value requireAml = some c ∧
      Agrees c (Identity.readDiditDecision p requireAml) := by
  have hbase : Agrees (baseOf value)
      { status := .processing
        screened := false
        environment := p.environment
        providerRef := p.sessionId
        customerRef := p.vendorData } :=
    ⟨rfl, rfl, h.environment, h.sessionId, h.vendorData, rfl, rfl, rfl⟩
  have hstatus := h.status
  unfold Screening.readDiditDecision Identity.readDiditDecision
  cases hp : p.status with
  | none =>
    rw [hp] at hstatus
    rw [hstatus]
    exact ⟨_, rfl, { hbase with unrecognisedStatus := rfl }⟩
  | some status =>
    rw [hp] at hstatus
    have hprocessing : includes Screening.processingStatuses (some (.string (units status)) : Value N) =
        Identity.processingStatuses.contains status :=
      includes_map Identity.processingStatuses status
    have hretryable : includes Screening.retryableStatuses (some (.string (units status)) : Value N) =
        Identity.retryableStatuses.contains status :=
      includes_map Identity.retryableStatuses status
    simp only [hstatus, Option.map_some, approved, isString_string, hprocessing, hretryable,
      decide_eq_true_eq]
    split_ifs
    · exact ⟨_, rfl, h.readApproved hbase⟩
    · exact ⟨_, rfl, h.readDeclined hbase requireAml⟩
    · exact ⟨_, rfl, { hbase with notStarted := rfl }⟩
    · exact ⟨_, rfl, hbase⟩
    · exact ⟨_, rfl, hbase.concludes _⟩
    · exact ⟨_, rfl, { hbase with unrecognisedStatus := rfl }⟩

end Lolipay.Coordinator.Payloads
