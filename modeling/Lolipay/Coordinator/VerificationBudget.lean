import Lolipay.Async.Stages
import Lolipay.Coordinator.Evidence
import Lolipay.Lists.SlidingWindow

namespace Lolipay.Coordinator.VerificationBudget

open Lolipay.Ledger.Runs Lolipay.Async.Process Lolipay.Async.Scheduling Lolipay.Async.Stages
open Lolipay.Coordinator.Evidence (trim)
open Lolipay.Lists.SlidingWindow

def dayMs : ℕ := 86400000

/-- The counters behind the alerts about identity verification. -/
structure DiditRefusals where
  count : ℕ := 0
  lastReason : Option String := none
  outOfSessionAt : List ℕ := []
  outOfSessionReason : Option String := none
  providerFailures : ℕ := 0
  providerReason : Option String := none
  unauthenticated : ℕ := 0
  unauthenticatedReason : Option String := none
  overBudget : ℕ := 0
  budgetReason : Option String := none
  performsAml : Option Bool := none

namespace DiditRefusals

def record (r : DiditRefusals) (reason : String) : DiditRefusals :=
  { r with count := r.count + 1, lastReason := some reason }

def applied (r : DiditRefusals) : DiditRefusals := { r with count := 0, lastReason := none }

def droppedOutOfSession (r : DiditRefusals) (now : ℕ) (reason : String) : DiditRefusals :=
  { r with outOfSessionAt := r.outOfSessionAt ++ [now], outOfSessionReason := some reason }

def couldNotAuthenticate (r : DiditRefusals) (reason : String) : DiditRefusals :=
  { r with unauthenticated := r.unauthenticated + 1, unauthenticatedReason := some reason }

def budgetExhausted (r : DiditRefusals) (reason : String) : DiditRefusals :=
  { r with overBudget := r.overBudget + 1, budgetReason := some reason }

def providerFailed (r : DiditRefusals) (reason : String) : DiditRefusals :=
  { r with providerFailures := r.providerFailures + 1, providerReason := some reason }

def providerAnswered (r : DiditRefusals) : DiditRefusals :=
  let left := r.providerFailures - 1
  { r with providerFailures := left, providerReason := if left = 0 then none else r.providerReason }

def spendResumed (r : DiditRefusals) : DiditRefusals := { r with overBudget := 0, budgetReason := none }

def seen (r : DiditRefusals) : DiditRefusals :=
  let left := r.unauthenticated - 1
  { r with
    unauthenticated := left
    unauthenticatedReason := if left = 0 then none else r.unauthenticatedReason }

def workflowPerformsAml (r : DiditRefusals) (performs : Option Bool) : DiditRefusals :=
  { r with performsAml := performs }

/-- What `state` leaves behind; it reports the fields of that, and the number of
the moments that are left. -/
def outOfSessionInWindow (r : DiditRefusals) (now : ℕ) : DiditRefusals :=
  let left := within dayMs now r.outOfSessionAt
  { r with
    outOfSessionAt := left
    outOfSessionReason := if left = [] then none else r.outOfSessionReason }

end DiditRefusals

structure Settings where
  apiKey : Option String
  workflowId : Option String
  /-- `diditDailySessionBudget`. -/
  budget : ℕ

structure Session where
  sessionId : Option String
  url : Option String

structure KycDecision where
  status : String
  providerRef : String
  verificationUrl : String
  deriving DecidableEq, Repr

/-- How the part of `start` in front of its first wait ends. -/
inductive Admission where
  | refused (reason : String)
  | reserved (at_ : ℕ)
  deriving DecidableEq, Repr

inductive Effect where
  | enter
  | fetch (workflowId vendorData firstName lastName : String)
  | text
  | json
  | providerFailed (reason : String)
  /-- The moment is that of the reservation, and no data of the service. -/
  | providerAnswered (reserved : ℕ)
  | giveBack (reserved : ℕ)

/-- An outer `none` is a request or a body that threw. -/
@[reducible] def Reply : Effect → Type
  | .enter => Admission
  | .fetch _ _ _ _ => Option Bool
  | .json => Option (Option Session)
  | .text | .providerFailed _ | .providerAnswered _ | .giveBack _ => Unit

abbrev Service (α : Type) := Program Effect Reply α

def refuse {α : Type} (reason : String) : Service α :=
  .step (.providerFailed reason) fun _ => .fail

def nonEmpty (text : Option String) : Option String := text.filter (· ≠ "")

def openSession (y : Settings) (customerRef : String) (fields : String → Option String)
    (reserved : ℕ) : Service KycDecision := do
  match fields "first_name", fields "last_name" with
  | some firstName, some lastName =>
    let ok ← (attempt (.fetch (y.workflowId.getD "") customerRef (trim firstName) (trim lastName))
      fun r => r : Service Bool)
    if ok then do
      let session ← (attempt .json fun r => r : Service (Option Session))
      match session.bind fun s => nonEmpty s.sessionId, session.bind fun s => nonEmpty s.url with
      | some sessionId, some url =>
        let _ ← issue (Effect.providerAnswered reserved)
        .pure ⟨"PROCESSING", sessionId, url⟩
      | _, _ => refuse "identity verification returned no session"
    else do
      let _ ← issue Effect.text
      refuse "identity verification could not be started"
  | _, _ => .fail

def start (y : Settings) (customerRef : String) (fields : String → Option String) :
    Service KycDecision := do
  let admission ← issue Effect.enter
  match admission with
  | Admission.refused _ => .fail
  | Admission.reserved at_ =>
    let opened ← (openSession y customerRef fields at_).caught
    match opened with
    | some decision => .pure decision
    | none =>
      let _ ← issue (Effect.giveBack at_)
      .fail

/-- The provider's memory, the counters and the clock. The rest is no data of the
services: the reservations whose `start` goes on, those of the sessions that were
opened and of the starts that never end, and the deliveries that were dropped. -/
structure Desk where
  now : ℕ
  started : List ℕ
  refusals : DiditRefusals
  pending : List (Pid × ℕ)
  opened : List ℕ
  abandoned : List ℕ
  dropped : List ℕ

/-- The clock is read three times on the way to a reservation. -/
structure Choice where
  check : ℕ := 0
  decide : ℕ := 0
  reserve : ℕ := 0
  ok : Option Bool := none
  session : Option (Option Session) := none

def configured (y : Settings) : Bool := (nonEmpty y.apiKey).isSome && (nonEmpty y.workflowId).isSome

def notConfiguredReason : String := "identity verification is not configured"

def budgetSpentReason (opened : ℕ) : String :=
  "this anchor has already opened " ++ toString opened ++
    " verifications in the last day, which is its whole budget"

/-- `overBudget` prunes what it looks at. -/
def pruned (s : Desk) (time : ℕ) : Desk := { s with started := within dayMs time s.started }

def overBudget (y : Settings) (s : Desk) : Bool := y.budget ≤ s.started.length

def resumed (y : Settings) (s : Desk) : Desk :=
  if overBudget y s then s else { s with refusals := s.refusals.spendResumed }

/-- What `start` does before it waits for anything. -/
def enter (y : Settings) (pid : Pid) (o : Choice) (s : Desk) : Desk × Admission :=
  if configured y then
    let s := pruned (resumed y (pruned s o.check)) o.decide
    if overBudget y s then
      ({ s with
          now := o.decide
          refusals := s.refusals.budgetExhausted (budgetSpentReason s.started.length) },
        .refused (budgetSpentReason s.started.length))
    else
      ({ s with
          now := o.reserve
          started := s.started ++ [o.reserve]
          pending := (pid, o.reserve) :: s.pending },
        .reserved o.reserve)
  else
    ({ s with refusals := s.refusals.providerFailed notConfiguredReason },
      .refused notConfiguredReason)

def effect (y : Settings) (pid : Pid) (e : Effect) (o : Choice) (s : Desk) : Desk × Reply e :=
  match e with
  | .enter => enter y pid o s
  | .fetch _ _ _ _ => (s, o.ok)
  | .json => (s, o.session)
  | .text => (s, ())
  | .providerFailed reason => ({ s with refusals := s.refusals.providerFailed reason }, ())
  | .providerAnswered reserved =>
    ({ s with
        refusals := s.refusals.providerAnswered
        pending := s.pending.erase (pid, reserved)
        opened := reserved :: s.opened }, ())
  | .giveBack reserved =>
    ({ s with
        started := eraseLast reserved s.started
        pending := s.pending.erase (pid, reserved) }, ())

inductive Move where
  | clock (time : ℕ)
  | record (reason : String)
  | applied
  | droppedOutOfSession (reason : String)
  | couldNotAuthenticate (reason : String)
  | seen
  | workflowPerformsAml (performs : Option Bool)
  | state

def moved (s : Desk) : Move → Desk
  | .clock time => { s with now := time }
  | .record reason => { s with refusals := s.refusals.record reason }
  | .applied => { s with refusals := s.refusals.applied }
  | .droppedOutOfSession reason =>
    { s with refusals := s.refusals.droppedOutOfSession s.now reason, dropped := s.now :: s.dropped }
  | .couldNotAuthenticate reason => { s with refusals := s.refusals.couldNotAuthenticate reason }
  | .seen => { s with refusals := s.refusals.seen }
  | .workflowPerformsAml performs => { s with refusals := s.refusals.workflowPerformsAml performs }
  | .state => { s with refusals := s.refusals.outOfSessionInWindow s.now }

def desk (y : Settings) :
    System (String × (String → Option String)) Choice Move Effect Reply Desk where
  body call := do
    let _ ← start y call.1 call.2
    .pure ()
  delivers _ _ := True
  permits _ e o s :=
    match e with
    | .enter => s.now ≤ o.check ∧ o.check ≤ o.decide ∧ o.decide ≤ o.reserve
    | _ => True
  effect := effect y
  dies pid s :=
    { s with
      pending := s.pending.filter fun p => p.1 ≠ pid
      abandoned := ((s.pending.filter fun p => p.1 = pid).map fun p => p.2) ++ s.abandoned }
  moves s m :=
    match m with
    | .clock time => s.now ≤ time
    | _ => True
  moved := moved

structure Starts (s : Desk) : Prop where
  started : s.started = []
  refusals : s.refusals = {}
  pending : s.pending = []
  opened : s.opened = []
  abandoned : s.abandoned = []
  dropped : s.dropped = []

def held (s : Desk) : List ℕ := (s.pending.map fun p => p.2) ++ (s.opened ++ s.abandoned)

section Spending

inductive Stage where
  | idle
  | holding (reserved : ℕ)

/-- Only a start with a reservation comes to the provider, and it does not end
before the reservation is used or given back. -/
inductive Turn : Itinerary Effect Reply Stage
  | refused (reason : String) : Turn .idle .enter (.refused reason) .idle
  | reserved (t : ℕ) : Turn .idle .enter (.reserved t) (.holding t)
  | fetch (w v f l : String) (t : ℕ) (r : Option Bool) :
      Turn (.holding t) (.fetch w v f l) r (.holding t)
  | text (t : ℕ) : Turn (.holding t) .text () (.holding t)
  | json (t : ℕ) (r : Option (Option Session)) : Turn (.holding t) .json r (.holding t)
  | failed (t : ℕ) (reason : String) : Turn (.holding t) (.providerFailed reason) () (.holding t)
  | answered (t : ℕ) : Turn (.holding t) (.providerAnswered t) () .idle
  | giveBack (t : ℕ) : Turn (.holding t) (.giveBack t) () .idle

theorem refuse_follows {α : Type} (reason : String) (t : ℕ) :
    Follows Turn (fun _ q => q = .idle) (fun q => q = .holding t) (.holding t)
      (refuse reason : Service α) :=
  fun () => ⟨_, .failed t reason, rfl⟩

theorem openSession_follows (y : Settings) (customerRef : String) (fields : String → Option String)
    (t : ℕ) :
    Follows Turn (fun _ q => q = .idle) (fun q => q = .holding t) (.holding t)
      (openSession y customerRef fields t) := by
  unfold openSession
  split
  next =>
    intro ok
    refine ⟨_, .fetch _ _ _ _ t ok, ?_⟩
    cases ok with
    | none => rfl
    | some ok =>
      cases ok with
      | false => exact fun () => ⟨_, .text t, refuse_follows _ t⟩
      | true =>
        intro session
        refine ⟨_, .json t session, ?_⟩
        cases session with
        | none => rfl
        | some session =>
          change Follows _ _ _ _ (match session.bind fun s => nonEmpty s.sessionId,
            session.bind fun s => nonEmpty s.url with
            | some sessionId, some url => _
            | _, _ => _)
          split
          next => exact fun () => ⟨_, .answered t, rfl⟩
          next => exact refuse_follows _ t
  next => rfl

theorem start_follows (y : Settings) (customerRef : String) (fields : String → Option String) :
    Follows Turn (fun _ q => q = .idle) (fun q => q = .idle) .idle (start y customerRef fields) := by
  intro admission
  cases admission with
  | refused reason => exact ⟨_, .refused reason, rfl⟩
  | reserved t =>
    have hcaught : Follows Turn (fun opened q => q = if opened.isSome then .idle else .holding t)
        (fun q => q = .idle) (.holding t) (openSession y customerRef fields t).caught :=
      (openSession_follows y customerRef fields t).caught (fun _ _ hq => hq) fun _ hq => hq
    refine ⟨_, .reserved t, hcaught.bind fun opened q hq => ?_⟩
    cases opened with
    | some decision => exact hq
    | none =>
      obtain rfl : q = .holding t := hq
      exact fun () => ⟨_, .giveBack t, rfl⟩

variable {y : Settings} {pid : Pid} {s : Desk} {stage : Pid → Stage} {q : Stage}

structure Books (y : Settings) (s : Desk) (stage : Pid → Stage) : Prop where
  remembers : Remembers dayMs s.now s.started (held s)
  rated : Rated dayMs y.budget (held s)
  nodup : s.pending.Nodup
  pending : ∀ p t, (p, t) ∈ s.pending ↔ stage p = .holding t

theorem dayMs_pos : 0 < dayMs := by decide

theorem pruned_resumed (s : Desk) {check decide : ℕ} (hle : check ≤ decide) :
    pruned (resumed y (pruned s check)) decide =
      { s with
        started := within dayMs decide s.started
        refusals := (resumed y (pruned s check)).refusals } := by
  unfold resumed
  split <;> simp only [pruned, within_within hle]

/-- What `start` finds when it decides. -/
theorem admit_cases (hmem : Remembers dayMs s.now s.started (held s)) (pid : Pid) (o : Choice)
    (hle : s.now ≤ o.check) (hle' : o.check ≤ o.decide) :
    ((enter y pid o s).2 = .refused notConfiguredReason ∧ configured y = false ∧
      (enter y pid o s).1 = { s with refusals := s.refusals.providerFailed notConfiguredReason }) ∨
    ∃ kept r, configured y = true ∧ kept.Perm (within dayMs o.decide (held s)) ∧
      ((y.budget ≤ kept.length ∧ (enter y pid o s).2 = .refused (budgetSpentReason kept.length) ∧
        (enter y pid o s).1 = { s with now := o.decide, started := kept, refusals := r }) ∨
      (kept.length < y.budget ∧ (enter y pid o s).2 = .reserved o.reserve ∧
        (enter y pid o s).1 =
          { s with
            now := o.reserve
            started := kept ++ [o.reserve]
            refusals := r
            pending := (pid, o.reserve) :: s.pending })) := by
  unfold enter
  by_cases hconf : configured y = true
  · rw [if_pos hconf, pruned_resumed s hle']
    refine .inr ⟨within dayMs o.decide s.started, ?_⟩
    have hkept := (hmem.later (hle.trans hle')).within
    simp only [overBudget, decide_eq_true_eq]
    by_cases hover : y.budget ≤ (within dayMs o.decide s.started).length
    · rw [if_pos hover]
      exact ⟨_, hconf, hkept, .inl ⟨hover, rfl, rfl⟩⟩
    · rw [if_neg hover]
      exact ⟨_, hconf, hkept, .inr ⟨not_le.mp hover, rfl, rfl⟩⟩
  · rw [if_neg hconf]
    exact .inl ⟨rfl, by simpa using hconf, rfl⟩

theorem held_erase {t : ℕ} (h : (pid, t) ∈ s.pending) :
    (held s).Perm (t :: ((s.pending.erase (pid, t)).map (fun p => p.2) ++ (s.opened ++ s.abandoned))) :=
  ((List.perm_cons_erase h).map fun p => p.2).append_right _

theorem Books.leave (h : Books y s stage) {t : ℕ} (hstage : stage pid = .holding t) (p : Pid) (u : ℕ) :
    (p, u) ∈ s.pending.erase (pid, t) ↔ place stage pid .idle p = .holding u := by
  rw [h.nodup.mem_erase_iff, h.pending p u]
  by_cases hp : p = pid
  · subst hp
    rw [place_self, hstage]
    simp only [ne_eq, Prod.mk.injEq, true_and, Stage.holding.injEq, reduceCtorEq, iff_false, not_and]
    exact fun hne => Ne.symm hne
  · rw [place_other hp]
    simp [hp]

theorem Books.admitted (h : Books y s stage) (hidle : stage pid = .idle) {o : Choice}
    (hclock : s.now ≤ o.check ∧ o.check ≤ o.decide ∧ o.decide ≤ o.reserve)
    (hturn : Turn .idle .enter (enter y pid o s).2 q) :
    Books y (enter y pid o s).1 (place stage pid q) := by
  obtain ⟨hcheck, hdecide, hreserve⟩ := hclock
  obtain ⟨hadm, -, hs⟩ | ⟨kept, r, -, hkept, ⟨-, hadm, hs⟩ | ⟨hroom, hadm, hs⟩⟩ :=
    admit_cases (y := y) h.remembers pid o hcheck hdecide
  · rw [hadm] at hturn
    cases hturn
    rw [hs, place_same hidle]
    exact ⟨h.remembers, h.rated, h.nodup, h.pending⟩
  · rw [hadm] at hturn
    cases hturn
    rw [hs, place_same hidle]
    exact ⟨⟨o.decide, le_rfl, hkept⟩, h.rated, h.nodup, h.pending⟩
  · rw [hadm] at hturn
    cases hturn
    rw [hs]
    have hfree (t : ℕ) : (pid, t) ∉ s.pending := by
      rw [h.pending, hidle]
      exact nofun
    have hmem : Remembers dayMs o.reserve kept (held s) := ⟨o.decide, hreserve, hkept⟩
    refine ⟨hmem.push dayMs_pos, h.rated.cons ?_, List.nodup_cons.mpr ⟨hfree _, h.nodup⟩, ?_⟩
    · have hle := length_within_le dayMs hreserve (held s)
      rw [← hkept.length_eq] at hle
      exact lt_of_le_of_lt hle hroom
    · intro p t
      rw [List.mem_cons]
      by_cases hp : p = pid
      · subst hp
        rw [place_self]
        simp [hfree, eq_comm]
      · rw [place_other hp, h.pending]
        simp [hp]

theorem Books.effect (h : Books y s stage) {e : Effect} {o : Choice}
    (hturn : Turn (stage pid) e (effect y pid e o s).2 q) (hp : (desk y).permits pid e o s) :
    Books y (effect y pid e o s).1 (place stage pid q) := by
  generalize hstage : stage pid = before at hturn
  cases e with
  | enter =>
    have hidle : before = .idle := by
      generalize (VerificationBudget.effect y pid .enter o s).2 = r at hturn
      cases hturn <;> rfl
    subst hidle
    exact h.admitted hstage hp hturn
  | fetch | json =>
    generalize (VerificationBudget.effect y pid _ o s).2 = r at hturn
    cases hturn
    rw [place_same hstage]
    exact h
  | text =>
    cases hturn
    rw [place_same hstage]
    exact h
  | providerFailed reason =>
    cases hturn
    rw [place_same hstage]
    exact ⟨h.remembers, h.rated, h.nodup, h.pending⟩
  | providerAnswered t =>
    cases hturn
    have hmine := (h.pending pid t).mpr hstage
    have hperm : (held s).Perm
        (((s.pending.erase (pid, t)).map fun p => p.2) ++ t :: (s.opened ++ s.abandoned)) :=
      (held_erase hmine).trans List.perm_middle.symm
    exact ⟨h.remembers.of_perm hperm, h.rated.of_perm hperm, h.nodup.erase _, h.leave hstage⟩
  | giveBack t =>
    cases hturn
    have hmine := (h.pending pid t).mpr hstage
    have hrest : ((held s).erase t).Perm
        ((s.pending.erase (pid, t)).map (fun p => p.2) ++ (s.opened ++ s.abandoned)) := by
      have hperm := (held_erase hmine).erase t
      rwa [List.erase_cons_head] at hperm
    refine ⟨(h.remembers.eraseLast t).of_perm hrest, ?_, h.nodup.erase _, h.leave hstage⟩
    exact (h.rated.of_subperm (List.erase_sublist.subperm)).of_perm hrest

theorem Books.dies (h : Books y s stage) (pid : Pid) :
    Books y ((desk y).dies pid s) (place stage pid .idle) := by
  have hsplit : (held s).Perm (held ((desk y).dies pid s)) := by
    have hparts := (List.filter_append_perm (fun p => p.1 = pid) s.pending).symm.map fun p => p.2
    simp only [List.map_append, ← decide_not] at hparts
    rw [List.perm_iff_count] at hparts ⊢
    intro t
    have hcount := hparts t
    simp only [held, desk, List.count_append, ne_eq] at hcount ⊢
    omega
  refine ⟨h.remembers.of_perm hsplit, h.rated.of_perm hsplit, h.nodup.filter _, fun p t => ?_⟩
  simp only [desk, List.mem_filter, h.pending]
  by_cases hp : p = pid
  · subst hp
    rw [place_self]
    simp
  · rw [place_other hp]
    simp [hp]

theorem Books.moved (h : Books y s stage) (m : Move) (hm : (desk y).moves s m) :
    Books y (moved s m) stage := by
  cases m with
  | clock time => exact ⟨h.remembers.later hm, h.rated, h.nodup, h.pending⟩
  | record | applied | droppedOutOfSession | couldNotAuthenticate | seen | workflowPerformsAml | state =>
    exact ⟨h.remembers, h.rated, h.nodup, h.pending⟩

theorem books_maintains (y : Settings) :
    Maintains Turn (desk y) (fun _ => .idle) .idle (fun _ _ => True) (fun _ => True) (Books y) where
  spawn _ _ _ _ h hidle _ := by
    rw [place_same hidle]
    exact h
  go _ _ _ _ _ _ h hturn hp := h.effect hturn hp
  dies _ _ pid h _ := h.dies pid
  moved _ _ m h hm := h.moved m hm

variable {tr : List (Entry _ (Act (String × (String → Option String)) Choice Move) _)}
  {w : Pool Effect Reply Desk}

theorem run_books (hs : Starts s) (hr : Run (machine (desk y)) (idle s) tr w) :
    ∃ stage, Underway Turn (fun q => q = .idle) .idle w stage ∧ Books y w.shared stage := by
  have hheld : held s = [] := by rw [held, hs.pending, hs.opened, hs.abandoned]; rfl
  have hstart : Books y s fun _ => .idle := by
    refine ⟨?_, ?_, ?_, fun p t => ?_⟩
    · rw [hs.started, hheld]
      exact .nil
    · rw [hheld]
      exact .nil
    · rw [hs.pending]
      exact List.nodup_nil
    · rw [hs.pending]
      exact ⟨nofun, nofun⟩
  refine run_underway (books_maintains y) (fun call => ?_) hr hstart
    fun e _ => by cases e.act <;> trivial
  exact (start_follows y call.1 call.2).bind fun _ _ hq => hq

/-- In no twenty-four hours are more verifications bought than the budget has,
those under way and those that hang included. -/
theorem spend_bounded (hs : Starts s) (hr : Run (machine (desk y)) (idle s) tr w) (a : ℕ) :
    ((held w.shared).filter fun t => a < t ∧ t ≤ a + dayMs).length ≤ y.budget := by
  obtain ⟨stage, -, hbooks⟩ := run_books hs hr
  exact hbooks.rated a

/-- A customer is turned away exactly when the reservations of the last day that
led to a session, or still can, are the whole budget: an attempt that failed
costs nothing, and the number that the refusal names is right. -/
theorem refused_exactly (hs : Starts s) (hr : Run (machine (desk y)) (idle s) tr w)
    {o : Choice} {k : Admission → Service Unit} (hrun : w.running pid = some (.step .enter k))
    (ha : admits (desk y) w (.go pid o)) :
    (∀ p t, (p, t) ∈ w.shared.pending → ∃ e k, w.running p = some (.step e k)) ∧
    ((∃ t, (effect y pid .enter o w.shared).2 = .reserved t) ↔
      configured y = true ∧ (within dayMs o.decide (held w.shared)).length < y.budget) ∧
    ∀ reason, configured y = true → (effect y pid .enter o w.shared).2 = .refused reason →
      reason = budgetSpentReason (within dayMs o.decide (held w.shared)).length := by
  obtain ⟨stage, hway, hbooks⟩ := run_books hs hr
  have hclock : w.shared.now ≤ o.check ∧ o.check ≤ o.decide ∧ o.decide ≤ o.reserve := by
    simp only [admits, hrun] at ha
    exact ha
  refine ⟨fun p t hpt => ?_, ?_⟩
  · have hstage := (hbooks.pending p t).mp hpt
    cases hp : w.running p with
    | none =>
      have hrest := hway.atRest p hp
      rw [hstage] at hrest
      cases hrest
    | some prog =>
      have hfollows := hway.follows p prog hp
      rw [hstage] at hfollows
      cases prog with
      | pure | fail => cases hfollows
      | step e k => exact ⟨e, k, rfl⟩
  · obtain ⟨hadm, hconf, -⟩ | ⟨kept, r, hconf, hkept, ⟨hover, hadm, -⟩ | ⟨hroom, hadm, -⟩⟩ :=
      admit_cases (y := y) hbooks.remembers pid o hclock.1 hclock.2.1
    · simp only [effect, hadm, hconf]
      simp
    · rw [← hkept.length_eq]
      simp only [effect, hadm, hconf]
      simpa using hover
    · rw [← hkept.length_eq]
      simp only [effect, hadm, hconf]
      simpa using hroom

def sampleSettings : Settings := ⟨some "key", some "flow", 1⟩

def sampleDesk : Desk := ⟨0, [], {}, [], [], [], []⟩

theorem sampleDesk_starts : Starts sampleDesk := ⟨rfl, rfl, rfl, rfl, rfl, rfl⟩

def sampleCall : String × (String → Option String) := ("customer", fun _ => some "name")

/-- One customer after whom the request fails, one who is turned away meanwhile, one
who gets a session, and one more. -/
def sampleActions : List (Act (String × (String → Option String)) Choice Move) :=
  [.spawn 0 sampleCall, .go 0 {}, .spawn 1 sampleCall, .go 1 {}, .go 0 {}, .go 0 {},
    .spawn 2 sampleCall, .go 2 { reserve := 5 }, .go 2 { ok := some true },
    .go 2 { session := some (some ⟨some "session", some "url"⟩) }, .go 2 {}, .spawn 3 sampleCall]

def sampleEnd : Pool Effect Reply Desk :=
  final (machine (desk sampleSettings)) (idle sampleDesk) sampleActions

theorem sampleActions_run : Run (machine (desk sampleSettings)) (idle sampleDesk)
    (history (machine (desk sampleSettings)) (idle sampleDesk) sampleActions) sampleEnd := by
  apply Run.of_actions
  have hclock : 0 ≤ 0 ∧ 0 ≤ 0 ∧ 0 ≤ 0 := by decide
  exact ⟨⟨rfl, trivial⟩, hclock, ⟨rfl, trivial⟩, hclock, trivial, trivial, ⟨rfl, trivial⟩,
    (by decide : 0 ≤ 0 ∧ 0 ≤ 0 ∧ 0 ≤ 5), trivial, trivial, trivial, ⟨rfl, trivial⟩, trivial⟩

theorem spend_bounded_sample :
    held sampleEnd.shared = [5] ∧
      ((held sampleEnd.shared).filter fun t => 0 < t ∧ t ≤ 0 + dayMs).length ≤ 1 :=
  ⟨rfl, spend_bounded sampleDesk_starts sampleActions_run 0⟩

theorem refused_exactly_sample :
    (effect sampleSettings 3 .enter ⟨6, 7, 8, none, none⟩ sampleEnd.shared).2 =
      .refused (budgetSpentReason 1) ∧
    ¬∃ t, (effect sampleSettings 3 .enter ⟨6, 7, 8, none, none⟩ sampleEnd.shared).2 = .reserved t := by
  have hclock : 5 ≤ 6 ∧ 6 ≤ 7 ∧ 7 ≤ 8 := by decide
  have hrun : sampleEnd.running 3 = some (.step .enter _) := rfl
  have hexact := (refused_exactly (o := ⟨6, 7, 8, none, none⟩) sampleDesk_starts sampleActions_run
    hrun hclock).2.1
  exact ⟨rfl, fun hroom => absurd (hexact.mp hroom).2 (by decide)⟩

end Spending

section Alarms

/-- Every counter comes with a reason exactly when it is not zero. -/
structure Reasoned (r : DiditRefusals) : Prop where
  last : 0 < r.count ↔ r.lastReason.isSome
  provider : 0 < r.providerFailures ↔ r.providerReason.isSome
  unauthenticated : 0 < r.unauthenticated ↔ r.unauthenticatedReason.isSome
  budget : 0 < r.overBudget ↔ r.budgetReason.isSome
  outOfSession : r.outOfSessionAt ≠ [] → r.outOfSessionReason.isSome

variable {r : DiditRefusals} {reason : String}

namespace Reasoned

theorem empty : Reasoned {} := ⟨by simp, by simp, by simp, by simp, by simp⟩

theorem record (h : Reasoned r) : Reasoned (r.record reason) :=
  ⟨by simp [DiditRefusals.record], h.provider, h.unauthenticated, h.budget, h.outOfSession⟩

theorem applied (h : Reasoned r) : Reasoned r.applied :=
  ⟨by simp [DiditRefusals.applied], h.provider, h.unauthenticated, h.budget, h.outOfSession⟩

theorem droppedOutOfSession (h : Reasoned r) (now : ℕ) : Reasoned (r.droppedOutOfSession now reason) :=
  ⟨h.last, h.provider, h.unauthenticated, h.budget, fun _ => rfl⟩

theorem couldNotAuthenticate (h : Reasoned r) : Reasoned (r.couldNotAuthenticate reason) :=
  ⟨h.last, h.provider, by simp [DiditRefusals.couldNotAuthenticate], h.budget, h.outOfSession⟩

theorem budgetExhausted (h : Reasoned r) : Reasoned (r.budgetExhausted reason) :=
  ⟨h.last, h.provider, h.unauthenticated, by simp [DiditRefusals.budgetExhausted], h.outOfSession⟩

theorem providerFailed (h : Reasoned r) : Reasoned (r.providerFailed reason) :=
  ⟨h.last, by simp [DiditRefusals.providerFailed], h.unauthenticated, h.budget, h.outOfSession⟩

theorem spendResumed (h : Reasoned r) : Reasoned r.spendResumed :=
  ⟨h.last, h.provider, h.unauthenticated, by simp [DiditRefusals.spendResumed], h.outOfSession⟩

theorem less {n : ℕ} {why : Option String} (h : 0 < n ↔ why.isSome) :
    0 < n - 1 ↔ (if n - 1 = 0 then none else why).isSome := by
  by_cases hn : n - 1 = 0
  · simp [hn]
  · rw [if_neg hn, ← h]
    omega

theorem providerAnswered (h : Reasoned r) : Reasoned r.providerAnswered :=
  ⟨h.last, less h.provider, h.unauthenticated, h.budget, h.outOfSession⟩

theorem seen (h : Reasoned r) : Reasoned r.seen :=
  ⟨h.last, h.provider, less h.unauthenticated, h.budget, h.outOfSession⟩

theorem workflowPerformsAml (h : Reasoned r) (performs : Option Bool) :
    Reasoned (r.workflowPerformsAml performs) :=
  ⟨h.last, h.provider, h.unauthenticated, h.budget, h.outOfSession⟩

theorem outOfSessionInWindow (h : Reasoned r) (now : ℕ) : Reasoned (r.outOfSessionInWindow now) := by
  refine ⟨h.last, h.provider, h.unauthenticated, h.budget, fun hleft => ?_⟩
  simp only [DiditRefusals.outOfSessionInWindow] at hleft ⊢
  rw [if_neg hleft]
  apply h.outOfSession
  intro hnone
  rw [hnone] at hleft
  exact hleft rfl

end Reasoned

/-- The counters stand on what has happened. -/
structure Grounded (s : Desk) : Prop where
  reasoned : Reasoned s.refusals
  drops : Remembers dayMs s.now s.refusals.outOfSessionAt s.dropped

variable {y : Settings} {pid : Pid} {s : Desk}

theorem resumed_grounded (h : Grounded s) : Grounded (resumed y s) := by
  unfold resumed
  split
  next => exact h
  next => exact ⟨h.reasoned.spendResumed, h.drops⟩

theorem Grounded.enter (h : Grounded s) {o : Choice}
    (hclock : s.now ≤ o.check ∧ o.check ≤ o.decide ∧ o.decide ≤ o.reserve) :
    Grounded (enter y pid o s).1 := by
  have hpruned : Grounded (pruned (resumed y (pruned s o.check)) o.decide) := by
    have hfirst : Grounded (pruned s o.check) := ⟨h.reasoned, h.drops⟩
    exact ⟨(resumed_grounded hfirst).reasoned, (resumed_grounded hfirst).drops⟩
  have hnow : (pruned (resumed y (pruned s o.check)) o.decide).now = s.now := by
    rw [pruned_resumed s hclock.2.1]
  have hlate : (pruned (resumed y (pruned s o.check)) o.decide).now ≤ o.decide := by omega
  have hdecide := hpruned.drops.later hlate
  unfold VerificationBudget.enter
  split
  next =>
    dsimp only
    split
    next => exact ⟨hpruned.reasoned.budgetExhausted, hdecide⟩
    next => exact ⟨hpruned.reasoned, hdecide.later hclock.2.2⟩
  next => exact ⟨h.reasoned.providerFailed, h.drops⟩

theorem Grounded.effect (h : Grounded s) {e : Effect} {o : Choice}
    (hp : (desk y).permits pid e o s) : Grounded (effect y pid e o s).1 := by
  cases e with
  | enter => exact h.enter hp
  | fetch | text | json | giveBack => exact ⟨h.reasoned, h.drops⟩
  | providerFailed reason => exact ⟨h.reasoned.providerFailed, h.drops⟩
  | providerAnswered t => exact ⟨h.reasoned.providerAnswered, h.drops⟩

theorem Grounded.moved (h : Grounded s) (m : Move) (hm : (desk y).moves s m) : Grounded (moved s m) := by
  cases m with
  | clock time => exact ⟨h.reasoned, h.drops.later hm⟩
  | record reason => exact ⟨h.reasoned.record, h.drops⟩
  | applied => exact ⟨h.reasoned.applied, h.drops⟩
  | droppedOutOfSession reason => exact ⟨h.reasoned.droppedOutOfSession s.now, h.drops.push dayMs_pos⟩
  | couldNotAuthenticate reason => exact ⟨h.reasoned.couldNotAuthenticate, h.drops⟩
  | seen => exact ⟨h.reasoned.seen, h.drops⟩
  | workflowPerformsAml performs => exact ⟨h.reasoned.workflowPerformsAml performs, h.drops⟩
  | state => exact ⟨h.reasoned.outOfSessionInWindow s.now, h.drops.prune⟩

variable {tr : List (Entry _ (Act (String × (String → Option String)) Choice Move) _)}
  {w : Pool Effect Reply Desk}

theorem run_grounded (hs : Starts s) (hr : Run (machine (desk y)) (idle s) tr w) :
    Grounded w.shared := by
  have hstart : Grounded s := by
    refine ⟨?_, ?_⟩
    · rw [hs.refusals]
      exact .empty
    · rw [hs.refusals, hs.dropped]
      exact .nil
  refine hr.invariant (I := fun p => Grounded p.shared) hstart fun p a h ha => ?_
  have hstep := step_of_next ha
  generalize (machine (desk y)).out p a = out at hstep
  generalize ((machine (desk y)).next p a).shared = t at hstep ⊢
  cases hstep with
  | same => exact h
  | effect pid e o hp => exact h.effect hp
  | dies pid => exact ⟨h.reasoned, h.drops⟩
  | moved m hm => exact h.moved m hm

/-- Whatever the monitor reports, a count comes with a reason for it and no reason
stands alone, and the deliveries that were dropped are counted for a day, each of
them. -/
theorem alarms_grounded (hs : Starts s) (hr : Run (machine (desk y)) (idle s) tr w) {time : ℕ}
    (htime : w.shared.now ≤ time) :
    let state := w.shared.refusals.outOfSessionInWindow time
    Reasoned state ∧ (0 < state.outOfSessionAt.length ↔ state.outOfSessionReason.isSome) ∧
      state.outOfSessionAt.Perm (within dayMs time w.shared.dropped) := by
  have h := run_grounded hs hr
  have hreasoned := h.reasoned.outOfSessionInWindow time
  refine ⟨hreasoned, ?_, (h.drops.later htime).within⟩
  rw [List.length_pos_iff]
  refine ⟨hreasoned.outOfSession, fun hsome hnone => ?_⟩
  simp only [DiditRefusals.outOfSessionInWindow] at hsome hnone
  rw [if_pos hnone] at hsome
  cases hsome

theorem alarms_grounded_sample :
    Reasoned (sampleEnd.shared.refusals.outOfSessionInWindow 10) ∧
      sampleEnd.shared.refusals.overBudget = 0 :=
  ⟨(alarms_grounded sampleDesk_starts sampleActions_run (by decide : 5 ≤ 10)).1, rfl⟩

end Alarms

end Lolipay.Coordinator.VerificationBudget
