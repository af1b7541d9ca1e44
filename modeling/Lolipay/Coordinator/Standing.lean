import Lolipay.Async.Scheduling
import Lolipay.Coordinator.Database

namespace Lolipay.Coordinator.Standing

open Lolipay.Ledger.Runs Lolipay.Ledger.Invocation
open Lolipay.Async.Process Lolipay.Async.Scheduling
open Lolipay.Coordinator.Orders Lolipay.Coordinator.Database

/-- The row of a provider with the columns that an application writes too. -/
structure Provider extends Lp where
  approvedAt : Option ℕ
  personId : Option PersonId
  deriving DecidableEq, Repr

/-- The effects on the row of one provider. `setStatus` does all of its own
inside one transaction, `apply` has none. -/
inductive Effect where
  | findByAddress
  | hasUsdcTrustline
  | personIdForWallet
  | updateLp (contact liquidityProof : String) (personId : Option PersonId)
  | createLp (contact liquidityProof : String) (personId : Option PersonId)
  | findById
  | updateGuarded (lp : Provider) (status : LpStatus) (note : Option String)
  | cancelReachable
  | commit (lp : Provider) (status : LpStatus)
  | rollback

/-- `none`, and `false` inside the transaction, is a call that threw. -/
@[reducible] def Reply : Effect → Type
  | .findByAddress | .findById => Option Provider
  | .hasUsdcTrustline => Option Bool
  | .personIdForWallet => Option (Option PersonId)
  | .updateLp _ _ _ | .createLp _ _ _ => Option Unit
  | .updateGuarded _ _ _ | .cancelReachable | .commit _ _ => Bool
  | .rollback => Unit

abbrev Service (α : Type) := Program Effect Reply α

def standsDown (status : LpStatus) : Bool := status = .suspended || status = .revoked

def submit (known : Bool) (contact liquidityProof : String) : Service Unit := do
  let personId ← (attempt .personIdForWallet fun r => r : Service (Option PersonId))
  if known then attempt (.updateLp contact liquidityProof personId) fun r => r
  else attempt (.createLp contact liquidityProof personId) fun r => r

def apply (contact liquidityProof : String) : Service Unit := do
  let existing : Option Provider ← issue Effect.findByAddress
  if existing.any fun lp => standsDown lp.status then .fail
  else do
    let hasTrustline ← (attempt .hasUsdcTrustline fun r => r : Service Bool)
    if hasTrustline then submit existing.isSome contact liquidityProof else .fail

/-- The orders that a provider who stands down can still be reached by go first. -/
def concludeStatus (lp : Provider) (status : LpStatus) : Service Unit := do
  let cancelled : Bool ← if standsDown status then issue Effect.cancelReachable else .pure true
  if cancelled then do
    let done : Bool ← issue (Effect.commit lp status)
    demand done
  else failAfter .rollback

def setStatus (status : LpStatus) (note : Option String) : Service Unit := do
  let lp : Option Provider ← issue Effect.findById
  match lp with
  | none => .fail
  | some lp =>
    if lp.status = status ∧ (note = none ∨ note = lp.approvalNote) then .pure ()
    else do
      let updated : Bool ← issue (Effect.updateGuarded lp status note)
      if updated then concludeStatus lp status else failAfter .rollback

/-- An entry of the audit log. `found`, the row that the transaction replaced,
is no data of the service. -/
structure Audit where
  found : Option Provider
  before : Provider
  status : LpStatus

/-- The row, the transaction that has written to it with its version of the
row, and what was decided, the latest first. -/
structure Shared where
  address : Address
  row : Option Provider
  held : Option (Pid × Provider)
  now : ℕ
  audit : List Audit

structure Choice where
  fails : Bool := false
  trustline : Bool := true
  person : Option PersonId := none

/-- The columns that the guard of `setStatus` compares. -/
def asRead (seen lp : Provider) : Bool :=
  lp.status = seen.status && lp.approvalNote = seen.approvalNote &&
    lp.liquidityProof = seen.liquidityProof && lp.contact = seen.contact

def decided (seen lp : Provider) (status : LpStatus) (note : Option String) (now : ℕ) : Provider :=
  { lp with
    status
    approvalNote := note.orElse fun _ => seen.approvalNote
    approvedAt :=
      if status = .approved ∧ seen.status ≠ .approved then some now else seen.approvedAt }

def submitted (lp : Provider) (contact liquidityProof : String) (personId : Option PersonId) :
    Provider :=
  { lp with
    contact
    liquidityProof
    status := .pending
    approvedAt := none
    personId := personId.orElse fun _ => lp.personId }

def created (address : Address) (contact liquidityProof : String) (personId : Option PersonId) :
    Provider :=
  ⟨⟨address, .pending, none, liquidityProof, contact, 0⟩, none, personId⟩

def unhold (pid : Pid) (s : Shared) : Shared :=
  { s with held := s.held.filter fun h => h.1 ≠ pid }

def runCommit (pid : Pid) (lp : Provider) (status : LpStatus) (s : Shared) : Shared :=
  match s.held.filter fun h => h.1 = pid with
  | none => s
  | some (_, row) =>
    { s with row := some row, held := none, audit := ⟨s.row, lp, status⟩ :: s.audit }

def effect (pid : Pid) (e : Effect) (o : Choice) (s : Shared) : Shared × Reply e :=
  match e with
  | .findByAddress | .findById => (s, s.row)
  | .hasUsdcTrustline => (s, if o.fails then none else some o.trustline)
  | .personIdForWallet => (s, if o.fails then none else some o.person)
  | .updateLp contact proof personId =>
    match s.row with
    | none => (s, none)
    | some lp =>
      if o.fails then (s, none)
      else ({ s with row := some (submitted lp contact proof personId) }, some ())
  | .createLp contact proof personId =>
    if o.fails ∨ s.row.isSome then (s, none)
    else ({ s with row := some (created s.address contact proof personId) }, some ())
  | .updateGuarded seen status note =>
    match s.row.filter (asRead seen) with
    | none => (s, false)
    | some lp =>
      if o.fails then (s, false)
      else ({ s with held := some (pid, decided seen lp status note s.now) }, true)
  | .cancelReachable => (s, !o.fails)
  | .commit lp status => if o.fails then (unhold pid s, false) else (runCommit pid lp status s, true)
  | .rollback => (unhold pid s, ())

inductive Call where
  | apply (contact liquidityProof : String)
  | setStatus (status : LpStatus) (note : Option String)

/-- Any number of calls for one provider. A statement that would write to the
row waits for the transaction that has written to it. -/
def bureau : System Call Choice ℕ Effect Reply Shared where
  body
    | .apply contact proof => apply contact proof
    | .setStatus status note => setStatus status note
  delivers _ _ := True
  permits _ e _ s :=
    match e with
    | .updateLp _ _ _ | .updateGuarded _ _ _ => s.held = none
    | _ => True
  effect := effect
  dies := unhold
  moves s time := s.now ≤ time
  moved s time := { s with now := time }

abbrev Office := Pool Effect Reply Shared

/-- The two gaps between what a call has read and what it writes over: an
application that meets a provider who was stood down, and a guard that does not
see a change of the row. -/
def Noticed (o : Choice) (s : Shared) : Effect → Prop
  | .updateLp _ _ _ => o.fails = true ∨ ∀ lp ∈ s.row, standsDown lp.status = false
  | .updateGuarded seen _ _ => o.fails = true ∨ ∀ lp ∈ s.row, asRead seen lp = true → lp = seen
  | _ => True

def StepsNoticed : Office → Act Call Choice ℕ → Prop :=
  Heeds (fun _ e o s => Noticed o s e) fun _ _ => True

variable {s t : Shared} {pid : Pid} {o : Choice} {lp seen : Provider} {status : LpStatus}

/-- Every decision was about the row that it replaced, and the latest one is in
force if it stands the provider down. -/
structure Sound (s : Shared) : Prop where
  found : ∀ d ∈ s.audit, d.found = some d.before
  inForce : ∀ d rest, s.audit = d :: rest → standsDown d.status = true →
    ∃ lp, s.row = some lp ∧ lp.status = d.status
  known : s.held.isSome → s.row.isSome

def KeepsFor (pid : Pid) (s t : Shared) : Prop :=
  ∀ lp, s.held = some (pid, lp) → t.held = some (pid, lp) ∧ t.row = s.row

theorem KeepsFor.refl (pid : Pid) (s : Shared) : KeepsFor pid s s := fun _ h => ⟨h, rfl⟩

theorem KeepsFor.trans {u : Shared} (h : KeepsFor pid s t) (h' : KeepsFor pid t u) :
    KeepsFor pid s u := by
  intro lp hlp
  obtain ⟨hheld, hrow⟩ := h lp hlp
  obtain ⟨hheld', hrow'⟩ := h' lp hheld
  exact ⟨hheld', hrow'.trans hrow⟩

theorem KeepsFor.of_unheld (h : s.held = none) : KeepsFor pid s t := by
  intro lp hlp
  rw [h] at hlp
  cases hlp

theorem KeepsFor.of_held {q : Pid} (h : s.held = some (q, lp)) (hq : pid ≠ q) : KeepsFor pid s t := by
  intro lp' hlp
  rw [h] at hlp
  exact absurd (Prod.mk.inj (Option.some.inj hlp)).1.symm hq

theorem unhold_keeps {q : Pid} (hq : pid ≠ q) (s : Shared) : KeepsFor q s (unhold pid s) := by
  intro lp hlp
  have hkept : (s.held.filter fun h => h.1 ≠ pid) = some (q, lp) := by
    rw [hlp]
    simp [Option.filter, Ne.symm hq]
  exact ⟨hkept, rfl⟩

theorem Sound.unhold (h : Sound s) (pid : Pid) : Sound (unhold pid s) where
  found := h.found
  inForce := h.inForce
  known hheld := by
    obtain ⟨x, hx⟩ := Option.isSome_iff_exists.mp hheld
    have hsome : s.held = some x := (Option.filter_eq_some_iff.mp hx).1
    exact h.known (by rw [hsome]; rfl)

def carefully : System Call Choice ℕ Effect Reply Shared :=
  bureau.restrict (fun _ e o s => Noticed o s e) fun _ _ => True

def rowProtocol : Protocol carefully where
  rely := KeepsFor
  guar pid s t := ∀ q, pid ≠ q → KeepsFor q s t
  inv := Sound
  refl := KeepsFor.refl
  trans _ _ _ _ h h' := h.trans h'
  shares _ q _ _ hne _ h := h q hne
  dies pid s hs := ⟨hs.unhold pid, fun _ hq => unhold_keeps hq s⟩
  moved _ _ hs _ := ⟨⟨hs.found, hs.inForce, hs.known⟩, fun _ _ h => ⟨h, rfl⟩⟩

variable {α : Type} {Q : α → Shared → Prop}

theorem safe_reading {e : Effect} {k : Reply e → Service α}
    (hq : ∀ o t, (effect pid e o t).1 = t)
    (hk : ∀ o t, KeepsFor pid s t → Sound t → Safe (rowProtocol.of pid) Q
      (k (effect pid e o t).2) t) :
    Safe (rowProtocol.of pid) Q (.step e k) s :=
  safe_quiet rowProtocol (fun t q _ => .refl q t) hq fun t o hst ht => hk o t hst ht

theorem rollback_safe (s : Shared) : Safe (rowProtocol.of pid) (fun _ _ => True)
    (failAfter .rollback : Service Unit) s :=
  safe_failAfter rowProtocol fun t _ _ ht => ⟨fun _ hq => unhold_keeps hq t, ht.unhold pid⟩

/-- A transaction that holds the row as it has read it may commit. -/
theorem commit_safe {row : Provider} (hheld : s.held = some (pid, row)) (hrow : s.row = some seen)
    (hstatus : row.status = status) {k : Bool → Service Unit}
    (hk : ∀ b t, Safe (rowProtocol.of pid) (fun _ _ => True) (k b) t) :
    Safe (rowProtocol.of pid) (fun _ _ => True) (.step (.commit seen status) k) s := by
  apply safe_step
  intro t o hst ht _
  obtain ⟨hheld', hrow'⟩ := hst row hheld
  cases hf : o.fails with
  | true =>
    simp only [carefully, System.restrict, bureau, effect, hf]
    exact ⟨fun q hq => unhold_keeps hq t, ht.unhold pid, hk _ _⟩
  | false =>
    have hmine : (t.held.filter fun h => h.1 = pid) = some (pid, row) := by
      rw [hheld']
      simp [Option.filter]
    simp only [carefully, System.restrict, bureau, effect, hf, runCommit, hmine]
    refine ⟨fun q hq => .of_held hheld' (Ne.symm hq), ⟨fun d hd => ?_, fun d rest hd hdown => ?_,
      fun h => (by cases h)⟩, hk _ _⟩
    · obtain rfl | hd := List.mem_cons.mp hd
      · exact hrow'.trans hrow
      · exact ht.found d hd
    · obtain ⟨rfl, -⟩ := List.cons.inj hd
      exact ⟨row, rfl, hstatus⟩

theorem concludeStatus_safe {row : Provider} (hheld : s.held = some (pid, row))
    (hrow : s.row = some seen) (hstatus : row.status = status) :
    Safe (rowProtocol.of pid) (fun _ _ => True) (concludeStatus seen status) s := by
  rw [concludeStatus]
  by_cases hdown : standsDown status = true
  · rw [if_pos hdown]
    apply safe_reading (fun _ _ => rfl)
    intro o t hst ht
    obtain ⟨hheld', hrow'⟩ := hst row hheld
    cases hf : o.fails with
    | true =>
      simp only [effect, hf]
      exact rollback_safe t
    | false =>
      simp only [effect, hf]
      exact commit_safe hheld' (hrow'.trans hrow) hstatus fun done _ => safe_demand done
  · rw [if_neg hdown]
    exact commit_safe hheld hrow hstatus fun done _ => safe_demand done

theorem setStatus_safe (status : LpStatus) (note : Option String) (s : Shared) :
    Safe (rowProtocol.of pid) (fun _ _ => True) (setStatus status note) s := by
  apply safe_reading (fun _ _ => rfl)
  intro o t hst ht
  change Safe _ _ (match t.row with
    | none => .fail
    | some lp => if lp.status = status ∧ (note = none ∨ note = lp.approvalNote) then .pure ()
      else issue (Effect.updateGuarded lp status note) >>= fun updated : Bool =>
        if updated then concludeStatus lp status else failAfter .rollback) t
  cases t.row with
  | none => trivial
  | some seen =>
    dsimp only
    split
    next => exact fun _ _ _ => trivial
    next =>
      apply safe_step
      intro u o' htu hu hp
      have hfree : u.held = none := hp.1
      simp only [carefully, System.restrict, bureau, effect]
      cases hfound : u.row.filter (asRead seen) with
      | none => exact ⟨fun q _ => .refl q u, hu, rollback_safe u⟩
      | some lp =>
        cases hf : o'.fails with
        | true => exact ⟨fun q _ => .refl q u, hu, rollback_safe u⟩
        | false =>
          obtain ⟨hrow, hread⟩ := Option.filter_eq_some_iff.mp hfound
          have hsame : lp = seen := hp.2.resolve_left (by simp [hf]) lp hrow hread
          subst hsame
          refine ⟨fun q _ => .of_unheld hfree, ⟨hu.found, hu.inForce, fun _ => ?_⟩, ?_⟩
          · rw [hrow]
            rfl
          · exact concludeStatus_safe rfl hrow rfl

theorem submit_safe (known : Bool) (contact proof : String) (s : Shared) :
    Safe (rowProtocol.of pid) (fun _ _ => True) (submit known contact proof) s := by
  apply safe_reading (fun _ _ => rfl)
  intro o t hst ht
  cases hf : o.fails with
  | true =>
    simp only [effect, hf]
    trivial
  | false =>
    simp only [effect, hf]
    cases known with
    | true =>
      apply safe_step
      intro u o' htu hu hp
      have hfree : u.held = none := hp.1
      simp only [carefully, System.restrict, bureau, effect]
      cases hrow : u.row with
      | none => exact ⟨fun q _ => .refl q u, hu, trivial⟩
      | some lp =>
        cases hf' : o'.fails with
        | true => exact ⟨fun q _ => .refl q u, hu, trivial⟩
        | false =>
          have hstanding : standsDown lp.status = false :=
            hp.2.resolve_left (by simp [hf']) lp hrow
          refine ⟨fun q _ => .of_unheld hfree, ⟨hu.found, fun d rest hd hdown => ?_, fun _ => rfl⟩,
            fun _ _ _ => trivial⟩
          obtain ⟨lp', hlp', hstatus⟩ := hu.inForce d rest hd hdown
          obtain rfl := Option.some.inj (hrow.symm.trans hlp')
          rw [hstatus, hdown] at hstanding
          cases hstanding
    | false =>
      apply safe_step
      intro u o' htu hu hp
      simp only [carefully, System.restrict, bureau, effect]
      split
      next => exact ⟨fun q _ => .refl q u, hu, trivial⟩
      next hnew =>
        have hrow : u.row = none := by simpa using (not_or.mp hnew).2
        have hfree : u.held = none := by
          by_contra hheld
          have := hu.known (Option.isSome_iff_ne_none.mpr hheld)
          rw [hrow] at this
          cases this
        refine ⟨fun q _ => .of_unheld hfree, ⟨hu.found, fun d rest hd hdown => ?_, fun _ => rfl⟩,
          fun _ _ _ => trivial⟩
        obtain ⟨lp', hlp', -⟩ := hu.inForce d rest hd hdown
        rw [hrow] at hlp'
        cases hlp'

theorem apply_safe (contact proof : String) (s : Shared) :
    Safe (rowProtocol.of pid) (fun _ _ => True) (apply contact proof) s := by
  apply safe_reading (fun _ _ => rfl)
  intro o t hst ht
  change Safe _ _ (if t.row.any (fun lp => standsDown lp.status) then .fail
    else attempt .hasUsdcTrustline (fun r => r) >>= fun hasTrustline : Bool =>
      if hasTrustline then submit t.row.isSome contact proof else .fail) t
  split
  next => trivial
  next =>
    apply safe_reading (fun _ _ => rfl)
    intro o' u _ _
    cases hf : o'.fails with
    | true =>
      simp only [effect, hf]
      trivial
    | false =>
      simp only [effect, hf]
      change Safe _ _ (if o'.trustline then submit t.row.isSome contact proof else .fail) u
      cases o'.trustline with
      | false => trivial
      | true => exact submit_safe _ _ _ u

variable {w : Office} {tr : List (Entry Office (Act Call Choice ℕ) (Option (Pid × Effect)))}

/-- If no application writes over a provider who was stood down and no guard
overlooks a change, then every decision replaced the row that it was about, and
the latest one is in force as long as it stands the provider down. -/
theorem standing_changes_by_decision (hs : s.held = none ∧ s.audit = [])
    (hr : Run (machine bureau) (idle s) tr w) (hsteps : ∀ e ∈ tr, StepsNoticed e.pre e.act) :
    (∀ d rest, w.shared.audit = d :: rest → standsDown d.status = true →
      ∃ lp, w.shared.row = some lp ∧ lp.status = d.status) ∧
    ∀ d ∈ w.shared.audit, d.found = some d.before := by
  have hbody (pid : Pid) (call : Call) (s : Shared) (_ : Sound s) (_ : bureau.delivers s call) :
      Safe (rowProtocol.of pid) (fun _ _ => True) (bureau.body call) s := by
    cases call with
    | apply contact proof => exact apply_safe contact proof s
    | setStatus status note => exact setStatus_safe status note s
  have hsound : Sound s := by
    refine ⟨fun d hd => ?_, fun d rest hd => ?_, fun hheld => ?_⟩
    · rw [hs.2] at hd
      cases hd
    · rw [hs.2] at hd
      cases hd
    · rw [hs.1] at hheld
      cases hheld
  have horder : Orderly rowProtocol w := run_orderly_of_heeds hbody hr hsound hsteps
  exact ⟨horder.1.inForce, horder.1.found⟩

def sampleProvider : Provider := ⟨⟨⟨6⟩, .approved, none, "proof", "contact", 0⟩, some 500, none⟩

def sampleBureau : Shared := ⟨⟨6⟩, some sampleProvider, none, 1000, []⟩

def revokeThrough (pid : Pid) : List (Act Call Choice ℕ) :=
  .spawn pid (.setStatus .revoked none) :: List.replicate 4 (.go pid ⟨false, true, none⟩)

def refusedActions : List (Act Call Choice ℕ) :=
  revokeThrough 0 ++ [.spawn 1 (.apply "contact" "proof"), .go 1 ⟨false, true, none⟩]

theorem refusedActions_admitted : Admitted (machine bureau) (idle sampleBureau) refusedActions :=
  ⟨⟨rfl, trivial⟩, trivial, rfl, trivial, trivial, ⟨rfl, trivial⟩, trivial, trivial⟩

theorem sample_revoked_in_force : ∃ tr w, Run (machine bureau) (idle sampleBureau) tr w ∧
    (∃ d rest, w.shared.audit = d :: rest ∧ d.status = .revoked ∧
      ∃ lp, w.shared.row = some lp ∧ lp.status = d.status) ∧
    ∀ d ∈ w.shared.audit, d.found = some d.before := by
  have hrun := Run.of_actions _ _ refusedActions_admitted
  have hsteps : ∀ e ∈ history (machine bureau) (idle sampleBureau) refusedActions,
      StepsNoticed e.pre e.act := by
    apply history_meets
    refine ⟨trivial, trivial, .inr fun lp hlp _ => ?_, trivial, trivial, trivial, trivial, trivial⟩
    exact (Option.some.inj hlp).symm
  obtain ⟨hforce, hfound⟩ := standing_changes_by_decision ⟨rfl, rfl⟩ hrun hsteps
  exact ⟨_, _, hrun, ⟨_, _, rfl, rfl, hforce _ _ rfl rfl⟩, hfound⟩

/-- An application that has passed its check waits while the provider is revoked. -/
def overtakenActions : List (Act Call Choice ℕ) :=
  .spawn 1 (.apply "contact" "proof") :: .go 1 ⟨false, true, none⟩ ::
    (revokeThrough 0 ++ List.replicate 3 (.go 1 ⟨false, true, none⟩))

theorem revocation_overwritten : ∃ tr w, Run (machine bureau) (idle sampleBureau) tr w ∧
    (∃ d rest, w.shared.audit = d :: rest ∧ d.status = .revoked) ∧
    ∃ lp, w.shared.row = some lp ∧ lp.status = .pending := by
  refine ⟨_, _, .of_actions overtakenActions _ ?_, ⟨_, _, rfl, rfl⟩, _, rfl, rfl⟩
  exact ⟨⟨rfl, trivial⟩, trivial, ⟨rfl, trivial⟩, trivial, rfl, trivial, trivial, trivial, trivial,
    rfl, trivial⟩

end Lolipay.Coordinator.Standing
