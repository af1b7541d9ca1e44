import Lolipay.Coordinator.Identity

namespace Lolipay.Coordinator.IdentityGate

open Lolipay.Ledger.Storage Lolipay.Ledger.Runs
open Lolipay.Async.Process Lolipay.Async.Scheduling
open Lolipay.Async.AdvisoryLock (acquire_self acquire_keeps release_keeps)
open Lolipay.Coordinator.Orders Lolipay.Coordinator.Identity

variable {y : Settings} {s t u : Shared} {pid q : Pid} {o : Choice} {p : PersonId}
  {ref : CustomerRef} {row : KycVerification} {rows : Rows} {ds ds' : List Delivery}

/-- Only an accepting decision counts as screened, and one about a session that
has not started accepts nobody. -/
theorem readDiditDecision_sound (payload : Payload) (requireAml : Bool) :
    ((readDiditDecision payload requireAml).screened = true →
      (readDiditDecision payload requireAml).status = .accepted) ∧
    ((readDiditDecision payload requireAml).status = .accepted →
      (readDiditDecision payload requireAml).notStarted = false) := by
  simp only [readDiditDecision, readApproved, readDeclined]
  repeat' split
  all_goals simp

/-- What a row says about the deliveries for its customer. -/
structure RowSound (y : Settings) (ds : List Delivery) (ref : CustomerRef) (row : KycVerification) :
    Prop where
  owner : row.personId = y.ownerOf ref
  screened : row.screenedAt ≠ none → row.status = .accepted
  delivered : row.status = .accepted → ∀ time, row.deliveredAt = some time →
    ∃ d ∈ ds, d.ref = ref ∧ d.deliveredAt = time ∧ d.conclusion.status = .accepted
  cleared : ∀ time, row.screenedAt = some time →
    ∃ d ∈ ds, d.ref = ref ∧ d.deliveredAt = time ∧ d.conclusion.status = .accepted ∧
      d.conclusion.screened = true

theorem RowSound.mono (h : RowSound y ds ref row) (hds : ds ⊆ ds') : RowSound y ds' ref row where
  owner := h.owner
  screened := h.screened
  delivered ha time ht := by
    obtain ⟨d, hd, hrest⟩ := h.delivered ha time ht
    exact ⟨d, hds hd, hrest⟩
  cleared time ht := by
    obtain ⟨d, hd, hrest⟩ := h.cleared time ht
    exact ⟨d, hds hd, hrest⟩

/-- The row through which a person was let in, and the delivery behind it. -/
def Admits (y : Settings) (ds : List Delivery) (p : PersonId) (rows : Rows) : Prop :=
  ∃ ref row d, rows.lookup ref = some row ∧ row.personId = p ∧ row.status = .accepted ∧
    d ∈ ds ∧ d.ref = ref ∧ d.conclusion.status = .accepted ∧
    (y.kycRequireAml = true → d.conclusion.screened = true ∧ row.screenedAt = some d.deliveredAt) ∧
    (y.kycRequireAml = false → row.deliveredAt = some d.deliveredAt)

def Unrefused (p : PersonId) (rows : Rows) : Prop :=
  ∀ ref row, rows.lookup ref = some row → row.personId = p → row.status ≠ .rejected

/-- A positive answer was right, about one and the same moment. -/
structure Grounded (y : Settings) (ds : List Delivery) (a : Answer) : Prop where
  admits : Admits y ds a.personId a.accepted
  unrefused : Unrefused a.personId a.accepted
  still : Unrefused a.personId a.unrefused

structure Sound (y : Settings) (s : Shared) : Prop where
  rows : ∀ ref row, s.rows.lookup ref = some row → RowSound y s.deliveries ref row
  answers : ∀ a ∈ s.answers, Grounded y s.deliveries a

/-- Refusals are there to stay, and so are the deliveries on record. -/
structure Grows (s t : Shared) : Prop where
  refused : ∀ ref row, s.rows.lookup ref = some row → row.status = .rejected →
    ∃ row', t.rows.lookup ref = some row' ∧ row'.status = .rejected ∧ row'.personId = row.personId
  deliveries : s.deliveries ⊆ t.deliveries

theorem Grows.of_same (hr : t.rows = s.rows) (hd : t.deliveries = s.deliveries) : Grows s t where
  refused ref row h hrej := ⟨row, hr ▸ h, hrej, rfl⟩
  deliveries := by rw [hd]; exact List.Subset.refl _

theorem Grows.trans (h : Grows s t) (h' : Grows t u) : Grows s u where
  refused ref row hrow hrej := by
    obtain ⟨row₁, hrow₁, hrej₁, hp₁⟩ := h.refused ref row hrow hrej
    obtain ⟨row₂, hrow₂, hrej₂, hp₂⟩ := h'.refused ref row₁ hrow₁ hrej₁
    exact ⟨row₂, hrow₂, hrej₂, hp₂.trans hp₁⟩
  deliveries := List.Subset.trans h.deliveries h'.deliveries

theorem Admits.mono {rows : Rows} (h : Admits y ds p rows) (hds : ds ⊆ ds') : Admits y ds' p rows := by
  obtain ⟨ref, row, d, hrow, hp, ha, hd, hrest⟩ := h
  exact ⟨ref, row, d, hrow, hp, ha, hds hd, hrest⟩

/-- Who holds the lock of a person has the rows of his wallets to himself, but
for an erasure. -/
def Keeps (y : Settings) (q : Pid) (s t : Shared) : Prop :=
  ∀ p, s.locks (y.hashtext p) = some q →
    t.locks (y.hashtext p) = some q ∧ ∀ ref, y.ownerOf ref = p →
      t.rows.lookup ref = s.rows.lookup ref ∨ t.rows.lookup ref = none

theorem Keeps.of_same (hlocks : ∀ k, s.locks k = some q → t.locks k = some q)
    (hr : t.rows = s.rows) : Keeps y q s t :=
  fun _ h => ⟨hlocks _ h, fun _ _ => .inl (by rw [hr])⟩

theorem Keeps.trans (h : Keeps y q s t) (h' : Keeps y q t u) : Keeps y q s u := by
  intro p hlock
  obtain ⟨hlock₁, hrows₁⟩ := h p hlock
  obtain ⟨hlock₂, hrows₂⟩ := h' p hlock₁
  refine ⟨hlock₂, fun ref href => ?_⟩
  obtain h₂ | h₂ := hrows₂ ref href
  · rw [h₂]
    exact hrows₁ ref href
  · exact .inr h₂

def gateProtocol (y : Settings) : Protocol (bureau y) where
  rely pid s t := Grows s t ∧ Keeps y pid s t ∧ t.looked pid = s.looked pid
  guar pid s t := Grows s t ∧ ∀ q, pid ≠ q → Keeps y q s t ∧ t.looked q = s.looked q
  inv := Sound y
  refl _ _ := ⟨.of_same rfl rfl, .of_same (fun _ h => h) rfl, rfl⟩
  trans _ _ _ _ h h' := ⟨h.1.trans h'.1, h.2.1.trans h'.2.1, h'.2.2.trans h.2.2⟩
  shares _ q _ _ hne _ h := ⟨h.1, h.2 q hne⟩
  dies _ _ hs :=
    ⟨⟨hs.rows, hs.answers⟩,
      fun _ hq => ⟨.of_same rfl rfl, .of_same (fun _ => release_keeps hq) rfl, rfl⟩⟩
  moved _ _ hs _ :=
    ⟨⟨hs.rows, hs.answers⟩, fun _ => ⟨.of_same rfl rfl, .of_same (fun _ h => h) rfl, rfl⟩⟩

theorem guar_refl (pid : Pid) (s : Shared) : (gateProtocol y).guar pid s s :=
  ⟨.of_same rfl rfl, fun _ _ => ⟨.of_same (fun _ h => h) rfl, rfl⟩⟩

theorem released (ht : Sound y t) :
    (gateProtocol y).guar pid t (release pid t) ∧ Sound y (release pid t) :=
  ⟨⟨.of_same rfl rfl, fun _ hq => ⟨.of_same (fun _ => release_keeps hq) rfl, rfl⟩⟩,
    ht.rows, ht.answers⟩

theorem setRow_guar (ht : Sound y t) (hlock : t.locks (y.hashtext (y.ownerOf ref)) = some pid)
    (hold : ∀ old, t.rows.lookup ref = some old → old.status ≠ .rejected)
    (hds : t.deliveries ⊆ ds) (hrow : RowSound y ds ref row) :
    (gateProtocol y).guar pid t (release pid { setRow ref row t with deliveries := ds }) ∧
      Sound y (release pid { setRow ref row t with deliveries := ds }) := by
  refine ⟨⟨⟨fun ref' row' hrow' hrej => ?_, hds⟩, fun q hq => ⟨fun p hp => ?_, rfl⟩⟩, ?_, ?_⟩
  · have hne : ref' ≠ ref := by
      rintro rfl
      exact hold row' hrow' hrej
    exact ⟨row', (AList.lookup_insert_ne hne).trans hrow', hrej, rfl⟩
  · refine ⟨release_keeps hq hp, fun ref' href => .inl ?_⟩
    have hne : ref' ≠ ref := by
      rintro rfl
      rw [href] at hlock
      exact hq (Option.some.inj (hlock.symm.trans hp))
    exact AList.lookup_insert_ne hne
  · intro ref' row' hrow'
    change (t.rows.insert ref row).lookup ref' = some row' at hrow'
    by_cases hne : ref' = ref
    · subst hne
      rw [AList.lookup_insert] at hrow'
      obtain rfl := Option.some.inj hrow'
      exact hrow
    · rw [AList.lookup_insert_ne hne] at hrow'
      exact (ht.rows ref' row' hrow').mono hds
  · intro a ha
    obtain ⟨hadmits, hun, hstill⟩ := ht.answers a ha
    exact ⟨hadmits.mono hds, hun, hstill⟩

theorem anyRow_false {f : CustomerRef → KycVerification → Bool} (h : anyRow f rows = false)
    (hrow : rows.lookup ref = some row) : f ref row = false := by
  have hmem : (⟨ref, row⟩ : Sigma fun _ : CustomerRef => KycVerification) ∈ rows.entries :=
    AList.mem_lookup_iff.mp hrow
  simpa using List.any_eq_false.mp h _ hmem

theorem anyRow_true {f : CustomerRef → KycVerification → Bool} (h : anyRow f rows = true) :
    ∃ ref row, rows.lookup ref = some row ∧ f ref row = true := by
  obtain ⟨e, he, hf⟩ := List.any_eq_true.mp h
  exact ⟨e.1, e.2, AList.mem_lookup_iff.mpr he, hf⟩

/-- The row of a customer is the one that was read, unless it was erased. -/
def StillHas (ref : CustomerRef) (found : Option KycVerification) (s : Shared) : Prop :=
  s.rows.lookup ref = found ∨ s.rows.lookup ref = none

def Holds (y : Settings) (pid : Pid) (ref : CustomerRef) (s : Shared) : Prop :=
  s.locks (y.hashtext (y.ownerOf ref)) = some pid

theorem Holds.keep (h : Holds y pid ref s) (hst : (gateProtocol y).rely pid s t) :
    Holds y pid ref t :=
  (hst.2.1 _ h).1

theorem StillHas.keep {found : Option KycVerification} (h : StillHas ref found s)
    (hlock : Holds y pid ref s) (hst : (gateProtocol y).rely pid s t) : StillHas ref found t := by
  obtain hsame | hnone := (hst.2.1 _ hlock).2 ref rfl
  · rw [StillHas, hsame]
    exact h
  · exact .inr hnone

/-- The row is not a refusal; the lock keeps it so. -/
def Open (ref : CustomerRef) (s : Shared) : Prop :=
  ∀ row, s.rows.lookup ref = some row → row.status ≠ .rejected

theorem Open.keep (h : Open ref s) (hlock : Holds y pid ref s)
    (hst : (gateProtocol y).rely pid s t) : Open ref t := by
  intro row hrow
  obtain hsame | hnone := (hst.2.1 _ hlock).2 ref rfl
  · exact h row (hsame.symm.trans hrow)
  · rw [hnone] at hrow
    cases hrow

theorem open_of_unrefused (h : refusedIn (.either ref p) s.rows = false) : Open ref s := by
  intro row hrow hrej
  have := anyRow_false h hrow
  simp [hrej, Scope.covers] at this

variable {α : Type} {Q : α → Shared → Prop}

theorem lock_safe {k : Unit → Service α}
    (hk : ∀ t, Sound y t → Holds y pid ref t → Safe ((gateProtocol y).of pid) Q (k ()) t) :
    Safe ((gateProtocol y).of pid) Q (.step (.lock (y.hashtext (y.ownerOf ref))) k) s := by
  apply safe_step
  intro t o _ ht hp
  have hsound : Sound y ((bureau y).effect pid (.lock (y.hashtext (y.ownerOf ref))) o t).1 :=
    ⟨ht.rows, ht.answers⟩
  exact ⟨⟨.of_same rfl rfl, fun _ _ => ⟨.of_same (fun _ => acquire_keeps hp) rfl, rfl⟩⟩,
    hsound, hk _ hsound acquire_self⟩

theorem rollback_safe (s : Shared) :
    Safe ((gateProtocol y).of pid) (fun _ _ => True)
      (failAfter .rollback : Service Unit) s :=
  safe_failAfter _ fun _ _ _ ht => released ht

theorem leave_safe (s : Shared) : Safe ((gateProtocol y).of pid) (fun _ _ => True) leave s :=
  safe_last _ (fun _ _ => fun _ _ _ => trivial) fun _ _ _ ht => released ht

theorem standsAccepted_of_screened (h : row.status = .accepted) (hs : row.screenedAt ≠ none)
    (requireAml : Bool) (now : ℕ) : standsAccepted row requireAml now = true := by
  have hsome : row.screenedAt.isSome = true := Option.isSome_iff_ne_none.mpr hs
  simp [standsAccepted, staleAcceptance, h, hsome]

theorem incompleteRow_sound (h : ∀ row, s.rows.lookup ref = some row →
      RowSound y s.deliveries ref row ∧ row.screenedAt = none) (now : ℕ) :
    RowSound y s.deliveries ref (incompleteRow (y.ownerOf ref) now (s.rows.lookup ref)) := by
  cases hrow : s.rows.lookup ref with
  | none =>
    exact ⟨rfl, fun h => absurd rfl h, fun h => (by cases h), fun _ h => (by cases h)⟩
  | some row =>
    obtain ⟨-, hclear⟩ := h row hrow
    refine ⟨rfl, fun h => absurd hclear h, fun h => (by cases h), fun time htime => ?_⟩
    change row.screenedAt = some time at htime
    rw [hclear] at htime
    cases htime

theorem clocks_safe {k : ℕ → ℕ → Service Unit}
    (hk : ∀ t now now', (gateProtocol y).rely pid s t → Sound y t →
      Safe ((gateProtocol y).of pid) (fun _ _ => True) (k now now') t) :
    Safe ((gateProtocol y).of pid) (fun _ _ => True)
      (issue Effect.clock >>= fun now : ℕ => issue Effect.clock >>= fun now' : ℕ => k now now') s := by
  apply safe_quiet _ (guar_refl pid) (fun _ _ => rfl)
  intro t o hst _
  apply safe_quiet _ (guar_refl pid) (fun _ _ => rfl)
  intro u o' htu hu
  exact hk u _ _ ((gateProtocol y).trans pid hst htu) hu

theorem upsertUnsettled_safe (hlock : Holds y pid ref s) (hopen : Open ref s) :
    Safe ((gateProtocol y).of pid) (fun _ _ => True) (upsertUnsettled y ref (y.ownerOf ref)) s := by
  apply safe_quiet _ (guar_refl pid) (fun _ _ => rfl)
  intro t o hst ht
  have hlock₁ := hlock.keep hst
  have hopen₁ := hopen.keep hlock hst
  cases hf : o.fails with
  | true =>
    simp only [bureau, effect, hf]
    exact rollback_safe t
  | false =>
    simp only [bureau, effect, hf]
    apply clocks_safe
    intro u now now' htu hu
    have hlock₂ := hlock₁.keep htu
    have hopen₂ := hopen₁.keep hlock₁ htu
    have hfound : StillHas ref (t.rows.lookup ref) u := StillHas.keep (.inl rfl) hlock₁ htu
    split
    next => exact leave_safe u
    next hunsettled =>
      refine safe_last _ (fun r _ => safe_demand r) fun v o' huv hv => ?_
      have hfound₃ := hfound.keep hlock₂ huv
      simp only [bureau, effect]
      cases hf' : o'.fails with
      | true => exact released hv
      | false =>
        have hrow : ∀ row, v.rows.lookup ref = some row →
            RowSound y v.deliveries ref row ∧ row.screenedAt = none := by
          intro row hrow
          refine ⟨hv.rows ref row hrow, ?_⟩
          by_contra hscreened
          -- The row is the one that was read, so it would have counted as settled.
          have hread : t.rows.lookup ref = some row := by
            obtain h | h := hfound₃
            · exact h.symm.trans hrow
            · rw [h] at hrow
              cases hrow
          have haccepted := (hv.rows ref row hrow).screened hscreened
          apply hunsettled
          simp [isSettled, hread, standsAccepted_of_screened haccepted hscreened]
        exact setRow_guar hv (hlock₂.keep huv) (hopen₂.keep hlock₂ huv) (List.Subset.refl _)
          (incompleteRow_sound hrow v.now)

theorem recordIncomplete_safe (ref : CustomerRef) (s : Shared) :
    Safe ((gateProtocol y).of pid) (fun _ _ => True) (recordIncomplete y ref (y.ownerOf ref)) s := by
  apply lock_safe
  intro t _ hlock
  apply safe_quiet _ (guar_refl pid) (fun _ _ => rfl)
  intro u o htu hu
  cases hf : o.fails with
  | true =>
    simp only [bureau, effect, hf]
    exact rollback_safe u
  | false =>
    simp only [bureau, effect, hf]
    cases hrefused : refusedIn (.either ref (y.ownerOf ref)) u.rows with
    | true => exact rollback_safe u
    | false => exact upsertUnsettled_safe (hlock.keep htu) (open_of_unrefused hrefused)

/-- What a delivery may assume of its conclusion. -/
structure Concluded (c : DiditConclusion) : Prop where
  screened : c.screened = true → c.status = .accepted
  started : c.status = .accepted → c.notStarted = false

theorem deliveredRow_sound {c : DiditConclusion} (hc : Concluded c) (deliveredAt now : ℕ)
    (standing : Option KycVerification) (url : Option String) :
    RowSound y (⟨ref, c, deliveredAt⟩ :: ds) ref
      (deliveredRow (y.ownerOf ref) c deliveredAt now standing url) := by
  refine ⟨rfl, fun h => ?_, fun haccepted time htime => ?_, fun time htime => ?_⟩
  · cases hs : c.screened with
    | true => exact hc.screened hs
    | false => simp [deliveredRow, hs] at h
  · have hstarted := hc.started haccepted
    simp only [deliveredRow, hstarted] at htime
    exact ⟨_, List.mem_cons_self, rfl, Option.some.inj htime, haccepted⟩
  · cases hs : c.screened with
    | false => simp [deliveredRow, hs] at htime
    | true =>
      simp only [deliveredRow, hs, if_true] at htime
      exact ⟨_, List.mem_cons_self, rfl, Option.some.inj htime, hc.screened hs, hs⟩

theorem deliverUnrefused_safe {c : DiditConclusion} (hc : Concluded c) (deliveredAt : ℕ)
    (hlock : Holds y pid ref s) :
    Safe ((gateProtocol y).of pid) (fun _ _ => True)
      (deliverUnrefused ref (y.ownerOf ref) c deliveredAt) s := by
  apply safe_quiet _ (guar_refl pid) (fun _ _ => rfl)
  intro t o hst ht
  have hlock₁ := hlock.keep hst
  cases hf : o.fails with
  | true =>
    simp only [bureau, effect, hf]
    exact rollback_safe t
  | false =>
    simp only [bureau, effect, hf]
    change Safe _ _ (if (t.rows.lookup ref).any (drops c deliveredAt) then leave
      else issue (Effect.writeDelivery ref (y.ownerOf ref) c deliveredAt (t.rows.lookup ref)) >>=
        fun done : Bool => demand done) t
    split
    next => exact leave_safe t
    next hkept =>
      have hopen : Open ref t := by
        intro row hrow hrej
        exact hkept (by simp [hrow, drops, hrej])
      refine safe_last _ (fun r _ => safe_demand r) fun u o' htu hu => ?_
      have hopen' := hopen.keep hlock₁ htu
      simp only [effect]
      cases hf' : o'.fails with
      | true => exact released hu
      | false =>
        simp only [runDelivery]
        cases deliveryTo (t.rows.lookup ref) (u.rows.lookup ref) with
        | none => exact released hu
        | some url =>
          exact setRow_guar hu (hlock₁.keep htu) hopen' (List.subset_cons_self _ _)
            (deliveredRow_sound hc deliveredAt u.now _ url)

theorem applyDelivery_safe {c : DiditConclusion} (hc : Concluded c) (deliveredAt : ℕ) (s : Shared) :
    Safe ((gateProtocol y).of pid) (fun _ _ => True) (applyDelivery y c deliveredAt) s := by
  rw [applyDelivery]
  cases c.customerRef.filter (· ≠ "") with
  | none => exact fun _ _ _ => trivial
  | some ref =>
    dsimp only
    split
    next => exact fun _ _ _ => trivial
    next =>
      apply safe_quiet _ (guar_refl pid) (fun _ _ => rfl)
      intro t o _ _
      cases hf : o.fails with
      | true =>
        simp only [bureau, effect, hf]
        trivial
      | false =>
        simp only [bureau, effect, hf]
        cases hl : o.linked with
        | false => exact fun _ _ _ => trivial
        | true =>
          change Safe _ _ (deliverLocked y ref (y.ownerOf ref) c deliveredAt) t
          apply lock_safe
          intro u _ hlock
          apply safe_quiet _ (guar_refl pid) (fun _ _ => rfl)
          intro v o' huv _
          cases hf' : o'.fails with
          | true =>
            simp only [bureau, effect, hf']
            exact rollback_safe v
          | false =>
            simp only [bureau, effect, hf']
            change Safe _ _ (if refusedIn (.elsewhere ref (y.ownerOf ref)) v.rows ∧
                c.status ≠ .rejected then leave
              else deliverUnrefused ref (y.ownerOf ref) c deliveredAt) v
            split
            next => exact leave_safe v
            next => exact deliverUnrefused_safe hc deliveredAt (hlock.keep huv)

theorem startedRow_sound (decision : KycDecision) (startedAt now : ℕ) :
    RowSound y ds ref (startedRow (y.ownerOf ref) decision startedAt now) :=
  ⟨rfl, fun h => absurd rfl h, fun _ _ h => (by cases h), fun _ h => (by cases h)⟩

theorem startLocked_safe (ref : CustomerRef) (decision : KycDecision) (startedAt : ℕ) (s : Shared) :
    Safe ((gateProtocol y).of pid) (fun _ _ => True)
      (startLocked y ref (y.ownerOf ref) decision startedAt) s := by
  apply lock_safe
  intro t _ hlock
  apply safe_quiet _ (guar_refl pid) (fun _ _ => rfl)
  intro u o htu _
  have hlock₁ := hlock.keep htu
  cases hf : o.fails with
  | true =>
    simp only [bureau, effect, hf]
    exact rollback_safe u
  | false =>
    simp only [bureau, effect, hf]
    apply clocks_safe
    intro v now now' huv _
    have hlock₂ := hlock₁.keep huv
    split
    next => exact leave_safe v
    next =>
      apply safe_quiet _ (guar_refl pid) (fun _ _ => rfl)
      intro w o' hvw _
      have hlock₃ := hlock₂.keep hvw
      cases hf' : o'.fails with
      | true =>
        simp only [bureau, effect, hf']
        exact rollback_safe w
      | false =>
        simp only [bureau, effect, hf']
        cases hrefused : refusedIn (.either ref (y.ownerOf ref)) w.rows with
        | true => exact leave_safe w
        | false =>
          refine safe_last _ (fun r _ => safe_demand r) fun x o'' hwx hx => ?_
          simp only [effect]
          cases hf'' : o''.fails with
          | true => exact released hx
          | false =>
            exact setRow_guar hx (hlock₃.keep hwx) ((open_of_unrefused hrefused).keep hlock₃ hwx)
              (List.Subset.refl _) (startedRow_sound decision startedAt x.now)

theorem openSession_safe (ref : CustomerRef) (s : Shared) :
    Safe ((gateProtocol y).of pid) (fun _ _ => True) (openSession y ref (y.ownerOf ref)) s := by
  apply safe_quiet _ (guar_refl pid) (fun _ _ => rfl)
  intro t o _ _
  change Safe _ _ (if o.opening then .pure () else attempt (.start ref) (fun r => r) >>=
    fun decision : KycDecision => issue Effect.clock >>= fun startedAt : ℕ =>
      startLocked y ref (y.ownerOf ref) decision startedAt) t
  split
  next => exact fun _ _ _ => trivial
  next =>
    apply safe_quiet _ (guar_refl pid) (fun _ _ => rfl)
    intro u o' _ _
    cases hf : o'.fails with
    | true =>
      simp only [bureau, effect, hf]
      trivial
    | false =>
      simp only [bureau, effect, hf]
      apply safe_quiet _ (guar_refl pid) (fun _ _ => rfl)
      intro v _ _ _
      exact startLocked_safe ref _ _ v

theorem resubmit_safe (ref : CustomerRef) (complete : Bool) (s : Shared) :
    Safe ((gateProtocol y).of pid) (fun _ _ => True) (resubmit y ref (y.ownerOf ref) complete) s := by
  apply safe_quiet _ (guar_refl pid) (fun _ _ => rfl)
  intro t o _ _
  cases hf : o.fails with
  | true =>
    simp only [bureau, effect, hf]
    trivial
  | false =>
    simp only [bureau, effect, hf]
    apply clocks_safe
    intro u now now' _ _
    split
    next => exact fun _ _ _ => trivial
    next =>
      cases complete with
      | true => exact openSession_safe ref u
      | false => exact recordIncomplete_safe ref u

theorem put_safe (ref : CustomerRef) (mail complete : Bool) (s : Shared) :
    Safe ((gateProtocol y).of pid) (fun _ _ => True) (put y ref mail complete) s := by
  apply safe_quiet _ (guar_refl pid) (fun _ _ => rfl)
  intro t o _ _
  cases hf : o.fails with
  | true =>
    simp only [bureau, effect, hf]
    trivial
  | false =>
    simp only [bureau, effect, hf]
    cases hl : o.linked with
    | false => trivial
    | true =>
      apply safe_quiet _ (guar_refl pid) (fun _ _ => rfl)
      intro u o' _ _
      cases hf' : o'.fails with
      | true =>
        simp only [bureau, effect, hf']
        trivial
      | false =>
        simp only [bureau, effect, hf']
        cases refusedIn (.either ref (y.ownerOf ref)) u.rows with
        | true => trivial
        | false =>
          cases mail with
          | false => exact resubmit_safe ref complete u
          | true =>
            apply safe_quiet _ (guar_refl pid) (fun _ _ => rfl)
            intro v o'' _ _
            cases hf'' : o''.fails with
            | true =>
              simp only [bureau, effect, hf'']
              trivial
            | false =>
              simp only [bureau, effect, hf'']
              exact resubmit_safe ref complete v

theorem lookup_redact (now : ℕ) (refs : List CustomerRef) (rows : Rows) (ref : CustomerRef) :
    (refs.foldl (redactOne now) rows).lookup ref = rows.lookup ref ∨
      ∃ row, ref ∈ refs ∧ rows.lookup ref = some row ∧
        (refs.foldl (redactOne now) rows).lookup ref = some (redactedRow now row) := by
  induction refs generalizing rows with
  | nil => exact .inl rfl
  | cons first rest ih =>
    rw [List.foldl_cons]
    have hhead : (redactOne now rows first).lookup ref = rows.lookup ref ∨
        ∃ row, ref = first ∧ rows.lookup ref = some row ∧
          (redactOne now rows first).lookup ref = some (redactedRow now row) := by
      rw [redactOne]
      split
      next => exact .inl rfl
      next row hrow =>
        by_cases hne : ref = first
        · subst hne
          exact .inr ⟨row, rfl, hrow, AList.lookup_insert _⟩
        · exact .inl (AList.lookup_insert_ne hne)
    obtain hrest | ⟨row, hmem, hrow, hrest⟩ := ih (redactOne now rows first)
    · rw [hrest]
      obtain hhead | ⟨row, rfl, hrow, hhead⟩ := hhead
      · exact .inl hhead
      · exact .inr ⟨row, List.mem_cons_self, hrow, hhead⟩
    · rw [hrest]
      obtain hhead | ⟨row', rfl, hrow', hhead⟩ := hhead
      · exact .inr ⟨row, List.mem_cons_of_mem _ hmem, hhead ▸ hrow, rfl⟩
      · obtain rfl := Option.some.inj (hhead.symm.trans hrow)
        exact .inr ⟨row', List.mem_cons_self, hrow', rfl⟩

theorem redactedRow_sound (h : RowSound y ds ref row) (now : ℕ) :
    RowSound y ds ref (redactedRow now row) :=
  ⟨h.owner, fun h => absurd rfl h, h.delivered, fun _ h => (by cases h)⟩

theorem redact_guar {refs : List CustomerRef} (ht : Sound y t) (hlock : Holds y pid ref t)
    (hrefs : ∀ ref' ∈ refs, y.ownerOf ref' = y.ownerOf ref) :
    (gateProtocol y).guar pid t (release pid { t with rows := refs.foldl (redactOne t.now) t.rows }) ∧
      Sound y (release pid { t with rows := refs.foldl (redactOne t.now) t.rows }) := by
  refine ⟨⟨⟨fun ref' row hrow hrej => ?_, List.Subset.refl _⟩, fun q hq => ⟨fun p hp => ?_, rfl⟩⟩,
    fun ref' row' hrow' => ?_, ht.answers⟩
  · obtain hsame | ⟨row', -, hrow', hset⟩ := lookup_redact t.now refs t.rows ref'
    · exact ⟨row, hsame.trans hrow, hrej, rfl⟩
    · obtain rfl := Option.some.inj (hrow.symm.trans hrow')
      exact ⟨_, hset, hrej, rfl⟩
  · refine ⟨release_keeps hq hp, fun ref' href => .inl ?_⟩
    obtain hsame | ⟨row', hmem, -, -⟩ := lookup_redact t.now refs t.rows ref'
    · exact hsame
    · have hmine : t.locks (y.hashtext p) = some pid := by
        rw [← href, hrefs ref' hmem]
        exact hlock
      exact absurd (Option.some.inj (hmine.symm.trans hp)) hq
  · change (refs.foldl (redactOne t.now) t.rows).lookup ref' = some row' at hrow'
    obtain hsame | ⟨row, -, hrow, hset⟩ := lookup_redact t.now refs t.rows ref'
    · exact ht.rows ref' row' (hsame.symm.trans hrow')
    · obtain rfl := Option.some.inj (hset.symm.trans hrow')
      exact redactedRow_sound (ht.rows ref' row hrow) t.now

theorem owner_of_refusals {ref' : CustomerRef} (hs : Sound y s)
    (h : ref' ∈ refusals ref (y.ownerOf ref) s.rows) : y.ownerOf ref' = y.ownerOf ref := by
  obtain ⟨-, hany⟩ := List.mem_filter.mp h
  obtain ⟨row, hrow, hcovers⟩ := (Option.any_eq_true _ _).mp hany
  obtain rfl | hp : ref' = ref ∨ row.personId = y.ownerOf ref := by
    simpa [Scope.covers] using (Bool.and_eq_true_iff.mp hcovers).2
  · rfl
  · exact (hs.rows ref' row hrow).owner.symm.trans hp

theorem redactLocked_safe (ref : CustomerRef) (s : Shared) :
    Safe ((gateProtocol y).of pid) (fun _ _ => True) (redactLocked y ref (y.ownerOf ref)) s := by
  apply lock_safe
  intro t _ hlock
  apply safe_quiet _ (guar_refl pid) (fun _ _ => rfl)
  intro u o htu hu
  cases hf : o.fails with
  | true =>
    simp only [bureau, effect, hf]
    exact rollback_safe u
  | false =>
    simp only [bureau, effect, hf]
    cases hrefs : refusals ref (y.ownerOf ref) u.rows with
    | nil => exact leave_safe u
    | cons first rest =>
      have howner (ref' : CustomerRef) (h : ref' ∈ first :: rest) : y.ownerOf ref' = y.ownerOf ref :=
        owner_of_refusals hu (hrefs ▸ h)
      refine safe_last _ (fun r _ => safe_demand r) fun v o' huv hv => ?_
      simp only [effect]
      cases hf' : o'.fails with
      | true => exact released hv
      | false => exact redact_guar hv ((hlock.keep htu).keep huv) howner

theorem erase_guar (ht : Sound y t) (ref : CustomerRef) (personId : Option PersonId) :
    (gateProtocol y).guar pid t
        { t with
          rows := (erasable ref personId t.rows).foldl (fun rows ref => rows.erase ref) t.rows } ∧
      Sound y
        { t with
          rows := (erasable ref personId t.rows).foldl (fun rows ref => rows.erase ref) t.rows } := by
  have hlook (ref' : CustomerRef) :
      ((erasable ref personId t.rows).foldl (fun rows ref => rows.erase ref) t.rows).lookup ref' =
        if ref' ∈ erasable ref personId t.rows then none else t.rows.lookup ref' :=
    lookup_erases _ _ _
  refine ⟨⟨⟨fun ref' row hrow hrej => ?_, List.Subset.refl _⟩, fun q _ => ⟨fun p hp => ?_, rfl⟩⟩,
    fun ref' row hrow => ?_, ht.answers⟩
  · have hkept : ref' ∉ erasable ref personId t.rows := by
      intro hmem
      have hany := (List.mem_filter.mp hmem).2
      simp [hrow, hrej] at hany
    refine ⟨row, ?_, hrej, rfl⟩
    rw [hlook, if_neg hkept]
    exact hrow
  · refine ⟨hp, fun ref' _ => ?_⟩
    rw [hlook]
    split
    next => exact .inr rfl
    next => exact .inl rfl
  · rw [hlook] at hrow
    split at hrow
    next => cases hrow
    next => exact ht.rows ref' row hrow

theorem forget_safe (ref : CustomerRef) (s : Shared) :
    Safe ((gateProtocol y).of pid) (fun _ _ => True) (forget y ref) s := by
  -- What follows the look-up, with or without a person.
  have hrest (person : Option PersonId) (k : Unit → Service Unit)
      (hk : ∀ t, Safe ((gateProtocol y).of pid) (fun _ _ => True) (k ()) t) (t : Shared) :
      Safe ((gateProtocol y).of pid) (fun _ _ => True)
        (attempt (.deleteMany ref person) (fun r => r) >>= k) t := by
    apply safe_step
    intro u o _ hu _
    simp only [bureau, effect]
    cases hf : o.fails with
    | true => exact ⟨guar_refl pid u, hu, trivial⟩
    | false =>
      have herase : (gateProtocol y).guar pid u _ ∧ _ := erase_guar hu ref person
      exact ⟨herase.1, herase.2, hk _⟩
  apply safe_quiet _ (guar_refl pid) (fun _ _ => rfl)
  intro t o _ _
  cases hf : o.fails with
  | true =>
    simp only [bureau, effect, hf]
    trivial
  | false =>
    simp only [bureau, effect, hf]
    cases hl : o.linked with
    | false =>
      refine hrest none _ ?_ t
      exact fun _ _ _ _ => trivial
    | true =>
      refine hrest (some (y.ownerOf ref)) _ ?_ t
      exact redactLocked_safe ref

theorem admits_of_accepted (hs : Sound y s) (h : anyRow (fun _ row => isAcceptedFor y p row) s.rows) :
    Admits y s.deliveries p s.rows := by
  obtain ⟨ref, row, hrow, hok⟩ := anyRow_true h
  simp only [isAcceptedFor, acceptedForFunds, Bool.and_eq_true, decide_eq_true_eq] at hok
  obtain ⟨hp, haccepted, hstamp⟩ := hok
  cases haml : y.kycRequireAml with
  | true =>
    simp only [haml, if_true] at hstamp
    obtain ⟨time, htime⟩ := Option.isSome_iff_exists.mp hstamp
    obtain ⟨d, hd, href, rfl, hacc, hclear⟩ := (hs.rows ref row hrow).cleared time htime
    exact ⟨ref, row, d, hrow, hp, haccepted, hd, href, hacc, fun _ => ⟨hclear, htime⟩,
      fun h => by rw [haml] at h; cases h⟩
  | false =>
    simp only [haml] at hstamp
    obtain ⟨time, htime⟩ := Option.isSome_iff_exists.mp hstamp
    obtain ⟨d, hd, href, rfl, hacc⟩ := (hs.rows ref row hrow).delivered haccepted time htime
    exact ⟨ref, row, d, hrow, hp, haccepted, hd, href, hacc,
      fun h => (by rw [haml] at h; cases h), fun _ => htime⟩

/-- What a call of `identityVerified` knows between its two queries. -/
structure Saw (y : Settings) (p : PersonId) (pid : Pid) (s : Shared) : Prop where
  admits : Admits y s.deliveries p (s.looked pid)
  refused : ∀ ref row, (s.looked pid).lookup ref = some row → row.status = .rejected →
    ∃ row', s.rows.lookup ref = some row' ∧ row'.status = .rejected ∧ row'.personId = row.personId

theorem Saw.keep (h : Saw y p pid s) (hst : (gateProtocol y).rely pid s t) : Saw y p pid t := by
  obtain ⟨hgrows, -, hlooked⟩ := hst
  refine ⟨?_, fun ref row hrow hrej => ?_⟩
  · rw [hlooked]
    exact h.admits.mono hgrows.deliveries
  · rw [hlooked] at hrow
    obtain ⟨row₁, hrow₁, hrej₁, hp₁⟩ := h.refused ref row hrow hrej
    obtain ⟨row₂, hrow₂, hrej₂, hp₂⟩ := hgrows.refused ref row₁ hrow₁ hrej₁
    exact ⟨row₂, hrow₂, hrej₂, hp₂.trans hp₁⟩

theorem unrefused_of_none (h : anyRow (fun _ row => isRefusalOf p row) rows = false) :
    Unrefused p rows := by
  intro ref row hrow hp hrej
  have := anyRow_false h hrow
  simp [isRefusalOf, hp, hrej] at this

theorem Saw.grounded (h : Saw y p pid s) (hnone : Unrefused p s.rows) :
    Grounded y s.deliveries ⟨p, s.looked pid, s.rows⟩ := by
  refine ⟨h.admits, fun ref row hrow hp hrej => ?_, hnone⟩
  obtain ⟨row', hrow', hrej', hp'⟩ := h.refused ref row hrow hrej
  exact hnone ref row' hrow' (hp'.trans hp) hrej'

theorem findRefusal_guar (ht : Sound y t) (hsaw : Saw y p pid t) (o : Choice) :
    (gateProtocol y).guar pid t (effect y pid (.findRefusal p) o t).1 ∧
      Sound y (effect y pid (.findRefusal p) o t).1 := by
  simp only [effect]
  cases hf : o.fails with
  | true => exact ⟨guar_refl pid t, ht⟩
  | false =>
    simp only [runFindRefusal]
    cases hany : anyRow (fun _ row => isRefusalOf p row) t.rows with
    | true => exact ⟨guar_refl pid t, ht⟩
    | false =>
      refine ⟨⟨.of_same rfl rfl, fun _ _ => ⟨.of_same (fun _ h => h) rfl, rfl⟩⟩, ht.rows,
        fun a ha => ?_⟩
      obtain rfl | ha := List.mem_cons.mp ha
      · exact hsaw.grounded (unrefused_of_none hany)
      · exact ht.answers a ha

theorem identityVerified_safe (p : PersonId) (s : Shared) :
    Safe ((gateProtocol y).of pid) (fun _ _ => True) (identityVerified p) s := by
  apply safe_step
  intro t o _ ht _
  simp only [bureau, effect]
  cases hf : o.fails with
  | true => exact ⟨guar_refl pid t, ht, trivial⟩
  | false =>
    refine ⟨⟨.of_same rfl rfl, fun q hq => ⟨.of_same (fun _ h => h) rfl, if_neg (Ne.symm hq)⟩⟩,
      ⟨ht.rows, ht.answers⟩, ?_⟩
    cases hany : anyRow (fun _ row => isAcceptedFor y p row) t.rows with
    | false => exact fun _ _ _ => trivial
    | true =>
      have hsaw : Saw y p pid { t with looked := fun q => if q = pid then t.rows else t.looked q } := by
        refine ⟨?_, fun ref row hrow hrej => ?_⟩
        · simpa using admits_of_accepted ht hany
        · exact ⟨row, by simpa using hrow, hrej, rfl⟩
      refine safe_last _ (fun r u => ?_) fun u o' hst hu => findRefusal_guar hu (hsaw.keep hst) o'
      cases (r : Option Bool) with
      | none => trivial
      | some _ => exact fun _ _ _ => trivial

theorem body_safe (pid : Pid) (call : Call) (s : Shared) (_ : Sound y s)
    (_ : (bureau y).delivers s call) :
    Safe ((gateProtocol y).of pid) (fun _ _ => True) ((bureau y).body call) s := by
  cases call with
  | put ref mail complete => exact put_safe ref mail complete s
  | recordIncomplete ref => exact recordIncomplete_safe ref s
  | applyDelivery payload deliveredAt =>
    obtain ⟨hscreened, hstarted⟩ := readDiditDecision_sound payload y.kycRequireAml
    exact applyDelivery_safe ⟨hscreened, hstarted⟩ deliveredAt s
  | forget ref => exact forget_safe ref s
  | identityVerified p => exact identityVerified_safe p s

/-- A positive answer is given at a moment without a refusal of the person. -/
theorem answers_after (y : Settings) (pid : Pid) (e : Effect) (o : Choice) (s : Shared) :
    (effect y pid e o s).1.answers = s.answers ∨
      ∃ a, (effect y pid e o s).1.answers = a :: s.answers ∧ Unrefused a.personId s.rows := by
  cases e with
  | findRefusal p =>
    simp only [effect]
    split
    next => exact .inl rfl
    next =>
      simp only [runFindRefusal]
      cases hany : anyRow (fun _ row => isRefusalOf p row) s.rows with
      | true => exact .inl rfl
      | false => exact .inr ⟨_, rfl, unrefused_of_none hany⟩
  | writeDelivery ref personId conclusion deliveredAt standing =>
    left
    simp only [effect, runDelivery]
    repeat' split
    all_goals rfl
  | lookupPerson | findRow | anyRefused | findRefusals | clock | saveEmail | isOpening | start | lock
  | rollback => exact .inl rfl
  | upsertIncomplete | upsertStarted | deleteMany | redact | findAccepted =>
    left
    simp only [effect]
    split <;> rfl

variable {w w' : Office} {tr tr' : List (Entry Office (Act Call Choice ℕ) (Option (Pid × Effect)))}

theorem gate_step {act : Act Call Choice ℕ} (h : Orderly (gateProtocol y) w)
    (ha : (machine (bureau y)).admits w act) :
    Grows w.shared ((machine (bureau y)).next w act).shared ∧
      (((machine (bureau y)).next w act).shared.answers = w.shared.answers ∨
        ∃ a, ((machine (bureau y)).next w act).shared.answers = a :: w.shared.answers ∧
          Unrefused a.personId w.shared.rows) := by
  cases act with
  | spawn | kill | outside => exact ⟨.of_same rfl rfl, .inl rfl⟩
  | go pid o =>
    obtain ⟨e, k, hrun, -, -, hnext⟩ := go_cases ha
    have hguar := h.guar hrun ha
    refine ⟨hguar.1, ?_⟩
    rw [hnext]
    exact answers_after y pid e o w.shared

def answersFor (p : PersonId) (s : Shared) : List Answer :=
  s.answers.filter fun a => a.personId = p

def RefusedIn (p : PersonId) (s : Shared) : Prop :=
  ∃ ref row, s.rows.lookup ref = some row ∧ row.personId = p ∧ row.status = .rejected

theorem RefusedIn.grow (h : RefusedIn p s) (hst : Grows s t) : RefusedIn p t := by
  obtain ⟨ref, row, hrow, hp, hrej⟩ := h
  obtain ⟨row', hrow', hrej', hp'⟩ := hst.refused ref row hrow hrej
  exact ⟨ref, row', hrow', hp'.trans hp, hrej'⟩

theorem answersFor_of_cons {a : Answer} (h : RefusedIn p s) (ha : t.answers = a :: s.answers)
    (hun : Unrefused a.personId s.rows) : answersFor p t = answersFor p s := by
  obtain ⟨ref, row, hrow, hp, hrej⟩ := h
  have hne : a.personId ≠ p := by
    rintro rfl
    exact hun ref row hrow hp hrej
  simp [answersFor, ha, hne]

/-- Where a run starts: no lock is held, nothing was answered, and every row
goes back to the deliveries on record. -/
structure Opening (y : Settings) (s : Shared) : Prop where
  unlocked : ∀ k, s.locks k = none
  answers : s.answers = []
  rows : ∀ ref row, s.rows.lookup ref = some row → RowSound y s.deliveries ref row

theorem Opening.sound (h : Opening y s) : Sound y s where
  rows := h.rows
  answers a ha := by simp [h.answers] at ha

/-- A refusal stays, with its person; a screening is that of an acceptance;
whoever is let in has an acceptance by a delivery and no refusal; and whoever
was refused is never let in again. -/
theorem identity_gate (hs : Opening y s) (hr : Run (machine (bureau y)) (idle s) tr w)
    (hr' : Run (machine (bureau y)) w tr' w') :
    (∀ ref row, w.shared.rows.lookup ref = some row → row.status = .rejected →
      (∃ row', w'.shared.rows.lookup ref = some row' ∧ row'.status = .rejected ∧
        row'.personId = row.personId) ∧
      answersFor row.personId w'.shared = answersFor row.personId w.shared) ∧
    (∀ ref row, w'.shared.rows.lookup ref = some row → row.screenedAt ≠ none →
      row.status = .accepted) ∧
    ∀ a ∈ w'.shared.answers, Grounded y w'.shared.deliveries a := by
  have hw : Orderly (gateProtocol y) w := run_orderly body_safe hr (.idle hs.sound)
  have hrest : Orderly (gateProtocol y) w' ∧ Grows w.shared w'.shared ∧
      ∀ p, RefusedIn p w.shared → answersFor p w'.shared = answersFor p w.shared := by
    refine hr'.invariant (I := fun u => Orderly (gateProtocol y) u ∧ Grows w.shared u.shared ∧
      ∀ p, RefusedIn p w.shared → answersFor p u.shared = answersFor p w.shared)
      ⟨hw, .of_same rfl rfl, fun _ _ => rfl⟩ ?_
    rintro u act ⟨hu, hgrows, hanswers⟩ hadm
    obtain ⟨hstep, hnew⟩ := gate_step hu hadm
    refine ⟨hu.step body_safe hadm, hgrows.trans hstep, fun p hp => ?_⟩
    rw [← hanswers p hp]
    obtain hsame | ⟨a, hcons, hun⟩ := hnew
    · rw [answersFor, hsame, answersFor]
    · exact answersFor_of_cons (hp.grow hgrows) hcons hun
  obtain ⟨⟨hsound, -⟩, hgrows, hanswers⟩ := hrest
  refine ⟨fun ref row hrow hrej => ⟨hgrows.refused ref row hrow hrej, ?_⟩,
    fun ref row hrow => (hsound.rows ref row hrow).screened, hsound.answers⟩
  exact hanswers row.personId ⟨ref, row, hrow, rfl, hrej⟩

def sampleSettings : Settings := ⟨true, "live", fun p => p, fun _ => 1⟩

def emptyBureau : Shared := ⟨∅, fun _ => none, 100000, [], fun _ => ∅, []⟩

theorem emptyBureau_opening : Opening sampleSettings emptyBureau :=
  ⟨fun _ => rfl, rfl, fun _ _ h => by cases h⟩

abbrev sampleOffice : Machine Office (Act Call Choice ℕ) (Option (Pid × Effect)) :=
  machine (bureau sampleSettings)

def sampleChoice : Choice := { decision := { status := .processing, providerRef := some "s1" } }

def callThrough (pid : Pid) (call : Call) (steps : ℕ) : List (Act Call Choice ℕ) :=
  .spawn pid call :: List.replicate steps (.go pid sampleChoice)

def clearance : Payload :=
  ⟨some "Approved", some "live", some "s1", some "GA",
    .list [⟨some "Approved", some 0, .absent, .absent⟩], .absent⟩

def watchlistMatch : Payload :=
  ⟨some "Declined", some "live", some "s2", some "GA:1",
    .list [⟨some "Declined", some 1, .absent, .absent⟩], .absent⟩

def refusalActions : List (Act Call Choice ℕ) :=
  callThrough 0 (.put "GA" false true) 14 ++ callThrough 1 (.applyDelivery clearance 200000) 5 ++
    callThrough 2 (.identityVerified 1) 2 ++ callThrough 3 (.applyDelivery watchlistMatch 300000) 5

def erasureActions : List (Act Call Choice ℕ) :=
  callThrough 4 (.forget "GA:1") 5 ++ callThrough 5 (.applyDelivery clearance 400000) 4 ++
    callThrough 6 (.identityVerified 1) 1

def refusedOffice : Office := final sampleOffice (idle emptyBureau) refusalActions

def erasedOffice : Office := final sampleOffice refusedOffice erasureActions

theorem sample_identity_gate :
    Run sampleOffice (idle emptyBureau) (history sampleOffice (idle emptyBureau) refusalActions)
      refusedOffice ∧
    Run sampleOffice refusedOffice (history sampleOffice refusedOffice erasureActions) erasedOffice ∧
    (answersFor 1 refusedOffice.shared).length = 1 ∧
    (∃ row, erasedOffice.shared.rows.lookup "GA:1" = some row ∧ row.status = .rejected ∧
      row.personId = 1) ∧
    answersFor 1 erasedOffice.shared = answersFor 1 refusedOffice.shared ∧
    ∀ a ∈ erasedOffice.shared.answers, Grounded sampleSettings erasedOffice.shared.deliveries a := by
  have hr : Run sampleOffice (idle emptyBureau) _ refusedOffice :=
    .of_actions refusalActions _ (by decide +kernel)
  have hr' : Run sampleOffice refusedOffice _ erasedOffice :=
    .of_actions erasureActions _ (by decide +kernel)
  have hlook : refusedOffice.shared.rows.lookup "GA:1" =
      some ⟨1, .rejected, some "s2", some hitRefusal, some "live", none, some 300000, none, none,
        100000⟩ := by decide +kernel
  obtain ⟨hstays, -, hgrounded⟩ := identity_gate emptyBureau_opening hr hr'
  obtain ⟨hrow, hanswers⟩ := hstays _ _ hlook rfl
  exact ⟨hr, hr', by decide +kernel, hrow, hanswers, hgrounded⟩

end Lolipay.Coordinator.IdentityGate
