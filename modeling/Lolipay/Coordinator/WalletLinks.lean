import Lolipay.Coordinator.Wallets

namespace Lolipay.Coordinator.WalletLinks

open Lolipay.Ledger.Storage Lolipay.Ledger.Runs
open Lolipay.Async.Process Lolipay.Async.Scheduling
open Lolipay.Async.AdvisoryLock (acquire_self acquire_keeps release_keeps)
open Lolipay.Coordinator.Orders Lolipay.Coordinator.Wallets

variable {y : Settings} {s t u : Shared} {pid q : Pid} {o : Choice} {p : PersonId} {a : Activation}
  {address : String} {l row : WalletLink} {existing : Option WalletLink}

/-- What a call that could link a wallet has checked about its challenge. -/
def Checked (y : Settings) (s : Shared) (a : Activation) : Prop :=
  linkNonce a.address a.proof.challenge = some a.nonce ∧
    y.verifySep53 a.address a.proof.challenge a.proof.signature = true ∧
    ∃ issued, s.challenges.lookup a.nonce = some issued ∧ issued.personId = a.personId ∧
      issued.stellarAddress = a.address ∧ a.checkedAt < issued.expiresAt

def Spent (s : Shared) (nonce : String) : Prop :=
  ∃ issued, s.challenges.lookup nonce = some issued ∧ issued.consumedAt ≠ none

def Linked (s : Shared) (a : Activation) : Prop :=
  ∃ l, s.links.lookup a.address = some l ∧ l.personId = a.personId

structure Sound (y : Settings) (s : Shared) : Prop where
  owner : ∀ address l, s.links.lookup address = some l → l.personId ∈ s.persons
  cap : ∀ address l, s.links.lookup address = some l →
    1 ≤ active l.personId s.links ∧ active l.personId s.links ≤ walletCap
  proven : ∀ a ∈ s.activations, Checked y s a ∧ Spent s a.nonce ∧ Linked s a
  once : (s.activations.map (·.nonce)).Nodup

/-- Links keep their person, and challenges what they were issued for. -/
structure Grows (s t : Shared) : Prop where
  persons : s.persons ⊆ t.persons
  links : ∀ address l, s.links.lookup address = some l →
    ∃ l', t.links.lookup address = some l' ∧ l'.personId = l.personId
  challenges : ∀ nonce c, s.challenges.lookup nonce = some c →
    ∃ c', t.challenges.lookup nonce = some c' ∧ c' = { c with consumedAt := c'.consumedAt } ∧
      (c.consumedAt ≠ none → c'.consumedAt ≠ none)

theorem Grows.of_same (hp : t.persons = s.persons) (hl : t.links = s.links)
    (hc : t.challenges = s.challenges) : Grows s t where
  persons := by rw [hp]; exact List.Subset.refl _
  links address l h := ⟨l, hl ▸ h, rfl⟩
  challenges nonce c h := ⟨c, hc ▸ h, rfl, fun h => h⟩

theorem Grows.trans (h : Grows s t) (h' : Grows t u) : Grows s u where
  persons := List.Subset.trans h.persons h'.persons
  links address l hl := by
    obtain ⟨l₁, hl₁, hp₁⟩ := h.links address l hl
    obtain ⟨l₂, hl₂, hp₂⟩ := h'.links address l₁ hl₁
    exact ⟨l₂, hl₂, hp₂.trans hp₁⟩
  challenges nonce c hc := by
    obtain ⟨c₁, hc₁, he₁, hs₁⟩ := h.challenges nonce c hc
    obtain ⟨c₂, hc₂, he₂, hs₂⟩ := h'.challenges nonce c₁ hc₁
    refine ⟨c₂, hc₂, ?_, fun h => hs₂ (hs₁ h)⟩
    rw [he₁] at he₂
    exact he₂

theorem Checked.grow (h : Checked y s a) (hst : Grows s t) : Checked y t a := by
  obtain ⟨hnonce, hsig, issued, hissued, hperson, haddress, htime⟩ := h
  obtain ⟨c, hc, he, -⟩ := hst.challenges _ _ hissued
  refine ⟨hnonce, hsig, c, hc, ?_⟩
  rw [he]
  exact ⟨hperson, haddress, htime⟩

theorem Spent.grow {nonce : String} (h : Spent s nonce) (hst : Grows s t) : Spent t nonce := by
  obtain ⟨issued, hissued, hspent⟩ := h
  obtain ⟨c, hc, -, hkept⟩ := hst.challenges _ _ hissued
  exact ⟨c, hc, hkept hspent⟩

theorem Linked.grow (h : Linked s a) (hst : Grows s t) : Linked t a := by
  obtain ⟨l, hl, hp⟩ := h
  obtain ⟨l', hl', hp'⟩ := hst.links _ _ hl
  exact ⟨l', hl', hp'.trans hp⟩

theorem Sound.proven_grow (h : Sound y s) (hst : Grows s t) (a : Activation)
    (ha : a ∈ s.activations) : Checked y t a ∧ Spent t a.nonce ∧ Linked t a := by
  obtain ⟨hchecked, hspent, hlinked⟩ := h.proven a ha
  exact ⟨hchecked.grow hst, hspent.grow hst, hlinked.grow hst⟩

/-- A person with a link, as whoever may ask for another has to be. -/
def Known (p : PersonId) (s : Shared) : Prop :=
  ∃ address l, s.links.lookup address = some l ∧ l.personId = p

theorem Known.grow (h : Known p s) (hst : Grows s t) : Known p t := by
  obtain ⟨address, l, hl, hp⟩ := h
  obtain ⟨l', hl', hp'⟩ := hst.links address l hl
  exact ⟨address, l', hl', hp'.trans hp⟩

structure Same (p : PersonId) (s t : Shared) : Prop where
  links : ∀ address l, l.personId = p →
    (t.links.lookup address = some l ↔ s.links.lookup address = some l)
  active : active p t.links = active p s.links

theorem Same.of_eq (h : t.links = s.links) : Same p s t :=
  ⟨fun _ _ _ => by rw [h], by rw [h]⟩

theorem Same.trans (h : Same p s t) (h' : Same p t u) : Same p s u :=
  ⟨fun address l hp => (h'.links address l hp).trans (h.links address l hp),
    h'.active.trans h.active⟩

/-- Who holds the lock of a person has his links to himself. -/
def Keeps (y : Settings) (q : Pid) (s t : Shared) : Prop :=
  ∀ p ∈ s.persons, s.locks (y.hashtext p) = some q →
    t.locks (y.hashtext p) = some q ∧ Same p s t

theorem Keeps.of_same (hlocks : ∀ k, s.locks k = some q → t.locks k = some q)
    (hl : t.links = s.links) : Keeps y q s t :=
  fun _ _ h => ⟨hlocks _ h, .of_eq hl⟩

theorem active_insert (p : PersonId) (links : Store String WalletLink) (address : String)
    (row : WalletLink) :
    active p (links.insert address row) =
      active p links - measureAt (fun l => if isActive p l then 1 else 0) links address +
        if isActive p row then 1 else 0 :=
  total_insert _ links address row

theorem Same.of_insert {p' : PersonId} (hne : p ≠ p') (hrow : row.personId = p')
    (hold : ∀ l, s.links.lookup address = some l → l.personId = p')
    (hl : t.links = s.links.insert address row) : Same p s t := by
  refine ⟨fun address' l hp => ?_, ?_⟩
  · rw [hl]
    by_cases haddress : address' = address
    · subst haddress
      rw [AList.lookup_insert]
      refine ⟨fun h => ?_, fun h => ?_⟩
      · obtain rfl := Option.some.inj h
        exact absurd (hp.symm.trans hrow) hne
      · exact absurd (hp.symm.trans (hold l h)) hne
    · rw [AList.lookup_insert_ne haddress]
  · have hnew : isActive p row = false := by simp [isActive, hrow, Ne.symm hne]
    have hmeasure : measureAt (fun l => if isActive p l then 1 else 0) s.links address = 0 := by
      cases hlook : s.links.lookup address with
      | none => exact measureAt_of_none hlook
      | some l =>
        rw [measureAt_of_lookup hlook]
        simp [isActive, hold l hlook, Ne.symm hne]
    rw [hl, active_insert, hmeasure, hnew]
    simp

theorem Sound.links_of_insert (h : Sound y s) (hpersons : s.persons ⊆ t.persons)
    (hp : p ∈ t.persons) (hrow : row.personId = p)
    (hold : ∀ l, s.links.lookup address = some l → l.personId = p)
    (hl : t.links = s.links.insert address row)
    (hcap : 1 ≤ active p t.links ∧ active p t.links ≤ walletCap) (address' : String)
    (l : WalletLink) (hlook : t.links.lookup address' = some l) :
    l.personId ∈ t.persons ∧
      1 ≤ active l.personId t.links ∧ active l.personId t.links ≤ walletCap := by
  by_cases hmine : l.personId = p
  · rw [hmine]
    exact ⟨hp, hcap⟩
  · have hsame : Same l.personId s t := .of_insert hmine hrow hold hl
    have hbefore := (hsame.links address' l rfl).mp hlook
    rw [hsame.active]
    exact ⟨hpersons (h.owner _ _ hbefore), h.cap _ _ hbefore⟩

def registryProtocol (y : Settings) : Protocol (registry y) where
  rely pid s t := Grows s t ∧ Keeps y pid s t
  guar pid s t := Grows s t ∧ ∀ q, pid ≠ q → Keeps y q s t
  inv := Sound y
  refl _ _ := ⟨.of_same rfl rfl rfl, .of_same (fun _ h => h) rfl⟩
  trans _ _ _ _ h h' := by
    refine ⟨h.1.trans h'.1, fun p hp hlock => ?_⟩
    obtain ⟨hlock₁, hsame₁⟩ := h.2 p hp hlock
    obtain ⟨hlock₂, hsame₂⟩ := h'.2 p (h.1.persons hp) hlock₁
    exact ⟨hlock₂, hsame₁.trans hsame₂⟩
  shares _ q _ _ hne _ h := ⟨h.1, h.2 q hne⟩
  dies pid s hs :=
    ⟨⟨hs.owner, hs.cap, hs.proven, hs.once⟩, fun _ hq =>
      ⟨.of_same rfl rfl rfl, .of_same (fun _ => release_keeps hq) rfl⟩⟩
  moved _ _ hs _ :=
    ⟨⟨hs.owner, hs.cap, hs.proven, hs.once⟩, fun _ =>
      ⟨.of_same rfl rfl rfl, .of_same (fun _ h => h) rfl⟩⟩

variable {α : Type} {Q : α → Shared → Prop}

theorem safe_reading {e : Effect} {k : Reply e → Service α}
    (hq : ∀ o t, (effect pid e o t).1 = t)
    (hk : ∀ o t, Grows s t → Keeps y pid s t → Sound y t →
      Safe ((registryProtocol y).of pid) Q (k (effect pid e o t).2) t) :
    Safe ((registryProtocol y).of pid) Q (.step e k) s :=
  safe_quiet (registryProtocol y)
    (fun _ => ⟨.of_same rfl rfl rfl, fun _ _ => .of_same (fun _ h => h) rfl⟩) hq
    fun t o hst ht => hk o t hst.1 hst.2 ht

theorem released (ht : Sound y t) :
    (registryProtocol y).guar pid t (release pid t) ∧ Sound y (release pid t) :=
  ⟨⟨.of_same rfl rfl rfl, fun _ hq => .of_same (fun _ => release_keeps hq) rfl⟩,
    ⟨ht.owner, ht.cap, ht.proven, ht.once⟩⟩

theorem rollback_safe (s : Shared) :
    Safe ((registryProtocol y).of pid) (fun _ _ => True)
      (failAfter .rollback : Service Unit) s :=
  safe_failAfter (registryProtocol y) fun _ _ _ ht => released ht

theorem conclude_safe {e : Effect} {k : Reply e → Service Unit}
    (hk : ∀ r t, Safe ((registryProtocol y).of pid) (fun _ _ => True) (k r) t)
    (h : ∀ t o, Grows s t → Keeps y pid s t → Sound y t →
      (registryProtocol y).guar pid t (effect pid e o t).1 ∧ Sound y (effect pid e o t).1) :
    Safe ((registryProtocol y).of pid) (fun _ _ => True) (.step e k) s :=
  safe_last (registryProtocol y) hk fun t o hst ht => h t o hst.1 hst.2 ht

theorem keeps_of_insert (hlock : s.locks (y.hashtext p) = some pid) (hq : pid ≠ q)
    (hlocks : ∀ k, s.locks k = some q → t.locks k = some q) (hrow : row.personId = p)
    (hold : ∀ l, s.links.lookup address = some l → l.personId = p)
    (hl : t.links = s.links.insert address row) : Keeps y q s t := by
  intro p' _ hlock'
  have hne : p' ≠ p := by
    rintro rfl
    exact hq (Option.some.inj (hlock.symm.trans hlock'))
  exact ⟨hlocks _ hlock', .of_insert hne hrow hold hl⟩

theorem grows_of_insert (hpersons : s.persons ⊆ t.persons)
    (hrow : row.personId = p) (hold : ∀ l, s.links.lookup address = some l → l.personId = p)
    (hl : t.links = s.links.insert address row)
    (hc : ∀ nonce c, s.challenges.lookup nonce = some c →
      ∃ c', t.challenges.lookup nonce = some c' ∧ c' = { c with consumedAt := c'.consumedAt } ∧
        (c.consumedAt ≠ none → c'.consumedAt ≠ none)) : Grows s t := by
  refine ⟨hpersons, fun address' l h => ?_, hc⟩
  rw [hl]
  by_cases haddress : address' = address
  · subst haddress
    exact ⟨row, AList.lookup_insert _, hrow.trans (hold l h).symm⟩
  · exact ⟨l, by rw [AList.lookup_insert_ne haddress]; exact h, rfl⟩

theorem spend_safe {issued : LinkChallenge} (ht : Sound y t)
    (hlock : t.locks (y.hashtext a.personId) = some pid) (hknown : Known a.personId t)
    (hchecked : Checked y t a) (hissued : t.challenges.lookup a.nonce = some issued)
    (hnew : issued.consumedAt = none) (hrow : row.personId = a.personId)
    (hold : ∀ l, t.links.lookup a.address = some l → l.personId = a.personId)
    (hcap : 1 ≤ active a.personId (t.links.insert a.address row) ∧
      active a.personId (t.links.insert a.address row) ≤ walletCap) :
    (registryProtocol y).guar pid t (release pid (spend a issued row t)) ∧
      Sound y (release pid (spend a issued row t)) := by
  have hgrows : Grows t (release pid (spend a issued row t)) := by
    refine grows_of_insert (List.Subset.refl _) hrow hold rfl fun nonce c hc => ?_
    change ∃ c', (t.challenges.insert a.nonce { issued with consumedAt := some t.now }).lookup nonce =
      some c' ∧ _
    by_cases hnonce : nonce = a.nonce
    · subst hnonce
      obtain rfl := Option.some.inj (hissued.symm.trans hc)
      exact ⟨_, AList.lookup_insert _, rfl, fun h => absurd hnew h⟩
    · exact ⟨c, by rw [AList.lookup_insert_ne hnonce]; exact hc, rfl, fun h => h⟩
  have hspent : Spent (release pid (spend a issued row t)) a.nonce :=
    ⟨_, AList.lookup_insert _, by simp⟩
  have hperson : a.personId ∈ t.persons := by
    obtain ⟨address, l, hl, hp⟩ := hknown
    exact hp ▸ ht.owner address l hl
  have hlinks := ht.links_of_insert (t := release pid (spend a issued row t))
    (List.Subset.refl _) hperson hrow hold rfl hcap
  refine ⟨⟨hgrows, fun q hq => keeps_of_insert hlock hq (fun _ => release_keeps hq) hrow hold rfl⟩,
    fun address l hl => (hlinks address l hl).1, fun address l hl => (hlinks address l hl).2,
    fun b hb => ?_, ?_⟩
  · obtain rfl | hb := List.mem_cons.mp hb
    · exact ⟨hchecked.grow hgrows, hspent, row, AList.lookup_insert _, hrow⟩
    · exact ht.proven_grow hgrows b hb
  · refine List.nodup_cons.mpr ⟨fun hmem => ?_, ht.once⟩
    obtain ⟨b, hb, hnonce⟩ := List.mem_map.mp hmem
    obtain ⟨c, hc, hconsumed⟩ := (ht.proven b hb).2.1
    rw [hnonce, hissued] at hc
    obtain rfl := Option.some.inj hc
    exact hconsumed hnew

/-- One more active link of a person who has one, and has room if it counts. -/
theorem cap_of_link (ht : Sound y t) (hknown : Known p t) (hrow : row.personId = p)
    (hactive : row.status = .active)
    (hroom : t.links.lookup address = none → active p t.links < walletCap)
    (hroom' : ∀ l, t.links.lookup address = some l → l.personId = p ∧
      (l.status = .revoked → active p t.links < walletCap)) :
    1 ≤ active p (t.links.insert address row) ∧ active p (t.links.insert address row) ≤ walletCap := by
  obtain ⟨address', l', hl', hp'⟩ := hknown
  obtain ⟨hlow, hhigh⟩ := ht.cap address' l' hl'
  rw [hp'] at hlow hhigh
  have hnew : isActive p row = true := by simp [isActive, hrow, hactive]
  rw [active_insert, hnew, if_pos rfl]
  cases hlook : t.links.lookup address with
  | none =>
    rw [measureAt_of_none hlook]
    have := hroom hlook
    omega
  | some l =>
    obtain ⟨hp, hrevoked⟩ := hroom' l hlook
    rw [measureAt_of_lookup hlook]
    cases hstatus : l.status with
    | active =>
      simp only [isActive, hp, hstatus, decide_true, Bool.and_self, if_true]
      omega
    | revoked =>
      have := hrevoked hstatus
      simp [isActive, hstatus]
      omega

theorem concludeLink_safe (hs : Sound y s) (hlock : s.locks (y.hashtext a.personId) = some pid)
    (hknown : Known a.personId s) (hchecked : Checked y s a)
    (hread : ∀ l, existing = some l → l.personId = a.personId ∧ s.links.lookup a.address = some l)
    (hroom : existing.all (fun l => l.status = .revoked) = true →
      active a.personId s.links < walletCap) :
    Safe ((registryProtocol y).of pid) (fun _ _ => True) (concludeLink a existing) s := by
  have hperson : a.personId ∈ s.persons := by
    obtain ⟨address, l, hl, hp⟩ := hknown
    exact hp ▸ hs.owner address l hl
  apply conclude_safe fun r _ => safe_demand r
  intro t o hgrows hkeeps ht
  obtain ⟨hlock', hsame⟩ := hkeeps _ hperson hlock
  have hread' (l : WalletLink) (h : existing = some l) : t.links.lookup a.address = some l :=
    (hsame.links _ _ (hread l h).1).mpr (hread l h).2
  rw [← hsame.active] at hroom
  cases hf : o.fails with
  | true =>
    simp only [effect, hf]
    exact released ht
  | false =>
    simp only [effect, hf, runLink]
    cases hissued : (t.challenges.lookup a.nonce).filter fun issued => issued.consumedAt = none with
    | none => exact released ht
    | some issued =>
      obtain ⟨hlook, hnew⟩ := Option.filter_eq_some_iff.mp hissued
      cases hlinked : linkRow a existing (t.links.lookup a.address) t.now with
      | none => exact released ht
      | some row =>
        -- An update finds the row that was read, an insertion none.
        have hrow : row.personId = a.personId ∧ row.status = .active ∧
            (t.links.lookup a.address = none → active a.personId t.links < walletCap) ∧
            ∀ l, t.links.lookup a.address = some l → l.personId = a.personId ∧
              (l.status = .revoked → active a.personId t.links < walletCap) := by
          cases existing with
          | none =>
            cases hfound : t.links.lookup a.address with
            | some l => simp [linkRow, hfound] at hlinked
            | none =>
              rw [hfound] at hlinked
              obtain rfl := Option.some.inj hlinked
              exact ⟨rfl, rfl, fun _ => hroom rfl, fun l h => by cases h⟩
          | some l =>
            have hfound := hread' l rfl
            rw [hfound] at hlinked ⊢
            obtain rfl := Option.some.inj hlinked
            refine ⟨(hread l rfl).1, rfl, fun h => (by cases h), fun l' hl' => ?_⟩
            obtain rfl := Option.some.inj hl'
            exact ⟨(hread l rfl).1, fun hrevoked => hroom (by simp [hrevoked])⟩
        obtain ⟨hmine, hactive, hfree, hcounts⟩ := hrow
        have hknown' := hknown.grow hgrows
        exact spend_safe ht hlock' hknown' (hchecked.grow hgrows) hlook (by simpa using hnew) hmine
          (fun l hl => (hcounts l hl).1) (cap_of_link ht hknown' hmine hactive hfree hcounts)

theorem lock_safe {k : Unit → Service α} {p : PersonId}
    (hk : ∀ t, Grows s t → Sound y t → t.locks (y.hashtext p) = some pid →
      Safe ((registryProtocol y).of pid) Q (k ()) t) :
    Safe ((registryProtocol y).of pid) Q (.step (.lock (y.hashtext p)) k) s := by
  apply safe_step
  intro t o hst ht hp
  have hgrows : Grows t ((registry y).effect pid (.lock (y.hashtext p)) o t).1 :=
    .of_same rfl rfl rfl
  have hsound : Sound y ((registry y).effect pid (.lock (y.hashtext p)) o t).1 :=
    ⟨ht.owner, ht.cap, ht.proven, ht.once⟩
  exact ⟨⟨hgrows, fun _ _ => .of_same (fun _ => acquire_keeps hp) rfl⟩, hsound,
    hk _ (hst.1.trans hgrows) hsound acquire_self⟩

theorem linkLocked_safe (hknown : Known a.personId s) (hchecked : Checked y s a) :
    Safe ((registryProtocol y).of pid) (fun _ _ => True) (linkLocked y a) s := by
  apply lock_safe
  intro t hst ht hlock
  have hperson : a.personId ∈ t.persons := by
    obtain ⟨address, l, hl, hp⟩ := hknown.grow hst
    exact hp ▸ ht.owner address l hl
  apply safe_reading (fun _ _ => rfl)
  intro o u htu hkeep hu
  obtain ⟨hlock', -⟩ := hkeep _ hperson hlock
  have hknown' := (hknown.grow hst).grow htu
  have hchecked' := (hchecked.grow hst).grow htu
  cases hf : o.fails with
  | true =>
    simp only [effect, hf]
    exact rollback_safe u
  | false =>
    simp only [effect, hf]
    change Safe _ _ (if (u.links.lookup a.address).any fun l => l.personId ≠ a.personId then
        failAfter .rollback
      else if (u.links.lookup a.address).all fun l => l.status = .revoked then
        linkUnderCap a (u.links.lookup a.address)
      else concludeLink a (u.links.lookup a.address)) u
    split
    next => exact rollback_safe u
    next hmine =>
      have howner (l : WalletLink) (h : u.links.lookup a.address = some l) :
          l.personId = a.personId := by simpa [h] using hmine
      split
      next =>
        apply safe_reading (fun _ _ => rfl)
        intro o' v huv hkeep' hv
        have hperson' : a.personId ∈ u.persons := htu.persons hperson
        obtain ⟨hlock'', hsame⟩ := hkeep' _ hperson' hlock'
        cases hf' : o'.fails with
        | true =>
          simp only [effect, hf']
          exact rollback_safe v
        | false =>
          simp only [effect, hf']
          change Safe _ _ (if walletCap ≤ active a.personId v.links then failAfter .rollback
            else concludeLink a (u.links.lookup a.address)) v
          split
          next => exact rollback_safe v
          next hroom =>
            refine concludeLink_safe hv hlock'' (hknown'.grow huv) (hchecked'.grow huv)
              (fun l hl => ?_) fun _ => not_le.mp hroom
            exact ⟨howner l hl, (hsame.links _ _ (howner l hl)).mpr hl⟩
      next hactive =>
        refine concludeLink_safe hu hlock' hknown' hchecked' (fun l hl => ⟨howner l hl, hl⟩) ?_
        intro hall
        exact absurd hall hactive

theorem revoke_safe (hs : Sound y s) (hlock : s.locks (y.hashtext p) = some pid) (hknown : Known p s)
    (htwo : 1 < active p s.links) (address : String) {k : Bool → Service Unit}
    (hk : ∀ r t, Safe ((registryProtocol y).of pid) (fun _ _ => True) (k r) t) :
    Safe ((registryProtocol y).of pid) (fun _ _ => True) (.step (.revoke address p) k) s := by
  have hperson : p ∈ s.persons := by
    obtain ⟨address, l, hl, hp⟩ := hknown
    exact hp ▸ hs.owner address l hl
  apply conclude_safe hk
  intro t o hgrows hkeeps ht
  obtain ⟨hlock', hsame⟩ := hkeeps _ hperson hlock
  cases hf : o.fails with
  | true =>
    simp only [effect, hf]
    exact released ht
  | false =>
    simp only [effect, hf, runRevoke]
    cases hfound : (t.links.lookup address).filter (isActive p) with
    | none => exact released ht
    | some l =>
      obtain ⟨hlook, hactive⟩ := Option.filter_eq_some_iff.mp hfound
      have hmine : l.personId = p := by
        simpa using (Bool.and_eq_true_iff.mp hactive).1
      have hold (l' : WalletLink) (h : t.links.lookup address = some l') : l'.personId = p := by
        obtain rfl := Option.some.inj (hlook.symm.trans h)
        exact hmine
      have hrow : ({ l with status := .revoked } : WalletLink).personId = p := hmine
      have hcount : active p (t.links.insert address { l with status := .revoked }) =
          active p s.links - 1 := by
        rw [active_insert, measureAt_of_lookup hlook, hsame.active, if_pos hactive]
        simp [isActive]
      have hhigh : active p s.links ≤ walletCap := by
        obtain ⟨address, l, hl, hp⟩ := hknown
        exact hp ▸ (hs.cap address l hl).2
      have hgrows' : Grows t (release pid
          { t with links := t.links.insert address { l with status := .revoked } }) :=
        grows_of_insert (List.Subset.refl _) hrow hold rfl fun nonce c hc =>
          ⟨c, hc, rfl, fun h => h⟩
      have hlinks := ht.links_of_insert (t := release pid
          { t with links := t.links.insert address { l with status := .revoked } })
        (List.Subset.refl _) (hgrows.persons hperson) hrow hold rfl (by
          change 1 ≤ active p (t.links.insert address { l with status := .revoked }) ∧
            active p (t.links.insert address { l with status := .revoked }) ≤ walletCap
          rw [hcount]
          omega)
      exact ⟨⟨hgrows', fun q hq => keeps_of_insert hlock' hq (fun _ => release_keeps hq) hrow hold rfl⟩,
        fun address l hl => (hlinks address l hl).1, fun address l hl => (hlinks address l hl).2,
        ht.proven_grow hgrows', ht.once⟩

theorem revokeLocked_safe (hknown : Known p s) (address : String) :
    Safe ((registryProtocol y).of pid) (fun _ _ => True) (revokeLocked y p address) s := by
  apply lock_safe
  intro t hst ht hlock
  have hperson : p ∈ t.persons := by
    obtain ⟨address, l, hl, hp⟩ := hknown.grow hst
    exact hp ▸ ht.owner address l hl
  apply safe_reading (fun _ _ => rfl)
  intro o u htu hkeep hu
  obtain ⟨hlock', -⟩ := hkeep _ hperson hlock
  cases hf : o.fails with
  | true =>
    simp only [effect, hf]
    exact rollback_safe u
  | false =>
    simp only [effect, hf]
    change Safe _ _ (if active p u.links ≤ 1 then (failAfter .rollback : Service Unit)
      else .step (.revoke address p) fun done : Bool => demand done) u
    split
    next => exact rollback_safe u
    next htwo =>
      exact revoke_safe hu hlock' ((hknown.grow hst).grow htu) (not_le.mp htwo) address
        fun r _ => safe_demand r

theorem requirePersonId_safe (caller : String) (s : Shared) :
    Safe ((registryProtocol y).of pid) Known (requirePersonId y caller) s := by
  apply safe_reading (fun _ _ => rfl)
  intro o t hst _ ht
  cases hf : o.fails with
  | true =>
    simp only [effect, hf]
    trivial
  | false =>
    simp only [effect, hf, Bool.false_eq_true, if_false, Program.bind]
    split
    next => trivial
    next link hlink =>
      intro u htu _
      have hknown : Known link.personId t := ⟨_, link, (Option.filter_eq_some_iff.mp hlink).1, rfl⟩
      exact hknown.grow htu.1

theorem linkWallet_safe (hs : Sound y s) (caller address : String) (proof : LinkProof) :
    Safe ((registryProtocol y).of pid) (fun _ _ => True) (linkWallet y caller address proof) s := by
  apply (requirePersonId_safe caller s).bind ((registryProtocol y).refl pid) hs
  intro p t ht hknown
  cases hnonce : linkNonce address proof.challenge with
  | none => trivial
  | some nonce =>
    dsimp only
    split
    next hsig =>
      apply safe_reading (fun _ _ => rfl)
      intro o u htu _ hu
      cases hf : o.fails with
      | true =>
        simp only [effect, hf]
        trivial
      | false =>
        simp only [effect, hf]
        apply safe_reading (fun _ _ => rfl)
        intro o' v huv _ hv
        change Safe _ _ (if (u.challenges.lookup nonce).any fun issued =>
            usable issued p address v.now then linkLocked y ⟨nonce, p, address, proof, v.now⟩
          else .fail) v
        split
        next husable =>
          obtain ⟨issued, hissued, hok⟩ := (Option.any_eq_true _ _).mp husable
          simp only [usable, Bool.and_eq_true, decide_eq_true_eq] at hok
          obtain ⟨⟨⟨-, hperson⟩, haddress⟩, htime⟩ := hok
          have hchecked : Checked y u ⟨nonce, p, address, proof, v.now⟩ :=
            ⟨hnonce, hsig, issued, hissued, hperson, haddress, htime⟩
          exact linkLocked_safe ((hknown.grow htu).grow huv) (hchecked.grow huv)
        next => trivial
    next => trivial

theorem revokeWallet_safe (hs : Sound y s) (caller address : String) :
    Safe ((registryProtocol y).of pid) (fun _ _ => True) (revokeWallet y caller address) s := by
  apply (requirePersonId_safe caller s).bind ((registryProtocol y).refl pid) hs
  intro p t _ hknown
  exact revokeLocked_safe hknown address

theorem createChallenge_guar (ht : Sound y t) (nonce : String) (c : LinkChallenge) (o : Choice) :
    (registryProtocol y).guar pid t (effect pid (.createChallenge nonce c) o t).1 ∧
      Sound y (effect pid (.createChallenge nonce c) o t).1 := by
  by_cases hrefused : o.fails ∨ (t.challenges.lookup nonce).isSome
  · simp only [effect, if_pos hrefused]
    exact ⟨⟨.of_same rfl rfl rfl, fun _ _ => .of_same (fun _ h => h) rfl⟩, ht⟩
  · simp only [effect, if_neg hrefused]
    have hnone : t.challenges.lookup nonce = none := by simpa using (not_or.mp hrefused).2
    have hgrows : Grows t { t with challenges := t.challenges.insert nonce c } := by
      refine ⟨List.Subset.refl _, fun _ l h => ⟨l, h, rfl⟩, fun nonce' c' hc' => ?_⟩
      have hne : nonce' ≠ nonce := by
        rintro rfl
        rw [hnone] at hc'
        cases hc'
      exact ⟨c', by rw [AList.lookup_insert_ne hne]; exact hc', rfl, fun h => h⟩
    exact ⟨⟨hgrows, fun _ _ => .of_same (fun _ h => h) rfl⟩, ht.owner, ht.cap,
      ht.proven_grow hgrows, ht.once⟩

theorem issueLinkChallenge_safe (hs : Sound y s) (caller address : String) :
    Safe ((registryProtocol y).of pid) (fun _ _ => True) (issueLinkChallenge y caller address) s := by
  apply (requirePersonId_safe caller s).bind ((registryProtocol y).refl pid) hs
  intro p t _ _
  apply safe_reading (fun _ _ => rfl)
  intro o u _ _ _
  apply safe_reading (fun _ _ => rfl)
  intro o' v _ _ _
  refine conclude_safe (fun r t => ?_) fun w o'' _ _ hw => createChallenge_guar hw _ _ o''
  cases (r : Option Unit) with
  | none => trivial
  | some _ => exact fun _ _ _ => trivial

theorem Sound.active_new (h : Sound y s) (hp : p ∉ s.persons) : active p s.links = 0 := by
  have hmeasure (address : String) :
      measureAt (fun l => if isActive p l then 1 else 0) s.links address = 0 := by
    cases hlook : s.links.lookup address with
    | none => exact measureAt_of_none hlook
    | some l =>
      have hne : l.personId ≠ p := by
        rintro rfl
        exact hp (h.owner address l hlook)
      rw [measureAt_of_lookup hlook]
      simp [isActive, hne]
  rw [active, total_eq_sum _ s.links fun k hk =>
    (List.mem_toFinset.mpr hk : k ∈ s.links.keys.toFinset)]
  exact Finset.sum_eq_zero fun address _ => hmeasure address

theorem createPerson_guar (ht : Sound y t) (address : String) (method : WalletAuthMethod)
    (o : Choice) :
    (registryProtocol y).guar pid t (effect pid (.createPerson address method) o t).1 ∧
      Sound y (effect pid (.createPerson address method) o t).1 := by
  simp only [effect, runCreatePerson]
  cases hf : o.fails with
  | true => exact ⟨⟨.of_same rfl rfl rfl, fun _ _ => .of_same (fun _ h => h) rfl⟩, ht⟩
  | false =>
    by_cases hrefused : o.person ∈ t.persons ∨ (t.links.lookup address).isSome
    · simp only [if_pos hrefused]
      exact ⟨⟨.of_same rfl rfl rfl, fun _ _ => .of_same (fun _ h => h) rfl⟩, ht⟩
    · simp only [if_neg hrefused]
      obtain ⟨hnew, hfree⟩ := not_or.mp hrefused
      have hnone : t.links.lookup address = none := by simpa using hfree
      have hold (l : WalletLink) (h : t.links.lookup address = some l) : l.personId = o.person := by
        rw [hnone] at h
        cases h
      have hgrows : Grows t (enrol address method o.person t) :=
        grows_of_insert (List.subset_cons_self _ _) rfl hold rfl fun nonce c hc =>
          ⟨c, hc, rfl, fun h => h⟩
      have hcount : active o.person (enrol address method o.person t).links = 1 := by
        rw [enrol, active_insert, measureAt_of_none hnone, ht.active_new hnew]
        simp [isActive]
      have hlinks := ht.links_of_insert (t := enrol address method o.person t) hgrows.persons
        List.mem_cons_self rfl hold rfl (by rw [hcount]; decide)
      refine ⟨⟨hgrows, fun q _ p hp hlock => ⟨hlock, ?_⟩⟩, fun address l hl => (hlinks address l hl).1,
        fun address l hl => (hlinks address l hl).2, ht.proven_grow hgrows, ht.once⟩
      have hne : p ≠ o.person := fun h => hnew (h ▸ hp)
      exact .of_insert hne rfl hold rfl

theorem proveWallet_safe (address : String) (method : WalletAuthMethod) (s : Shared) :
    Safe ((registryProtocol y).of pid) (fun _ _ => True) (proveWallet address method) s := by
  apply safe_reading (fun _ _ => rfl)
  intro o t _ _ ht
  cases hf : o.fails with
  | true =>
    simp only [effect, hf]
    trivial
  | false =>
    simp only [effect, hf, Bool.false_eq_true, if_false, Program.bind]
    split
    next => exact fun _ _ _ => trivial
    next =>
      refine conclude_safe (fun created u => ?_) fun u o' _ _ hu => createPerson_guar hu _ _ o'
      cases (created : Created) with
      | person => exact fun _ _ _ => trivial
      | failed => trivial
      | uniqueViolation =>
        apply safe_reading (fun _ _ => rfl)
        intro o'' v _ _ _
        cases hf' : o''.fails with
        | true =>
          simp only [effect, hf']
          trivial
        | false =>
          simp only [effect, hf']
          exact safe_demand (v.links.lookup address).isSome

variable {w w' : Office} {tr tr' : List (Entry Office (Act Call Choice ℕ) (Option (Pid × Effect)))}

theorem body_safe (pid : Pid) (call : Call) (s : Shared) (hs : Sound y s)
    (_ : (registry y).delivers s call) :
    Safe ((registryProtocol y).of pid) (fun _ _ => True) ((registry y).body call) s := by
  cases call with
  | proveWallet address method => exact proveWallet_safe address method s
  | issueLinkChallenge caller address => exact issueLinkChallenge_safe hs caller address
  | linkWallet caller address proof => exact linkWallet_safe hs caller address proof
  | revokeWallet caller address => exact revokeWallet_safe hs caller address

/-- Where a run starts: nobody holds a lock, and everybody with a link has an
active one and no more than the cap. -/
structure Opening (s : Shared) : Prop where
  unlocked : ∀ k, s.locks k = none
  activations : s.activations = []
  owner : ∀ address l, s.links.lookup address = some l → l.personId ∈ s.persons
  cap : ∀ address l, s.links.lookup address = some l →
    1 ≤ active l.personId s.links ∧ active l.personId s.links ≤ walletCap

theorem Opening.sound (h : Opening s) : Sound y s where
  owner := h.owner
  cap := h.cap
  proven a ha := by simp [h.activations] at ha
  once := by simp [h.activations]

/-- Every step of an orderly office lets its tables grow. -/
theorem grows_step {act : Act Call Choice ℕ} (h : Orderly (registryProtocol y) w)
    (ha : (machine (registry y)).admits w act) :
    Grows w.shared ((machine (registry y)).next w act).shared := by
  cases act with
  | spawn | kill | outside => exact .of_same rfl rfl rfl
  | go pid o =>
    obtain ⟨e, k, hrun, -, -, -⟩ := go_cases ha
    have hguar := h.guar hrun ha
    exact hguar.1

/-- A linked address stays with its person, everybody with a link has one to
five active ones, and a challenge activates one link at most: that of the
person and the address it was issued for, on a signature by the address that
was checked before it expired. -/
theorem wallet_links (hs : Opening s) (hr : Run (machine (registry y)) (idle s) tr w)
    (hr' : Run (machine (registry y)) w tr' w') :
    (∀ address l, w.shared.links.lookup address = some l →
      ∃ l', w'.shared.links.lookup address = some l' ∧ l'.personId = l.personId) ∧
    (∀ address l, w'.shared.links.lookup address = some l →
      1 ≤ active l.personId w'.shared.links ∧ active l.personId w'.shared.links ≤ walletCap) ∧
    (∀ nonce, (w'.shared.activations.map (·.nonce)).count nonce ≤ 1) ∧
    ∀ a ∈ w'.shared.activations, Checked y w'.shared a ∧ Linked w'.shared a := by
  have hw : Orderly (registryProtocol y) w := run_orderly body_safe hr (.idle hs.sound)
  have hrest : Orderly (registryProtocol y) w' ∧ Grows w.shared w'.shared := by
    refine hr'.invariant (I := fun u => Orderly (registryProtocol y) u ∧ Grows w.shared u.shared)
      ⟨hw, .of_same rfl rfl rfl⟩ ?_
    rintro u act ⟨hu, hgrows⟩ ha
    exact ⟨hu.step body_safe ha, hgrows.trans (grows_step hu ha)⟩
  obtain ⟨⟨hsound, -⟩, hgrows⟩ := hrest
  refine ⟨hgrows.links, hsound.cap, fun nonce => List.nodup_iff_count_le_one.mp hsound.once nonce,
    fun a ha => ?_⟩
  obtain ⟨hchecked, -, hlinked⟩ := hsound.proven a ha
  exact ⟨hchecked, hlinked⟩

def sampleSettings : Settings where
  accountOf subject := subject
  verifySep53 address _ signature := signature = address
  hashtext p := p

def emptyRegistry : Shared := ⟨[], ∅, ∅, fun _ => none, 100000, []⟩

theorem emptyRegistry_opening : Opening emptyRegistry where
  unlocked _ := rfl
  activations := rfl
  owner _ _ h := by cases h
  cap _ _ h := by cases h

abbrev sampleOffice : Machine Office (Act Call Choice ℕ) (Option (Pid × Effect)) :=
  machine (registry sampleSettings)

def challengeActions : List (Act Call Choice ℕ) :=
  [.spawn 0 (.proveWallet "GA" .sep10), .go 0 { person := 1 }, .go 0 { person := 1 },
    .spawn 1 (.issueLinkChallenge "GA" "GB"), .go 1 {}, .go 1 { nonce := "n" }, .go 1 {}, .go 1 {}]

def sampleProof : LinkProof := ⟨"lolipay-wallet-link:GB:n:400000", "GB"⟩

def linkActions : List (Act Call Choice ℕ) :=
  .spawn 2 (.linkWallet "GA" "GB" sampleProof) :: List.replicate 7 (.go 2 {}) ++
    .spawn 3 (.revokeWallet "GB" "GA") :: List.replicate 4 (.go 3 {})

def challenged : Office := final sampleOffice (idle emptyRegistry) challengeActions

def linked : Office := final sampleOffice challenged linkActions

theorem sample_wallet_links :
    Run sampleOffice (idle emptyRegistry)
      (history sampleOffice (idle emptyRegistry) challengeActions) challenged ∧
    Run sampleOffice challenged (history sampleOffice challenged linkActions) linked ∧
    linked.shared.activations = [⟨"n", 1, "GB", sampleProof, 100000⟩] ∧
    active 1 linked.shared.links = 1 ∧
    (∃ l, linked.shared.links.lookup "GA" = some l ∧ l.personId = 1) ∧
    ∀ a ∈ linked.shared.activations, Checked sampleSettings linked.shared a ∧ Linked linked.shared a := by
  have hr : Run sampleOffice (idle emptyRegistry) _ challenged :=
    .of_actions challengeActions _ (by decide +kernel)
  have hr' : Run sampleOffice challenged _ linked := .of_actions linkActions _ (by decide +kernel)
  obtain ⟨hperson, -, -, hproven⟩ := wallet_links emptyRegistry_opening hr hr'
  have hlook : challenged.shared.links.lookup "GA" = some ⟨1, .sep10, .active, 100000⟩ := by
    decide +kernel
  exact ⟨hr, hr', by decide +kernel, by decide +kernel, hperson _ _ hlook, hproven⟩

end Lolipay.Coordinator.WalletLinks
