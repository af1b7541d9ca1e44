import Lolipay.Coordinator.Uploads

namespace Lolipay.Coordinator.UploadStages

open Lolipay.Ledger.Storage Lolipay.Ledger.Invocation Lolipay.Ledger.Runs
open Lolipay.Async.Process Lolipay.Async.Scheduling Lolipay.Async.Stages
open Lolipay.Coordinator.Orders Lolipay.Coordinator.Uploads

/-- How far an upload has come: it has nothing in hand, a key, an object under it,
an object that has to go, the object that the row named before, or none of these
with its update done, the last read failed, or done as well, and the answer out. -/
inductive Stage where
  | rest
  | free
  | keyed (key : String)
  | stored (key : String) (id : OrderId)
  | discarding (key : String)
  | replacing (key : String)
  | written
  | unread
  | reread
  | over
  deriving DecidableEq

/-- The key that a call still has to see to. -/
def Stage.hand : Stage → Option String
  | .keyed key | .stored key _ | .discarding key | .replacing key => some key
  | _ => none

/-- Before the update of the call has matched its row. -/
def Stage.early : Stage → Bool
  | .rest | .free | .keyed _ | .stored _ _ | .discarding _ => true
  | _ => false

def quiet : Effect → Bool
  | .findOrder _ | .getTradeStatus _ _ | .refresh _ _ _ | .clock | .findClash _ _ _ => true
  | _ => false

inductive Turn : Itinerary Effect Reply Stage
  | quiet {q : Stage} {e : Effect} (h : quiet e = true) (r : Reply e) : Turn q e r q
  | key (ext : Evidence.Ext) (key : String) : Turn .free (.newProofKey ext) key (.keyed key)
  | put {key : String} (buffer : List UInt8) (contentType : String) (id : OrderId) :
      Turn (.keyed key) (.putObject key buffer contentType id) true (.stored key id)
  | lost {key : String} (buffer : List UInt8) (contentType : String) (id : OrderId) :
      Turn (.keyed key) (.putObject key buffer contentType id) false .free
  | threw {key : String} {id : OrderId} (previous : Option String) (data : Proof) (p2002 : Bool) :
      Turn (.stored key id) (.claim id previous data) (.threw p2002) (.discarding key)
  | missed {key : String} {id : OrderId} (previous : Option String) (data : Proof) :
      Turn (.stored key id) (.claim id previous data) (.count 0) (.discarding key)
  | replaced {key previous : String} {id : OrderId} {data : Proof} (hdata : data.proofUrl = some key)
      (h : previous ≠ "") (n : ℕ) :
      Turn (.stored key id) (.claim id (some previous) data) (.count (n + 1)) (.replacing previous)
  | filled {key : String} {previous : Option String} {id : OrderId} {data : Proof}
      (hdata : data.proofUrl = some key) (h : ∀ url, previous = some url → url = "") (n : ℕ) :
      Turn (.stored key id) (.claim id previous data) (.count (n + 1)) .written
  | discard {key : String} : Turn (.discarding key) (.removeObject key) () .free
  | replace {key : String} : Turn (.replacing key) (.removeObject key) () .written
  | found (id : OrderId) (row : Row) : Turn .written (.reread id) (some (some row)) .reread
  | unread (id : OrderId) {r : Option (Option Row)} (h : r.getD none = none) :
      Turn .written (.reread id) r .unread
  | answer (row : Row) : Turn .reread (.answer (.ok row)) () .over
  | refuse (why : Refusal) : Turn .free (.answer (.error why)) () .over
  | fail (why : Refusal) : Turn .unread (.answer (.error why)) () .over

section Follows

variable {α β : Type} {q : Stage}

/-- Where a handler leads to; one that throws has written nothing, or could not
read what it wrote. -/
def Upon (ok : α → Stage → Prop) : Except Refusal α → Stage → Prop
  | .ok a, q => ok a q
  | .error _, q => q = .free ∨ q = .unread

def Leads (q : Stage) (p : Handler α) (ok : α → Stage → Prop) : Prop :=
  Follows Turn (Upon ok) (fun _ => False) q p.run

theorem Leads.bind {p : Handler α} {f : α → Handler β} {ok : α → Stage → Prop}
    {ok' : β → Stage → Prop} (h : Leads q p ok) (hf : ∀ a q', ok a q' → Leads q' (f a) ok') :
    Leads q (p >>= f) ok' := by
  apply Follows.bind h
  rintro (why | a) q' hq'
  · exact hq'
  · exact hf a q' hq'

theorem leads_pure {a : α} {ok : α → Stage → Prop} (h : ok a q) : Leads q (pure a) ok := h

theorem leads_throw {why : Refusal} {ok : α → Stage → Prop} (h : q = .free ∨ q = .unread) :
    Leads q (throw why : Handler α) ok := h

theorem leads_issue {e : Effect} {ok : Reply e → Stage → Prop}
    (h : ∀ r, ∃ q', Turn q e r q' ∧ ok r q') : Leads q (issue e) ok := h

/-- A handler that changes nothing that matters, from where it may throw. -/
abbrev Stays (p : Handler α) : Prop := Leads .free p fun _ q => q = .free

theorem stays_issue {e : Effect} (h : quiet e = true) : Stays (issue e) :=
  leads_issue fun r => ⟨.free, .quiet h r, rfl⟩

theorem stays_orThrow (why : Refusal) (a : Option α) : Stays (orThrow why a) := by
  cases a with
  | some a => exact leads_pure rfl
  | none => exact leads_throw (.inl rfl)

theorem stays_refuseIf (c : Prop) [Decidable c] (why : Refusal) : Stays (refuseIf c why) := by
  unfold refuseIf
  split
  next => exact leads_throw (.inl rfl)
  next => exact leads_pure rfl

theorem Stays.bind {p : Handler α} {f : α → Handler β} {ok : β → Stage → Prop} (h : Stays p)
    (hf : ∀ a, Leads .free (f a) ok) : Leads .free (p >>= f) ok := by
  apply Leads.bind h
  rintro a q' rfl
  exact hf a

theorem stays_findOrder (id : OrderId) : Stays (findOrder id) :=
  (stays_issue rfl).bind fun _ => stays_orThrow _ _

theorem stays_refreshOrderStatus (home : Address) (id : OrderId) (row : Row) :
    Stays (refreshOrderStatus home id row) := by
  unfold refreshOrderStatus
  split
  next =>
    apply (stays_issue rfl).bind
    intro onChain
    split
    next => exact leads_pure rfl
    next =>
      split_ifs
      · exact (stays_issue rfl).bind fun _ => (stays_orThrow _ _).bind fun _ =>
          (stays_findOrder id).bind fun _ => leads_pure rfl
      · exact leads_pure rfl
      · exact leads_pure rfl
  next => exact leads_pure rfl

theorem stays_readAmount (paidAmount : Option String) : Stays (readAmount paidAmount) := by
  cases paidAmount with
  | none => exact leads_pure rfl
  | some text => exact (stays_refuseIf _ _).bind fun _ => leads_pure rfl

theorem stays_readPaidAt (dateOf : String → Option ℤ) (createdAt : ℕ) (paidAt : Option String) :
    Stays (readPaidAt dateOf createdAt paidAt) := by
  cases paidAt with
  | none => exact leads_pure rfl
  | some text =>
    exact (stays_orThrow _ _).bind fun time => (stays_issue rfl).bind fun now =>
      (stays_refuseIf _ _).bind fun _ => (stays_refuseIf _ _).bind fun _ => leads_pure rfl

theorem stays_checkReference (id : OrderId) (lpId : Option LpId) (rrn : Option String) :
    Stays (checkReference id lpId rrn) := by
  cases rrn with
  | none => exact leads_pure rfl
  | some rrn =>
    exact (stays_issue rfl).bind fun _ => (stays_orThrow _ _).bind fun _ => stays_refuseIf _ _

theorem stays_checkUpload (home : Address) (dateOf : String → Option ℤ) (id : OrderId)
    (caller : Address) (dto : UploadProofDto) : Stays (checkUpload home dateOf id caller dto) := by
  refine (stays_findOrder id).bind fun found => (stays_orThrow _ _).bind ?_
  rintro ⟨row, lp⟩
  refine (stays_refuseIf _ _).bind fun _ => (stays_orThrow _ _).bind fun lp => ?_
  refine (stays_refuseIf _ _).bind fun _ => (stays_refreshOrderStatus _ _ _).bind fun current => ?_
  refine (stays_refuseIf _ _).bind fun _ => (stays_readAmount _).bind fun proofAmount => ?_
  apply (stays_readPaidAt _ _ _).bind
  intro proofPaidAt
  exact (stays_checkReference _ _ _).bind fun _ => leads_pure rfl

theorem sniffAndStore_leads (id : OrderId) (file : Option Evidence.UploadedFile) :
    Leads .free (sniffAndStore id file) fun key q => q = .stored key id := by
  have hsniff : Stays (sniffOrThrow file) := by
    refine (stays_orThrow _ _).bind fun file => (stays_orThrow _ _).bind fun sniffed => ?_
    exact (stays_refuseIf _ _).bind fun _ => leads_pure rfl
  apply hsniff.bind
  rintro ⟨file, sniffed⟩ key
  refine ⟨.keyed key, .key sniffed key, fun stored => ?_⟩
  cases stored with
  | false => exact ⟨.free, .lost _ _ _, .inl rfl⟩
  | true => exact ⟨.stored key id, .put _ _ _, rfl⟩

theorem discard_leads (key : String) (why : Refusal) {ok : Row → Stage → Prop} :
    Leads (.discarding key) (discard key why) ok :=
  fun _ => ⟨.free, .discard, .inl rfl⟩

theorem reread_leads (id : OrderId) {k : Option (Option Row) → Handler Row}
    (hk : ∀ r, k r = orThrow .thrown (r.getD none)) :
    Leads .written (issue (Effect.reread id) >>= k) fun _ q => q = .reread := by
  intro r
  change ∃ q', Turn .written (.reread id) r q' ∧ Leads q' (k r) _
  rw [hk]
  match r with
  | none => exact ⟨.unread, .unread id rfl, leads_throw (.inr rfl)⟩
  | some none => exact ⟨.unread, .unread id rfl, leads_throw (.inr rfl)⟩
  | some (some row) => exact ⟨.reread, .found id row, leads_pure rfl⟩

theorem claimProof_leads (id : OrderId) (previous : Option String) (key : String) (data : Proof) :
    Leads (.stored key id) (claimProof id previous key data) fun _ q => q = .reread := by
  intro now
  refine ⟨.stored key id, .quiet rfl now, fun claimed => ?_⟩
  match claimed with
  | .threw true => exact ⟨_, .threw _ _ _, discard_leads _ _⟩
  | .threw false => exact ⟨_, .threw _ _ _, discard_leads _ _⟩
  | .count 0 => exact ⟨_, .missed _ _, discard_leads _ _⟩
  | .count (n + 1) =>
    cases previous with
    | none => exact ⟨.written, .filled rfl (by simp) n, reread_leads id fun _ => rfl⟩
    | some url =>
      by_cases hurl : url = ""
      · subst hurl
        exact ⟨.written, .filled rfl (by simp) n, reread_leads id fun _ => rfl⟩
      · refine ⟨.replacing url, .replaced rfl hurl n, ?_⟩
        change Leads (.replacing url) (removePrevious (some url) >>= _) _
        rw [removePrevious, if_neg hurl]
        exact fun _ => ⟨.written, .replace, reread_leads id fun _ => rfl⟩

theorem body_follows (home : Address) (dateOf : String → Option ℤ) (c : Call) :
    Follows Turn (fun _ q => q = .over) (fun q => q = .over) .free (body home dateOf c) := by
  have hupload : Leads .free (uploadProof home dateOf c.id c.caller c.file c.dto)
      fun _ q => q = .reread := by
    apply (stays_checkUpload _ _ _ _ _).bind
    rintro ⟨previous, data⟩
    apply (sniffAndStore_leads _ _).bind
    rintro key q rfl
    exact claimProof_leads _ _ _ _
  apply (hupload.mono (fun _ _ h => h) fun _ h => h.elim).bind
  rintro (why | row) q hq
  · obtain rfl | rfl := hq
    · exact fun _ => ⟨.over, .refuse why, rfl⟩
    · exact fun _ => ⟨.over, .fail why, rfl⟩
  · obtain rfl := hq
    exact fun _ => ⟨.over, .answer row, rfl⟩

end Follows

def urlOf (v : Depot) (id : OrderId) : Option String :=
  (v.orders.lookup id).bind fun row => row.proof.proofUrl

/-- What an upload for an order has stored is what the row of that order names, or
still in the hands of a call. -/
def Accounted (v : Depot) (stage : Pid → Stage) : Prop :=
  ∀ key f id, v.objects key = some f → f.uploadedFor = some id →
    urlOf v id = some key ∨ ∃ pid, (stage pid).hand = some key

/-- The rows, the objects and the calls. Every object is accounted for as long as no
call has been cut off and the object store has not thrown. -/
structure Kept (cut : Prop) (v : Depot) (stage : Pid → Stage) : Prop where
  named : ∀ id url, urlOf v id = some url → (v.objects url).isSome = true
  inUse : ∀ key, (v.objects key).isSome = true → key ∈ v.issued
  alone : ∀ id id' url, urlOf v id = some url → urlOf v id' = some url → id = id'
  uploaded : ∀ key f id, v.objects key = some f → f.uploadedFor = some id → key ≠ ""
  held : ∀ pid key, (stage pid).hand = some key →
    key ∈ v.issued ∧ key ≠ "" ∧ ∀ id, urlOf v id ≠ some key
  there : ∀ pid key id, stage pid = .stored key id →
    ∃ f, v.objects key = some f ∧ f.uploadedFor = some id
  apart : ∀ p q key, (stage p).hand = some key → (stage q).hand = some key → p = q
  accounted : cut ∨ v.storageErrors = true ∨ Accounted v stage

/-- What the three columns beside the data say about the stage of a call. -/
structure Told (v : Depot) (stage : Pid → Stage) : Prop where
  early : ∀ pid, (stage pid).early = true → v.wrote pid = false
  unread : ∀ pid, stage pid = .unread → v.unread pid = true

/-- Two states that differ in nothing the proofs of payments are about. -/
structure Alike (v v' : Depot) : Prop where
  urls : urlOf v' = urlOf v
  objects : v'.objects = v.objects
  issued : v'.issued = v.issued
  errors : v'.storageErrors = v.storageErrors

variable {cut : Prop} {v v' : Depot} {stage : Pid → Stage} {pid : Pid} {key : String}
  {id : OrderId} {q : Stage} {o : Choice}

theorem Kept.alike (h : Kept cut v stage) (hv : Alike v v') : Kept cut v' stage := by
  obtain ⟨hurls, hobjects, hissued, herrors⟩ := hv
  refine ⟨?_, ?_, ?_, ?_, ?_, ?_, h.apart, ?_⟩
  · rw [hurls, hobjects]
    exact h.named
  · rw [hissued, hobjects]
    exact h.inUse
  · rw [hurls]
    exact h.alone
  · rw [hobjects]
    exact h.uploaded
  · rw [hissued, hurls]
    exact h.held
  · rw [hobjects]
    exact h.there
  · unfold Accounted
    rw [herrors, hurls, hobjects]
    exact h.accounted

theorem hand_cases {p : Pid} (h : (place stage pid q p).hand = some key) :
    p = pid ∧ q.hand = some key ∨ p ≠ pid ∧ (stage p).hand = some key := by
  by_cases hp : p = pid
  · subst hp
    rw [place_self] at h
    exact .inl ⟨rfl, h⟩
  · rw [place_other hp] at h
    exact .inr ⟨hp, h⟩

theorem stored_cases {p : Pid} (h : place stage pid q p = .stored key id) :
    p = pid ∧ q = .stored key id ∨ p ≠ pid ∧ stage p = .stored key id := by
  by_cases hp : p = pid
  · subst hp
    rw [place_self] at h
    exact .inl ⟨rfl, h⟩
  · rw [place_other hp] at h
    exact .inr ⟨hp, h⟩

theorem hand_place {p : Pid} (hp : p ≠ pid) (h : (stage p).hand = some key) :
    (place stage pid q p).hand = some key := by
  rw [place_other hp]
  exact h

theorem Kept.apart_place (h : Kept cut v stage)
    (hq : ∀ k, q.hand = some k → ∀ p, (stage p).hand ≠ some k) {p p' : Pid}
    (hp : (place stage pid q p).hand = some key) (hp' : (place stage pid q p').hand = some key) :
    p = p' := by
  obtain ⟨rfl, hk⟩ | ⟨-, hs⟩ := hand_cases hp
  · obtain ⟨rfl, -⟩ | ⟨-, hs'⟩ := hand_cases hp'
    · rfl
    · exact absurd hs' (hq key hk p')
  · obtain ⟨rfl, hk⟩ | ⟨-, hs'⟩ := hand_cases hp'
    · exact absurd hs (hq key hk p)
    · exact h.apart p p' key hs hs'

theorem Kept.stay (h : Kept cut v stage) (hhand : q.hand = (stage pid).hand)
    (hstored : ∀ key id, q ≠ .stored key id) : Kept cut v (place stage pid q) := by
  have hback {p : Pid} {key : String} (hp : (place stage pid q p).hand = some key) :
      (stage p).hand = some key := by
    obtain ⟨rfl, hq⟩ | ⟨-, hp⟩ := hand_cases hp
    · exact hhand ▸ hq
    · exact hp
  refine { h with held := ?_, there := ?_, apart := ?_, accounted := ?_ }
  · intro p key hp
    exact h.held p key (hback hp)
  · intro p key id hp
    obtain ⟨-, hq⟩ | ⟨-, hp⟩ := stored_cases hp
    · exact absurd hq (hstored key id)
    · exact h.there p key id hp
  · intro p p' key hp hp'
    exact h.apart p p' key (hback hp) (hback hp')
  · refine h.accounted.imp_right (Or.imp_right fun hall key f id hf hfor => ?_)
    apply (hall key f id hf hfor).imp_right
    rintro ⟨p, hp⟩
    refine ⟨p, ?_⟩
    by_cases hpid : p = pid
    · subst hpid
      rw [place_self, hhand]
      exact hp
    · exact hand_place hpid hp

theorem Kept.takesKey (h : Kept cut v stage) (hfree : (stage pid).hand = none)
    (hfresh : key ∉ v.issued) (hkey : key ≠ "") :
    Kept cut { v with issued := key :: v.issued } (place stage pid (.keyed key)) := by
  have hother {p : Pid} (hp : (stage p).hand = some key) : False := hfresh (h.held p key hp).1
  refine { h with inUse := ?_, held := ?_, there := ?_, apart := ?_, accounted := ?_ }
  · exact fun k hk => List.mem_cons_of_mem _ (h.inUse k hk)
  · intro p k hp
    obtain ⟨-, hk⟩ | ⟨-, hp⟩ := hand_cases hp
    · obtain rfl := Option.some.inj hk
      exact ⟨List.mem_cons_self, hkey, fun id hid => hfresh (h.inUse key (h.named id key hid))⟩
    · obtain ⟨hissued, hrest⟩ := h.held p k hp
      exact ⟨List.mem_cons_of_mem _ hissued, hrest⟩
  · intro p k id hp
    obtain ⟨-, hq⟩ | ⟨-, hp⟩ := stored_cases hp
    · cases hq
    · exact h.there p k id hp
  · refine fun p p' k => h.apart_place fun k hk p hp => ?_
    obtain rfl := Option.some.inj hk
    exact hother hp
  · refine h.accounted.imp_right (Or.imp_right fun hall k f id hf hfor => ?_)
    apply (hall k f id hf hfor).imp_right
    rintro ⟨p, hp⟩
    refine ⟨p, hand_place ?_ hp⟩
    rintro rfl
    rw [hfree] at hp
    cases hp

theorem stores_other {k : String} {x : Option Stored} (hk : k ≠ key) :
    (stores v key x o).objects k = v.objects k := by
  simp [stores, hk]

/-- A call puts or removes the object under the key in its hand. If it lets the key
go, then the object is gone or the object store threw. -/
theorem Kept.touches (h : Kept cut v stage) (hhand : (stage pid).hand = some key)
    {x : Option Stored} (hq : ∀ k, q.hand = some k → k = key)
    (hstored : ∀ k id, q = .stored k id →
      ∃ f, (stores v key x o).objects k = some f ∧ f.uploadedFor = some id)
    (hlets : q.hand = some key ∨ o.fails = true ∨ x = none) :
    Kept cut (stores v key x o) (place stage pid q) := by
  obtain ⟨hissued, hkey, hunnamed⟩ := h.held pid key hhand
  have hback {p : Pid} {k : String} (hp : (place stage pid q p).hand = some k) :
      (stage p).hand = some k := by
    obtain ⟨rfl, hk⟩ | ⟨-, hs⟩ := hand_cases hp
    · exact hq k hk ▸ hhand
    · exact hs
  refine ⟨?_, ?_, h.alone, ?_, ?_, ?_, ?_, ?_⟩
  · intro i url hi
    have hne : url ≠ key := fun heq => hunnamed i (heq ▸ hi)
    rw [stores_other hne]
    exact h.named i url hi
  · intro k hk
    by_cases hne : k = key
    · exact hne ▸ hissued
    · rw [stores_other hne] at hk
      exact h.inUse k hk
  · intro k f i hf hfor
    by_cases hne : k = key
    · exact hne ▸ hkey
    · rw [stores_other hne] at hf
      exact h.uploaded k f i hf hfor
  · exact fun p k hp => h.held p k (hback hp)
  · intro p k i hp
    obtain ⟨-, hs⟩ | ⟨hne, hs⟩ := stored_cases hp
    · exact hstored k i hs
    · have hk : k ≠ key := by
        rintro rfl
        exact hne (h.apart p pid k (by rw [hs]; rfl) hhand)
      rw [stores_other hk]
      exact h.there p k i hs
  · exact fun p p' k hp hp' => h.apart p p' k (hback hp) (hback hp')
  · obtain hcut | herrors | hall := h.accounted
    · exact .inl hcut
    · exact .inr (.inl (by simp [stores, herrors]))
    · cases hfails : o.fails with
      | true => exact .inr (.inl (by simp [stores, hfails]))
      | false =>
        refine .inr (.inr fun k f i hf hfor => ?_)
        by_cases hne : k = key
        · subst hne
          obtain hk | hfails' | rfl := hlets
          · exact .inr ⟨pid, by rw [place_self]; exact hk⟩
          · cases hfails.symm.trans hfails'
          · simp [stores, hfails] at hf
        · rw [stores_other hne] at hf
          apply (hall k f i hf hfor).imp_right
          rintro ⟨p, hp⟩
          refine ⟨p, hand_place ?_ hp⟩
          rintro rfl
          exact hne (Option.some.inj (hp.symm.trans hhand))

theorem Kept.letsGo (h : Kept cut v stage) (hhand : (stage pid).hand = some key) {x : Option Stored}
    (hq : q.hand = none) (hlets : o.fails = true ∨ x = none) :
    Kept cut (stores v key x o) (place stage pid q) := by
  refine h.touches hhand ?_ ?_ (.inr hlets)
  · intro k hk
    cases hq.symm.trans hk
  · rintro k i rfl
    cases hq

theorem urlOf_insert (v : Depot) (id : OrderId) (row : Row) (wrote : Pid → Bool) (i : OrderId) :
    urlOf { v with orders := v.orders.insert id row, wrote } i =
      if i = id then row.proof.proofUrl else urlOf v i := by
  unfold urlOf
  split
  next h => rw [h, AList.lookup_insert, Option.bind_some]
  next h => rw [AList.lookup_insert_ne h]

/-- The row of an order names a key in the place of the one before. -/
structure Renames (v v' : Depot) (id : OrderId) (previous : Option String) (key : String) : Prop where
  previous : urlOf v id = previous
  urls : ∀ i, urlOf v' i = if i = id then some key else urlOf v i
  objects : v'.objects = v.objects
  issued : v'.issued = v.issued
  errors : v'.storageErrors = v.storageErrors

section Claims

variable {previous : Option String} {i : OrderId} {url : String}

theorem Renames.self (hv : Renames v v' id previous key) : urlOf v' id = some key := by
  rw [hv.urls, if_pos rfl]

theorem Renames.cases (hv : Renames v v' id previous key) (hi : urlOf v' i = some url) :
    i = id ∧ url = key ∨ i ≠ id ∧ urlOf v i = some url := by
  by_cases hne : i = id
  · subst hne
    exact .inl ⟨rfl, Option.some.inj (hi.symm.trans hv.self)⟩
  · rw [hv.urls, if_neg hne] at hi
    exact .inr ⟨hne, hi⟩

theorem Kept.claimed_alone (h : Kept cut v stage) (hhand : (stage pid).hand = some key)
    (hv : Renames v v' id previous key) {i' : OrderId} (hi : urlOf v' i = some url)
    (hi' : urlOf v' i' = some url) : i = i' := by
  obtain ⟨-, -, hunnamed⟩ := h.held pid key hhand
  obtain ⟨rfl, rfl⟩ | ⟨hne, hold⟩ := hv.cases hi
  · obtain ⟨rfl, -⟩ | ⟨-, hold'⟩ := hv.cases hi'
    · rfl
    · exact absurd hold' (hunnamed i')
  · obtain ⟨rfl, rfl⟩ | ⟨-, hold'⟩ := hv.cases hi'
    · exact absurd hold (hunnamed i)
    · exact h.alone i i' url hold hold'

theorem Kept.claimed_held (h : Kept cut v stage) (hhand : (stage pid).hand = some key)
    (hv : Renames v v' id previous key) (hq : ∀ k, q.hand = some k ↔ previous = some k ∧ k ≠ "")
    {p : Pid} {k : String} (hp : (place stage pid q p).hand = some k) :
    k ∈ v.issued ∧ k ≠ "" ∧ ∀ i, urlOf v' i ≠ some k := by
  obtain ⟨-, -, hunnamed⟩ := h.held pid key hhand
  obtain ⟨-, hk⟩ | ⟨hne, hs⟩ := hand_cases hp
  · obtain ⟨hold, hempty⟩ := (hq k).mp hk
    have hold := hv.previous.trans hold
    refine ⟨h.inUse k (h.named id k hold), hempty, fun i hi => ?_⟩
    obtain ⟨-, rfl⟩ | ⟨hne, hother⟩ := hv.cases hi
    · exact hunnamed id hold
    · exact hne (h.alone i id k hother hold)
  · obtain ⟨hin, hempty, hno⟩ := h.held p k hs
    refine ⟨hin, hempty, fun i hi => ?_⟩
    obtain ⟨-, rfl⟩ | ⟨-, hother⟩ := hv.cases hi
    · exact hne (h.apart p pid k hs hhand)
    · exact hno i hother

theorem Kept.claimed_accounted (h : Kept cut v stage) (hstage : stage pid = .stored key id)
    (hv : Renames v v' id previous key) (hq : ∀ k, q.hand = some k ↔ previous = some k ∧ k ≠ "")
    (hall : Accounted v stage) : Accounted v' (place stage pid q) := by
  obtain ⟨f, hf, hfor⟩ := h.there pid key id hstage
  intro k g i hg hi
  rw [hv.objects] at hg
  obtain hurl | ⟨p, hp⟩ := hall k g i hg hi
  · by_cases hne : i = id
    · subst hne
      refine .inr ⟨pid, ?_⟩
      rw [place_self]
      exact (hq k).mpr ⟨hv.previous.symm.trans hurl, h.uploaded k g i hg hi⟩
    · exact .inl ((hv.urls i).trans ((if_neg hne).trans hurl))
  · by_cases hpid : p = pid
    · subst hpid
      rw [hstage] at hp
      obtain rfl := Option.some.inj hp
      obtain rfl := Option.some.inj (hf.symm.trans hg)
      obtain rfl := Option.some.inj (hfor.symm.trans hi)
      exact .inl hv.self
    · exact .inr ⟨p, hand_place hpid hp⟩

theorem Kept.claims (h : Kept cut v stage) (hstage : stage pid = .stored key id)
    (hv : Renames v v' id previous key) (hq : ∀ k, q.hand = some k ↔ previous = some k ∧ k ≠ "")
    (hstored : ∀ k i, q ≠ .stored k i) : Kept cut v' (place stage pid q) := by
  have hhand : (stage pid).hand = some key := by rw [hstage]; rfl
  obtain ⟨f, hf, -⟩ := h.there pid key id hstage
  refine ⟨?_, ?_, fun i i' url => h.claimed_alone hhand hv, ?_, ?_, ?_, ?_, ?_⟩
  · intro i url hi
    rw [hv.objects]
    obtain ⟨-, rfl⟩ | ⟨-, hi⟩ := hv.cases hi
    · rw [hf]
      rfl
    · exact h.named i url hi
  · rw [hv.objects, hv.issued]
    exact h.inUse
  · rw [hv.objects]
    exact h.uploaded
  · intro p k hp
    rw [hv.issued]
    exact h.claimed_held hhand hv hq hp
  · intro p k i hp
    rw [hv.objects]
    obtain ⟨-, hs⟩ | ⟨-, hs⟩ := stored_cases hp
    · exact absurd hs (hstored k i)
    · exact h.there p k i hs
  · refine fun p p' k => h.apart_place fun k hk p hp => ?_
    exact (h.held p k hp).2.2 id (hv.previous.trans ((hq k).mp hk).1)
  · rw [hv.errors]
    exact h.accounted.imp_right (Or.imp_right fun hall => h.claimed_accounted hstage hv hq hall)

end Claims

theorem Kept.cutOff (h : Kept cut v stage) (hcut : cut) : Kept cut v (place stage pid .rest) := by
  have hback {p : Pid} {k : String} (hp : (place stage pid .rest p).hand = some k) :
      (stage p).hand = some k := by
    obtain ⟨-, hk⟩ | ⟨-, hs⟩ := hand_cases hp
    · cases hk
    · exact hs
  refine { h with held := ?_, there := ?_, apart := ?_, accounted := .inl hcut }
  · exact fun p k hp => h.held p k (hback hp)
  · intro p k i hp
    obtain ⟨-, hs⟩ | ⟨-, hs⟩ := stored_cases hp
    · cases hs
    · exact h.there p k i hs
  · exact fun p p' k hp hp' => h.apart p p' k (hback hp) (hback hp')

theorem Told.turn (h : Told v stage) (hearly : q.early = true → v'.wrote pid = false)
    (hunread : q = .unread → v'.unread pid = true)
    (hothers : ∀ p ≠ pid, v'.wrote p = v.wrote p ∧ v'.unread p = v.unread p) :
    Told v' (place stage pid q) := by
  constructor
  · intro p hp
    by_cases hpid : p = pid
    · subst hpid
      rw [place_self] at hp
      exact hearly hp
    · rw [place_other hpid] at hp
      exact (hothers p hpid).1.trans (h.early p hp)
  · intro p hp
    by_cases hpid : p = pid
    · subst hpid
      rw [place_self] at hp
      exact hunread hp
    · rw [place_other hpid] at hp
      exact (hothers p hpid).2.trans (h.unread p hp)

def proofOf (v : Depot) (id : OrderId) : Option Proof := (v.orders.lookup id).map (·.proof)

theorem urlOf_eq (v : Depot) : urlOf v = fun id => (proofOf v id).bind (·.proofUrl) := by
  funext id
  rw [urlOf, proofOf, Option.bind_map]
  rfl

theorem proofOf_refresh (id : OrderId) (a : Writes.Advance) (stamps : Bool) (v : Depot) :
    proofOf (runRefresh id a stamps v).1 = proofOf v := by
  unfold runRefresh
  split
  next => rfl
  next row hrow =>
    split
    next => rfl
    next order _ =>
      funext i
      unfold proofOf
      by_cases hi : i = id
      · subst hi
        rw [AList.lookup_insert, hrow]
        rfl
      · rw [AList.lookup_insert_ne hi]

structure Untouched (v v' : Depot) : Prop where
  proofs : proofOf v' = proofOf v
  objects : v'.objects = v.objects
  issued : v'.issued = v.issued
  errors : v'.storageErrors = v.storageErrors
  wrote : v'.wrote = v.wrote
  unread : v'.unread = v.unread

theorem Untouched.alike (h : Untouched v v') : Alike v v' where
  urls := by rw [urlOf_eq, urlOf_eq, h.proofs]
  objects := h.objects
  issued := h.issued
  errors := h.errors

theorem untouched_of_quiet {e : Effect} (h : quiet e = true) : Untouched v (effect pid e o v).1 := by
  cases e with
  | findOrder | getTradeStatus | clock | findClash => exact ⟨rfl, rfl, rfl, rfl, rfl, rfl⟩
  | refresh id a stamps =>
    simp only [effect]
    split
    next => exact ⟨rfl, rfl, rfl, rfl, rfl, rfl⟩
    next =>
      refine ⟨proofOf_refresh id a stamps v, ?_, ?_, ?_, ?_, ?_⟩ <;> unfold runRefresh <;> split <;>
        first | rfl | (split <;> rfl)
  | newProofKey | putObject | removeObject | claim | reread | answer => cases h

/-- The update of an upload either matches the row that the call has read, or changes
nothing. -/
theorem claim_cases (pid : Pid) (id : OrderId) (previous : Option String) (data : Proof) (o : Choice)
    (v : Depot) :
    (∃ row, claimable v id previous = some row ∧
        effect pid (.claim id previous data) o v =
          ({ v with
              orders := v.orders.insert id { row with proof := data }
              wrote := updated v.wrote pid true }, .count 1)) ∨
      ∃ r, (∀ n, r ≠ .count (n + 1)) ∧ effect pid (.claim id previous data) o v = (v, r) := by
  simp only [effect]
  split
  next => exact .inr ⟨.threw false, by simp, rfl⟩
  next =>
    unfold runClaim
    split
    next => exact .inr ⟨.count 0, by simp, rfl⟩
    next row hrow =>
      split
      next => exact .inr ⟨.threw true, by simp, rfl⟩
      next => exact .inl ⟨row, hrow, rfl⟩

theorem urlOf_claimable {previous : Option String} {row : Row} (h : claimable v id previous = some row) :
    urlOf v id = previous := by
  obtain ⟨hrow, hmatch⟩ := Option.filter_eq_some_iff.mp h
  rw [urlOf, hrow]
  simp only [Bool.and_eq_true, decide_eq_true_eq] at hmatch
  exact hmatch.2

theorem proofKey_ne (uuid : String) (ext : Evidence.Ext) : proofKey uuid ext ≠ "" := by
  intro h
  have hlist := congrArg String.toList h
  simp [proofKey] at hlist

theorem place_stay (stage : Pid → Stage) (pid : Pid) : place stage pid (stage pid) = stage := by
  funext p
  by_cases hp : p = pid
  · subst hp
    exact place_self _ _ _
  · exact place_other hp

/-- The invariant of a run: the rows with their objects, and the columns beside them. -/
def Good (cut : Prop) (v : Depot) (stage : Pid → Stage) : Prop := Kept cut v stage ∧ Told v stage

theorem Good.claims {previous : Option String} {data : Proof} {row : Row} (h : Good cut v stage)
    (hstage : stage pid = .stored key id) (hrow : claimable v id previous = some row)
    (hdata : data.proofUrl = some key) (hq : ∀ k, q.hand = some k ↔ previous = some k ∧ k ≠ "")
    (hstored : ∀ k i, q ≠ .stored k i) (hearly : q.early = false) (hunread : q ≠ .unread) :
    Good cut { v with
        orders := v.orders.insert id { row with proof := data }
        wrote := updated v.wrote pid true } (place stage pid q) := by
  refine ⟨h.1.claims hstage ⟨urlOf_claimable hrow, ?_, rfl, rfl, rfl⟩ hq hstored, h.2.turn ?_ ?_ ?_⟩
  · intro i
    rw [urlOf_insert, hdata]
  · intro hq
    cases hearly.symm.trans hq
  · exact fun hq => absurd hq hunread
  · exact fun p hp => ⟨if_neg hp, rfl⟩

theorem Good.turn (h : Good cut v stage) (hkept : Kept cut v' (place stage pid q))
    (hearly : q.early = true → (stage pid).early = true) (hunread : q ≠ .unread)
    (hwrote : v'.wrote = v.wrote) (hsame : v'.unread = v.unread) :
    Good cut v' (place stage pid q) := by
  refine ⟨hkept, h.2.turn ?_ (fun hq => absurd hq hunread) ?_⟩
  · intro hq
    rw [hwrote]
    exact h.2.early pid (hearly hq)
  · intro p _
    rw [hwrote, hsame]
    exact ⟨rfl, rfl⟩

theorem Good.reads {q : Stage} (h : Good cut v stage) (hstage : stage pid = .written) (id : OrderId)
    (hq : q = .reread ∨ q = .unread ∧ ((effect pid (.reread id) o v).2).getD none = none) :
    Good cut (effect pid (.reread id) o v).1 (place stage pid q) := by
  have halike : Alike v (effect pid (.reread id) o v).1 := by
    simp only [effect]
    split <;> exact ⟨rfl, rfl, rfl, rfl⟩
  have hhand : q.hand = (stage pid).hand := by
    rw [hstage]
    obtain rfl | ⟨rfl, -⟩ := hq <;> rfl
  refine ⟨(h.1.stay hhand ?_).alike halike, h.2.turn ?_ ?_ ?_⟩
  · rintro k i rfl
    obtain heq | ⟨heq, -⟩ := hq <;> cases heq
  · intro hearly
    obtain rfl | ⟨rfl, -⟩ := hq <;> cases hearly
  · rintro rfl
    obtain heq | ⟨-, hnone⟩ := hq
    · cases heq
    · simp only [effect] at hnone ⊢
      split
      next => exact if_pos rfl
      next hfails =>
        rw [if_neg hfails, Option.getD_some] at hnone
        rw [hnone]
        exact if_pos rfl
  · intro p hp
    simp only [effect]
    split
    · exact ⟨rfl, if_neg hp⟩
    · exact ⟨rfl, if_neg hp⟩

theorem Good.missed {previous : Option String} {data : Proof} {r : Claimed} (h : Good cut v stage)
    (hstage : stage pid = .stored key id)
    (hr : (effect pid (.claim id previous data) o v).2 = r) (hno : ∀ n, r ≠ .count (n + 1)) :
    Good cut (effect pid (.claim id previous data) o v).1 (place stage pid (.discarding key)) := by
  obtain ⟨row, -, heq⟩ | ⟨r', -, heq⟩ := claim_cases pid id previous data o v
  · rw [heq] at hr
    exact absurd hr.symm (hno 0)
  · rw [heq]
    refine h.turn (h.1.stay (by rw [hstage]; rfl) (by simp)) ?_ (by simp) rfl rfl
    rw [hstage]
    exact fun _ => rfl

theorem Good.matched {previous : Option String} {data : Proof} {n : ℕ} (h : Good cut v stage)
    (hstage : stage pid = .stored key id)
    (hr : (effect pid (.claim id previous data) o v).2 = .count (n + 1))
    (hdata : data.proofUrl = some key) (hq : ∀ k, q.hand = some k ↔ previous = some k ∧ k ≠ "")
    (hstored : ∀ k i, q ≠ .stored k i) (hearly : q.early = false) (hunread : q ≠ .unread) :
    Good cut (effect pid (.claim id previous data) o v).1 (place stage pid q) := by
  obtain ⟨row, hrow, heq⟩ | ⟨r, hno, heq⟩ := claim_cases pid id previous data o v
  · rw [heq]
    exact h.claims hstage hrow hdata hq hstored hearly hunread
  · rw [heq] at hr
    exact absurd hr (hno n)

/-- The step lemma: whatever a call does next keeps the invariant. -/
theorem Good.go {e : Effect} (h : Good cut v stage) (hturn : Turn (stage pid) e (effect pid e o v).2 q)
    (hp : Permits e o v) : Good cut (effect pid e o v).1 (place stage pid q) := by
  generalize hstage : stage pid = q₀ at hturn
  generalize hr : (effect pid e o v).2 = r at hturn
  cases hturn with
  | quiet hquiet r =>
    have hsame : Untouched v (effect pid e o v).1 := untouched_of_quiet hquiet
    rw [← hstage, place_stay]
    refine ⟨h.1.alike hsame.alike, ?_, ?_⟩
    · rw [hsame.wrote]
      exact h.2.early
    · rw [hsame.unread]
      exact h.2.unread
  | key ext key =>
    cases hr
    refine h.turn (h.1.takesKey (by rw [hstage]; rfl) hp (proofKey_ne _ _)) ?_ (by simp) rfl rfl
    rw [hstage]
    exact fun _ => rfl
  | @put key buffer contentType id =>
    have hfails : o.fails = false := by simpa [effect] using hr
    refine h.turn (h.1.touches (by rw [hstage]; rfl) ?_ ?_ (.inl rfl)) ?_ (by simp) rfl rfl
    · intro k hk
      exact (Option.some.inj hk).symm
    · rintro k i heq
      cases heq
      exact ⟨⟨buffer, contentType, some id⟩, by simp [stores, hfails], rfl⟩
    · rw [hstage]
      exact fun _ => rfl
  | @lost key buffer contentType id =>
    have hfails : o.fails = true := by simpa [effect] using hr
    refine h.turn (h.1.letsGo (by rw [hstage]; rfl) rfl (.inl hfails)) ?_ (by simp) rfl rfl
    rw [hstage]
    exact fun _ => rfl
  | @discard key =>
    refine h.turn (h.1.letsGo (by rw [hstage]; rfl) rfl (.inr rfl)) ?_ (by simp) rfl rfl
    rw [hstage]
    exact fun _ => rfl
  | @replace key =>
    refine h.turn (h.1.letsGo (by rw [hstage]; rfl) rfl (.inr rfl)) ?_ (by simp) rfl rfl
    intro hearly
    cases hearly
  | @threw key id previous data p2002 => exact h.missed hstage hr (by simp)
  | @missed key id previous data => exact h.missed hstage hr (by simp)
  | @replaced key previous id data hdata hne n =>
    refine h.matched hstage hr hdata (fun k => ?_) (by simp) rfl (by simp)
    constructor
    · intro hk
      obtain rfl := Option.some.inj hk
      exact ⟨rfl, hne⟩
    · rintro ⟨hk, -⟩
      exact hk
  | @filled key previous id data hdata hempty n =>
    refine h.matched hstage hr hdata (fun k => ?_) (by simp) rfl (by simp)
    constructor
    · intro hk
      cases hk
    · rintro ⟨hk, hne⟩
      exact absurd (hempty k hk) hne
  | found id row => exact h.reads hstage id (.inl rfl)
  | @unread id r hnone => exact h.reads hstage id (.inr ⟨rfl, hr ▸ hnone⟩)
  | answer row =>
    exact h.turn (h.1.stay (by rw [hstage]; rfl) (by simp)) (by simp [Stage.early]) (by simp) rfl rfl
  | refuse why =>
    exact h.turn (h.1.stay (by rw [hstage]; rfl) (by simp)) (by simp [Stage.early]) (by simp) rfl rfl
  | fail why =>
    exact h.turn (h.1.stay (by rw [hstage]; rfl) (by simp)) (by simp [Stage.early]) (by simp) rfl rfl

/-- Where uploads may start: what the rows name is there, each object for one row, its
key is in use, and nothing has happened yet. -/
structure Start (v : Depot) : Prop where
  named : ∀ id url, urlOf v id = some url → (v.objects url).isSome = true
  alone : ∀ id id' url, urlOf v id = some url → urlOf v id' = some url → id = id'
  inUse : ∀ key, (v.objects key).isSome = true → key ∈ v.issued
  before : ∀ key f, v.objects key = some f → f.uploadedFor = none
  wrote : ∀ pid, v.wrote pid = false

theorem Start.good (h : Start v) : Good cut v fun _ => .rest where
  left :=
    { named := h.named
      inUse := h.inUse
      alone := h.alone
      uploaded := fun key f id hf hfor => by
        rw [h.before key f hf] at hfor
        cases hfor
      held := fun _ _ hp => by cases hp
      there := fun _ _ _ hp => by cases hp
      apart := fun _ _ _ hp => by cases hp
      accounted := .inr (.inr fun key f id hf hfor => by
        rw [h.before key f hf] at hfor
        cases hfor) }
  right := ⟨fun pid _ => h.wrote pid, fun _ hp => by cases hp⟩

variable {home : Address} {dateOf : String → Option ℤ}

theorem urlOf_edit (v : Depot) (id : OrderId) (order : Order) :
    urlOf (moved v (.edit id order)) = urlOf v := by
  funext i
  unfold urlOf
  by_cases hi : i = id
  · subst hi
    simp only [moved, AList.lookup_insert]
    cases v.orders.lookup i <;> rfl
  · simp only [moved, AList.lookup_insert_ne hi]

theorem good_maintains (cut : Prop) :
    Maintains Turn (uploads home dateOf) (fun _ => .free) .rest (fun _ _ => True) (fun _ => cut)
      (Good cut) where
  spawn v stage pid c h hrest _ := by
    refine h.turn (h.1.stay (by rw [hrest]; rfl) (by simp)) ?_ (by simp) rfl rfl
    rw [hrest]
    exact fun _ => rfl
  go v stage pid e o q h hturn hp := h.go hturn hp
  dies v stage pid h hcut := by
    refine ⟨(h.1.cutOff hcut).alike ⟨rfl, rfl, rfl, rfl⟩, h.2.turn ?_ (by simp) ?_⟩
    · exact fun _ => if_pos rfl
    · exact fun p hp => ⟨if_neg hp, if_neg hp⟩
  moved v stage a h _ := by
    cases a with
    | tick | setLp => exact ⟨h.1.alike ⟨rfl, rfl, rfl, rfl⟩, h.2.early, h.2.unread⟩
    | edit id order => exact ⟨h.1.alike ⟨urlOf_edit v id order, rfl, rfl, rfl⟩, h.2.early, h.2.unread⟩

abbrev Log := List (Entry (Pool Effect Reply Depot) (Act Call Choice Move) (Option (Pid × Effect)))

variable {tr : Log} {w : Pool Effect Reply Depot}

theorem run_good (cut : Prop) (hv : Start v)
    (hr : Run (machine (uploads home dateOf)) (idle v) tr w)
    (hcut : ∀ e ∈ tr, ∀ pid, e.act = .kill pid → cut) :
    ∃ stage, Underway Turn (fun q => q = .over) .rest w stage ∧ Good cut w.shared stage := by
  apply run_underway (good_maintains cut) (fun c => body_follows home dateOf c) hr hv.good
  intro e he
  cases hact : e.act with
  | spawn | go | outside => trivial
  | kill pid => exact hcut e he pid hact

/-- What one step of a call does to the rows and to the objects that they name. -/
structure Spares (pid : Pid) (v v' : Depot) : Prop where
  proofs : proofOf v' = proofOf v ∨ v'.wrote pid = true
  objects : ∀ id url, urlOf v id = some url → v'.objects url = v.objects url

theorem Good.spares {e : Effect} (h : Good cut v stage)
    (hturn : Turn (stage pid) e (effect pid e o v).2 q) : Spares pid v (effect pid e o v).1 := by
  generalize hstage : stage pid = q₀ at hturn
  have hstores {key : String} {x : Option Stored} (hhand : (stage pid).hand = some key) :
      Spares pid v (stores v key x o) := by
    refine ⟨.inl rfl, fun id url hurl => stores_other ?_⟩
    rintro rfl
    exact (h.1.held pid url hhand).2.2 id hurl
  cases e with
  | findOrder | getTradeStatus | refresh | clock | findClash =>
    exact ⟨.inl (untouched_of_quiet rfl).proofs,
      fun _ _ _ => congrFun (untouched_of_quiet rfl).objects _⟩
  | newProofKey | answer => exact ⟨.inl rfl, fun _ _ _ => rfl⟩
  | reread =>
    simp only [effect]
    split <;> exact ⟨.inl rfl, fun _ _ _ => rfl⟩
  | claim id previous data =>
    obtain ⟨row, -, heq⟩ | ⟨r, -, heq⟩ := claim_cases pid id previous data o v
    · rw [heq]
      exact ⟨.inr (if_pos rfl), fun _ _ _ => rfl⟩
    · rw [heq]
      exact ⟨.inl rfl, fun _ _ _ => rfl⟩
  | putObject key buffer contentType id =>
    apply hstores
    generalize (effect pid (.putObject key buffer contentType id) o v).2 = r at hturn
    cases hturn with
    | quiet hquiet => cases hquiet
    | put | lost => rw [hstage]; rfl
  | removeObject key =>
    apply hstores
    cases hturn with
    | quiet hquiet => cases hquiet
    | discard | replace => rw [hstage]; rfl

/-- A call that is about to throw has written nothing, or could not read what it wrote. -/
theorem Good.throws {why : Refusal} {r : Unit} (h : Good cut v stage)
    (hturn : Turn (stage pid) (.answer (.error why)) r q) :
    v.wrote pid = false ∨ v.unread pid = true := by
  generalize hstage : stage pid = q₀ at hturn
  cases hturn with
  | quiet hquiet => cases hquiet
  | refuse => exact .inl (h.2.early pid (by rw [hstage]; rfl))
  | fail => exact .inr (h.2.unread pid hstage)

section Samples

def sampleUrl : String := "proofs/0.jpg"

def sampleDepot : Depot where
  orders := (∅ : Store OrderId Row).insert 0
    ⟨({ Desk.samplePlacement with flow := .withdraw }).opened.setStatus .funded, ⟨sampleUrl, some 950000, none, none, none⟩⟩
  lps _ := some ⟨6⟩
  now := 1000000
  objects key := if key = sampleUrl then some ⟨[0xff, 0xd8, 0xff], "image/jpeg", none⟩ else none
  issued := [sampleUrl]

def sampleUploads : Machine (Pool Effect Reply Depot) (Act Call Choice Move) (Option (Pid × Effect)) :=
  machine (uploads ⟨0⟩ fun _ => none)

def sampleCall : Call := ⟨0, ⟨6⟩, some ⟨[0xff, 0xd8, 0xff], "image/jpeg"⟩, {}⟩

def sampleActions : List (Act Call Choice Move) :=
  [.spawn 0 sampleCall, .go 0 {}, .go 0 {}, .go 0 { uuid := "1" }, .go 0 {}, .go 0 {}, .go 0 {},
    .go 0 {}]

theorem sampleActions_admitted :
    Admitted sampleUploads (idle sampleDepot) (sampleActions ++ [.go 0 {}, .go 0 {}]) :=
  ⟨⟨rfl, trivial⟩, trivial, trivial, show proofKey "1" .jpg ∉ [sampleUrl] by decide, trivial, trivial, trivial, trivial, trivial, trivial,
    trivial⟩

end Samples

end Lolipay.Coordinator.UploadStages
