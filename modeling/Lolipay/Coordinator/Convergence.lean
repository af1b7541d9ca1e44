import Lolipay.Coordinator.Footprint
import Lolipay.Coordinator.Scenes

namespace Lolipay.Coordinator.Convergence

open Lolipay.Ledger.Storage Lolipay.Ledger.Invocation Lolipay.Ledger.Runs
open Lolipay.Async.Process
open Lolipay.Escrow.Types Lolipay.Escrow.System Lolipay.Escrow.Phases
open Lolipay.Escrow.Invariant (settlement)
open Lolipay.Escrow.Custody (sampleEnv sampleArgs)
open Lolipay.Coordinator.Orders Lolipay.Coordinator.Binding Lolipay.Coordinator.Writes
open Lolipay.Coordinator.Database Lolipay.Coordinator.Services Lolipay.Coordinator.Indexer
open Lolipay.Coordinator.Desk Lolipay.Coordinator.Steps Lolipay.Coordinator.Footprint
open Lolipay.Coordinator.Replica Lolipay.Coordinator.Following Lolipay.Coordinator.Scenes

theorem statusMap_injective {st st' : Status} (h : statusMap st = statusMap st') : st = st' := by
  cases st <;> cases st' <;> first | rfl | cases h

theorem unbound_or_mapped (s : OrderStatus) :
    notYetBoundOnChain s = true ∨ ∃ st, s = statusMap st := by
  cases s with
  | created | matched | awaitingOnchain | expired | cancelled => exact .inl rfl
  | funded => exact .inr ⟨.funded, rfl⟩
  | fiatPaid => exact .inr ⟨.fiatPaid, rfl⟩
  | released => exact .inr ⟨.released, rfl⟩
  | refunded => exact .inr ⟨.refunded, rfl⟩
  | disputed => exact .inr ⟨.disputed, rfl⟩

theorem before_of_unbound {s : OrderStatus} (h : notYetBoundOnChain s = true) (target : Status) :
    (statusBefore target).contains s = true := by
  cases s <;> cases target <;> first | rfl | cases h

variable {φ φ' : Phase} {st target : Status} {d : ResolveOutcome} {ev : Event}

theorem direction_of_status (h : φ.status = some st) (hd : outcomeOf st = some d) :
    φ.direction = some d := by
  obtain rfl := outcomeOf_eq hd
  cases φ with
  | settled d' => cases d <;> cases d' <;> first | rfl | cases h
  | unwinding r => cases d <;> first | rfl | cases h
  | absent | funded | fiatPaid | disputed | reopened => cases d <;> cases h

theorem rank_of_status (h : φ.status = some st) :
    (st = .funded → φ.rank = 1) ∧ (st = .fiatPaid → φ.rank = 2) ∧
      (st = .disputed → 3 ≤ φ.rank) ∧ ((outcomeOf st).isSome = true → 4 ≤ φ.rank) := by
  cases φ with
  | settled d => cases d <;> obtain rfl := Option.some.inj h <;> simp [Phase.rank, outcomeOf]
  | absent => cases h
  | funded | fiatPaid | disputed | unwinding | reopened =>
    obtain rfl := Option.some.inj h
    simp [Phase.rank, outcomeOf]

theorem rank_lt_of_before (hopen : outcomeOf target = none)
    (hb : (statusBefore target).contains (statusMap st) = true) (h : φ.status = some st)
    (h' : φ'.status = some target) : φ.rank < φ'.rank := by
  have hr := rank_of_status h
  have hr' := rank_of_status h'
  cases target with
  | released | refunded => cases hopen
  | funded => cases st <;> simp [statusBefore, statusMap] at hb
  | fiatPaid =>
    cases st with
    | funded =>
      have := hr.1 rfl
      have := hr'.2.1 rfl
      omega
    | fiatPaid | released | refunded | disputed => simp [statusBefore, statusMap] at hb
  | disputed =>
    have := hr'.2.2.1 rfl
    cases st with
    | funded =>
      have := hr.1 rfl
      omega
    | fiatPaid =>
      have := hr.2.1 rfl
      omega
    | released | refunded | disputed => simp [statusBefore, statusMap] at hb

theorem settled_status (d : ResolveOutcome) : (Phase.settled d).status = some (settledAs d) := by
  cases d <;> rfl

theorem outcomeOf_settledAs (d : ResolveOutcome) : outcomeOf (settledAs d) = some d := by
  cases d <;> rfl

theorem before_of_next (hn : φ.next ev = some φ') (hv : isVerdict ev = false)
    (hopen : outcomeOf st = none) (h : φ.status = some st) (h' : φ'.status = some target) :
    (statusBefore target).contains (statusMap st) = true := by
  unfold Phase.next at hn
  split at hn <;> cases hn
  all_goals
    first
    | (cases hv; done)
    | (cases h; done)
    | (cases h; cases h'; rfl)
    | (rw [settled_status] at h
       obtain rfl := Option.some.inj h
       cases (outcomeOf_settledAs _).symm.trans hopen)

theorem status_of_next_settled (hn : φ.next ev = some φ') (hev : ∀ id r, ev ≠ .disputed id r)
    (h : φ.status = some st) (hd : outcomeOf st = some d) : φ'.status = some st := by
  unfold Phase.next at hn
  split at hn <;> cases hn
  all_goals
    first
    | exact absurd rfl (hev _ _)
    | exact h
    | (cases h; done)
    | (cases h; cases hd)

theorem direction_of_next (hn : φ.next ev = some φ') (hd : φ'.direction = some d) :
    φ.direction = some d ∨ φ'.status = some (settledAs d) := by
  unfold Phase.next at hn
  split at hn <;> cases hn
  all_goals
    first
    | exact .inl hd
    | (cases hd; exact .inr rfl)

/-- How far the row has followed the log: it has taken in the first `h` events,
with an indexer that is at event `k`. An open status is that of the trade after
the first `h` events or later; a settled one may be older, but not older than
`b`, since a replay can write it again. -/
structure InStep (x : Scene) (k b h : ℕ) : Prop where
  le : k ≤ h
  there : h ≤ x.log.length
  before : ∀ i, x.claimed i = true → i < h
  decided : ∀ i ev, i < h → x.log[i]? = some ev → isVerdict ev = true → x.claimed i = true
  unbound : notYetBoundOnChain x.status = true → h = 0
  live : ∀ st, x.status = statusMap st → outcomeOf st = none →
    ∃ i, h ≤ i ∧ i ≤ x.log.length ∧ (phaseAt x.log i).status = some st
  settled : ∀ st d, x.status = statusMap st → outcomeOf st = some d →
    x.settledStatus = some (statusMap st) ∧
      ∃ i, b ≤ i ∧ i ≤ x.log.length ∧ (phaseAt x.log i).status = some st
  known : ∀ s, x.settledStatus = some s → ∃ d, x.now.direction = some d ∧ s = statusMap (settledAs d)
  directed : ∀ d, (phaseAt x.log h).direction = some d →
    x.settledStatus = some (statusMap (settledAs d))
  judged : x.resolution.isSome = true → ∃ i ev, i < h ∧ x.log[i]? = some ev ∧ isVerdict ev = true

/-- The row is in step at the event, up to some mark. -/
def Caught (x : Scene) (k : ℕ) : Prop := ∃ h, InStep x k k h

variable {x : Scene} {k b h i : ℕ}

theorem InStep.rewind (hs : InStep x k b h) {k' b' : ℕ} (hk : k' ≤ k) (hb : b' ≤ b) :
    InStep x k' b' h := by
  refine { hs with le := hk.trans hs.le, settled := fun st d hst hd => ?_ }
  obtain ⟨hsettled, i, hi, hrest⟩ := hs.settled st d hst hd
  exact ⟨hsettled, i, hb.trans hi, hrest⟩

theorem InStep.grow (hs : InStep x k b h) {evs : List Event} (hl : Legal (x.log ++ evs)) :
    InStep { x with log := x.log ++ evs } k b h := by
  have hlen : x.log.length ≤ (x.log ++ evs).length := by simp
  have hphase {i : ℕ} (hi : i ≤ x.log.length) : phaseAt (x.log ++ evs) i = phaseAt x.log i :=
    phaseAt_append evs hi
  have hold {i : ℕ} (hi : i < h) : (x.log ++ evs)[i]? = x.log[i]? :=
    List.getElem?_append_left (hi.trans_le hs.there)
  refine ⟨hs.le, hs.there.trans hlen, hs.before, fun i ev hi hev => ?_, hs.unbound,
    fun st hst hopen => ?_, fun st d hst hd => ?_, fun s hset => ?_, fun d hd => ?_, fun hres => ?_⟩
  · exact hs.decided i ev hi ((hold hi).symm.trans hev)
  · obtain ⟨i, hi, hle, hstatus⟩ := hs.live st hst hopen
    exact ⟨i, hi, hle.trans hlen, by rw [← hstatus]; exact congrArg Phase.status (hphase hle)⟩
  · obtain ⟨hsettled, i, hi, hle, hstatus⟩ := hs.settled st d hst hd
    exact ⟨hsettled, i, hi, hle.trans hlen,
      by rw [← hstatus]; exact congrArg Phase.status (hphase hle)⟩
  · obtain ⟨d, hd, heq⟩ := hs.known s hset
    refine ⟨d, hl.direction_eq hlen ?_, heq⟩
    rw [hphase le_rfl]
    exact hd
  · apply hs.directed d
    rw [← hphase hs.there]
    exact hd
  · obtain ⟨i, ev, hi, hev, hv⟩ := hs.judged hres
    exact ⟨i, ev, hi, (hold hi).trans hev, hv⟩

theorem now_direction (hl : Legal x.log) (hi : i ≤ x.log.length)
    (hst : (phaseAt x.log i).status = some st) (hd : outcomeOf st = some d) :
    x.now.direction = some d :=
  hl.direction_eq hi (direction_of_status hst hd)

/-- The row takes over a status that the trade had after `i` events, and the mark
moves over events that are no verdicts. -/
theorem InStep.land (hs : InStep x k b h) (hl : Legal x.log) {k' b' h' : ℕ} (hk : k' ≤ h')
    (hh : h ≤ h') (hlen : h' ≤ x.log.length)
    (hskip : ∀ j ev, h ≤ j → j < h' → x.log[j]? = some ev → isVerdict ev = false)
    (hi : i ≤ x.log.length) (hst : (phaseAt x.log i).status = some st)
    (hopen : outcomeOf st = none → h' ≤ i) (hbar : (outcomeOf st).isSome = true → b' ≤ i)
    (hdir : outcomeOf st = none → ∀ d, (phaseAt x.log h').direction = some d →
      (phaseAt x.log h).direction = some d) :
    InStep { x with toFace := x.land st } k' b' h' := by
  refine ⟨hk, hlen, fun j hj => (hs.before j hj).trans_le hh, fun j ev hj hev hv => ?_, fun hu => ?_,
    fun st' hst' ho => ?_, fun st' d hst' hd => ?_, fun s hset => ?_, fun d hd => ?_, fun hres => ?_⟩
  · by_cases hjh : j < h
    · exact hs.decided j ev hjh hev hv
    · cases (hskip j ev (not_lt.mp hjh) hj hev).symm.trans hv
  · exact absurd hu (by simp [Face.land, bound_statusMap])
  · obtain rfl := statusMap_injective (show statusMap st = statusMap st' from hst')
    exact ⟨i, hopen ho, hi, hst⟩
  · obtain rfl := statusMap_injective (show statusMap st = statusMap st' from hst')
    refine ⟨?_, i, hbar (by simp [hd]), hi, hst⟩
    simp [Face.land, hd]
  · cases ho : outcomeOf st with
    | none =>
      apply hs.known s
      simpa [Face.land, ho] using hset
    | some d =>
      refine ⟨d, now_direction hl hi hst ho, ?_⟩
      rw [← outcomeOf_eq ho]
      simpa [Face.land, ho, eq_comm] using hset
  · cases ho : outcomeOf st with
    | none =>
      have hold := hs.directed d (hdir ho d hd)
      simpa [Face.land, ho] using hold
    | some d' =>
      have hsame := (hl.direction_eq hlen hd).symm.trans (now_direction hl hi hst ho)
      obtain rfl := Option.some.inj hsame
      simp [Face.land, ho, ← outcomeOf_eq ho]
  · obtain ⟨j, ev, hj, hrest⟩ := hs.judged hres
    exact ⟨j, ev, hj.trans_le hh, hrest⟩

/-- A refresh shows the chain as it is, and keeps the mark. -/
theorem InStep.refresh (hs : InStep x k b h) (hl : Legal x.log) (hb : b ≤ x.log.length)
    (hst : x.now.status = some st) : InStep { x with toFace := x.land st } k b h :=
  hs.land hl hs.le le_rfl hs.there (fun _ _ hj hj' => absurd hj (not_le.mpr hj')) le_rfl hst
    (fun _ => hs.there) (fun _ => hb) fun _ _ hd => hd

theorem open_of_before (h : (statusBefore target).contains (statusMap st) = true) :
    outcomeOf st = none := by
  cases target <;> cases st <;> first | rfl | simp [statusBefore, statusMap] at h

section

variable (hs : InStep x k b h) (hl : Legal x.log) (hev : x.log[k]? = some ev)
include hs hl hev

omit hl in
theorem InStep.skip (hv : isVerdict ev = false) {j : ℕ} {ev' : Event} (hj : h ≤ j)
    (hj' : j < max h (k + 1)) (hev' : x.log[j]? = some ev') : isVerdict ev' = false := by
  have hle := hs.le
  obtain rfl : j = k := by omega
  obtain rfl := Option.some.inj (hev.symm.trans hev')
  exact hv

omit hl in
theorem InStep.max_there : max h (k + 1) ≤ x.log.length :=
  max_le hs.there (List.getElem?_eq_some_iff.mp hev).1

omit hev in
theorem InStep.mark_eq (hopen : outcomeOf st = none)
    (hst : (phaseAt x.log (k + 1)).status = some st)
    (hb : (statusBefore st).contains x.status = true) : h = k := by
  by_contra hne
  have hlt : k + 1 ≤ h := by
    have := hs.le
    omega
  obtain hu | ⟨st', hst'⟩ := unbound_or_mapped x.status
  · have := hs.unbound hu
    omega
  · rw [hst'] at hb
    obtain ⟨i, hi, -, hstatus⟩ := hs.live st' hst' (open_of_before hb)
    have hrank := hl.rank_le (hlt.trans hi)
    exact absurd (rank_lt_of_before hopen hb hstatus hst) (not_lt.mpr hrank)

theorem InStep.landed (hv : isVerdict ev = false)
    (hst : (phaseAt x.log (k + 1)).status = some st)
    (hb : (statusBefore st).contains x.status = true) :
    Caught { x with toFace := x.land st } (k + 1) := by
  have hlen : k + 1 ≤ x.log.length := (List.getElem?_eq_some_iff.mp hev).1
  have hskip (j : ℕ) (ev' : Event) (hj : h ≤ j) (hj' : j < max h (k + 1))
      (hev' : x.log[j]? = some ev') : isVerdict ev' = false := hs.skip hev hv hj hj' hev'
  cases ho : outcomeOf st with
  | some d =>
    exact ⟨max h (k + 1), hs.land hl (le_max_right _ _) (le_max_left _ _) (hs.max_there hev) hskip
      hlen hst (fun hn => by cases ho.symm.trans hn) (fun _ => le_rfl)
      fun hn => by cases ho.symm.trans hn⟩
  | none =>
    obtain rfl := hs.mark_eq hl ho hst hb
    rw [max_eq_right (Nat.le_succ h)] at hskip
    refine ⟨h + 1, hs.land hl le_rfl (Nat.le_succ h) hlen hskip hlen hst (fun _ => le_rfl)
      (fun hn => by simp [ho] at hn) fun _ d hd => ?_⟩
    apply (direction_of_next (hl h ev hev) hd).resolve_right
    intro hset
    obtain rfl := Option.some.inj (hst.symm.trans hset)
    cases (outcomeOf_settledAs d).symm.trans ho

end

theorem InStep.raise (hs : InStep x k k h) (hl : Legal x.log) (hev : x.log[k]? = some ev)
    (hne : ∀ id r, ev ≠ .disputed id r) : InStep x k (k + 1) h := by
  have hlen : k + 1 ≤ x.log.length := (List.getElem?_eq_some_iff.mp hev).1
  refine { hs with settled := fun st d hst hd => ?_ }
  obtain ⟨hsettled, i, hi, hle, hstatus⟩ := hs.settled st d hst hd
  refine ⟨hsettled, ?_⟩
  obtain rfl | hlt := hi.eq_or_lt
  · exact ⟨k + 1, le_rfl, hlen, status_of_next_settled (hl k ev hev) hne hstatus hd⟩
  · exact ⟨i, hlt, hle, hstatus⟩

section

variable (hs : InStep x k (k + 1) h) (hl : Legal x.log) (hev : x.log[k]? = some ev)
include hs hl

theorem InStep.direction_eq (hst : x.status = statusMap st) (hd : outcomeOf st = some d)
    {d' : ResolveOutcome} (hi : i ≤ x.log.length) (hd' : (phaseAt x.log i).direction = some d') :
    d = d' := by
  obtain ⟨-, j, -, hj, hstatus⟩ := hs.settled st d hst hd
  have hnow := now_direction hl hj hstatus hd
  exact Option.some.inj (hnow.symm.trans (hl.direction_eq hi hd'))

include hev

theorem InStep.passed (hv : isVerdict ev = false)
    (hst : (phaseAt x.log (k + 1)).status = some st)
    (hno : (statusBefore st).contains x.status = false) : Caught x (k + 1) := by
  have hlen : k + 1 ≤ x.log.length := (List.getElem?_eq_some_iff.mp hev).1
  have hn := hl k ev hev
  obtain rfl | hlt := hs.le.eq_or_lt
  · refine ⟨k + 1, le_rfl, hlen, fun i hi => (hs.before i hi).trans (Nat.lt_succ_self k),
      fun i ev' hi hev' hv' => ?_, fun hu => ?_, fun st' hst' ho => ?_, hs.settled, hs.known,
      fun d hd => ?_, fun hres => ?_⟩
    · obtain hi | rfl := Nat.lt_succ_iff_lt_or_eq.mp hi
      · exact hs.decided i ev' hi hev' hv'
      · obtain rfl := Option.some.inj (hev.symm.trans hev')
        cases hv.symm.trans hv'
    · cases (before_of_unbound hu st).symm.trans hno
    · obtain ⟨i, hi, hle, hstatus⟩ := hs.live st' hst' ho
      obtain rfl | hlt := hi.eq_or_lt
      · rw [hst', before_of_next hn hv ho hstatus hst] at hno
        cases hno
      · exact ⟨i, hlt, hle, hstatus⟩
    · obtain hold | hset := direction_of_next hn hd
      · exact hs.directed d hold
      · -- The event settles the trade, and only settled rows are not before that.
        obtain rfl := Option.some.inj (hst.symm.trans hset)
        obtain hu | ⟨st', hst'⟩ := unbound_or_mapped x.status
        · cases (before_of_unbound hu _).symm.trans hno
        · cases ho : outcomeOf st' with
          | none =>
            rw [hst'] at hno
            cases d <;> cases st' <;> simp [statusBefore, statusMap, settledAs, outcomeOf] at hno ho
          | some d' =>
            obtain rfl := hs.direction_eq hl hst' ho hlen hd
            rw [← outcomeOf_eq ho]
            exact (hs.settled st' d' hst' ho).1
    · obtain ⟨i, ev', hi, hrest⟩ := hs.judged hres
      exact ⟨i, ev', hi.trans (Nat.lt_succ_self k), hrest⟩
  · exact ⟨h, { hs with le := hlt }⟩

end

theorem InStep.raise_of_settled (hs : InStep x k k h) (hl : Legal x.log) (hi : k + 1 ≤ i)
    (hi' : i ≤ x.log.length) (hst : (phaseAt x.log i).status = some st)
    (hd : outcomeOf st = some d) : InStep x k (k + 1) h := by
  refine { hs with settled := fun st' d' hst' hd' => ?_ }
  obtain ⟨hsettled, j, -, hj, hstatus⟩ := hs.settled st' d' hst' hd'
  have hsame := (now_direction hl hj hstatus hd').symm.trans (now_direction hl hi' hst hd)
  obtain rfl := Option.some.inj hsame
  refine ⟨hsettled, i, hi, hi', ?_⟩
  rw [hst, outcomeOf_eq hd, outcomeOf_eq hd']

theorem InStep.reopened (hs : InStep x k k h) (hl : Legal x.log) (hev : x.log[k]? = some ev)
    (hv : isVerdict ev = false) (hst : (phaseAt x.log (k + 1)).status = some .disputed)
    (hi : max h (k + 1) ≤ i) (hi' : i ≤ x.log.length)
    (hseen : (phaseAt x.log i).status = some .disputed) :
    Caught { x with toFace := x.land .disputed } (k + 1) := by
  refine ⟨max h (k + 1), hs.land hl (le_max_right _ _) (le_max_left _ _) (hs.max_there hev)
    (fun j ev' hj hj' hev' => hs.skip hev hv hj hj' hev') hi' hseen (fun _ => hi)
    (fun hn => by cases hn) fun _ d hd => ?_⟩
  obtain rfl | hlt := hs.le.eq_or_lt
  · rw [max_eq_right (Nat.le_succ k)] at hd
    apply (direction_of_next (hl k ev hev) hd).resolve_right
    intro hset
    rw [hst] at hset
    cases d <;> cases hset
  · rw [max_eq_left (show k + 1 ≤ h from hlt)] at hd
    exact hd

/-- A verdict that is only recorded, since the chain was seen in a later round. -/
theorem InStep.recorded (hs : InStep x k (k + 1) h) (hl : Legal x.log) {r : Address}
    (hev : x.log[k]? = some ev) (hphase : phaseAt x.log k = .reopened d r) (hi : k + 1 ≤ i)
    (hi' : i ≤ x.log.length)
    (hseen : (phaseAt x.log i).status = some .disputed) : Caught (x.claim k) (k + 1) := by
  have hle := hs.le
  have hdir : (phaseAt x.log h).direction = some d :=
    hl.direction_eq hs.le (by rw [hphase]; rfl)
  have hpos : 0 < h := by
    by_contra hzero
    obtain rfl : k = 0 := by omega
    cases hphase
  refine ⟨max h (k + 1), le_max_right _ _, hs.max_there hev, fun j hj => ?_,
    fun j ev' hj hev' hv => ?_, fun hu => ?_, fun st' hst' ho => ?_, hs.settled, hs.known,
    fun d' hd' => ?_, fun hres => ?_⟩
  · obtain rfl | hj := Bool.or_eq_true_iff.mp hj |>.imp_left of_decide_eq_true
    · exact lt_max_of_lt_right (Nat.lt_succ_self j)
    · exact lt_max_of_lt_left (hs.before j hj)
  · apply Bool.or_eq_true_iff.mpr
    by_cases hjk : j = k
    · exact .inl (decide_eq_true hjk)
    · exact .inr (hs.decided j ev' (by omega) hev' hv)
  · have := hs.unbound hu
    omega
  · obtain ⟨j, hj, hj', hstatus⟩ := hs.live st' hst' ho
    by_cases hjk : k + 1 ≤ j
    · exact ⟨j, max_le hj hjk, hj', hstatus⟩
    · obtain rfl : j = k := by omega
      obtain rfl : h = j := by omega
      rw [hphase] at hstatus
      obtain rfl := Option.some.inj hstatus
      exact ⟨i, max_le (by omega) hi, hi', hseen⟩
  · have hmax := hl.direction_eq (le_max_left h (k + 1)) hdir
    obtain rfl := Option.some.inj (hmax.symm.trans hd')
    exact hs.directed d hdir
  · obtain ⟨j, ev', hj, hrest⟩ := hs.judged hres
    exact ⟨j, ev', lt_max_of_lt_left hj, hrest⟩

theorem Face.judge_columns (f : Face) (st : Status) (outcome : ResolveOutcome) :
    (f.judge st outcome).status = statusMap st ∧
      (f.judge st outcome).settledStatus = (f.land st).settledStatus ∧
      (f.judge st outcome).resolution = some outcome := by
  rw [Face.judge, Face.close]
  split <;> exact ⟨rfl, rfl, rfl⟩

theorem InStep.mark_of_new (hs : InStep x k b h) (hev : x.log[k]? = some ev)
    (hv : isVerdict ev = true) (hnew : x.claimed k = false) : h = k := by
  refine le_antisymm (not_lt.mp fun hlt => ?_) hs.le
  cases (hs.decided k ev hlt hev hv).symm.trans hnew

/-- A verdict that settles the trade, or confirms how it was settled. -/
theorem InStep.judge (hs : InStep x k b h) (hl : Legal x.log) (hev : x.log[k]? = some ev)
    (hv : isVerdict ev = true) (hnew : x.claimed k = false)
    (hst : (phaseAt x.log (k + 1)).status = some st) (hd : outcomeOf st = some d)
    (outcome : ResolveOutcome) :
    Caught { x.claim k with toFace := x.judge st outcome } (k + 1) := by
  have hlen : k + 1 ≤ x.log.length := (List.getElem?_eq_some_iff.mp hev).1
  obtain rfl := hs.mark_of_new hev hv hnew
  obtain ⟨hstatus, hsettled, hres⟩ := Face.judge_columns x.toFace st outcome
  have hsettled : (x.judge st outcome).settledStatus = some (statusMap st) := by
    rw [hsettled]
    simp [Face.land, hd]
  refine ⟨h + 1, le_rfl, hlen, fun j hj => ?_, fun j ev' hj hev' hv' => ?_, fun hu => ?_,
    fun st' hst' ho => ?_, fun st' d' hst' hd' => ?_, fun s hset => ?_, fun d' hd' => ?_,
    fun _ => ⟨h, ev, Nat.lt_succ_self h, hev, hv⟩⟩
  · obtain rfl | hj := Bool.or_eq_true_iff.mp hj |>.imp_left of_decide_eq_true
    · exact Nat.lt_succ_self j
    · exact (hs.before j hj).trans (Nat.lt_succ_self h)
  · apply Bool.or_eq_true_iff.mpr
    obtain hj | rfl := Nat.lt_succ_iff_lt_or_eq.mp hj
    · exact .inr (hs.decided j ev' hj hev' hv')
    · exact .inl (decide_eq_true rfl)
  · change notYetBoundOnChain (x.judge st outcome).status = true at hu
    rw [hstatus, bound_statusMap] at hu
    cases hu
  · obtain rfl := statusMap_injective (hstatus.symm.trans hst')
    cases hd.symm.trans ho
  · obtain rfl := statusMap_injective (hstatus.symm.trans hst')
    exact ⟨hsettled, h + 1, le_rfl, hlen, hst⟩
  · refine ⟨d, now_direction hl hlen hst hd, ?_⟩
    rw [← outcomeOf_eq hd]
    exact Option.some.inj (hset.symm.trans hsettled)
  · have hdir := direction_of_status hst hd
    obtain rfl := Option.some.inj (hdir.symm.trans hd')
    rw [← outcomeOf_eq hd]
    exact hsettled

theorem InStep.congr {y : Scene} (hs : InStep x k b h) (hlog : y.log = x.log)
    (hclaimed : y.claimed = x.claimed) (hst : y.status = x.status)
    (hset : y.settledStatus = x.settledStatus) (hres : y.resolution = x.resolution) :
    InStep y k b h := by
  obtain ⟨⟨st, settled, res, by₁, dis, filed⟩, log, cl⟩ := x
  obtain ⟨⟨st', settled', res', by₂, dis', filed'⟩, log', cl'⟩ := y
  subst hlog hclaimed hst hset hres
  exact ⟨hs.le, hs.there, hs.before, hs.decided, hs.unbound, hs.live, hs.settled, hs.known,
    hs.directed, hs.judged⟩

variable {q : Docket} {v v' : View} {e : Effect} {o : Choice} {row : Order} {t : Trade}

/-- What the chain, the clock and the refreshes can do beside the handler: no mark
is lost, and a settled row is not touched. -/
structure Along (q : Docket) (v v' : View) : Prop where
  log : ∃ evs, v'.log = v.log ++ evs
  inStep : ∀ k b h, b ≤ v.log.length → InStep (scene q v) k b h → InStep (scene q v') k b h
  settled : ∀ st d, (scene q v).status = statusMap st → outcomeOf st = some d →
    (scene q v').status = statusMap st

theorem Along.length_le (ha : Along q v v') : v.log.length ≤ v'.log.length := by
  obtain ⟨evs, hlog⟩ := ha.log
  rw [hlog, List.length_append]
  exact Nat.le_add_right _ _

theorem Along.phaseAt_eq (ha : Along q v v') (hi : i ≤ v.log.length) :
    phaseAt v'.log i = phaseAt v.log i := by
  obtain ⟨evs, hlog⟩ := ha.log
  rw [hlog, phaseAt_append evs hi]

theorem Along.refl (q : Docket) (v : View) : Along q v v :=
  ⟨⟨[], (List.append_nil _).symm⟩, fun _ _ _ _ h => h, fun _ _ h _ => h⟩

theorem Along.trans {u : View} (h : Along q u v) (h' : Along q v v') : Along q u v' := by
  obtain ⟨evs, hlog⟩ := h.log
  obtain ⟨evs', hlog'⟩ := h'.log
  refine ⟨⟨evs ++ evs', ?_⟩, fun k b m hb hs => ?_, fun st d hst hd => ?_⟩
  · rw [hlog', hlog, List.append_assoc]
  · exact h'.inStep k b m (hb.trans h.length_le) (h.inStep k b m hb hs)
  · exact h'.settled st d (h.settled st d hst hd) hd

theorem Along.caught (ha : Along q v v') (hk : k ≤ v.log.length) (hc : Caught (scene q v) k) :
    Caught (scene q v') k := by
  obtain ⟨h, hs⟩ := hc
  exact ⟨h, ha.inStep k k h hk hs⟩

theorem now_status (hm : Mirrors q v) (ht : q.tradeIn v.shared.chain = some t) :
    (scene q v).now.status = some t.status := by
  have hag := hm.current
  rw [ht] at hag
  exact Describes.status hag

theorem Along.grown {a : Action} (hm : Mirrors q (grown q v a)) : Along q v (grown q v a) := by
  refine ⟨⟨_, rfl⟩, fun k b h _ hs => ?_, fun st d hst _ => hst⟩
  exact hs.grow hm.legal

theorem Along.tick (v : View) (time : ℕ) :
    Along q v { v with shared := moved v.shared (.tick time) } :=
  ⟨⟨[], (List.append_nil _).symm⟩, fun _ _ _ _ h => h, fun _ _ h _ => h⟩

theorem Along.refreshed (hm : Mirrors q v) (order : Order)
    (hsees : o.onChain = none ∨ Current q v.shared o.onChain) :
    Along q v { v with shared := refreshed q order o v.shared } := by
  obtain hsame | ⟨a, stamps, hwrite, hseen, hfrom, honChain⟩ := refreshed_cases q order o v.shared
  · rw [hsame]
    exact .refl q v
  · obtain ⟨row, hrow, -⟩ := hm.row
    rw [hwrite]
    cases hf : o.fails with
    | true =>
      have hsame : after 0 (.write q.order (.refresh a stamps)) o v.shared = v.shared := by
        simp [after, hf]
      rw [hsame]
      exact .refl q v
    | false =>
      obtain ⟨-, hsame, -⟩ | ⟨hmatch, hscene, -⟩ := scene_write hrow (.refresh a stamps) hf
      · rw [hsame]
        exact .refl q v
      · have hface : (scene q v).toFace = faceOf row := scene_toFace hrow
        rw [faceOf_refresh, ← hface] at hscene
        -- The chain that it saw is the one that the events tell of.
        have hcur : (q.tradeIn v.shared.chain).map decodeTradeStatus = some a.onChain := by
          rw [← honChain]
          exact (hsees.resolve_left (by simp [honChain])).symm
        obtain ⟨t, ht, hdec⟩ := Option.map_eq_some_iff.mp hcur
        have hst : (scene q v).now.status = some a.onChain.status := by
          rw [now_status hm ht, ← hdec]
          rfl
        refine ⟨⟨[], (List.append_nil _).symm⟩, fun k b h hb hs => ?_, fun st d hst' hd => ?_⟩
        · rw [hscene]
          exact hs.refresh hm.legal hb hst
        · -- It only matches rows that are not settled.
          have hrow' : row.status = statusMap st := by
            rw [hface] at hst'
            exact hst'
          have heq : row.status = a.seen := of_decide_eq_true hmatch
          rw [← hseen, ← heq, hrow', outcomeOf_eq hd] at hfrom
          cases d <;> simp [refreshFromChainStatuses, settledAs, statusMap] at hfrom

structure Follows (q : Docket) (k : ℕ) (v : View) : Prop where
  mirrors : Mirrors q v
  caught : Caught (scene q v) k

theorem Follows.behind (hf : Follows q k v) : k ≤ v.log.length := by
  obtain ⟨h, hs⟩ := hf.caught
  exact hs.le.trans hs.there

theorem Follows.along (hf : Follows q k v) (hm : Mirrors q v') (ha : Along q v v') :
    Follows q k v' := ⟨hm, ha.caught hf.behind hf.caught⟩

def following (q : Docket) : Regime q (Current q) where
  inv := Follows q
  rely := Along q
  refl := Along.refl q
  trans := Along.trans
  rewind h hle := ⟨h.mirrors, h.caught.imp fun _ hs => hs.rewind hle hle⟩
  grow _ _ _ h hfits :=
    have hm := h.mirrors.grow hfits
    ⟨h.along hm (.grown hm), .grown hm⟩
  tick _ v time h :=
    ⟨h.along (h.mirrors.tick time) (.tick v time), .tick v time⟩
  refresh _ _ order o h _ hsees :=
    have ha := Along.refreshed h.mirrors order hsees
    ⟨h.along (h.mirrors.refresh order o) ha, ha⟩

theorem following_mirrors (k : ℕ) (v : View) (h : (following q).inv k v) : Mirrors q v :=
  Follows.mirrors (k := k) h

inductive Neutral (q : Docket) : Effect → Prop
  | ask (query : Query) : Neutral q (.ask query)
  | backfill (outcome : ResolveOutcome) (hash : TxHash) :
      Neutral q (.write q.order (.backfillSettlementHash outcome hash))
  | reconcile (raiser : Address) (role : Disputer) :
      Neutral q (.write q.order (.reconcileDisputeMetadata raiser role))
  | providerLoss : Neutral q (.accrueProviderLoss q.order)
  | disputeLost (a : Address) : Neutral q (.recordDisputeLost a q.order)

theorem Neutral.own (hn : Neutral q e) : Own q.order e := by
  cases hn <;> trivial

theorem neutral_write (hm : Mirrors q v) {w : RowWrite} {b : ℕ}
    (hdata : ∀ now row, (faceOf (w.data now row)).status = (faceOf row).status ∧
      (faceOf (w.data now row)).settledStatus = (faceOf row).settledStatus ∧
      (faceOf (w.data now row)).resolution = (faceOf row).resolution)
    (hs : InStep (scene q v) k b h) :
    InStep (scene q { v with shared := after 0 (.write q.order w) o v.shared }) k b h := by
  obtain ⟨row, hrow, -⟩ := hm.row
  cases hf : o.fails with
  | true =>
    have hsame : after 0 (.write q.order w) o v.shared = v.shared := by simp [after, hf]
    rw [hsame]
    exact hs
  | false =>
    obtain ⟨-, hsame, -⟩ | ⟨-, hscene, -⟩ := scene_write hrow w hf
    · rw [hsame]
      exact hs
    · have hface : (scene q v).toFace = faceOf row := scene_toFace hrow
      obtain ⟨hst, hset, hres⟩ := hdata v.shared.now row
      rw [hscene]
      refine hs.congr rfl rfl ?_ ?_ ?_
      all_goals
        rw [hface]
        assumption

theorem Neutral.inStep (hn : Neutral q e) (hm : Mirrors q v) {b : ℕ}
    (hs : InStep (scene q v) k b h) :
    InStep (scene q { v with shared := after 0 e o v.shared }) k b h := by
  cases hn with
  | ask query => exact hs
  | backfill outcome hash => exact neutral_write hm (fun _ _ => ⟨rfl, rfl, rfl⟩) hs
  | reconcile raiser role => exact neutral_write hm (fun _ _ => ⟨rfl, rfl, rfl⟩) hs
  | providerLoss =>
    rw [scene_loss (.inl rfl)]
    exact hs
  | disputeLost a =>
    rw [scene_loss (.inr ⟨a, rfl⟩)]
    exact hs

variable {α : Type} {p : Service α} {Q : α → View → Prop}

theorem safe_done (hc : Caught (scene q v) (k + 1)) (hev : v.log[k]? = some ev)
    (hp : Every (Neutral q) p) :
    Safe ((following q).handling k ev) (fun _ v' => Follows q (k + 1) v') p v := by
  have hk : k + 1 ≤ v.log.length := (List.getElem?_eq_some_iff.mp hev).1
  induction p generalizing v with
  | pure a =>
    rintro v' ha ⟨hf, -⟩
    exact ⟨hf.mirrors, Along.caught ha hk hc⟩
  | fail => trivial
  | step e next ih =>
    rintro u ha ⟨hf, hevu⟩ r u' ⟨o, -, rfl, rfl⟩
    have hcu : Caught (scene q u) (k + 1) := Along.caught ha hk hc
    have hku : k + 1 ≤ u.log.length := hk.trans (Along.length_le ha)
    have hm := Mirrors.after (o := o) (Follows.mirrors hf) hp.1.own
    have hcu' : Caught (scene q { u with shared := after 0 e o u.shared }) (k + 1) :=
      hcu.imp fun _ hs => hp.1.inStep (Follows.mirrors hf) hs
    refine ⟨trivial, ⟨⟨hm, hcu'.imp fun _ hs => hs.rewind (Nat.le_succ k) (Nat.le_succ k)⟩, hevu⟩, ?_⟩
    exact ih _ hcu' hevu (hp.2 _) hku

theorem safe_ask {query : Query} {f : query.Reply → Service α}
    (hf : ∀ u r, Along q v u → Follows q k u → u.log[k]? = some ev →
      Safe ((following q).handling k ev) Q (f r) u) :
    Safe ((following q).handling k ev) Q (ask query >>= f) v := by
  rintro u ha ⟨hinv, hev⟩ r u' ⟨o, -, rfl, rfl⟩
  exact ⟨trivial, ⟨hinv, hev⟩, hf u _ ha hinv hev⟩

theorem safe_update {w : RowWrite} {f : ℕ → Service α}
    (hmiss : ∀ u row, Along q v u → Follows q k u → u.log[k]? = some ev →
      u.shared.db.orders.lookup q.order = some row → w.matchesRow row = false →
      Safe ((following q).handling k ev) Q (f 0) u)
    (hhit : ∀ u u' row, Along q v u → Follows q k u → u.log[k]? = some ev →
      u.shared.db.orders.lookup q.order = some row → w.matchesRow row = true →
      u'.log = u.log →
      scene q u' = { scene q u with toFace := faceOf (w.data u.shared.now row) } →
      Caught (scene q u') k ∧ Safe ((following q).handling k ev) Q (f 1) u') :
    Safe ((following q).handling k ev) Q (update q.order w >>= f) v := by
  refine safe_write following_mirrors (fun u row ha hinv hev _ => hmiss u row ha hinv hev)
    fun u u' row ha hinv hev _ hm hrow hmatch hlog hscene => ?_
  obtain ⟨hc, hsafe⟩ := hhit u u' row ha hinv hev hrow hmatch hlog hscene
  exact ⟨⟨hm, hc⟩, hsafe⟩

theorem Caught.rewind (hc : Caught x (k + 1)) : Caught x k :=
  hc.imp fun _ hs => hs.rewind (Nat.le_succ k) (Nat.le_succ k)

theorem applyStatusEvent_follows (hinv : Follows q k v) (hev : v.log[k]? = some ev)
    (hrow : v.shared.db.orders.lookup q.order = some row) (hv : isVerdict ev = false)
    (hne : ∀ id r, ev ≠ .disputed id r) {target : Status}
    (hst : (phaseAt v.log (k + 1)).status = some target) (hash : Option TxHash) :
    Safe ((following q).handling k ev) (fun _ v' => Follows q (k + 1) v')
      (applyStatusEvent q.contract hash q.order row target) v := by
  have hlen : k + 1 ≤ v.log.length := (List.getElem?_eq_some_iff.mp hev).1
  have hstatus : (scene q v).status = row.status := scene_status hrow
  obtain ⟨h, hs⟩ := hinv.caught
  have hs := hs.raise hinv.mirrors.legal hev hne
  -- Nothing is written where the row is not before the target.
  have hpass {u : View} (ha : Along q v u) (hm : Mirrors q u) (hevu : u.log[k]? = some ev)
      (hno : (statusBefore target).contains (scene q u).status = false) :
      Caught (scene q u) (k + 1) := by
    refine (ha.inStep k (k + 1) h hlen hs).passed hm.legal hevu hv ?_ hno
    rw [← hst]
    exact congrArg Phase.status (ha.phaseAt_eq hlen)
  have hread : Safe ((following q).handling k ev) (fun _ u => Along q v u)
      (settlementRead q.contract row target) v := by
    rw [settlementRead]
    split
    next =>
      rintro u ha hu r u' ⟨o, -, -, hu'⟩
      rw [hu']
      exact ⟨trivial, hu, fun _ ha' _ => ha.trans ha'⟩
    next => exact fun _ ha _ => ha
  have hadvance : Safe ((following q).handling k ev) (fun _ v' => Follows q (k + 1) v')
      (applyStatusEvent.advance q.contract hash q.order row target) v := by
    rw [applyStatusEvent.advance]
    split
    next =>
      refine hread.bind (Along.refl q) ⟨hinv, hev⟩ fun onChain u₀ hu₀ ha₀ => ?_
      refine safe_update (fun u row' ha hu hevu hrow' hno => ?_)
        fun u u' row' ha hu hevu hrow' hmatch hlog hscene => ?_
      · have hstatus' : (scene q u).status = row'.status := scene_status hrow'
        apply safe_done (hpass (ha₀.trans ha) hu.mirrors hevu (hstatus' ▸ hno)) hevu
        exact hashAfterLostRace_every .ask .backfill _ _
      · have hstatus' : (scene q u).status = row'.status := scene_status hrow'
        have hface : (scene q u).toFace = faceOf row' := scene_toFace hrow'
        rw [faceOf_land, ← hface] at hscene
        have hsu := (ha₀.trans ha).inStep k (k + 1) h hlen hs
        have hc : Caught (scene q u') (k + 1) := by
          rw [hscene]
          refine hsu.landed hu.mirrors.legal hevu hv ?_ (hstatus' ▸ hmatch)
          rw [← hst]
          exact congrArg Phase.status ((ha₀.trans ha).phaseAt_eq hlen)
        exact ⟨hc.rewind, safe_done hc (hlog ▸ hevu) trivial⟩
    next hno =>
      exact safe_done (hpass (.refl q v) hinv.mirrors hev (hstatus ▸ by simpa using hno)) hev trivial
  unfold applyStatusEvent
  split
  next outcome hash' _ =>
    split
    next hback =>
      have hno : (statusBefore target).contains (scene q v).status = false := by
        rw [hstatus, hback.1]
        cases target <;> rfl
      exact safe_done (hpass (.refl q v) hinv.mirrors hev hno) hev
        (every_update (.backfill outcome hash') fun _ => trivial)
    next => exact hadvance
  next => exact hadvance

theorem enterDispute_follows {w : RowWrite} {raiser : Option Address}
    (hmiss : ∀ u row, Along q v u → Follows q k u → u.log[k]? = some ev →
      u.shared.db.orders.lookup q.order = some row → w.matchesRow row = false →
      Caught (scene q u) (k + 1))
    (hhit : ∀ u row, Along q v u → Follows q k u → u.log[k]? = some ev →
      u.shared.db.orders.lookup q.order = some row → w.matchesRow row = true →
      Caught { scene q u with toFace := (scene q u).land .disputed } (k + 1))
    (hface : ∀ now row, faceOf (w.data now row) = (faceOf row).land .disputed) :
    Safe ((following q).handling k ev) (fun _ v' => Follows q (k + 1) v')
      (enterDispute q.order w raiser) v := by
  have hrest : Every (Neutral q) (reconcileDisputeMetadata q.order raiser >>= fun _ =>
      (.pure 1 : Service ℕ)) := by
    have hall : Every (Neutral q) (enterDispute q.order (.reconcileDisputeMetadata ⟨0⟩ .lp) raiser) :=
      enterDispute_every .ask (.reconcile _ _) .reconcile raiser
    exact hall.2 (some 1)
  refine safe_update (fun u row ha hu hev hrow hno => ?_)
    fun u u' row ha hu hev hrow hmatch hlog hscene => ?_
  · exact safe_done (hmiss u row ha hu hev hrow hno) hev trivial
  · have hrowface : (scene q u).toFace = faceOf row := scene_toFace hrow
    rw [hface, ← hrowface] at hscene
    have hc : Caught (scene q u') (k + 1) := by
      rw [hscene]
      exact hhit u row ha hu hev hrow hmatch
    exact ⟨hc.rewind, safe_done hc (hlog ▸ hev) hrest⟩

theorem settled_iff {s : OrderStatus} :
    s = .released ∨ s = .refunded ↔ ∃ st d, s = statusMap st ∧ outcomeOf st = some d := by
  constructor
  · rintro (rfl | rfl)
    · exact ⟨.released, .release, rfl, rfl⟩
    · exact ⟨.refunded, .refund, rfl, rfl⟩
  · rintro ⟨st, d, rfl, hd⟩
    rw [outcomeOf_eq hd]
    cases d with
    | release => exact .inl rfl
    | refund => exact .inr rfl

theorem InStep.raise_of_open (hs : InStep x k b h)
    (hno : ¬(x.status = .released ∨ x.status = .refunded)) (b' : ℕ) : InStep x k b' h :=
  { hs with settled := fun st d hst hd => absurd (settled_iff.mpr ⟨st, d, hst, hd⟩) hno }

theorem settled_after_dispute (hl : Legal x.log) {j : ℕ} (hi : i ≤ j)
    (hst : (phaseAt x.log i).status = some .disputed) (hst' : (phaseAt x.log j).status = some st)
    (hne : st ≠ .disputed) : ∃ d, outcomeOf st = some d := by
  have hrank := hl.rank_le hi
  have hr := (rank_of_status hst).2.2.1 rfl
  have hr' := rank_of_status hst'
  cases st with
  | funded =>
    have := hr'.1 rfl
    omega
  | fiatPaid =>
    have := hr'.2.1 rfl
    omega
  | disputed => exact absurd rfl hne
  | released => exact ⟨.release, rfl⟩
  | refunded => exact ⟨.refund, rfl⟩

theorem applyDisputedEvent_follows (hinv : Follows q k v) (hev : v.log[k]? = some ev)
    (hrow : v.shared.db.orders.lookup q.order = some row)
    (hplace : row.toPlacement = q.placement) (hv : isVerdict ev = false)
    (hst : (phaseAt v.log (k + 1)).status = some .disputed) (raiser : Option Address) :
    Safe ((following q).handling k ev) (fun _ v' => Follows q (k + 1) v')
      (applyDisputedEvent q.contract raiser q.order row) v := by
  have hlen : k + 1 ≤ v.log.length := (List.getElem?_eq_some_iff.mp hev).1
  have hstatus : (scene q v).status = row.status := scene_status hrow
  obtain ⟨h, hs⟩ := hinv.caught
  have hstu {u : View} (ha : Along q v u) :
      (phaseAt u.log (k + 1)).status = some .disputed := by rw [ha.phaseAt_eq hlen, hst]
  rw [applyDisputedEvent, show row.tradeId = q.placement.tradeId by rw [hplace]]
  split
  next hsettled =>
    obtain ⟨st, d, hrowst, hd⟩ := settled_iff.mp (hstatus ▸ hsettled)
    apply Regime.safe_strict following_mirrors rfl
    intro u t ha hu hevu ht
    have hu : Follows q k u := hu
    have hau : Along q v u := ha
    have hnow := now_status hu.mirrors ht
    obtain ⟨m, hsu⟩ := hu.caught
    have hku : k + 1 ≤ u.log.length := (List.getElem?_eq_some_iff.mp hevu).1
    have hrowu := hau.settled st d hrowst hd
    dsimp only
    split
    next hopen =>
      -- The row stays settled until it is written, and the chain was in dispute.
      have hseen : t.status = .disputed := Option.some.inj hopen
      have hrowd {u' : View} {row' : Order} (ha' : Along q u u')
          (hrow' : u'.shared.db.orders.lookup q.order = some row') :
          row'.status = .released ∨ row'.status = .refunded := by
        have hst' := ha'.settled st d hrowu hd
        rw [scene_of_row hrow'] at hst'
        exact settled_iff.mpr ⟨st, d, hst', hd⟩
      refine enterDispute_follows (fun u' row' ha' hu' hevu' hrow' hno => ?_)
        (fun u' row' ha' hu' hevu' hrow' _ => ?_) fun now row => faceOf_reopen now _ row
      · have hmatch : (RowWrite.reopen (disputeStampFor row)).matchesRow row' = true := by
          simpa [RowWrite.matchesRow] using hrowd ha' hrow'
        cases hmatch.symm.trans hno
      · refine (ha'.inStep k k m hu.behind hsu).reopened hu'.mirrors.legal hevu' hv
          (hstu (hau.trans ha')) (max_le hsu.there hku) ha'.length_le ?_
        rw [← hseen, ← hnow]
        exact congrArg Phase.status (ha'.phaseAt_eq le_rfl)
    next hother =>
      have hne : t.status ≠ .disputed := fun h => hother (congrArg some h)
      obtain ⟨d', hd'⟩ := settled_after_dispute hu.mirrors.legal hku (hstu hau) hnow hne
      have hs' := hsu.raise_of_settled hu.mirrors.legal hku le_rfl hnow hd'
      refine safe_done (hs'.passed hu.mirrors.legal hevu hv (hstu hau) ?_) hevu trivial
      rw [hrowu, outcomeOf_eq hd]
      cases d <;> rfl
  next hopen =>
    have hs' := hs.raise_of_open (hstatus ▸ hopen) (k + 1)
    refine enterDispute_follows (fun u row' ha hu hevu hrow' hno => ?_)
      (fun u row' ha hu hevu hrow' hmatch => ?_) fun now row => faceOf_dispute now _ row
    · have hstatus' : (scene q u).status = row'.status := scene_status hrow'
      exact (ha.inStep k (k + 1) h hlen hs').passed hu.mirrors.legal hevu hv (hstu ha)
        (hstatus' ▸ hno)
    · have hstatus' : (scene q u).status = row'.status := scene_status hrow'
      exact (ha.inStep k (k + 1) h hlen hs').landed hu.mirrors.legal hevu hv (hstu ha)
        (hstatus' ▸ hmatch)

theorem rank_of_verdict (hn : φ.next ev = some φ') (hv : isVerdict ev = true) : φ'.rank = 5 := by
  unfold Phase.next at hn
  split at hn <;> cases hn <;> first | rfl | cases hv

theorem InStep.awaits (hs : InStep x k b k) (hl : Legal x.log) (hev : x.log[k]? = some ev)
    (hrank : (phaseAt x.log k).rank < 5)
    (hst : (phaseAt x.log (k + 1)).status = some (settledAs d)) :
    x.resolution = none ∧ ((statusBefore (settledAs d)).contains x.status = true ∨
      x.status = statusMap (settledAs d)) := by
  have hlen : k + 1 ≤ x.log.length := (List.getElem?_eq_some_iff.mp hev).1
  constructor
  · by_contra hres
    obtain ⟨i, ev', hi, hev', hv⟩ := hs.judged (Option.isSome_iff_ne_none.mpr hres)
    have hle := hl.rank_le (show i + 1 ≤ k from hi)
    rw [rank_of_verdict (hl i ev' hev') hv] at hle
    omega
  · obtain hu | ⟨st', hst'⟩ := unbound_or_mapped x.status
    · exact .inl (before_of_unbound hu _)
    · cases ho : outcomeOf st' with
      | none =>
        left
        rw [hst']
        cases d <;> cases st' <;> first | rfl | cases ho
      | some d' =>
        right
        obtain ⟨-, j, -, hj, hstatus⟩ := hs.settled st' d' hst' ho
        have hnow := now_direction hl hlen hst (outcomeOf_settledAs d)
        have hsame := (now_direction hl hj hstatus ho).symm.trans hnow
        obtain rfl := Option.some.inj hsame
        rw [hst', outcomeOf_eq ho]

theorem applyVerdict_follows {verdict : Verdict} {order : Order}
    (hold : ∀ u, Along q v u → Follows q k u → u.log[k]? = some ev →
      (scene q u).claimed k = true → Caught (scene q u) (k + 1))
    (hmatch : ∀ u row, Along q v u → Follows q k u → u.log[k]? = some ev →
      (scene q u).claimed k = false → u.shared.db.orders.lookup q.order = some row →
      verdict.matchesRow row = true)
    (hnew : ∀ u, Along q v u → Follows q k u → u.log[k]? = some ev →
      (scene q u).claimed k = false →
      Caught { (scene q u).claim k with
        toFace := (scene q u).judge verdict.target verdict.outcome } (k + 1)) :
    Safe ((following q).handling k ev) (fun _ v' => Follows q (k + 1) v')
      (applyVerdict (q.eventId k) q.order order verdict) v := by
  rintro u ha ⟨hu, hevu⟩ r u' ⟨o, -, rfl, rfl⟩
  have hu : Follows q k u := hu
  obtain ⟨row, hrow, -⟩ := hu.mirrors.row
  have hrest : Every (Neutral q) (accrueDisputeLossIfApplicable q.order order verdict.outcome >>=
      fun _ => (.pure 1 : Service ℕ)) :=
    (accrueDisputeLoss_every .providerLoss (.disputeLost _) _).bind fun _ => trivial
  have hm : Mirrors q { u with
      shared := after 0 (.verdict (q.eventId k) q.order verdict) o u.shared } :=
    hu.mirrors.after rfl
  cases hf : o.fails with
  | true =>
    have hsame : after 0 (.verdict (q.eventId k) q.order verdict) o u.shared = u.shared := by
      simp [after, hf]
    have hnone : reply 0 (.verdict (q.eventId k) q.order verdict) o u.shared = none := by
      simp [reply, hf]
    rw [hsame, hnone]
    exact ⟨trivial, ⟨hu, hevu⟩, trivial⟩
  | false =>
    obtain ⟨hclaimed, hsame, hreply⟩ | ⟨hno, hmiss, -⟩ | ⟨hno, -, hscene, hreply⟩ :=
      scene_verdict hrow k verdict hf
    · rw [hsame, hreply]
      exact ⟨trivial, ⟨hu, hevu⟩, safe_done (hold u ha hu hevu hclaimed) hevu trivial⟩
    · cases (hmatch u row ha hu hevu hno hrow).symm.trans hmiss
    · have hc := hnew u ha hu hevu hno
      rw [← hscene] at hc
      rw [hreply]
      exact ⟨trivial, ⟨⟨hm, hc.rewind⟩, hevu⟩, safe_done hc hevu hrest⟩

theorem InStep.replayed (hs : InStep x k (k + 1) h) (hclaimed : x.claimed k = true) :
    Caught x (k + 1) := ⟨h, { hs with le := hs.before k hclaimed }⟩

theorem preSettle_follows (hinv : Follows q k v) {released : Bool} {id : TradeId}
    (hev : v.log[k]? = some (.resolved id released false)) (order : Order)
    (onChain : Option TradeOnChain) (hash : Option TxHash) :
    Safe ((following q).handling k (.resolved id released false))
      (fun _ v' => Follows q (k + 1) v')
      (applyVerdict (q.eventId k) q.order order
        (.preSettle (resolutionOf released) onChain hash)) v := by
  have hlen : k + 1 ≤ v.log.length := (List.getElem?_eq_some_iff.mp hev).1
  -- The phases around the event.
  have haround (u : View) (hu : Follows q k u)
      (hevu : u.log[k]? = some (.resolved id released false)) :
      (phaseAt u.log k).rank < 5 ∧
        (phaseAt u.log (k + 1)).status = some (settledAs (resolutionOf released)) := by
    have hn := hu.mirrors.legal k _ hevu
    generalize phaseAt u.log k = φ at hn
    generalize phaseAt u.log (k + 1) = φ' at hn
    cases φ <;> cases released <;> cases hn <;> simp [Phase.rank, Phase.status, settledAs, resolutionOf]
  refine applyVerdict_follows (fun u ha hu hevu hclaimed => ?_)
    (fun u row ha hu hevu hno hrow => ?_) fun u ha hu hevu hno => ?_
  · obtain ⟨h, hs⟩ := hu.caught
    exact (hs.raise hu.mirrors.legal hevu (by simp)).replayed hclaimed
  · obtain ⟨h, hs⟩ := hu.caught
    obtain rfl := hs.mark_of_new hevu rfl hno
    obtain ⟨hrank, hst⟩ := haround u hu hevu
    obtain ⟨hres, hbefore⟩ := hs.awaits hu.mirrors.legal hevu hrank hst
    rw [scene_of_row hrow] at hres hbefore
    simp only [Verdict.matchesRow, Bool.and_eq_true, Bool.or_eq_true, decide_eq_true_eq]
    exact ⟨hbefore, hres⟩
  · obtain ⟨h, hs⟩ := hu.caught
    exact hs.judge hu.mirrors.legal hevu rfl hno (haround u hu hevu).2 (outcomeOf_settledAs _) _

theorem applyPostVerdict_follows (hplace : row.toPlacement = q.placement) {released : Bool}
    {id : TradeId} (outcome : ResolveOutcome) :
    Safe ((following q).handling k (.resolved id released true))
      (fun _ v' => Follows q (k + 1) v')
      (applyPostVerdict q.contract (q.eventId k) q.order row outcome) v := by
  rw [applyPostVerdict, show row.tradeId = q.placement.tradeId by rw [hplace]]
  apply Regime.safe_strict following_mirrors rfl
  intro u t _ hu hevu ht
  have hu : Follows q k u := hu
  have hnow := now_status hu.mirrors ht
  have hku : k + 1 ≤ u.log.length := (List.getElem?_eq_some_iff.mp hevu).1
  obtain ⟨d, r, hphase, hnext⟩ : ∃ d r, phaseAt u.log k = .reopened d r ∧
      phaseAt u.log (k + 1) = .settled d := by
    have hn := hu.mirrors.legal k _ hevu
    generalize phaseAt u.log k = φ at hn
    generalize phaseAt u.log (k + 1) = φ' at hn
    cases φ <;> cases released <;> cases hn <;> exact ⟨_, _, rfl, rfl⟩
  dsimp only
  split
  next hopen =>
    have hseen : t.status = .disputed := by
      by_contra hne
      obtain ⟨d', hd'⟩ := settled_after_dispute hu.mirrors.legal (Nat.le_of_succ_le hku)
        (by rw [show phaseAt (scene q u).log k = .reopened d r from hphase]; rfl) hnow hne
      cases hopen.symm.trans hd'
    rintro u' ha ⟨hu', hevu'⟩ reply' u'' ⟨o, -, rfl, rfl⟩
    have hu' : Follows q k u' := hu'
    have ha : Along q u u' := ha
    obtain ⟨h, hs⟩ := hu'.caught
    have hs := hs.raise hu'.mirrors.legal hevu' (by simp)
    have hm : Mirrors q { u' with shared := after 0 (.claimEvent (q.eventId k)) o u'.shared } :=
      hu'.mirrors.after trivial
    cases hf : o.fails with
    | true =>
      have hsame : after 0 (.claimEvent (q.eventId k)) o u'.shared = u'.shared := by
        simp [after, hf]
      have hnone : reply 0 (.claimEvent (q.eventId k)) o u'.shared = none := by simp [reply, hf]
      rw [hsame, hnone]
      exact ⟨trivial, ⟨hu', hevu'⟩, trivial⟩
    | false =>
      obtain ⟨hclaimed, hsame, hreply⟩ | ⟨hno, hscene, hreply⟩ := scene_claim k hf
      · rw [hsame, hreply]
        exact ⟨trivial, ⟨hu', hevu'⟩, safe_done (hs.replayed hclaimed) hevu' trivial⟩
      · have hphase' : phaseAt u'.log k = .reopened d r :=
          (ha.phaseAt_eq (Nat.le_of_succ_le hku)).trans hphase
        have hc : Caught ((scene q u').claim k) (k + 1) := by
          apply hs.recorded hu'.mirrors.legal hevu' hphase' hku ha.length_le
          rw [← hseen, ← hnow]
          exact congrArg Phase.status (ha.phaseAt_eq le_rfl)
        rw [← hscene] at hc
        rw [hreply]
        exact ⟨trivial, ⟨⟨hm, hc.rewind⟩, hevu'⟩, safe_done hc hevu' trivial⟩
  next final hfinal =>
    have hdir : final = d := by
      have hnowdir := direction_of_status hnow hfinal
      have hd : (phaseAt u.log (k + 1)).direction = some d := by rw [hnext]; rfl
      exact Option.some.inj (hnowdir.symm.trans (hu.mirrors.legal.direction_eq hku hd))
    subst hdir
    refine applyVerdict_follows (fun u' ha hu' hevu' hclaimed => ?_)
      (fun _ _ _ _ _ _ _ => rfl) fun u' ha hu' hevu' hno => ?_
    · obtain ⟨h, hs⟩ := hu'.caught
      exact (hs.raise hu'.mirrors.legal hevu' (by simp)).replayed hclaimed
    · obtain ⟨h, hs⟩ := hu'.caught
      refine hs.judge hu'.mirrors.legal hevu' rfl hno ?_ hfinal outcome
      have hsame : phaseAt u'.log (k + 1) = .settled final := (ha.phaseAt_eq hku).trans hnext
      rw [show phaseAt (scene q u').log (k + 1) = .settled final from hsame, settled_status,
        ← outcomeOf_eq hfinal]

/-- The indexer's table of statuses is right about the chain. -/
theorem status_of_next (hn : φ.next ev = some φ') (ht : eventStatus (bodyOf ev) = some target) :
    φ'.status = some target := by
  unfold Phase.next at hn
  split at hn <;> cases hn <;> cases ht <;> rfl

theorem handleEvent_follows (hinv : Follows q k v) (hev : v.log[k]? = some ev)
    (hrow : v.shared.db.orders.lookup q.order = some row)
    (hplace : row.toPlacement = q.placement) (hash : Option TxHash) :
    Safe ((following q).handling k ev) (fun _ v' => Follows q (k + 1) v')
      (handleEvent q.contract (q.rpcEvent k ev hash) q.order row) v := by
  have hn := hinv.mirrors.legal k ev hev
  have hland {target : Status} (hne : ∀ id r, ev ≠ .disputed id r) (hv : isVerdict ev = false)
      (ht : eventStatus (bodyOf ev) = some target) :
      Safe ((following q).handling k ev) (fun _ v' => Follows q (k + 1) v')
        (applyStatusEvent q.contract hash q.order row target) v :=
    applyStatusEvent_follows hinv hev hrow hv hne (status_of_next hn ht) hash
  cases ev with
  | tradeCreated | fiatPaid | released | earlyReleased | refunded =>
    exact hland (by simp) rfl rfl
  | disputed id raiser =>
    exact applyDisputedEvent_follows hinv hev hrow hplace rfl (status_of_next hn rfl) _
  | resolved id released postSettle =>
    cases postSettle with
    | false =>
      apply safe_ask
      intro u onChain _ hu hevu
      exact preSettle_follows hu hevu row onChain hash
    | true => exact applyPostVerdict_follows hplace _
  | configChanged | pausedSet =>
    generalize phaseAt v.log k = φ at hn
    cases φ <;> cases hn

theorem following_handles (q : Docket) : (following q).Handles := by
  refine Regime.handles following_mirrors (fun k v ev hinv hev hbody => ?_)
    fun k v ev hash row hinv hev hrow hplace => handleEvent_follows hinv hev hrow hplace hash
  have hn := (following_mirrors k v hinv).legal k ev hev
  generalize phaseAt v.log k = φ at hn
  cases ev with
  | configChanged | pausedSet => cases φ <;> cases hn
  | _ => cases hbody

theorem Follows.of_starts {w : Follower} (hw : Starts q w) : Follows q 0 w.toView := by
  obtain ⟨row, hrow, -, hunbound, hsettled, hres⟩ := hw.row
  have hscene := scene_of_row (v := w.toView) hrow
  refine ⟨.of_starts hw, 0, ?_⟩
  rw [hscene]
  refine ⟨le_rfl, Nat.zero_le _, fun i hi => ?_, fun i _ hi => absurd hi (Nat.not_lt_zero i),
    fun _ => rfl, fun st hst _ => ?_, fun st d hst _ => ?_, fun s hset => ?_, fun d hd => ?_,
    fun hr => ?_⟩
  · simp [hw.unclaimed i] at hi
  · have hu : notYetBoundOnChain (statusMap st) = true := hst ▸ hunbound
    cases (bound_statusMap st).symm.trans hu
  · have hu : notYetBoundOnChain (statusMap st) = true := hst ▸ hunbound
    cases (bound_statusMap st).symm.trans hu
  · cases hsettled.symm.trans hset
  · cases hd
  · simp [faceOf, hres] at hr

variable {w₀ w : Follower} {tr : List (Entry Follower Turn Unit)}

/-- Once all events are processed, the row shows the chain: its status, and the
direction in which the trade has settled, if it has. -/
theorem indexer_converges (hstart : Starts q w₀) (hr : Run (replica q (Current q)) w₀ tr w)
    (hdone : w.cursor = w.log.length) (ht : q.tradeIn w.shared.chain = some t)
    (hrow : w.shared.db.orders.lookup q.order = some row) :
    row.status = statusMap t.status ∧
      row.settledStatus = (settlement t).map fun d => statusMap (settledAs d) := by
  have hsound : (following q).Sound w :=
    Regime.run (following_handles q) hr
      (fun _ _ => Regime.met_of_meets (fun _ _ _ _ => trivial) _ _)
      (.of_starts hstart (Follows.of_starts hstart))
  have hf : Follows q w.cursor w.toView := hsound.inv
  obtain ⟨h, hs⟩ := hf.caught
  have hnow := now_status hf.mirrors ht
  have hdir : settlement t = (scene q w.toView).now.direction := by
    have hag := hf.mirrors.current
    rw [ht] at hag
    exact Describes.settlement hag
  have hend : h = w.log.length := le_antisymm hs.there (hdone ▸ hs.le)
  have hlast {i : ℕ} {st : Status} (hi : w.log.length ≤ i) (hi' : i ≤ w.log.length)
      (hst : (phaseAt w.log i).status = some st) : st = t.status := by
    obtain rfl := le_antisymm hi' hi
    exact Option.some.inj (hst.symm.trans hnow)
  have hface : (scene q w.toView).toFace = faceOf row := scene_toFace hrow
  constructor
  · have hstatus : row.status = (scene q w.toView).status := by rw [hface]; rfl
    rw [hstatus]
    obtain hu | ⟨st, hst⟩ := unbound_or_mapped (scene q w.toView).status
    · have hzero : w.log.length = 0 := hend.symm.trans (hs.unbound hu)
      have habsent : (phaseAt w.log w.log.length).status = some t.status := hnow
      rw [hzero] at habsent
      cases habsent
    · rw [hst]
      cases ho : outcomeOf st with
      | none =>
        obtain ⟨i, hi, hi', hstatus⟩ := hs.live st hst ho
        rw [hlast (hend ▸ hi) hi' hstatus]
      | some d =>
        obtain ⟨-, i, hi, hi', hstatus⟩ := hs.settled st d hst ho
        rw [hlast (hdone ▸ hi) hi' hstatus]
  · have hsettled : row.settledStatus = (scene q w.toView).settledStatus := by rw [hface]; rfl
    rw [hsettled, hdir]
    cases hd : (scene q w.toView).now.direction with
    | some d => exact hs.directed d (hend ▸ hd)
    | none =>
      cases hset : (scene q w.toView).settledStatus with
      | none => rfl
      | some s =>
        obtain ⟨d, hd', -⟩ := hs.known s hset
        cases hd.symm.trans hd'

/-- A refresh gets ahead of the indexer, which then starts over once. -/
def sampleTurns : List Turn :=
  [.chain (.call (sampleEnv 1000 [⟨6⟩]) (.createTrade 1 sampleArgs)),
    .chain (.call (sampleEnv 1500 [⟨7⟩]) (.markFiatPaid 1 ⟨7⟩)),
    .refresh samplePlacement.opened { onChain := some (decodeTradeStatus samplePaid) },
    .take none, .go {}, .advance, .crash 0, .take none, .go {}, .advance,
    .take none, .go {}, .advance]

theorem sampleTurns_admitted : Admitted sampleReplica sampleFollower sampleTurns := by
  refine ⟨sample_call ?_ ?_, sample_call ?_ ?_, ⟨rfl, .inr rfl⟩, ⟨rfl, ?_⟩, trivial, trivial,
    Nat.zero_le _, ⟨rfl, ?_⟩, trivial, trivial, ⟨rfl, ?_⟩, trivial, trivial, trivial⟩
  all_goals decide

def sampleEnd : Follower := final sampleReplica sampleFollower sampleTurns

theorem sample_converges :
    ∃ row, sampleEnd.shared.db.orders.lookup 0 = some row ∧ row.status = .fiatPaid ∧
      row.settledStatus = none := by
  obtain ⟨row, hrow⟩ : ∃ row, sampleEnd.shared.db.orders.lookup sampleDocket.order = some row :=
    Option.isSome_iff_exists.mp (by decide)
  have ht : sampleDocket.tradeIn sampleEnd.shared.chain = some samplePaid := by decide
  exact ⟨row, hrow, indexer_converges sampleFollower_starts
    (Run.of_actions _ _ sampleTurns_admitted) (by decide) ht hrow⟩

end Lolipay.Coordinator.Convergence
