import Lolipay.Coordinator.Accounts

namespace Lolipay.Coordinator.Sockets

open Lolipay.Ledger.Runs Lolipay.Async.Process Lolipay.Async.Scheduling
open Lolipay.Coordinator.Gateway Lolipay.Coordinator.Accounts

def system (y : Settings) : System Call Bool Move Effect Reply State where
  body := body y
  delivers := delivers
  permits _ e _ s := permits s e
  effect _ := effect
  dies _ s := s
  moves := moves
  moved := moved

/-- All handlers run in one process, so none of them is stopped on its own. -/
def Lasting : Act Call Bool Move → Prop
  | .kill _ => False
  | _ => True

instance : (a : Act Call Bool Move) → Decidable (Lasting a)
  | .kill _ => .isFalse id
  | .spawn _ _ | .go _ _ | .outside _ => .isTrue trivial

def gateway (y : Settings) : Machine (Pool Effect Reply State) (Act Call Bool Move) (Option (Pid × Effect)) :=
  { machine (system y) with admits := fun w a => (machine (system y)).admits w a ∧ Lasting a }

def Ended : Handler Unit → Prop
  | .step _ _ => False
  | _ => True

def Still (w : Pool Effect Reply State) : Prop := ∀ pid p, w.running pid = some p → Ended p

def Heeded (w : Pool Effect Reply State) (a : Act Call Bool Move) : Prop :=
  Heeds (fun _ e _ s => Careful s e) Fair w a

instance (w : Pool Effect Reply State) (a : Act Call Bool Move) : Decidable (Heeded w a) :=
  inferInstanceAs (Decidable (Heeds (fun _ e _ s => Careful s e) Fair w a))

instance (y : Settings) (w : Pool Effect Reply State) (a : Act Call Bool Move) :
    Decidable ((gateway y).admits w a) :=
  let _ : Decidable (admits (system y) w a) :=
    let _ : ∀ s c, Decidable ((system y).delivers s c) := fun s c => inferInstanceAs (Decidable (delivers s c))
    let _ : ∀ pid e o s, Decidable ((system y).permits pid e o s) :=
      fun _ e _ s => inferInstanceAs (Decidable (permits s e))
    let _ : ∀ s m, Decidable ((system y).moves s m) := fun s m => inferInstanceAs (Decidable (moves s m))
    inferInstance
  inferInstanceAs (Decidable (admits (system y) w a ∧ Lasting a))

variable {y : Settings} {s : State} {v : View} {sid t : SocketId} {address : String}
  {pending : SocketId → Option Pid} {pid : Pid} {data : SocketData}

def Opening (sid : SocketId) (address : String) : Handler Unit → Prop
  | .step (.findLink _) k => ∀ r, Opening sid address (k r)
  | .step (.findLp _) k => ∀ r, Opening sid address (k r)
  | .step (.resolved _ _) k => ∀ r, Opening sid address (k r)
  | .step (.refuse t a) k => t = sid ∧ a = address ∧ ∀ r, Every Plain (k r)
  | .step (.attach t data _) k => t = sid ∧ data.address = address ∧ ∀ r, Every Plain (k r)
  | _ => False

/-- What a handler may do that has nothing to wait for. -/
def Mild (v : View) (e : Effect) : Prop :=
  Plain e ∨ ∃ sid data, e = .setData sid data ∧ v.owner sid = some data.address ∧ v.data sid ≠ none

theorem Mild.persists {v v' : View} {e : Effect} (h : Mild v e) (hv : Persists v v') : Mild v' e := by
  obtain h | ⟨sid, data, rfl, howner, hdata⟩ := h
  · exact .inl h
  · exact .inr ⟨sid, data, rfl, (hv.owner sid (by simp [howner])).trans howner, hv.data sid hdata⟩

theorem not_opening_of_mild {p : Handler Unit} (h : Every (Mild v) p) : ¬ Opening sid address p := by
  induction p with
  | pure | fail => exact id
  | step e k ih =>
    intro hopen
    cases e with
    | findLink => exact ih none (h.2 none) (hopen none)
    | findLp => exact ih none (h.2 none) (hopen none)
    | resolved => exact ih () (h.2 ()) (hopen ())
    | refuse | attach =>
      obtain hplain | ⟨_, _, heq, -⟩ := h.1
      · exact hplain
      · cases heq
    | accept | join | leave | online | offline | heartbeat | beginJoin | setData | disconnect
    | emitError | findOrder => exact hopen

inductive Stage (y : Settings) (v : View) (pending : SocketId → Option Pid) (pid : Pid)
    (p : Handler Unit) : Prop
  | connecting (sid : SocketId) (token : Option Payload) (h : p = handleConnection y sid token)
  | opening (sid : SocketId) (address : String) (h : Opening sid address p)
      (howner : v.owner sid = some address) (hpending : pending sid = some pid)
  | messaging (sid : SocketId) (orderId : Option Orders.OrderId) (h : p = handleJoinOrder y sid orderId)
  | mild (h : Every (Mild v) p)

theorem Stage.persists {v v' : View} {pending' : SocketId → Option Pid} {p : Handler Unit}
    (h : Stage y v pending pid p) (hv : Persists v v')
    (hpending : ∀ sid, pending sid = some pid → pending' sid = some pid) :
    Stage y v' pending' pid p := by
  cases h with
  | connecting sid token h => exact .connecting sid token h
  | opening sid address h howner hp =>
    exact .opening sid address h ((hv.owner sid (by simp [howner])).trans howner) (hpending sid hp)
  | messaging sid orderId h => exact .messaging sid orderId h
  | mild h => exact .mild (h.mono fun _ he => he.persists hv)

/-- The accounts are in order, every handler is at its stage, and every
connection that waits for its role has a handler that waits with it. -/
structure Kept (y : Settings) (w : Pool Effect Reply State) (pending : SocketId → Option Pid) : Prop where
  tables : Tables (view w.shared) pending
  stages : ∀ pid p, w.running pid = some p → Stage y (view w.shared) pending pid p
  openers : ∀ sid pid, pending sid = some pid →
    ∃ p address, w.running pid = some p ∧ Opening sid address p

variable {w : Pool Effect Reply State}

theorem Kept.go {pending' : SocketId → Option Pid} {s' : State} {p' : Handler Unit}
    (h : Kept y w pending) (htables : Tables (view s') pending')
    (hpersists : Persists (view w.shared) (view s'))
    (hothers : ∀ sid q, q ≠ pid → (pending' sid = some q ↔ pending sid = some q))
    (hstage : Stage y (view s') pending' pid p')
    (hopens : ∀ sid, pending' sid = some pid → ∃ address, Opening sid address p') :
    Kept y ⟨s', setRunning w.running pid (some p')⟩ pending' where
  tables := htables
  stages q p hp := by
    simp only [setRunning] at hp
    split at hp
    next hq =>
      obtain rfl := Option.some.inj hp
      exact hq ▸ hstage
    next hq => exact (h.stages q p hp).persists hpersists fun sid hsid => (hothers sid q hq).mpr hsid
  openers sid q hq := by
    by_cases hpid : q = pid
    · subst hpid
      obtain ⟨address, hopen⟩ := hopens sid hq
      exact ⟨p', address, by simp [setRunning], hopen⟩
    · obtain ⟨p, address, hp, hopen⟩ := h.openers sid q ((hothers sid q hpid).mp hq)
      exact ⟨p, address, by simp [setRunning, hpid, hp], hopen⟩

theorem opening_resolveRole {cls : TokenClass} {a : String} {f : Except Refusal Role → Handler Unit}
    (hf : ∀ result, Opening sid address (f result)) :
    Opening sid address (resolveRole y t a cls >>= f) := by
  have hreturns (role : Role) : Opening sid address (returns t role >>= f) := fun _ => hf _
  intro link
  cases link with
  | none => exact hf _
  | some link =>
    change Opening sid address (Program.bind (if link ≠ some .active then _ else _) f)
    split
    next => exact hf _
    next =>
      split
      next => exact hreturns _
      next =>
        split
        next => exact hreturns _
        next =>
          intro status
          cases status with
          | none => exact hf _
          | some status =>
            change Opening sid address (Program.bind (if status = some .approved then _ else _) f)
            split <;> exact hreturns _

theorem opening_handleConnection {cls : TokenClass} {expiresAt : ℤ} :
    Opening sid address
      (resolveRole y sid address cls >>= finishConnection sid address cls expiresAt) := by
  apply opening_resolveRole
  intro result
  cases result with
  | error => exact ⟨rfl, rfl, fun _ => trivial⟩
  | ok role =>
    exact ⟨rfl, rfl, fun _ => every_onlyIf (every_enterRooms trivial trivial trivial trivial)⟩

theorem mild_handleJoinOrder {orderId : Option Orders.OrderId}
    (howner : v.owner sid = some data.address) (hdata : v.data sid ≠ none) :
    Every (Mild v) (resolveRole y sid data.address data.cls >>= finishJoinOrder sid data orderId) := by
  have hresolve : Every (Mild v) (resolveRole y sid data.address data.cls) :=
    every_resolveRole (fun _ => .inl trivial) (fun _ => .inl trivial) (fun _ => .inl trivial)
  apply hresolve.bind
  intro result
  rcases result with (_ | _) | role
  · exact every_one (.inl trivial)
  · exact every_one (.inl trivial)
  · refine (every_onlyIf (every_applyRoleChange (fun _ => .inl trivial) (.inl trivial) (.inl trivial)
      (.inl trivial) (.inl trivial) (.inr ⟨sid, _, rfl, howner, hdata⟩))).bind fun _ => ?_
    exact every_joinOrder (fun _ => .inl trivial) (fun _ => .inl trivial) (fun _ => .inl trivial)

theorem claimsOf_sub {token : Option Payload} {cls : TokenClass} {expiresAt : ℤ}
    (h : claimsOf token = some (address, cls, expiresAt)) : token.bind (·.sub) = some address := by
  simp only [claimsOf, Option.bind_eq_bind, Option.bind_eq_some_iff, Option.pure_def,
    Option.some.injEq, Prod.mk.injEq] at h
  obtain ⟨payload, rfl, sub, hsub, cls', -, -, -, exp, -, rfl, -⟩ := h
  exact hsub

/-- What a step of one handler makes of the pool. -/
def after (w : Pool Effect Reply State) (pid : Pid) (e : Effect) (k : Reply e → Handler Unit)
    (fails : Bool) : Pool Effect Reply State :=
  ⟨(effect e fails w.shared).1, setRunning w.running pid (some (k (effect e fails w.shared).2))⟩

variable {fails : Bool}

theorem Kept.not_pending {p : Handler Unit} (h : Kept y w pending) (hrun : w.running pid = some p)
    (hp : ∀ sid address, ¬ Opening sid address p) (sid : SocketId) : pending sid ≠ some pid := by
  intro hsid
  obtain ⟨p', address, hrun', hopen⟩ := h.openers sid pid hsid
  obtain rfl := Option.some.inj (hrun.symm.trans hrun')
  exact hp sid address hopen

theorem Kept.connects {token : Option Payload} {k : Reply (.accept sid token) → Handler Unit}
    (h : Kept y w pending) (hrun : w.running pid = some (.step (.accept sid token) k))
    (hk : Program.step (.accept sid token) k = handleConnection y sid token)
    (hfresh : w.shared.sockets sid = none) :
    ∃ pending', Kept y (after w pid (.accept sid token) k fails) pending' := by
  have hpersists : Persists (view w.shared) (view (effect (.accept sid token) fails w.shared).1) :=
    persists_effect hfresh
  have hnone := h.not_pending hrun fun _ _ => id
  obtain ⟨-, hk⟩ := Program.step.inj hk
  obtain rfl := eq_of_heq hk
  obtain ⟨attempts, hacc | ⟨address, cls, expiresAt, hclaims, -, hacc⟩⟩ := accept_cases w.shared sid token
  · refine ⟨pending, h.go ?_ hpersists (fun _ _ _ => .rfl) ?_ fun t ht => absurd ht (hnone t)⟩
    · simp only [effect, hacc]
      exact h.tables.turnedAway hfresh token attempts
    · simp only [effect, hacc]
      exact .mild trivial
  · have howner := claimsOf_sub hclaims
    refine ⟨Function.update pending sid (some pid), h.go ?_ hpersists ?_ ?_ ?_⟩
    · simp only [effect, hacc]
      exact h.tables.reserved hfresh attempts howner pid
    · intro t q hq
      by_cases ht : t = sid
      · subst ht
        obtain ⟨-, hp⟩ := h.tables.fresh hfresh
        simp [hp, Ne.symm hq]
      · simp [ht]
    · simp only [effect, hacc]
      refine .opening sid address opening_handleConnection ?_ (by simp)
      simp [view, owner, reserve, entered, howner]
    · intro t ht
      by_cases hts : t = sid
      · subst hts
        simp only [effect, hacc]
        exact ⟨address, opening_handleConnection⟩
      · exact absurd (by simpa [hts] using ht) (hnone t)

theorem Kept.asks {e : Effect} {k : Reply e → Handler Unit} (h : Kept y w pending)
    (hrun : w.running pid = some (.step e k)) (hplain : Plain e) (hcareful : Careful w.shared e)
    (hpermits : permits w.shared e) (howner : owner w.shared sid = some address)
    (hpending : pending sid = some pid) (hopen : ∀ r, Opening sid address (k r))
    (hrest : ∀ t a, Opening t a (.step e k) → ∀ r, Opening t a (k r)) :
    Kept y (after w pid e k fails) pending := by
  have hpersists : Persists (view w.shared) (view (effect e fails w.shared).1) := persists_effect hpermits
  refine h.go (h.tables.plain hplain hcareful) hpersists (fun _ _ _ => .rfl) ?_ fun t ht => ?_
  · have howner' := hpersists.owner sid (by simp [view, howner])
    exact .opening sid address (hopen _) (howner'.trans howner) hpending
  · obtain ⟨p, a, hrun', ht'⟩ := h.openers t pid ht
    obtain rfl := Option.some.inj (hrun.symm.trans hrun')
    exact ⟨a, hrest t a ht' _⟩

theorem Kept.settles {e : Effect} {k : Reply e → Handler Unit} (h : Kept y w pending)
    (hrun : w.running pid = some (.step e k)) (hpermits : permits w.shared e)
    (hpending : pending sid = some pid)
    (htables : Tables (view (effect e fails w.shared).1) (Function.update pending sid none))
    (hmild : ∀ r, Every Plain (k r)) (hsid : ∀ t a, Opening t a (.step e k) → t = sid) :
    Kept y (after w pid e k fails) (Function.update pending sid none) := by
  refine h.go htables (persists_effect hpermits) (fun t q hq => ?_) ?_ fun t ht => ?_
  · by_cases hts : t = sid
    · subst hts
      simp [hpending, Ne.symm hq]
    · simp [hts]
  · exact .mild ((hmild _).mono fun _ he => .inl he)
  · by_cases hts : t = sid
    · simp [hts] at ht
    · obtain ⟨p, a, hrun', ht'⟩ := h.openers t pid (by simpa [hts] using ht)
      obtain rfl := Option.some.inj (hrun.symm.trans hrun')
      exact absurd (hsid t a ht') hts

theorem Kept.opens {e : Effect} {k : Reply e → Handler Unit} (h : Kept y w pending)
    (hrun : w.running pid = some (.step e k)) (hcareful : Careful w.shared e)
    (hopen : Opening sid address (.step e k)) (howner : owner w.shared sid = some address)
    (hpending : pending sid = some pid) : ∃ pending', Kept y (after w pid e k fails) pending' := by
  have hp : pending sid ≠ none := by simp [hpending]
  cases e with
  | findLink | findLp | resolved =>
    exact ⟨pending, h.asks hrun trivial hcareful trivial howner hpending hopen fun _ _ => id⟩
  | refuse t a =>
    obtain ⟨rfl, rfl, hk⟩ := hopen
    refine ⟨_, h.settles hrun trivial hpending ?_ hk fun _ _ ht => ht.1.symm⟩
    exact h.tables.refuse hp howner hcareful
  | attach t data expiresAt =>
    obtain ⟨rfl, rfl, hk⟩ := hopen
    refine ⟨_, h.settles hrun trivial hpending ?_ hk fun _ _ ht => ht.1.symm⟩
    obtain ⟨hrem, heq⟩ | ⟨hrem, timers, heq⟩ := attach_cases w.shared t data expiresAt
    · simp only [Careful, if_neg (not_lt.mpr hrem)] at hcareful
      simp only [effect, heq]
      exact h.tables.expired howner hcareful
    · simp only [Careful, if_pos hrem] at hcareful
      have hview : view (timed (setData w.shared t data) timers) = (view w.shared).setData t data :=
        view_setData data (by simp [howner])
      simp only [effect, heq, view_join, hview]
      exact h.tables.settle howner hcareful
  | accept | join | leave | online | offline | heartbeat | beginJoin | setData | disconnect
  | emitError | findOrder => exact hopen.elim

theorem Kept.messages {orderId : Option Orders.OrderId} {k : Reply (.beginJoin sid) → Handler Unit}
    (h : Kept y w pending) (hrun : w.running pid = some (.step (.beginJoin sid) k))
    (hk : Program.step (.beginJoin sid) k = handleJoinOrder y sid orderId) :
    Kept y (after w pid (.beginJoin sid) k fails) pending := by
  have hpersists : Persists (view w.shared) (view (effect (.beginJoin sid) fails w.shared).1) :=
    persists_effect trivial
  have hnone := h.not_pending hrun fun _ _ => id
  obtain ⟨-, hk⟩ := Program.step.inj hk
  obtain rfl := eq_of_heq hk
  have hview : view (effect (.beginJoin sid) fails w.shared).1 = view w.shared := by
    simp only [effect, beginJoin]
    split
    next => rfl
    next => split <;> rfl
  refine h.go (hview ▸ h.tables) hpersists (fun _ _ _ => .rfl) ?_ fun t ht => absurd ht (hnone t)
  rw [hview]
  apply Stage.mild
  cases hdata : w.shared.data sid with
  | none =>
    simp only [effect, beginJoin, hdata]
    trivial
  | some data =>
    obtain ⟨howner, -⟩ := h.tables.data sid data hdata
    cases hrate : (checkJoinRate w.shared sid).1 with
    | false =>
      simp only [effect, beginJoin, hdata, hrate]
      trivial
    | true =>
      simp only [effect, beginJoin, hdata, hrate]
      exact mild_handleJoinOrder howner (by simp [view, hdata])

theorem Kept.mild {e : Effect} {k : Reply e → Handler Unit} (h : Kept y w pending)
    (hrun : w.running pid = some (.step e k)) (hcareful : Careful w.shared e)
    (hpermits : permits w.shared e) (hmild : Every (Mild (view w.shared)) (.step e k)) :
    Kept y (after w pid e k fails) pending := by
  have hpersists : Persists (view w.shared) (view (effect e fails w.shared).1) := persists_effect hpermits
  have hnone := h.not_pending hrun fun _ _ => not_opening_of_mild hmild
  refine h.go ?_ hpersists (fun _ _ _ => .rfl) ?_ fun t ht => absurd ht (hnone t)
  · obtain hplain | ⟨sid, data, rfl, howner, hdata⟩ := hmild.1
    · exact h.tables.plain hplain hcareful
    · have hp : pending sid = none := by
        obtain ⟨d, hd⟩ := Option.ne_none_iff_exists'.mp hdata
        exact (h.tables.data sid d hd).2
      have howner' : owner w.shared sid ≠ none := by
        have hsome : owner w.shared sid = some data.address := howner
        simp [hsome]
      simp only [effect, view_setData data howner']
      exact h.tables.setData howner hp
  · exact .mild ((hmild.2 _).mono fun _ he => he.persists hpersists)

theorem Kept.step {a : Act Call Bool Move} (h : Kept y w pending) (ha : (gateway y).admits w a)
    (hheeded : Heeded w a) : ∃ pending', Kept y ((gateway y).next w a) pending' := by
  cases a with
  | kill pid => exact ha.2.elim
  | outside m =>
    refine ⟨pending, h.tables.moved hheeded, fun pid p hp => ?_, h.openers⟩
    exact (h.stages pid p hp).persists persists_moved fun _ => id
  | spawn pid call =>
    obtain ⟨⟨hfree, -⟩, -⟩ := ha
    refine ⟨pending, h.tables, fun q p hp => ?_, fun sid q hq => ?_⟩
    · simp only [gateway, machine, next, setRunning] at hp
      split at hp
      next =>
        obtain rfl := Option.some.inj hp
        cases call with
        | connect sid token => exact .connecting sid token rfl
        | joinOrder sid orderId => exact .messaging sid orderId rfl
      next => exact h.stages q p hp
    · obtain ⟨p, address, hp, hopen⟩ := h.openers sid q hq
      have hne : q ≠ pid := by
        rintro rfl
        exact absurd (hfree.symm.trans hp) (by simp)
      exact ⟨p, address, by simpa [gateway, machine, next, setRunning, hne] using hp, hopen⟩
  | go pid fails =>
    obtain ⟨e, k, hrun, hpermits, -, -⟩ := go_cases ha.1
    have hnext : (gateway y).next w (.go pid fails) = after w pid e k fails := by
      simp only [gateway, machine, next, hrun]
      rfl
    have hcareful : Careful w.shared e := by
      simpa only [Heeded, Heeds, hrun] using hheeded
    rw [hnext]
    cases h.stages pid _ hrun with
    | connecting sid token hk =>
      obtain ⟨rfl, -⟩ := Program.step.inj hk
      exact h.connects hrun hk hpermits
    | opening sid address hopen howner hpending =>
      exact h.opens hrun hcareful hopen howner hpending
    | messaging sid orderId hk =>
      obtain ⟨rfl, -⟩ := Program.step.inj hk
      exact ⟨pending, h.messages hrun hk⟩
    | mild hmild => exact ⟨pending, h.mild hrun hcareful hpermits hmild⟩

theorem bounded_step {a : Act Call Bool Move} (h : Bounded w.shared) (ha : (gateway y).admits w a) :
    Bounded ((gateway y).next w a).shared := by
  generalize hout : (machine (system y)).out w a = out
  have hstep := step_of_next ha.1
  rw [hout] at hstep
  change Bounded ((machine (system y)).next w a).shared
  generalize ((machine (system y)).next w a).shared = s' at hstep
  cases hstep with
  | same => exact h
  | effect pid e o _ => exact h.effect
  | dies pid => exact h
  | moved m _ => exact h.moved

section Runs

variable {links : String → Option Wallets.WalletLinkStatus} {lps : String → Option Lp}
  {orders : Orders.OrderId → Option OrderRow} {now : ℕ}
  {tr : List (Entry (Pool Effect Reply State) (Act Call Bool Move) (Option (Pid × Effect)))}

theorem kept_started : Kept y (idle (started links lps orders now)) fun _ => none where
  tables :=
    { slots := fun a sid => by simp [view, idle, started, State.socketSet, owner]
      online := fun a ha => by simp [view, idle, started] at ha
      data := fun sid data h => by simp [view, idle, started, State.data] at h
      waiting := fun sid h => by simp [view, idle, started, State.connected] at h
      known := fun sid h => absurd rfl h }
  stages _ _ hp := by cases hp
  openers _ _ h := by cases h

/-- No address ever holds more slots than the limit. In a run whose steps all
meet the condition, whenever no handler is running the slots of an address are
its sockets that are still connected, and an address counts as present only
with one of them. -/
theorem slots_and_presence (hr : Run (gateway y) (idle (started links lps orders now)) tr w) :
    (∀ a, (w.shared.socketSet a).card ≤ maxSocketsPerAddress) ∧
    ((∀ e ∈ tr, Heeded e.pre e.act) → Still w →
      (∀ a sid, sid ∈ w.shared.socketSet a ↔
        owner w.shared sid = some a ∧ w.shared.connected sid = true) ∧
      ∀ a ∈ w.shared.lpAddressesOnline,
        ∃ sid, owner w.shared sid = some a ∧ w.shared.connected sid = true) := by
  refine ⟨?_, fun hheeded hstill => ?_⟩
  · have hstart : Bounded (idle (E := Effect) (R := Reply) (started links lps orders now)).shared := by
      intro a
      simp [idle, started, State.socketSet]
    exact hr.invariant (I := fun w => Bounded w.shared) hstart fun _ _ h ha => bounded_step h ha
  · obtain ⟨pending, hkept⟩ : ∃ pending, Kept y w pending := by
      refine (hr.narrow hheeded).invariant (I := fun w => ∃ pending, Kept y w pending)
        ⟨_, kept_started⟩ ?_
      rintro u a ⟨pending, h⟩ ⟨ha, hok⟩
      exact h.step ha hok
    have hnone (sid : SocketId) : pending sid = none := by
      cases hp : pending sid with
      | none => rfl
      | some pid =>
        obtain ⟨p, address, hrun, hopen⟩ := hkept.openers sid pid hp
        have hended := hstill pid p hrun
        cases p with
        | step => exact hended.elim
        | pure | fail => exact hopen.elim
    have hslots (a : String) (sid : SocketId) : sid ∈ w.shared.socketSet a ↔
        owner w.shared sid = some a ∧ w.shared.connected sid = true := by
      simpa [hnone, view] using hkept.tables.slots a sid
    refine ⟨hslots, fun a ha => ?_⟩
    obtain ⟨sid, hsid⟩ := hkept.tables.online a ha
    exact ⟨sid, (hslots a sid).mp hsid⟩

end Runs

def sampleStart : State :=
  started (fun _ => some .active)
    (fun address => if address = "GLP" then some ⟨.approved, 0⟩ else none) (fun _ => none) 0

def sampleActions : List (Act Call Bool Move) :=
  .spawn 0 (.connect 1 sampleToken) :: .spawn 1 (.connect 2 sampleToken) ::
    (List.replicate 4 (.go 0 false) ++ List.replicate 8 (.go 1 false) ++ List.replicate 4 (.go 0 false) ++
      [.outside (.drop 1)])

def sampleEnd : Pool Effect Reply State := final (gateway sampleSettings) (idle sampleStart) sampleActions

theorem still_of_ended {as : List (Act Call Bool Move)} (pids : List Pid)
    (hsubjects : ∀ a ∈ as, ∀ pid ∈ a.subject, pid ∈ pids)
    (hended : ∀ pid ∈ pids, (final (gateway y) (idle s) as).running pid = some (.pure ())) :
    Still (final (gateway y) (idle s) as) := by
  intro pid p hp
  by_cases hpid : pid ∈ pids
  · obtain rfl := Option.some.inj ((hended pid hpid).symm.trans hp)
    trivial
  · have hnone : (final (gateway y) (idle s) as).running pid = none :=
      running_final (y := system y) rfl as fun a ha hq => hpid (hsubjects a ha pid hq)
    rw [hnone] at hp
    cases hp

theorem sample_slots_and_presence :
    (2 ∈ sampleEnd.shared.socketSet "GLP" ∧ 1 ∉ sampleEnd.shared.socketSet "GLP") ∧
    "GLP" ∈ sampleEnd.shared.lpAddressesOnline ∧
    ∀ a ∈ sampleEnd.shared.lpAddressesOnline,
      ∃ sid, owner sampleEnd.shared sid = some a ∧ sampleEnd.shared.connected sid = true := by
  have hadmitted : Admitted (gateway sampleSettings) (idle sampleStart) sampleActions := by
    decide +kernel
  have hheeded : Admitted { gateway sampleSettings with admits := Heeded } (idle sampleStart)
      sampleActions := by
    decide +kernel
  have hstill : Still sampleEnd := by
    apply still_of_ended [0, 1] (by decide)
    simp only [List.forall_mem_cons, List.not_mem_nil, false_implies, implies_true, and_true]
    exact ⟨rfl, rfl⟩
  obtain ⟨-, hmain⟩ := slots_and_presence (Run.of_actions sampleActions (idle sampleStart) hadmitted)
  obtain ⟨-, hpresent⟩ := hmain (history_meets sampleActions _ hheeded) hstill
  exact ⟨by decide +kernel, by decide +kernel, hpresent⟩

/-- The client goes while the gateway looks up its role. -/
def leakActions : List (Act Call Bool Move) :=
  [.spawn 0 (.connect 1 sampleToken), .go 0 false, .outside (.drop 1)] ++ List.replicate 7 (.go 0 false)

/-- A client that goes in that moment leaves its slot behind, for good. -/
theorem absent_socket_keeps_slot : ∃ tr w,
    Run (gateway sampleSettings) (idle sampleStart) tr w ∧ Still w ∧
      1 ∈ w.shared.socketSet "GLP" ∧ "GLP" ∈ w.shared.lpAddressesOnline ∧
      w.shared.connected 1 = false := by
  have hadmitted : Admitted (gateway sampleSettings) (idle sampleStart) leakActions := by
    decide +kernel
  refine ⟨_, _, Run.of_actions leakActions (idle sampleStart) hadmitted, ?_, ?_, ?_, ?_⟩
  · apply still_of_ended [0] (by decide)
    simp only [List.forall_mem_cons, List.not_mem_nil, false_implies, implies_true, and_true]
    rfl
  · decide +kernel
  · decide +kernel
  · decide +kernel

end Lolipay.Coordinator.Sockets
