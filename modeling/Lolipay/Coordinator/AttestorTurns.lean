import Lolipay.Async.PromiseChain
import Lolipay.Coordinator.AttestOutcome
import Lolipay.Coordinator.Orders

namespace Lolipay.Coordinator.AttestorTurns

open Lolipay.Ledger.Invocation Lolipay.Ledger.Runs
open Lolipay.Async.Process Lolipay.Async.Scheduling Lolipay.Async.Stages Lolipay.Async.PromiseChain
open Lolipay.Escrow.Types (TradeId)
open Lolipay.Coordinator.AttestOutcome (FinalStatus)

/-- A transaction of the attestor's account. Which turn built it is no data of it. -/
structure Tx where
  turn : ℕ
  contractId : Address
  tradeId : TradeId
  sequence : ℕ
  deriving DecidableEq, Repr

inductive Effect where
  | isConfirmed (contractId : Address)
  | readEscrowFiatAttestor (contractId : Address)
  | confirm (contractId : Address)
  /-- Takes `lastSubmission` and puts the own submission in its place. -/
  | join
  | awaitBefore (turn : ℕ)
  | isLate (notAfterSecs : ℤ)
  | buildMarkFiatPaidTx (turn : ℕ) (contractId : Address) (tradeId : TradeId)
  | sendTransaction (tx : Tx)
  | pollTransaction (tx : Tx)
  | settle (turn : ℕ)

/-- Where there is an outer `none`, the effect threw. -/
@[reducible] def Reply : Effect → Type
  | .isConfirmed _ | .isLate _ => Bool
  | .readEscrowFiatAttestor _ => Option Address
  | .join => ℕ
  | .buildMarkFiatPaidTx _ _ _ => Option Tx
  | .sendTransaction _ => Option Unit
  | .pollTransaction _ => Option FinalStatus
  | .confirm _ | .awaitBefore _ | .settle _ => Unit

abbrev Service (α : Type) := Program Effect Reply α

structure Settings where
  key : Option Address
  escrows : List Address

structure Call where
  contractId : Address
  tradeId : TradeId
  notAfterSecs : ℤ

def assertIsTheChainsAttestor (contractId held : Address) : Service Unit := do
  let confirmed : Bool ← issue (Effect.isConfirmed contractId)
  if confirmed then .pure ()
  else
    let onChain ← (attempt (.readEscrowFiatAttestor contractId) fun r => r : Service Address)
    if onChain ≠ held then .fail else issue (Effect.confirm contractId)

def submitInTurn (turn : ℕ) (call : Call) : Service FinalStatus := do
  let late : Bool ← issue (Effect.isLate call.notAfterSecs)
  if late then .fail
  else
    let tx ← (attempt (.buildMarkFiatPaidTx turn call.contractId call.tradeId) fun r => r : Service Tx)
    let _ ← (attempt (.sendTransaction tx) fun r => r : Service Unit)
    attempt (.pollTransaction tx) fun r => r

def attest (y : Settings) (call : Call) : Service FinalStatus := do
  match y.key with
  | none => .fail
  | some key =>
    if call.contractId ∉ y.escrows then .fail
    else
      let _ ← assertIsTheChainsAttestor call.contractId key
      let turn : ℕ ← issue Effect.join
      let _ ← issue (Effect.awaitBefore turn)
      let status ← (submitInTurn turn call).caught
      let _ ← issue (Effect.settle turn)
      match status with
      | some status => .pure status
      | none => .fail

/-- The attestor's memory, and the account as the RPC server knows it with what
was sent to it. What was built, and what a poll has answered, is recorded. -/
structure Desk where
  chain : Chain
  confirmed : List Address
  sequence : ℕ
  sent : List Tx
  included : List (Tx × FinalStatus)
  built : List Tx
  concluded : List Tx

structure Choice where
  fails : Bool := false
  attestor : Address := ⟨0⟩
  late : Bool := false
  arrives : Bool := true
  status : Option FinalStatus := none

def effect (_ : Pid) (e : Effect) (o : Choice) (s : Desk) : Desk × Reply e :=
  match e with
  | .isConfirmed contractId => (s, s.confirmed.contains contractId)
  | .readEscrowFiatAttestor _ => (s, if o.fails then none else some o.attestor)
  | .confirm contractId => ({ s with confirmed := contractId :: s.confirmed }, ())
  | .join => ({ s with chain := s.chain.join }, s.chain.last + 1)
  | .awaitBefore turn => ({ s with chain := s.chain.begin turn }, ())
  | .isLate _ => (s, o.late)
  | .buildMarkFiatPaidTx turn contractId tradeId =>
    if o.fails then (s, none)
    else
      let tx := ⟨turn, contractId, tradeId, s.sequence + 1⟩
      ({ s with built := tx :: s.built }, some tx)
  -- A request that throws may have arrived.
  | .sendTransaction tx =>
    ({ s with sent := if o.arrives then tx :: s.sent else s.sent }, if o.fails then none else some ())
  | .pollTransaction tx =>
    ({ s with concluded := if o.status.isSome then tx :: s.concluded else s.concluded }, o.status)
  | .settle turn => ({ s with chain := s.chain.settle turn }, ())

/-- The network takes a transaction in when its number is the next one, and others
may use the account. -/
inductive Move where
  | include_ (tx : Tx) (status : FinalStatus)
  | elsewhere

def moves (s : Desk) : Move → Prop
  | .include_ tx _ => tx ∈ s.sent ∧ tx.sequence = s.sequence + 1
  | .elsewhere => True

def moved (s : Desk) : Move → Desk
  | .include_ tx status =>
    { s with sequence := s.sequence + 1, included := (tx, status) :: s.included }
  | .elsewhere => { s with sequence := s.sequence + 1 }

/-- Any number of attestations at once. A process waits until the submission before
its own is over, and a poll answers with what the network did. -/
def attestors (y : Settings) : System Call Choice Move Effect Reply Desk where
  body call := do
    let _ ← attest y call
    .pure ()
  delivers _ _ := True
  permits _ e o s :=
    match e with
    | .awaitBefore turn => turn - 1 ∈ s.chain.settled
    | .pollTransaction tx => ∀ status, o.status = some status → (tx, status) ∈ s.included
    | _ => True
  effect := effect
  dies _ s := s
  moves := moves
  moved := moved

structure Starts (s : Desk) : Prop where
  chain : s.chain = {}
  sent : s.sent = []
  included : s.included = []
  built : s.built = []
  concluded : s.concluded = []

inductive Stage where
  | away
  | waiting (turn : ℕ)
  | working (turn : ℕ) (tx : Option Tx)

def Stage.place : Stage → Place
  | .away => .away
  | .waiting turn => .waiting turn
  | .working turn _ => .inTurn turn

inductive Turn : Itinerary Effect Reply Stage
  | isConfirmed (c : Address) (r : Bool) : Turn .away (.isConfirmed c) r .away
  | read (c : Address) (r : Option Address) : Turn .away (.readEscrowFiatAttestor c) r .away
  | confirm (c : Address) : Turn .away (.confirm c) () .away
  | join (n : ℕ) : Turn .away .join n (.waiting n)
  | begin (n : ℕ) : Turn (.waiting n) (.awaitBefore n) () (.working n none)
  | isLate (n : ℕ) (secs : ℤ) (r : Bool) : Turn (.working n none) (.isLate secs) r (.working n none)
  | build (n : ℕ) (c : Address) (t : TradeId) (r : Option Tx) :
      Turn (.working n none) (.buildMarkFiatPaidTx n c t) r (.working n r)
  | send (n : ℕ) (tx : Tx) (r : Option Unit) :
      Turn (.working n (some tx)) (.sendTransaction tx) r (.working n (some tx))
  | poll (n : ℕ) (tx : Tx) (r : Option FinalStatus) :
      Turn (.working n (some tx)) (.pollTransaction tx) r (.working n (some tx))
  | settle (n : ℕ) (tx : Option Tx) : Turn (.working n tx) (.settle n) () .away

theorem assert_follows (contractId held : Address) :
    Follows Turn (fun _ q => q = .away) (fun q => q = .away) .away
      (assertIsTheChainsAttestor contractId held) := by
  intro confirmed
  refine ⟨_, .isConfirmed _ confirmed, ?_⟩
  cases confirmed with
  | true => rfl
  | false =>
    intro onChain
    refine ⟨_, .read _ onChain, ?_⟩
    cases onChain with
    | none => rfl
    | some onChain =>
      change Follows _ _ _ _ (if onChain ≠ held then .fail else issue (Effect.confirm contractId))
      split
      next => rfl
      next => exact fun () => ⟨_, .confirm _, rfl⟩

theorem submitInTurn_follows (turn : ℕ) (call : Call) :
    Follows Turn (fun _ q => ∃ tx, q = .working turn tx) (fun q => ∃ tx, q = .working turn tx)
      (.working turn none) (submitInTurn turn call) := by
  intro late
  refine ⟨_, .isLate turn _ late, ?_⟩
  cases late with
  | true => exact ⟨none, rfl⟩
  | false =>
    intro built
    refine ⟨_, .build turn _ _ built, ?_⟩
    cases built with
    | none => exact ⟨none, rfl⟩
    | some tx =>
      intro sent
      refine ⟨_, .send turn tx sent, ?_⟩
      cases sent with
      | none => exact ⟨some tx, rfl⟩
      | some _ =>
        intro status
        refine ⟨_, .poll turn tx status, ?_⟩
        cases status with
        | none => exact ⟨some tx, rfl⟩
        | some status => exact ⟨some tx, rfl⟩

theorem attest_follows (y : Settings) (call : Call) :
    Follows Turn (fun _ q => q = .away) (fun q => q = .away) .away (attest y call) := by
  unfold attest
  split
  next => rfl
  next key _ =>
    split
    next => rfl
    next =>
      refine (assert_follows call.contractId key).bind fun _ q hq => ?_
      subst hq
      intro turn
      refine ⟨_, .join turn, fun () => ⟨_, .begin turn, ?_⟩⟩
      have hcaught : Follows Turn (fun (_ : Option FinalStatus) q => ∃ tx, q = .working turn tx)
          (fun q => q = .away) (.working turn none) (submitInTurn turn call).caught :=
        (submitInTurn_follows turn call).caught (fun _ _ hq => hq) fun _ hq => hq
      refine hcaught.bind fun status q hq => ?_
      obtain ⟨tx, rfl⟩ := hq
      refine fun () => ⟨_, .settle turn tx, ?_⟩
      cases status <;> rfl

variable {y : Settings} {s : Desk} {stage : Pid → Stage} {pid : Pid} {q : Stage} {e : Effect} {o : Choice}

/-- The turns are in order, and a transaction that was concluded left no later one
its number. -/
structure Books (s : Desk) (stage : Pid → Stage) : Prop where
  chain : ∃ k, Sound s.chain (fun p => (stage p).place) k
  built : ∀ tx ∈ s.built, tx.turn ∈ s.chain.begun
  own : ∀ pid n tx, stage pid = .working n (some tx) → tx.turn = n
  included : ∀ p ∈ s.included, p.1.sequence ≤ s.sequence
  concluded : ∀ tx ∈ s.concluded, tx.sequence ≤ s.sequence
  apart : ∀ tx ∈ s.concluded, ∀ tx' ∈ s.built, tx.turn < tx'.turn → tx.sequence < tx'.sequence

theorem own_place (h : ∀ pid n tx, stage pid = .working n (some tx) → tx.turn = n)
    (hq : ∀ n tx, q = .working n (some tx) → tx.turn = n) (p : Pid) (n : ℕ) (tx : Tx)
    (hp : place stage pid q p = .working n (some tx)) : tx.turn = n :=
  forall_place (P := fun _ (q : Stage) => ∀ n tx, q = .working n (some tx) → tx.turn = n) hq
    (fun p _ => h p) p n tx hp

theorem Books.keep (h : Books s stage) (hplace : (stage pid).place = q.place)
    (hq : ∀ n tx, q = .working n (some tx) → tx.turn = n) : Books s (place stage pid q) where
  chain := by
    rw [place_comp Stage.place, place_same hplace]
    exact h.chain
  built := h.built
  own := own_place h.own hq
  included := h.included
  concluded := h.concluded
  apart := h.apart

theorem Books.turn (h : Books s stage) {n : ℕ} {tx : Option Tx} (hstage : stage pid = .working n tx) :
    n ∈ s.chain.begun ∧ ∀ m ∈ s.chain.begun, m ≤ n := by
  obtain ⟨k, hsound⟩ := h.chain
  have hplace : (stage pid).place = .inTurn n := by rw [hstage]; rfl
  obtain ⟨rfl, -, hbegun⟩ := hsound.inTurn pid n hplace
  rw [hbegun]
  exact ⟨mem_upTo.mpr ⟨Nat.succ_pos k, Nat.le_refl _⟩, fun m hm => (mem_upTo.mp hm).2⟩

theorem Books.join (h : Books s stage) :
    Books { s with chain := s.chain.join } (place stage pid (.waiting (s.chain.last + 1))) := by
  obtain ⟨k, hsound⟩ := h.chain
  refine ⟨⟨k, ?_⟩, h.built, own_place h.own nofun, h.included, h.concluded, h.apart⟩
  rw [place_comp Stage.place]
  exact hsound.join

theorem Books.begin (h : Books s stage) {n : ℕ} (hstage : stage pid = .waiting n)
    (hbefore : n - 1 ∈ s.chain.settled) :
    Books { s with chain := s.chain.begin n } (place stage pid (.working n none)) := by
  obtain ⟨k, hsound⟩ := h.chain
  have hplace : (stage pid).place = .waiting n := by rw [hstage]; rfl
  have hpos := (hsound.waiting pid n hplace).1
  obtain ⟨m, rfl⟩ : ∃ m, n = m + 1 := ⟨n - 1, by omega⟩
  refine ⟨⟨k, ?_⟩, fun tx htx => List.mem_cons_of_mem _ (h.built tx htx), own_place h.own nofun,
    h.included, h.concluded, h.apart⟩
  rw [place_comp Stage.place]
  exact hsound.begin hplace hbefore

theorem Books.build (h : Books s stage) {n : ℕ} (hstage : stage pid = .working n none)
    (c : Address) (t : TradeId) :
    Books { s with built := ⟨n, c, t, s.sequence + 1⟩ :: s.built }
      (place stage pid (.working n (some ⟨n, c, t, s.sequence + 1⟩))) := by
  have hown : ∀ m tx, Stage.working n (some ⟨n, c, t, s.sequence + 1⟩) = .working m (some tx) →
      tx.turn = m := by
    intro m tx hm
    obtain ⟨rfl, htx⟩ := Stage.working.inj hm
    obtain rfl := Option.some.inj htx
    rfl
  have hkept := h.keep (by rw [hstage]; rfl) hown
  refine ⟨hkept.chain, fun tx htx => ?_, hkept.own, h.included, h.concluded,
    fun tx htx tx' htx' hlt => ?_⟩
  · obtain rfl | htx := List.mem_cons.mp htx
    · exact (h.turn hstage).1
    · exact h.built tx htx
  · obtain rfl | htx' := List.mem_cons.mp htx'
    · exact Nat.lt_succ_of_le (h.concluded tx htx)
    · exact h.apart tx htx tx' htx' hlt

/-- What a poll concludes has been included, and nothing is built in a later turn
before this one is over. -/
theorem Books.conclude (h : Books s stage) {n : ℕ} {tx : Tx}
    (hstage : stage pid = .working n (some tx)) {status : FinalStatus}
    (hincluded : (tx, status) ∈ s.included) :
    Books { s with concluded := tx :: s.concluded } stage := by
  have hn : tx.turn = n := h.own pid n tx hstage
  refine ⟨h.chain, h.built, h.own, h.included, fun tx' htx' => ?_, fun tx' htx' tx'' htx'' hlt => ?_⟩
  · obtain rfl | htx' := List.mem_cons.mp htx'
    · exact h.included _ hincluded
    · exact h.concluded tx' htx'
  · obtain rfl | htx' := List.mem_cons.mp htx'
    · have hle := (h.turn hstage).2 _ (h.built tx'' htx'')
      omega
    · exact h.apart tx' htx' tx'' htx'' hlt

theorem Books.settle (h : Books s stage) {n : ℕ} {tx : Option Tx} (hstage : stage pid = .working n tx) :
    Books { s with chain := s.chain.settle n } (place stage pid .away) := by
  obtain ⟨k, hsound⟩ := h.chain
  have hplace : (stage pid).place = .inTurn n := by rw [hstage]; rfl
  refine ⟨⟨k + 1, ?_⟩, h.built, own_place h.own nofun, h.included, h.concluded, h.apart⟩
  rw [place_comp Stage.place]
  exact hsound.settle hplace

theorem Books.aside (h : Books s stage) (confirmed : List Address) (sent : List Tx) :
    Books { s with confirmed := confirmed, sent := sent } stage :=
  ⟨h.chain, h.built, h.own, h.included, h.concluded, h.apart⟩

theorem Books.effect (h : Books s stage) (hturn : Turn (stage pid) e (effect pid e o s).2 q)
    (hp : (attestors y).permits pid e o s) : Books (effect pid e o s).1 (place stage pid q) := by
  generalize hstage : stage pid = before at hturn
  have hstay : Books s (place stage pid before) :=
    h.keep (by rw [hstage]) fun n tx hn => h.own pid n tx (hstage.trans hn)
  cases e with
  | isConfirmed | readEscrowFiatAttestor | isLate =>
    generalize (AttestorTurns.effect pid _ o s).2 = r at hturn
    cases hturn
    exact hstay
  | confirm c =>
    cases hturn
    exact hstay.aside (c :: s.confirmed) s.sent
  | join =>
    cases hturn
    exact h.join
  | awaitBefore n =>
    cases hturn
    exact h.begin hstage hp
  | buildMarkFiatPaidTx n c t =>
    simp only [AttestorTurns.effect] at hturn ⊢
    cases hf : o.fails with
    | true =>
      simp only [hf, if_true] at hturn ⊢
      cases hturn
      exact hstay
    | false =>
      simp only [hf, Bool.false_eq_true, if_false] at hturn ⊢
      cases hturn
      exact h.build hstage c t
  | sendTransaction tx =>
    generalize (AttestorTurns.effect pid (.sendTransaction tx) o s).2 = r at hturn
    cases hturn
    exact hstay.aside s.confirmed _
  | pollTransaction tx =>
    generalize (AttestorTurns.effect pid (.pollTransaction tx) o s).2 = r at hturn
    cases hturn with
    | poll n =>
      simp only [AttestorTurns.effect]
      cases hstatus : o.status with
      | none => exact hstay
      | some status => exact hstay.conclude (place_self stage pid _) (hp status hstatus)
  | settle n =>
    cases hturn
    exact h.settle hstage

theorem Books.away (h : Books s stage) (pid : Pid) : Books s (place stage pid .away) := by
  obtain ⟨k, hsound⟩ := h.chain
  refine ⟨⟨k, ?_⟩, h.built, own_place h.own nofun, h.included, h.concluded, h.apart⟩
  rw [place_comp Stage.place]
  exact hsound.leave pid

theorem Books.moved (h : Books s stage) {m : Move} (hm : moves s m) : Books (moved s m) stage := by
  have hstep (n : ℕ) (hn : n ≤ s.sequence) : n ≤ s.sequence + 1 := Nat.le_succ_of_le hn
  cases m with
  | include_ tx status =>
    refine ⟨h.chain, h.built, h.own, fun p hp => ?_, fun tx htx => hstep _ (h.concluded tx htx), h.apart⟩
    obtain rfl | hp := List.mem_cons.mp hp
    · exact Nat.le_of_eq hm.2
    · exact hstep _ (h.included p hp)
  | elsewhere =>
    exact ⟨h.chain, h.built, h.own, fun p hp => hstep _ (h.included p hp),
      fun tx htx => hstep _ (h.concluded tx htx), h.apart⟩

theorem books_maintains (y : Settings) :
    Maintains Turn (attestors y) (fun _ => .away) .away (fun _ _ => True) (fun _ => True) Books where
  spawn _ _ pid _ h _ _ := h.away pid
  go _ _ _ _ _ _ h hturn hp := h.effect hturn hp
  dies _ _ pid h _ := h.away pid
  moved _ _ _ h hm := h.moved hm

/-- Every submission that is not over is somebody's. -/
def AllOwned (s : Desk) (stage : Pid → Stage) : Prop := Owned s.chain fun p => (stage p).place

theorem AllOwned.keep (h : AllOwned s stage)
    (hq : ∀ n, (stage pid).place.ticket = some n → q.place.ticket = some n) :
    AllOwned s (place stage pid q) := by
  rw [AllOwned, place_comp Stage.place]
  exact Owned.keep h hq

theorem AllOwned.effect (h : AllOwned s stage) (hturn : Turn (stage pid) e (effect pid e o s).2 q) :
    AllOwned (effect pid e o s).1 (place stage pid q) := by
  generalize hstage : stage pid = before at hturn
  cases e with
  | join =>
    cases hturn
    rw [AllOwned, place_comp Stage.place]
    exact Owned.join h (by rw [hstage]; rfl)
  | settle n =>
    cases hturn
    rw [AllOwned, place_comp Stage.place]
    exact Owned.settle h (by rw [hstage]; rfl)
  | awaitBefore n =>
    cases hturn
    have hkept : AllOwned s (place stage pid (.working n none)) := by
      apply h.keep
      rw [hstage]
      exact fun _ hn => hn
    exact hkept
  | isConfirmed | readEscrowFiatAttestor | isLate =>
    generalize (AttestorTurns.effect pid _ o s).2 = r at hturn
    cases hturn
    exact h.keep (by rw [hstage]; exact fun _ hn => hn)
  | confirm =>
    cases hturn
    exact h.keep (by rw [hstage]; exact fun _ hn => hn)
  | buildMarkFiatPaidTx n c t =>
    have hsame : (AttestorTurns.effect pid (.buildMarkFiatPaidTx n c t) o s).1.chain = s.chain := by
      simp only [AttestorTurns.effect]
      split <;> rfl
    generalize (AttestorTurns.effect pid _ o s).2 = r at hturn
    cases hturn
    rw [AllOwned, hsame]
    exact h.keep (by rw [hstage]; exact fun _ hn => hn)
  | sendTransaction tx | pollTransaction tx =>
    generalize (AttestorTurns.effect pid _ o s).2 = r at hturn
    cases hturn
    exact h.keep (by rw [hstage]; exact fun _ hn => hn)

def Joined : Effect → Prop
  | .isConfirmed _ | .readEscrowFiatAttestor _ | .confirm _ | .join => False
  | _ => True

theorem live_maintains (y : Settings) :
    Maintains Turn (attestors y) (fun _ => .away) .away (fun _ _ => True) (fun _ => False)
      fun s stage => Books s stage ∧ AllOwned s stage where
  spawn _ _ pid _ h hrest _ := ⟨h.1.away pid, h.2.keep (by rw [hrest]; exact fun _ hn => hn)⟩
  go _ _ _ _ _ _ h hturn hp := ⟨h.1.effect hturn hp, h.2.effect hturn⟩
  dies _ _ _ _ hnever := hnever.elim
  moved _ _ m h hm := ⟨h.1.moved hm, by cases m <;> exact h.2⟩

variable {tr : List (Entry _ (Act Call Choice Move) _)} {w : Pool Effect Reply Desk}

theorem Books.of_starts (hs : Starts s) : Books s fun _ => .away := by
  refine ⟨⟨0, ?_⟩, ?_, fun _ _ _ => nofun, ?_, ?_, ?_⟩
  · rw [hs.chain]
    exact .start
  · rw [hs.built]
    exact nofun
  · rw [hs.included]
    exact nofun
  · rw [hs.concluded]
    exact nofun
  · rw [hs.concluded]
    exact nofun

theorem body_follows (call : Call) :
    Follows Turn (fun _ q => q = .away) (fun q => q = .away) .away ((attestors y).body call) :=
  (attest_follows y call).bind fun _ _ hq => hq

theorem run_books (hs : Starts s) (hr : Run (machine (attestors y)) (idle s) tr w) :
    ∃ stage, Underway Turn (fun q => q = .away) .away w stage ∧ Books w.shared stage :=
  run_underway (books_maintains y) body_follows hr (.of_starts hs) fun e _ => by cases e.act <;> trivial

/-- Submissions come to their turn in the order in which they joined, each after the
one before it is over, whatever that came to; and none is built on a sequence number
that an earlier one has used up as far as a poll has told. -/
theorem attestations_in_turn (hs : Starts s) (hr : Run (machine (attestors y)) (idle s) tr w) :
    (∃ k, (∀ n, n ∈ w.shared.chain.settled ↔ n ≤ k) ∧
      (w.shared.chain.begun = upTo k ∨ w.shared.chain.begun = upTo (k + 1))) ∧
    ∀ tx ∈ w.shared.concluded, ∀ tx' ∈ w.shared.built, tx.turn < tx'.turn →
      tx.sequence < tx'.sequence := by
  obtain ⟨stage, -, hbooks⟩ := run_books hs hr
  obtain ⟨k, hsound⟩ := hbooks.chain
  exact ⟨⟨k, hsound.settled, hsound.begun.imp id And.left⟩, hbooks.apart⟩

theorem step_of_stage (hway : Underway Turn (fun q => q = .away) .away w stage) {n : ℕ}
    (hstage : stage pid = .waiting n ∨ ∃ tx, stage pid = .working n tx) :
    ∃ e next, w.running pid = some (.step e next) ∧ Joined e ∧
      ∀ m, e = .awaitBefore m → stage pid = .waiting m := by
  cases hrun : w.running pid with
  | none =>
    have hrest := hway.atRest pid hrun
    obtain h | ⟨tx, h⟩ := hstage
    all_goals
      rw [h] at hrest
      cases hrest
  | some p =>
    have hfollows := hway.follows pid p hrun
    cases p with
    | pure | fail =>
      obtain h | ⟨tx, h⟩ := hstage
      all_goals
        rw [h] at hfollows
        cases hfollows
    | step e next =>
      refine ⟨e, next, rfl, ?_⟩
      have hany : Nonempty (Reply e) := by
        cases e <;> exact ⟨default⟩
      obtain ⟨r⟩ := hany
      obtain ⟨q, hturn, -⟩ := hfollows r
      obtain h | ⟨tx, h⟩ := hstage
      · rw [h] at hturn ⊢
        cases hturn
        exact ⟨trivial, fun m hm => congrArg Stage.waiting (Effect.awaitBefore.inj hm)⟩
      · rw [h] at hturn
        cases hturn <;> exact ⟨trivial, nofun⟩

/-- As long as nothing dies, no submission waits for ever on nobody: until all are
over, some process that has joined can do its next step. -/
theorem attestations_move_on (hs : Starts s) (hr : Run (machine (attestors y)) (idle s) tr w)
    (halive : ∀ e ∈ tr, ∀ pid, e.act ≠ .kill pid)
    (hopen : w.shared.chain.last ∉ w.shared.chain.settled) :
    ∃ pid e next, w.running pid = some (.step e next) ∧ Joined e ∧
      admits (attestors y) w (.go pid {}) := by
  have hstart : AllOwned s fun _ => .away := by
    rw [AllOwned, hs.chain]
    exact .start
  obtain ⟨stage, hway, hbooks, howned⟩ := run_underway (live_maintains y) body_follows hr
    ⟨.of_starts hs, hstart⟩ fun e he => by
      cases hact : e.act with
      | kill pid => exact halive e he pid hact
      | spawn | go | outside => trivial
  obtain ⟨k, hsound⟩ := hbooks.chain
  have hk : k < w.shared.chain.last :=
    lt_of_le_of_ne hsound.le_last fun heq => hopen ((hsound.settled _).mpr (Nat.le_of_eq heq.symm))
  obtain ⟨pid, hplace⟩ := Owned.next howned hsound hk
  have hstage : stage pid = .waiting (k + 1) ∨ ∃ tx, stage pid = .working (k + 1) tx := by
    cases hst : stage pid with
    | away => simp [hst, Stage.place] at hplace
    | waiting n => simpa [hst, Stage.place] using hplace
    | working n tx => simpa [hst, Stage.place] using hplace
  obtain ⟨e, next, hrun, hjoined, hturn⟩ := step_of_stage hway hstage
  refine ⟨pid, e, next, hrun, hjoined, ?_⟩
  simp only [admits, hrun]
  cases e with
  | awaitBefore m =>
    have hm := hturn m rfl
    obtain h | ⟨tx, h⟩ := hstage
    · obtain rfl := Stage.waiting.inj (h.symm.trans hm)
      exact (hsound.settled k).mpr (Nat.le_refl k)
    · rw [h] at hm
      cases hm
  | pollTransaction tx => exact fun status hstatus => by cases hstatus
  | isConfirmed | readEscrowFiatAttestor | confirm | join | isLate | buildMarkFiatPaidTx
    | sendTransaction | settle => trivial

def sampleSettings : Settings := ⟨some ⟨9⟩, [⟨0⟩]⟩

def sampleDesk : Desk := ⟨{}, [], 10, [], [], [], []⟩

theorem sampleDesk_starts : Starts sampleDesk := ⟨rfl, rfl, rfl, rfl, rfl⟩

def joining : List (Act Call Choice Move) :=
  [.spawn 0 ⟨⟨0⟩, 1, 100⟩, .spawn 1 ⟨⟨0⟩, 2, 100⟩, .go 0 {}, .go 0 { attestor := ⟨9⟩ }, .go 0 {},
    .go 0 {}, .go 1 {}, .go 1 {}]

def firstTx : Tx := ⟨1, ⟨0⟩, 1, 11⟩
def secondTx : Tx := ⟨2, ⟨0⟩, 2, 12⟩

/-- The first one is taken in and polled, and then the second one is built. -/
def working : List (Act Call Choice Move) :=
  [.go 0 {}, .go 0 {}, .go 0 {}, .go 0 {}, .outside (.include_ firstTx .success),
    .go 0 { status := some .success }, .go 0 {}, .go 1 {}, .go 1 {}, .go 1 {}]

theorem joining_admitted : Admitted (machine (attestors sampleSettings)) (idle sampleDesk) joining :=
  ⟨⟨rfl, trivial⟩, ⟨rfl, trivial⟩, trivial, trivial, trivial, trivial, trivial, trivial, trivial⟩

theorem both_admitted :
    Admitted (machine (attestors sampleSettings)) (idle sampleDesk) (joining ++ working) := by
  refine ⟨⟨rfl, trivial⟩, ⟨rfl, trivial⟩, trivial, trivial, trivial, trivial, trivial, trivial, ?_⟩
  refine ⟨List.mem_cons_self, trivial, trivial, trivial, ⟨List.mem_cons_self, rfl⟩, ?_, trivial,
    List.mem_cons_self, trivial, trivial, trivial⟩
  rintro status hstatus
  obtain rfl := Option.some.inj hstatus
  exact List.mem_cons_self

theorem attestations_in_turn_sample : firstTx.sequence < secondTx.sequence :=
  (attestations_in_turn sampleDesk_starts (Run.of_actions _ _ both_admitted)).2 firstTx
    List.mem_cons_self secondTx List.mem_cons_self (by decide)

theorem attestations_move_on_sample : ∃ pid e next,
    (final (machine (attestors sampleSettings)) (idle sampleDesk) joining).running pid =
      some (.step e next) ∧ Joined e ∧
    admits (attestors sampleSettings)
      (final (machine (attestors sampleSettings)) (idle sampleDesk) joining) (.go pid {}) := by
  refine attestations_move_on sampleDesk_starts (Run.of_actions _ _ joining_admitted) ?_ (by decide)
  intro e he pid hact
  have hmem := act_of_history he
  rw [hact] at hmem
  simp [joining] at hmem

end Lolipay.Coordinator.AttestorTurns
