import Lolipay.Coordinator.Footprint

namespace Lolipay.Coordinator.Reservations

open Lolipay.Ledger.Storage Lolipay.Ledger.Invocation Lolipay.Ledger.Runs
open Lolipay.Async Lolipay.Async.Process Lolipay.Async.Scheduling
open Lolipay.Escrow.Types
open Lolipay.Coordinator.Orders Lolipay.Coordinator.Writes Lolipay.Coordinator.Database
open Lolipay.Coordinator.Services Lolipay.Coordinator.Creation Lolipay.Coordinator.Desk
open Lolipay.Coordinator.Steps Lolipay.Coordinator.Footprint

variable {y : Settings} {allowed : Call → Prop} {solo : Prop} {s t u : Shared} {pid q : Pid}
  {e : Effect} {o : Choice} {id : OrderId} {row row' : Order} {p : Placement} {α : Type}

/-- How the mark of a row moves with its status. -/
def MarkStep (row row' : Order) : Prop :=
  row'.everExcluded = (row.everExcluded || volumeExcludedStatuses.contains row'.status) ∨
    (row'.everExcluded = row.everExcluded ∧ row'.status = row.status)

/-- A row whose status is out of the daily volume bears the mark. -/
def Marked (row : Order) : Prop :=
  volumeExcludedStatuses.contains row.status = true → row.everExcluded = true

theorem MarkStep.mono (h : MarkStep row row') (hm : row.everExcluded = true) :
    row'.everExcluded = true := by
  obtain h | ⟨h, -⟩ := h
  · rw [h, hm, Bool.true_or]
  · rw [h, hm]

theorem MarkStep.marks (h : MarkStep row row') (hm : Marked row) :
    row'.everExcluded = (row.everExcluded || volumeExcludedStatuses.contains row'.status) := by
  obtain h | ⟨hmark, hstatus⟩ := h
  · exact h
  · rw [hmark, hstatus]
    cases hex : volumeExcludedStatuses.contains row.status with
    | false => simp
    | true => simp [hm hex]

theorem settlementFieldsFrom_marks (onChain : TradeOnChain) (now : ℕ) (row : Order) :
    (settlementFieldsFrom onChain now row).everExcluded = row.everExcluded ∧
      (settlementFieldsFrom onChain now row).status = row.status := by
  rw [settlementFieldsFrom]
  split <;> exact ⟨rfl, rfl⟩

theorem write_marks (now : ℕ) (w : RowWrite) (row : Order) : MarkStep row (w.data now row) := by
  cases w with
  | refresh a stamps =>
    obtain ⟨hmark, hstatus⟩ := settlementFieldsFrom_marks a.onChain now
      (row.setStatus (statusMap a.onChain.status))
    left
    simp only [RowWrite.data]
    split
    next => exact hmark.trans (by rw [hstatus]; rfl)
    next => exact hmark.trans (by rw [hstatus]; rfl)
  | promote a =>
    obtain ⟨hmark, hstatus⟩ := settlementFieldsFrom_marks a.onChain now
      (row.setStatus (statusMap a.onChain.status))
    left
    exact hmark.trans (by rw [RowWrite.data, hstatus]; rfl)
  | autoRefund hash settlement =>
    left
    cases settlement with
    | none => rfl
    | some settlement =>
      simp only [RowWrite.data, Option.elim_some]
      rw [(settlementFieldsFrom_marks _ _ _).1, (settlementFieldsFrom_marks _ _ _).2]
      rfl
  | land target onChain hash =>
    left
    simp only [RowWrite.data]
    split <;> rfl
  | cancel | expire | attest | dispute | reopen => exact .inl rfl
  | backfillSettlementHash | reconcileDisputeMetadata => exact .inr ⟨rfl, rfl⟩

theorem verdict_marks (now : ℕ) (v : Verdict) (row : Order) :
    MarkStep row (closeDisputeRound now (v.data now row)) := by
  have hdata : (v.data now row).everExcluded =
      (row.everExcluded || volumeExcludedStatuses.contains (v.data now row).status) := by
    cases v with
    | preSettle => rfl
    | postSettle outcome settled =>
      simp only [Verdict.data]
      split <;> rfl
  left
  rw [closeDisputeRound]
  split <;> exact hdata

theorem RowStep.marks (h : RowStep s pid e id (some row) (some row')) : MarkStep row row' := by
  cases h with
  | same => exact .inr ⟨rfl, rfl⟩
  | wrote he hm => exact write_marks _ _ _
  | judged he hnew hm => exact verdict_marks _ _ _
  | accrued he hf => exact .inr ⟨rfl, rfl⟩
  | stoodDown he hp => exact .inl rfl

def counts (personId : PersonId) (since till : ℤ) (row : Order) : Bool :=
  row.personId = personId && since ≤ row.createdAt && row.createdAt ≤ till && !row.everExcluded

/-- What a person has ordered between two moments, without the orders that
were ever out of the daily volume. -/
def standing (orders : Store OrderId Order) (personId : PersonId) (since till : ℤ) : ℤ :=
  total (fun row => if counts personId since till row then row.usdcAmount else 0) orders

theorem counts_step (personId : PersonId) (since till : ℤ) (hrow : 0 ≤ row.usdcAmount)
    (h : RowStep s pid e id (some row) (some row')) :
    (if counts personId since till row' then row'.usdcAmount else 0) ≤
      if counts personId since till row then row.usdcAmount else 0 := by
  obtain ⟨_, hrow', hplace⟩ := h.kept
  obtain rfl := Option.some.inj hrow'
  have hamount : row'.usdcAmount = row.usdcAmount := congrArg (·.usdcAmount) hplace
  have hcounts (hc : counts personId since till row' = true) :
      counts personId since till row = true := by
    simp only [counts, hplace, Bool.and_eq_true, Bool.not_eq_true'] at hc ⊢
    refine ⟨hc.1, Bool.eq_false_iff.mpr fun hex => ?_⟩
    exact Bool.eq_false_iff.mp hc.2 ((RowStep.marks h).mono hex)
  by_cases hc : counts personId since till row' = true
  · rw [if_pos hc, if_pos (hcounts hc), hamount]
  · rw [if_neg hc]
    split
    next => exact hrow
    next => exact le_refl 0

theorem total_after (hc : Clean s) (pid : Pid) (e : Effect) (o : Choice) (f : Order → ℤ)
    (hf : ∀ id row row', s.db.orders.lookup id = some row →
      RowStep s pid e id (some row) (some row') → f row' ≤ f row) :
    total f (after pid e o s).db.orders ≤ total f s.db.orders ∨
      ∃ tx id p, e = .commit ∧ s.txs pid = some tx ∧ tx.created = some (id, p) ∧
        s.db.orders.lookup id = none ∧
        (after pid e o s).db.orders = s.db.orders.insert id p.opened ∧
        total f (after pid e o s).db.orders = total f s.db.orders + f p.opened := by
  by_cases hcommit : e = .commit
  · subst hcommit
    simp only [after]
    split
    next => exact .inl (le_refl _)
    next =>
      simp only [runCommit, release, Shared.setTx]
      cases htx : s.txs pid with
      | none => exact .inl (le_refl _)
      | some tx =>
        simp only [Option.elim_some, applyTx]
        cases hcr : tx.created with
        | none => exact .inl (le_refl _)
        | some c =>
          have hfresh := hc.id_fresh htx hcr
          refine .inr ⟨tx, c.1, c.2, trivial, rfl, hcr, hfresh, rfl, ?_⟩
          rw [Option.elim_some, total_insert, measureAt_of_none hfresh]
          omega
  · refine .inl (total_le fun id => ?_)
    have hstep : RowStep s pid e id _ _ := row_step hc o id
    simp only [measureAt]
    generalize hrow : s.db.orders.lookup id = r at hstep
    generalize (after pid e o s).db.orders.lookup id = r' at hstep
    cases r with
    | none =>
      cases hstep with
      | same => exact le_refl _
      | created he => exact absurd he hcommit
    | some row =>
      obtain ⟨row', rfl, -⟩ := hstep.kept
      exact hf id row row' hrow hstep

def dailyLimit (y : Settings) (personId : PersonId) : ℤ :=
  dailyLimitBaseUnits (y.tierOf personId) y.dailyLimitByTier

/-- What a process that holds locks may count on: it keeps them, time does not
run back, and what the locks protect does not grow. When creations run alone
(`solo`), that includes the exposure of providers. -/
structure Steady (y : Settings) (solo : Prop) (pid : Pid) (s t : Shared) : Prop where
  locks : ∀ key, s.locks key = some pid → t.locks key = some pid
  now : s.now ≤ t.now
  volume : ∀ person since till, s.locks (.person (y.hashtext person)) = some pid →
    standing t.db.orders person since till ≤ standing s.db.orders person since till
  exposure : solo → ∀ lp nowSec, s.locks (.lpCapacity (y.hashtext lp)) = some pid →
    lpExposure t.db.orders lp nowSec ≤ lpExposure s.db.orders lp nowSec

theorem Steady.trans (h : Steady y solo pid s t) (h' : Steady y solo pid t u) :
    Steady y solo pid s u where
  locks key hkey := h'.locks key (h.locks key hkey)
  now := h.now.trans h'.now
  volume person since till hkey :=
    (h'.volume person since till (h.locks _ hkey)).trans (h.volume person since till hkey)
  exposure hsolo lp nowSec hkey :=
    (h'.exposure hsolo lp nowSec (h.locks _ hkey)).trans (h.exposure hsolo lp nowSec hkey)

theorem Steady.of_same (horders : t.db.orders = s.db.orders) (hnow : s.now ≤ t.now)
    (hlocks : ∀ key, s.locks key = some pid → t.locks key = some pid) :
    Steady y solo pid s t where
  locks := hlocks
  now := hnow
  volume _ _ _ _ := by rw [horders]
  exposure _ _ _ _ := by rw [horders]

/-- The capacity that is left for an amount, from now on. -/
def RoomAtProvider (y : Settings) (s : Shared) (lp : LpId) (wallet : Address) (amount : ℤ) : Prop :=
  ∀ nowSec : ℤ, (s.now : ℤ) / 1000 ≤ nowSec →
    lpExposure s.db.orders lp nowSec + amount ≤ y.bondOf wallet

/-- The volume that is left for an amount, in windows that start at `since` or later. -/
def RoomInVolume (y : Settings) (s : Shared) (person : PersonId) (since amount : ℤ) : Prop :=
  ∀ since' till, since ≤ since' →
    standing s.db.orders person since' till + amount ≤ dailyLimit y person

/-- What an open transaction has made sure of before it inserts a row. -/
structure Room (y : Settings) (solo : Prop) (s : Shared) (pid : Pid) (p : Placement) : Prop where
  amount : 0 ≤ p.usdcAmount
  person : s.locks (.person (y.hashtext p.personId)) = some pid
  volume : solo ∨ RoomInVolume y s p.personId (p.createdAt - dayMs) p.usdcAmount
  provider : ∃ lp wallet, p.lpId = some lp ∧ p.lpWallet = some wallet ∧
    s.locks (.lpCapacity (y.hashtext lp)) = some pid ∧
    (solo → RoomAtProvider y s lp wallet p.usdcAmount)

theorem RoomAtProvider.steady {lp : LpId} {wallet : Address} {amount : ℤ}
    (h : RoomAtProvider y s lp wallet amount) (hst : Steady y solo pid s t) (hsolo : solo)
    (hkey : s.locks (.lpCapacity (y.hashtext lp)) = some pid) :
    RoomAtProvider y t lp wallet amount := by
  intro nowSec hnow
  have hroom := h nowSec ((Int.ediv_le_ediv (by decide) (by exact_mod_cast hst.now)).trans hnow)
  have hle := hst.exposure hsolo lp nowSec hkey
  omega

theorem RoomInVolume.steady {person : PersonId} {since amount : ℤ}
    (h : RoomInVolume y s person since amount) (hst : Steady y solo pid s t)
    (hkey : s.locks (.person (y.hashtext person)) = some pid) :
    RoomInVolume y t person since amount := by
  intro since' till hsince
  have hroom := h since' till hsince
  have hle := hst.volume person since' till hkey
  omega

theorem Room.steady (h : Room y solo s pid p) (hst : Steady y solo pid s t) :
    Room y solo t pid p where
  amount := h.amount
  person := hst.locks _ h.person
  volume := h.volume.imp_right fun hroom => hroom.steady hst h.person
  provider := by
    obtain ⟨lp, wallet, hlp, hwallet, hkey, hroom⟩ := h.provider
    exact ⟨lp, wallet, hlp, hwallet, hst.locks _ hkey,
      fun hsolo => (hroom hsolo).steady hst hsolo hkey⟩

/-- Every row that waits for its commit has a quote and room for its amount. -/
structure Reserved (y : Settings) (solo : Prop) (s : Shared) : Prop where
  clean : Clean s
  rows : ∀ id row, s.db.orders.lookup id = some row → 0 ≤ row.usdcAmount ∧ (solo ∨ Marked row)
  rooms : ∀ pid tx c, s.txs pid = some tx → tx.created = some c →
    tx.consumed ≠ none ∧ Room y solo s pid c.2

/-- What a process has to know before an effect. -/
def Licensed (y : Settings) (solo : Prop) (pid : Pid) (e : Effect) (o : Choice) (s : Shared) :
    Prop :=
  match e with
  | .ask _ => True
  | .createOrderRow data needsRef =>
    Room y solo s pid (stamped data needsRef s.now o.ref) ∧ ∃ c, s.txs pid = some ⟨some c, none⟩
  | .commit => ∃ c d, s.txs pid = some ⟨some c, some d⟩
  | e => solo → isTx e = true

theorem Licensed.alone (hl : Licensed y solo pid e o s) (hsolo : solo) :
    isTx e = true ∨ ∃ a, e = .ask a := by
  cases e with
  | ask a => exact .inr ⟨a, rfl⟩
  | createOrderRow | commit => exact .inl rfl
  | _ => exact .inl (hl hsolo)

/-- An effect takes no lock from another process, and only the end of a
transaction gives the own ones back. -/
theorem locks_after (hp : Permits y pid e o s) (hq : q ≠ pid ∨ (e ≠ .commit ∧ e ≠ .rollback))
    {key : LockKey} (hkey : s.locks key = some q) : (after pid e o s).locks key = some q := by
  by_cases ht : isTx e = true
  · cases e with
    | «begin» => exact hkey
    | lock key' => exact AdvisoryLock.acquire_keeps hp hkey
    | consumeQuote id =>
      simp only [after, runConsumeQuote]
      repeat' split
      all_goals exact hkey
    | createOrderRow data needsRef =>
      simp only [after, runCreateOrderRow]
      repeat' split
      all_goals exact hkey
    | commit =>
      have hne : q ≠ pid := hq.resolve_right fun h => h.1 rfl
      simp only [after, runCommit]
      split <;> exact AdvisoryLock.release_keeps hne.symm hkey
    | rollback =>
      have hne : q ≠ pid := hq.resolve_right fun h => h.2 rfl
      exact AdvisoryLock.release_keeps hne.symm hkey
    | _ => cases ht
  · rw [(after_of_not_tx (by simpa using ht)).2.1]
    exact hkey

theorem Reserved.standing_after (hs : Reserved y solo s) (pid : Pid) (e : Effect) (o : Choice)
    (person : PersonId) (since till : ℤ) :
    standing (after pid e o s).db.orders person since till ≤
        standing s.db.orders person since till ∨
      ∃ tx id p, e = .commit ∧ s.txs pid = some tx ∧ tx.created = some (id, p) ∧
        standing (after pid e o s).db.orders person since till =
          standing s.db.orders person since till +
            if counts person since till p.opened then p.usdcAmount else 0 := by
  obtain hle | ⟨tx, id, p, he, htx, hcr, -, -, htotal⟩ := total_after hs.clean pid e o
    (fun row => if counts person since till row then row.usdcAmount else 0)
    fun id row row' hrow hstep => counts_step person since till (hs.rows id row hrow).1 hstep
  · exact .inl hle
  · exact .inr ⟨tx, id, p, he, htx, hcr, htotal⟩

/-- Creations that run alone change no row that is there. -/
theorem Reserved.exposure_after (hs : Reserved y solo s) (hl : Licensed y solo pid e o s)
    (hsolo : solo) (lp : LpId) (nowSec : ℤ) :
    lpExposure (after pid e o s).db.orders lp nowSec ≤ lpExposure s.db.orders lp nowSec ∨
      ∃ tx id p, e = .commit ∧ s.txs pid = some tx ∧ tx.created = some (id, p) ∧
        lpExposure (after pid e o s).db.orders lp nowSec =
          lpExposure s.db.orders lp nowSec +
            if exposes lp nowSec p.opened then p.usdcAmount else 0 := by
  obtain hle | ⟨tx, id, p, he, htx, hcr, -, -, htotal⟩ := total_after hs.clean pid e o
    (fun row => if exposes lp nowSec row then row.usdcAmount else 0)
    fun id row row' hrow hstep => by
      obtain ht | ⟨a, rfl⟩ := hl.alone hsolo
      · cases hstep with
        | same => exact le_refl _
        | wrote he | judged he | stoodDown he =>
          subst he
          cases ht
        | accrued he =>
          obtain rfl | ⟨a, rfl⟩ := he <;> cases ht
      · cases hstep with
        | same => exact le_refl _
        | wrote he | judged he | stoodDown he => cases he
        | accrued he => obtain he | ⟨a, he⟩ := he <;> cases he
  · exact .inl hle
  · exact .inr ⟨tx, id, p, he, htx, hcr, htotal⟩

/-- What a process relies on holds across the effects of the others, and across
its own up to the end of its transaction. -/
theorem Reserved.steady (hs : Reserved y solo s) (hp : Permits y pid e o s)
    (hl : Licensed y solo pid e o s) (hq : q ≠ pid ∨ (e ≠ .commit ∧ e ≠ .rollback)) :
    Steady y solo q s (after pid e o s) := by
  refine ⟨fun key hkey => locks_after hp hq hkey, (after_outside pid e o s).1.ge,
    fun person since till hkey => ?_, fun hsolo lp nowSec hkey => ?_⟩
  · obtain hle | ⟨tx, id, p, rfl, htx, hcr, htotal⟩ := hs.standing_after pid e o person since till
    · exact hle
    · -- The person of the new row is locked by the process that commits it.
      have hne : p.personId ≠ person := by
        rintro rfl
        have hpid := Option.some.inj ((hs.rooms pid tx _ htx hcr).2.person.symm.trans hkey)
        exact hq.elim (fun h => h hpid.symm) fun h => h.1 rfl
      have hzero : counts person since till p.opened = false := by
        simp [counts, Placement.opened, hne]
      simp only [hzero, Bool.false_eq_true, if_false, add_zero] at htotal
      exact htotal.le
  · obtain hle | ⟨tx, id, p, rfl, htx, hcr, htotal⟩ := hs.exposure_after hl hsolo lp nowSec
    · exact hle
    · obtain ⟨lp', wallet, hlp, -, hkey', -⟩ := (hs.rooms pid tx _ htx hcr).2.provider
      have hne : lp' ≠ lp := by
        rintro rfl
        have hpid := Option.some.inj (hkey'.symm.trans hkey)
        exact hq.elim (fun h => h hpid.symm) fun h => h.1 rfl
      have hzero : exposes lp nowSec p.opened = false := by
        have hlp' : p.lpId = some lp' := hlp
        simp [exposes, Placement.opened, hlp', hne]
      simp only [hzero, Bool.false_eq_true, if_false, add_zero] at htotal
      exact htotal.le

/-- What every process relies on: nobody touches its transaction. -/
structure Relies (y : Settings) (solo : Prop) (pid : Pid) (s t : Shared) : Prop
    extends Steady y solo pid s t where
  tx : t.txs pid = s.txs pid

theorem Relies.refl (pid : Pid) (s : Shared) : Relies y solo pid s s :=
  ⟨.of_same rfl (le_refl _) fun _ h => h, rfl⟩

theorem Relies.trans (h : Relies y solo pid s t) (h' : Relies y solo pid t u) :
    Relies y solo pid s u :=
  ⟨h.toSteady.trans h'.toSteady, h'.tx.trans h.tx⟩

/-- The tables of quotes and orders change only together, by the commit of a
transaction that has both. -/
def Whole (solo : Prop) (pid : Pid) (s t : Shared) : Prop :=
  (t.db.quotes = s.db.quotes ∧ (solo → t.db.orders = s.db.orders)) ∨
    ∃ c d, s.txs pid = some ⟨some c, some d⟩ ∧ t.db.quotes = useQuote s.db.quotes c ∧
      t.db.orders = s.db.orders.insert d.1 d.2.opened

theorem tables_after (he : e ≠ .commit) :
    (after pid e o s).db.quotes = s.db.quotes ∧
      (isTx e = true ∨ (∃ a, e = .ask a) → (after pid e o s).db.orders = s.db.orders) := by
  by_cases ht : isTx e = true
  · cases e with
    | «begin» | lock | rollback => exact ⟨rfl, fun _ => rfl⟩
    | consumeQuote q =>
      simp only [after, runConsumeQuote]
      repeat' split
      all_goals exact ⟨rfl, fun _ => rfl⟩
    | createOrderRow data needsRef =>
      simp only [after, runCreateOrderRow]
      repeat' split
      all_goals exact ⟨rfl, fun _ => rfl⟩
    | commit => exact absurd rfl he
    | _ => cases ht
  · refine ⟨(after_of_not_tx (by simpa using ht)).2.2, ?_⟩
    rintro (h | ⟨a, rfl⟩)
    · exact absurd h ht
    · rfl

theorem commit_tables {c : QuoteId × ℕ} {d : OrderId × Placement} (hf : o.fails = false)
    (htx : s.txs pid = some ⟨some c, some d⟩) :
    (after pid .commit o s).db.quotes = useQuote s.db.quotes c ∧
      (after pid .commit o s).db.orders = s.db.orders.insert d.1 d.2.opened := by
  simp [after, hf, runCommit, release, Shared.setTx, htx, applyTx]

theorem commit_failed (hf : o.fails = true) : after pid .commit o s = release pid s := by
  simp [after, hf]

theorem Licensed.whole (hl : Licensed y solo pid e o s) : Whole solo pid s (after pid e o s) := by
  by_cases he : e = .commit
  · subst he
    obtain ⟨c, d, htx⟩ := hl
    cases hf : o.fails with
    | true =>
      rw [commit_failed hf]
      exact .inl ⟨rfl, fun _ => rfl⟩
    | false => exact .inr ⟨c, d, htx, commit_tables hf htx⟩
  · exact .inl ⟨(tables_after he).1, fun hsolo => (tables_after he).2 (hl.alone hsolo)⟩

theorem Reserved.rows_after (hs : Reserved y solo s)
    (h : (after pid e o s).db.orders.lookup id = some row) :
    0 ≤ row.usdcAmount ∧ (solo ∨ Marked row) := by
  have hstep : RowStep s pid e id _ _ := row_step hs.clean o id
  rw [h] at hstep
  generalize hrow₀ : s.db.orders.lookup id = r at hstep
  cases r with
  | none =>
    cases hstep with
    | created he htx hcr =>
      exact ⟨(hs.rooms _ _ _ htx hcr).2.amount, .inr fun hex => by cases hex⟩
  | some row₀ =>
    obtain ⟨hamount, hmarked⟩ := hs.rows id row₀ hrow₀
    obtain ⟨_, hrow, hplace⟩ := hstep.kept
    obtain rfl := Option.some.inj hrow
    refine ⟨(congrArg (·.usdcAmount) hplace).symm ▸ hamount, hmarked.imp_right fun hm hex => ?_⟩
    rw [(RowStep.marks hstep).marks hm, hex, Bool.or_true]

theorem Reserved.after (hs : Reserved y solo s) (hp : Permits y pid e o s)
    (hl : Licensed y solo pid e o s) : Reserved y solo (after pid e o s) where
  clean := hs.clean.after hp
  rows id row h := hs.rows_after h
  rooms q tx c htx hcr := by
    by_cases hq : q = pid
    · subst hq
      cases tx_step htx with
      | kept he h₀ =>
        obtain ⟨hconsumed, hroom⟩ := hs.rooms q tx c h₀ hcr
        exact ⟨hconsumed, hroom.steady (hs.steady hp hl (.inr ⟨he.1, he.2.1⟩))⟩
      | begun => cases hcr
      | consumed h₀ hquote hnew =>
        obtain ⟨-, hroom⟩ := hs.rooms q _ c h₀ hcr
        exact ⟨by simp, hroom.steady (hs.steady hp hl (.inr (by simp)))⟩
      | created h₀ hno =>
        obtain rfl := Option.some.inj hcr
        obtain ⟨hroom, c, hc⟩ := hl
        obtain rfl := Option.some.inj (hc.symm.trans h₀)
        exact ⟨by simp, hroom.steady (hs.steady hp ⟨hroom, c, hc⟩ (.inr (by simp)))⟩
    · rw [txs_other hq] at htx
      obtain ⟨hconsumed, hroom⟩ := hs.rooms q tx c htx hcr
      exact ⟨hconsumed, hroom.steady (hs.steady hp hl (.inl hq))⟩

theorem steady_release (hq : q ≠ pid) (s : Shared) : Steady y solo q s (release pid s) :=
  .of_same rfl (le_refl _) fun _ hkey => AdvisoryLock.release_keeps hq.symm hkey

theorem Reserved.release (hs : Reserved y solo s) : Reserved y solo (release pid s) where
  clean := hs.clean.release
  rows := hs.rows
  rooms q tx c htx hcr := by
    rw [txs_release] at htx
    split at htx
    next => cases htx
    next hq =>
      obtain ⟨hconsumed, hroom⟩ := hs.rooms q tx c htx hcr
      exact ⟨hconsumed, hroom.steady (steady_release hq s)⟩

theorem relies_moved {a : Move} (ha : Moves s a) : Relies y solo pid s (moved s a) := by
  cases a with
  | chain | prune => exact ⟨.of_same rfl (le_refl _) fun _ h => h, rfl⟩
  | tick time => exact ⟨.of_same rfl ha fun _ h => h, rfl⟩

theorem Reserved.moved (hs : Reserved y solo s) {a : Move} (ha : Moves s a) :
    Reserved y solo (moved s a) where
  clean := hs.clean.moved a
  rows id row h := hs.rows id row (by rwa [orders_moved] at h)
  rooms q tx c htx hcr := by
    have hrelies : Relies y solo q s (Desk.moved s a) := relies_moved ha
    obtain ⟨hconsumed, hroom⟩ := hs.rooms q tx c (hrelies.tx ▸ htx) hcr
    exact ⟨hconsumed, hroom.steady hrelies.toSteady⟩

def creationProtocol (y : Settings) (allowed : Call → Prop) (solo : Prop) :
    Protocol (desk y allowed) where
  rely := Relies y solo
  guar pid s t := (∀ q, pid ≠ q → Relies y solo q s t) ∧ Whole solo pid s t
  inv := Reserved y solo
  refl := Relies.refl
  trans _ := Relies.trans
  shares _ q _ _ hq _ h := h.1 q hq
  dies pid s hs :=
    ⟨hs.release, fun q hq => ⟨steady_release (Ne.symm hq) s, by simp [desk, txs_release, Ne.symm hq]⟩⟩
  moved _ _ hs ha := ⟨hs.moved ha, fun _ => relies_moved ha⟩

end Lolipay.Coordinator.Reservations
