import Lolipay.Coordinator.Capacity

namespace Lolipay.Coordinator.DailyLimit

open Lolipay.Ledger.Storage Lolipay.Ledger.Invocation Lolipay.Ledger.Runs
open Lolipay.Async.Process Lolipay.Async.Scheduling
open Lolipay.Escrow.Types Lolipay.Escrow.Contract Lolipay.Escrow.Custody
open Lolipay.Coordinator.Orders Lolipay.Coordinator.Writes Lolipay.Coordinator.Database
open Lolipay.Coordinator.Indexer Lolipay.Coordinator.Creation Lolipay.Coordinator.Desk
open Lolipay.Coordinator.Steps Lolipay.Coordinator.Reservations Lolipay.Coordinator.Transactions
open Lolipay.Coordinator.Capacity

variable {y : Settings} {allowed : Call → Prop} {s t : Shared} {pid : Pid} {id : OrderId}
  {out : Option (Pid × Effect)} {w : Office} {tr : DeskHistory}

/-- No window of a day holds more standing orders of a person than the limit. -/
def Within (y : Settings) (s : Shared) : Prop :=
  ∀ person since, standing s.db.orders person since (since + dayMs) ≤ dailyLimit y person

theorem dailyLimit_nonneg (y : Settings) (person : PersonId) : 0 ≤ dailyLimit y person := by
  rw [dailyLimit, dailyLimitBaseUnits]
  exact mul_nonneg (Int.natCast_nonneg _) (by decide)

/-- The room that a creation was given is what its commit takes. -/
theorem Within.step (hw : Within y s) (hs : Reserved y False s)
    (h : Step (desk y allowed) s out t) : Within y t := by
  cases h with
  | same => exact hw
  | dies pid => exact hw
  | moved a ha =>
    intro person since
    change standing (moved s a).db.orders person since (since + dayMs) ≤ _
    rw [orders_moved]
    exact hw person since
  | effect pid e o hp =>
    intro person since
    change standing (after pid e o s).db.orders person since (since + dayMs) ≤ _
    obtain hle | ⟨tx, id, p, -, htx, hcr, htotal⟩ :=
      hs.standing_after pid e o person since (since + dayMs)
    · exact hle.trans (hw person since)
    · rw [htotal]
      split
      next hcounts =>
        simp only [counts, Placement.opened, Bool.and_eq_true] at hcounts
        obtain ⟨⟨⟨hperson, -⟩, htill⟩, -⟩ := hcounts
        obtain rfl := of_decide_eq_true hperson
        have hlate := of_decide_eq_true htill
        have hroom := (hs.rooms pid tx _ htx hcr).2.volume.resolve_left not_false
        exact hroom since (since + dayMs) (by simp only; omega)
      next =>
        rw [add_zero]
        exact hw person since

def excludedAt (id : OrderId) (s : Shared) : Bool :=
  (s.db.orders.lookup id).any fun row => volumeExcludedStatuses.contains row.status

def markedAt (id : OrderId) (s : Shared) : Bool :=
  (s.db.orders.lookup id).any (·.everExcluded)

theorem marked_step (hs : Reserved y False s) (h : Step (desk y allowed) s out t) :
    markedAt id t = (markedAt id s || excludedAt id t) := by
  have hsame (hlook : t.db.orders.lookup id = s.db.orders.lookup id) :
      markedAt id t = (markedAt id s || excludedAt id t) := by
    simp only [markedAt, excludedAt, hlook]
    cases hrow : s.db.orders.lookup id with
    | none => rfl
    | some row =>
      have hmarked := (hs.rows id row hrow).2.resolve_left not_false
      simp only [Option.any_some]
      cases hex : volumeExcludedStatuses.contains row.status with
      | false => simp
      | true => simp [hmarked hex]
  obtain hlook | ⟨pid, e, -, hstep⟩ := row_of_step hs.clean h id
  · exact hsame hlook
  · simp only [markedAt, excludedAt]
    generalize hrow : s.db.orders.lookup id = r at hstep
    generalize hrow' : t.db.orders.lookup id = r' at hstep
    cases r with
    | none =>
      cases hstep with
      | same => rfl
      | created => rfl
    | some row =>
      obtain ⟨row', rfl, -⟩ := hstep.kept
      have hmarked := (hs.rows id row hrow).2.resolve_left not_false
      exact (RowStep.marks hstep).marks hmarked

theorem reserved_of_empty (hs : Opening s) (hempty : s.db.orders = ∅) : Reserved y False s where
  clean := hs.clean
  rows id row h := by simp [hempty] at h
  rooms pid tx c htx := by simp [hs.idle] at htx

theorem run_reserved (hs : Opening s) (hempty : s.db.orders = ∅)
    (hr : Run (machine (desk y allowed)) (idle s) tr w) : Reserved y False w.shared :=
  (run_abides (fun h => h.elim) (reserved_of_empty hs hempty) hr).1

theorem marked_iff (hs : Opening s) (hempty : s.db.orders = ∅)
    (hr : Run (machine (desk y allowed)) (idle s) tr w) (id : OrderId) :
    markedAt id w.shared = true ↔
      (∃ e ∈ tr, excludedAt id e.pre.shared = true) ∨ excludedAt id w.shared = true := by
  induction hr with
  | nil => simp [markedAt, excludedAt, idle, hempty]
  | @snoc tr u hr a ha ih =>
    rw [marked_step (run_reserved hs hempty hr) (step_of_next ha), Bool.or_eq_true]
    apply (or_congr_left ih).trans
    simp only [List.mem_append, List.mem_singleton, or_and_right, exists_or, exists_eq_left]
    rfl

theorem run_within (hs : Opening s) (hempty : s.db.orders = ∅)
    (hr : Run (machine (desk y allowed)) (idle s) tr w) : Within y w.shared := by
  induction hr with
  | nil =>
    intro person since
    simp only [idle, hempty, standing, total_empty]
    exact dailyLimit_nonneg y person
  | snoc hr a ha ih => exact ih.step (run_reserved hs hempty hr) (step_of_next ha)

/-- In every window of a day, the orders of a person that were never expired,
cancelled or refunded stay within the limit of his tier, whatever runs. -/
theorem standing_orders_within_limit (hs : Opening s) (hempty : s.db.orders = ∅)
    (hr : Run (machine (desk y allowed)) (idle s) tr w) :
    (∀ person since, standing w.shared.db.orders person since (since + dayMs) ≤
      dailyLimitBaseUnits (y.tierOf person) y.dailyLimitByTier) ∧
    ∀ id row, w.shared.db.orders.lookup id = some row →
      (row.everExcluded = true ↔
        (∃ e ∈ tr, excludedAt id e.pre.shared = true) ∨ excludedAt id w.shared = true) := by
  refine ⟨run_within hs hempty hr, fun id row hrow => ?_⟩
  rw [← marked_iff hs hempty hr id, markedAt, hrow, Option.any_some]

def smallArgs : CreateArgs :=
  { sampleArgs with
    usdcAmount := 6000000
    fiatAmount := 96000
    payDeadline := 2800
    confirmDeadline := 4600
    disputeDeadline := 11800 }

def smallTrade : Trade := Escrow.Contract.openingTrade sampleConfig 1000 smallArgs

def smallRead : Choice := { onChain := some (decodeTradeStatus smallTrade) }

def limitedOffice : Machine Office DeskAct (Option (Pid × Effect)) :=
  machine (desk smallSettings fun _ => True)

def cancelActions : List DeskAct :=
  [.spawn 1 (.cancelOrder 1 ⟨7⟩), .go 1 {}, .go 1 {}, .go 1 {}, .go 1 {}]

def vacated : Office := final limitedOffice (idle quotedDesk) (creationActions 0 1 ++ cancelActions)

def landingActions : List DeskAct :=
  [.outside (.chain ⟨0⟩ (.call (sampleEnv 1000 [⟨6⟩]) (.createTrade 1 smallArgs))),
    .spawn 3 (.applyEvent ⟨some 1, .tradeCreated, 1, some ⟨0⟩, none⟩), .go 3 {}, .go 3 smallRead,
    .go 3 smallRead]

/-- An order is placed and cancelled, another one takes its room, and then the
transaction that was signed for the first one lands and the indexer sees it. -/
def revivalActions : List DeskAct :=
  creationActions 0 1 ++ cancelActions ++ creationActions 2 2 ++ landingActions

def revived : Office := final limitedOffice (idle quotedDesk) revivalActions

theorem vacated_txs (q : Pid) : vacated.shared.txs q = none := by
  by_cases hq : q = 0
  · subst hq
    rfl
  · change (if q = 0 then none else if q = 0 then some _ else if q = 0 then some _ else
      if q = 0 then some _ else none) = none
    simp only [hq, if_false]

theorem secondCreation_admitted : Admitted limitedOffice vacated (creationActions 2 2) := by
  refine ⟨⟨rfl, trivial⟩, trivial, trivial, rfl, trivial, rfl, trivial, trivial, trivial, trivial,
    trivial, trivial, trivial, trivial, ?_, trivial, trivial, trivial, trivial, trivial, trivial,
    .inl rfl, .inl rfl, trivial, trivial, trivial, trivial, ?_, ?_, trivial, trivial⟩
  · intro stake h
    obtain rfl := Option.some.inj h
    rfl
  · intro q hq tx c htx
    change (if q = 2 then some (⟨none, none⟩ : Tx) else vacated.shared.txs q) = some tx at htx
    rw [if_neg hq, vacated_txs] at htx
    cases htx
  · intro q hq tx c htx
    change (if q = 2 then some (⟨some (2, 1000000), none⟩ : Tx)
      else if q = 2 then some (⟨none, none⟩ : Tx) else vacated.shared.txs q) = some tx at htx
    rw [if_neg hq, if_neg hq, vacated_txs] at htx
    cases htx

theorem revivalActions_admitted : Admitted limitedOffice (idle quotedDesk) revivalActions := by
  have hcancel : Admitted limitedOffice (final limitedOffice (idle quotedDesk) (creationActions 0 1))
      cancelActions :=
    ⟨⟨rfl, trivial⟩, trivial, trivial, .inr ⟨_, .head _, rfl⟩, trivial, trivial⟩
  have hfirst : Admitted limitedOffice (idle quotedDesk) (creationActions 0 1) :=
    admitted_widen (fun _ _ => trivial) creationActions_admitted
  have hland : Admitted limitedOffice
      (final limitedOffice (idle quotedDesk)
        (creationActions 0 1 ++ cancelActions ++ creationActions 2 2)) landingActions :=
    ⟨⟨rfl, by decide⟩, ⟨rfl, trivial⟩, trivial, .inr ⟨_, .head _, rfl⟩, trivial, trivial⟩
  exact ((hfirst.append hcancel).append secondCreation_admitted).append hland

theorem quotedDesk_empty : quotedDesk.db.orders = ∅ := rfl

theorem revived_run : Run (machine (desk smallSettings fun _ => True)) (idle quotedDesk)
    (history limitedOffice (idle quotedDesk) revivalActions) revived :=
  Run.of_actions _ _ revivalActions_admitted

theorem sample_standing_orders :
    Opening quotedDesk ∧ quotedDesk.db.orders = ∅ ∧
    standing revived.shared.db.orders 1 0 dayMs = 6000000 ∧
    ∀ person since, standing revived.shared.db.orders person since (since + dayMs) ≤
      dailyLimitBaseUnits (smallSettings.tierOf person) smallSettings.dailyLimitByTier :=
  ⟨quotedDesk_opening, quotedDesk_empty, by decide +kernel,
    (standing_orders_within_limit quotedDesk_opening quotedDesk_empty revived_run).1⟩

/-- A revived order counts again after its room was given away. -/
theorem revived_order_breaks_limit :
    Opening quotedDesk ∧ quotedDesk.db.orders = ∅ ∧
    Run limitedOffice (idle quotedDesk) (history limitedOffice (idle quotedDesk) revivalActions)
      revived ∧
    ¬used24hBaseUnits revived.shared.db.orders 1 revived.shared.now ≤
      dailyLimitBaseUnits (smallSettings.tierOf 1) smallSettings.dailyLimitByTier :=
  ⟨quotedDesk_opening, quotedDesk_empty, revived_run, by decide +kernel⟩

end Lolipay.Coordinator.DailyLimit
