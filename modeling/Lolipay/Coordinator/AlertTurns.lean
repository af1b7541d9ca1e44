import Lolipay.Lists.Turns
import Lolipay.Coordinator.Raising

namespace Lolipay.Coordinator.AlertTurns

open Lolipay.Lists.Budget Lolipay.Lists.Turns Lolipay.Script.Units
open Lolipay.Coordinator.Alerts Lolipay.Coordinator.Raising

/-- The same alerts raised at every tick of a period, with nothing recorded before. -/
structure Ticks where
  env : Surroundings
  scope : List Text
  alerts : List Alert
  incomplete : ℕ → List Text
  start : ℤ
  period : ℤ
  outbox : List AlertJob
  available : env.Available
  distinct : (alerts.map (·.key)).Nodup

namespace Ticks

def now (r : Ticks) (n : ℕ) : ℤ := r.start + n * r.period

def board (r : Ticks) : ℕ → Board
  | 0 => ⟨∅, r.outbox⟩
  | n + 1 => (raise r.env r.scope r.alerts (r.incomplete n) (r.now n) (r.board n)).2

def sent (r : Ticks) (n : ℕ) : List Alert :=
  (raise r.env r.scope r.alerts (r.incomplete n) (r.now n) (r.board n)).1.sent

def raised (r : Ticks) : List Alert := mineOf r.scope r.alerts

def waiting (r : Ticks) (n : ℕ) : List Alert :=
  neverServed (fun m a => decide (a ∈ r.sent m)) r.raised n

def queue (r : Ticks) (n : ℕ) : List Alert :=
  byUrgencyFirst (dueAlerts r.scope r.alerts (r.now n) (r.board n).alertState)

def isNew (r : Ticks) (n : ℕ) (a : Alert) : Bool := ((r.board n).alertState.lookup a.key).isNone

/-- The reminders that stand before the first alert without a row. -/
def ahead (r : Ticks) (n : ℕ) : List Alert := (r.queue n).takeWhile fun a => !r.isNew n a

/-- No reminder stands before the first new alert, or they fit the message with it. -/
def Unhindered (r : Ticks) (n : ℕ) : Prop :=
  r.ahead n = [] ∨ ∃ a, (r.queue n).find? (r.isNew n) = some a ∧
    ((r.ahead n ++ [a]).map (costOf ·.text)).sum ≤ alertTextBudget

variable {r : Ticks} {n : ℕ} {a b : Alert}

theorem sent_eq (r : Ticks) (n : ℕ) :
    r.sent n = chosen r.scope r.alerts (r.now n) (r.board n).alertState := by
  simp [sent, raise, chosen, r.available.reads]

theorem due_sublist (r : Ticks) (n : ℕ) :
    (dueAlerts r.scope r.alerts (r.now n) (r.board n).alertState).Sublist r.raised :=
  List.filter_sublist

theorem sent_nodup (r : Ticks) (n : ℕ) : ((r.sent n).map (·.key)).Nodup := by
  have hdue : ((dueAlerts r.scope r.alerts (r.now n) (r.board n).alertState).map (·.key)).Nodup :=
    r.distinct.sublist (((due_sublist r n).trans List.filter_sublist).map _)
  have hordered := (((byUrgencyFirst_perm _).map (·.key)).nodup_iff).mpr hdue
  rw [sent_eq]
  exact hordered.sublist (((included_front _ _).sublist).map _)

theorem mem_raised_of_sent (h : a ∈ r.sent n) : a ∈ r.raised := by
  rw [sent_eq] at h
  exact (due_of_chosen h).1

theorem eq_of_key (ha : a ∈ r.raised) (hb : b ∈ r.raised) (h : a.key = b.key) : a = b :=
  List.inj_on_of_nodup_map r.distinct (List.mem_of_mem_filter ha) (List.mem_of_mem_filter hb) h

theorem lookup_succ (ha : a ∈ r.raised) :
    (a ∈ r.sent n → ∃ row, (r.board (n + 1)).alertState.lookup a.key = some row ∧
      row.fingerprint = a.fingerprint ∧ row.lastSentAt = r.now n) ∧
    (a ∉ r.sent n → (r.board (n + 1)).alertState.lookup a.key =
      (r.board n).alertState.lookup a.key) := by
  have hnodup := sent_nodup r n
  rw [sent_eq] at hnodup ⊢
  obtain ⟨rows, hraise, hchosen, hothers⟩ :=
    raise_of_distinct_keys (r.incomplete n) r.available hnodup
  have hrows : (r.board (n + 1)).alertState = rows := by
    rw [board, hraise, publish_alertState]
  rw [hrows]
  constructor
  · intro hsent
    exact ⟨_, hchosen a hsent, rfl, rfl⟩
  · intro hnot
    apply hothers a ha
    intro hkey
    obtain ⟨b, hb, hba⟩ := List.mem_map.mp hkey
    have hab := eq_of_key ha (due_of_chosen hb).1 hba.symm
    exact hnot (hab ▸ hb)

theorem lookup_eq_none_iff (ha : a ∈ r.raised) :
    (r.board n).alertState.lookup a.key = none ↔ ∀ m < n, a ∉ r.sent m := by
  induction n with
  | zero => simp [board]
  | succ n ih =>
    have hstep := lookup_succ (n := n) ha
    by_cases hsent : a ∈ r.sent n
    · obtain ⟨row, hrow, -⟩ := hstep.1 hsent
      rw [hrow]
      constructor
      · intro h
        cases h
      · intro h
        exact absurd hsent (h n n.lt_succ_self)
    · rw [hstep.2 hsent, ih]
      constructor
      · intro h m hm
        obtain hm | rfl := Nat.lt_succ_iff_lt_or_eq.mp hm
        · exact h m hm
        · exact hsent
      · intro h m hm
        exact h m (Nat.lt_succ_of_lt hm)

theorem mem_waiting_iff : a ∈ r.waiting n ↔ a ∈ r.raised ∧ r.isNew n a = true := by
  rw [waiting, mem_neverServed, isNew, Option.isNone_iff_eq_none]
  constructor
  · rintro ⟨ha, hnever⟩
    refine ⟨ha, (lookup_eq_none_iff ha).mpr ?_⟩
    intro m hm
    simpa using hnever m hm
  · rintro ⟨ha, hnew⟩
    refine ⟨ha, ?_⟩
    intro m hm
    simpa using (lookup_eq_none_iff ha).mp hnew m hm

theorem mem_queue_of_waiting (h : a ∈ r.waiting n) : a ∈ r.queue n := by
  obtain ⟨ha, hnew⟩ := mem_waiting_iff.mp h
  rw [queue, (byUrgencyFirst_perm _).mem_iff, mem_dueAlerts]
  rw [isNew, Option.isNone_iff_eq_none] at hnew
  exact ⟨ha, by rw [hnew]; rfl⟩

/-- A tick that owes somebody a first message sends one exactly when it is
unhindered. -/
theorem sends_new_iff (hwaiting : ∃ a, a ∈ r.waiting n) :
    (∃ a ∈ r.waiting n, a ∈ r.sent n) ↔ r.Unhindered n := by
  obtain ⟨w, hw⟩ := hwaiting
  have hwqueue := mem_queue_of_waiting hw
  have hwnew := (mem_waiting_iff.mp hw).2
  obtain ⟨first, hfirst⟩ : ∃ a, (r.queue n).find? (r.isNew n) = some a := by
    rw [← Option.isSome_iff_exists, List.find?_isSome]
    exact ⟨w, hwqueue, hwnew⟩
  have hprefix : r.sent n <+: r.queue n := by
    rw [sent_eq]
    exact included_front _ _
  have hnew : (∃ a ∈ r.waiting n, a ∈ r.sent n) ↔ ∃ a ∈ r.sent n, r.isNew n a = true := by
    constructor
    · rintro ⟨a, ha, hsent⟩
      exact ⟨a, hsent, (mem_waiting_iff.mp ha).2⟩
    · rintro ⟨a, hsent, ha⟩
      exact ⟨a, mem_waiting_iff.mpr ⟨mem_raised_of_sent hsent, ha⟩, hsent⟩
  have hfront : r.ahead n ++ [first] <+: r.queue n :=
    (exists_marked_iff List.prefix_rfl hfirst).mp ⟨w, hwqueue, hwnew⟩
  rw [hnew, exists_marked_iff hprefix hfirst]
  change r.ahead n ++ [first] <+: r.sent n ↔ _
  by_cases hahead : r.ahead n = []
  · have hsome : dueAlerts r.scope r.alerts (r.now n) (r.board n).alertState ≠ [] := by
      intro hnone
      rw [queue, hnone] at hwqueue
      simp [byUrgencyFirst] at hwqueue
    have hsent : 1 ≤ (r.sent n).length := by
      rw [sent_eq]
      exact List.length_pos_iff.mpr (included_ne_nil hsome _)
    rw [hahead] at hfront ⊢
    constructor
    · intro _
      exact Or.inl hahead
    · intro _
      exact List.prefix_of_prefix_length_le hfront hprefix hsent
  · have htwo : 2 ≤ (r.ahead n ++ [first]).length := by
      have hpos := List.length_pos_iff.mpr hahead
      rw [List.length_append, List.length_singleton]
      omega
    rw [sent_eq, chosen, front_included_iff hfront htwo, Unhindered, hfirst]
    simp [hahead]

def lastSent (r : Ticks) (a : Alert) : ℕ → Option ℤ
  | 0 => none
  | n + 1 => if a ∈ r.sent n then some (r.now n) else r.lastSent a n

def isDueAgain (r : Ticks) (n : ℕ) (a : Alert) : Bool :=
  (r.lastSent a n).all fun time => intervalOf a.urgency ≤ r.now n - time

theorem lookup_lastSent (ha : a ∈ r.raised) :
    ((r.board n).alertState.lookup a.key).map (fun row => (row.fingerprint, row.lastSentAt)) =
      (r.lastSent a n).map fun time => (a.fingerprint, time) := by
  induction n with
  | zero => rfl
  | succ n ih =>
    have hstep := lookup_succ (n := n) ha
    rw [lastSent]
    by_cases hsent : a ∈ r.sent n
    · obtain ⟨row, hrow, hfingerprint, htime⟩ := hstep.1 hsent
      rw [hrow, if_pos hsent, Option.map_some, Option.map_some, hfingerprint, htime]
    · rw [hstep.2 hsent, if_neg hsent, ih]

theorem isDue_lookup (ha : a ∈ r.raised) :
    isDue (r.now n) a ((r.board n).alertState.lookup a.key) = r.isDueAgain n a := by
  have hlookup := lookup_lastSent (n := n) ha
  rw [isDueAgain]
  cases hrow : (r.board n).alertState.lookup a.key with
  | none =>
    cases hlast : r.lastSent a n with
    | none => rfl
    | some time => simp [hrow, hlast] at hlookup
  | some row =>
    cases hlast : r.lastSent a n with
    | none => simp [hrow, hlast] at hlookup
    | some time =>
      simp only [hrow, hlast, Option.map_some, Option.some.injEq, Prod.mk.injEq] at hlookup
      simp [isDue, hlookup.1, hlookup.2]

theorem dueAlerts_eq (r : Ticks) (n : ℕ) :
    dueAlerts r.scope r.alerts (r.now n) (r.board n).alertState =
      r.raised.filter (r.isDueAgain n) := by
  rw [dueAlerts, raised]
  apply List.filter_congr
  intro a ha
  rw [byKey_ownedKnown (inScope_of_mem ha), isDue_lookup ha]

/-- Urgent alerts of which no two fit one message are sent one at a time, in the
order in which they are raised. -/
theorem sent_of_large
    (h : ∀ a ∈ r.raised, a.isUrgent = true ∧ alertTextBudget < 2 * costOf a.text) :
    r.sent n = (r.raised.filter (r.isDueAgain n)).take 1 := by
  have hall : ∀ a ∈ r.raised.filter (r.isDueAgain n), a.isUrgent = true := by
    intro a ha
    exact (h a (List.mem_of_mem_filter ha)).1
  have hnone : (r.raised.filter (r.isDueAgain n)).filter (fun a => !a.isUrgent) = [] := by
    rw [List.filter_eq_nil_iff]
    intro a ha
    simp [hall a ha]
  have hurgent : byUrgencyFirst (r.raised.filter (r.isDueAgain n)) =
      r.raised.filter (r.isDueAgain n) := by
    rw [byUrgencyFirst_eq, hnone, List.append_nil, List.filter_eq_self.mpr hall]
  rw [sent_eq, chosen, dueAlerts_eq, included_of_large, hurgent]
  intro a ha
  exact (h a (List.mem_of_mem_filter ha)).2

theorem raised_nodup (r : Ticks) : r.raised.Nodup :=
  (r.distinct.sublist (List.filter_sublist.map _)).of_map

theorem lastSent_of_turns (h : ∀ m < n, r.sent m = r.raised[m]?.toList) {i : ℕ}
    (hi : i < r.raised.length) :
    r.lastSent r.raised[i] n = if i < n then some (r.now i) else none := by
  induction n with
  | zero => rfl
  | succ n ih =>
    have hrest := ih fun m hm => h m (Nat.lt_succ_of_lt hm)
    have hturn : r.raised[i] ∈ r.sent n ↔ i = n := by
      rw [h n n.lt_succ_self, Option.mem_toList, ← List.getElem?_eq_getElem hi, eq_comm,
        List.getElem?_inj hi (raised_nodup r)]
    rw [lastSent, hrest]
    obtain hlt | rfl | hgt := Nat.lt_trichotomy i n
    · rw [if_neg (fun hsent => (hturn.mp hsent).not_lt hlt), if_pos hlt,
        if_pos (Nat.lt_succ_of_lt hlt)]
    · rw [if_pos (hturn.mpr rfl), if_pos i.lt_succ_self]
    · rw [if_neg (fun hsent => (hturn.mp hsent).not_gt hgt), if_neg (by omega), if_neg (by omega)]

/-- Until the first reminder comes due, such alerts are sent in the order in which
they are raised. -/
theorem sent_first_round (hperiod : 0 ≤ r.period)
    (h : ∀ a ∈ r.raised, a.isUrgent = true ∧ alertTextBudget < 2 * costOf a.text)
    (hround : n * r.period < intervalOf .urgent) : r.sent n = r.raised[n]?.toList := by
  induction n using Nat.strong_induction_on with
  | _ n ih =>
    have hbefore : ∀ m < n, r.sent m = r.raised[m]?.toList := by
      intro m hm
      apply ih m hm
      have hle : (m : ℤ) * r.period ≤ n * r.period :=
        mul_le_mul_of_nonneg_right (by omega) hperiod
      omega
    have hdue : ∀ (i : ℕ) (hi : i < r.raised.length),
        r.isDueAgain n r.raised[i] = decide (n ≤ i) := by
      intro i hi
      rw [isDueAgain, lastSent_of_turns hbefore hi]
      by_cases hlt : i < n
      · have hurgent : r.raised[i].urgency = .urgent := by
          simpa [Alert.isUrgent] using (h _ (List.getElem_mem hi)).1
        have hpos : 0 ≤ (i : ℤ) * r.period := mul_nonneg (by omega) hperiod
        simp only [if_pos hlt, hurgent, now, Option.all_some, decide_eq_decide]
        omega
      · simp only [if_neg hlt, Option.all_none]
        simp [Nat.not_lt.mp hlt]
    have hleft : r.raised.filter (r.isDueAgain n) = r.raised.drop n := by
      conv_lhs => rw [← List.take_append_drop n r.raised]
      rw [List.filter_append]
      have htook : (r.raised.take n).filter (r.isDueAgain n) = [] := by
        rw [List.filter_eq_nil_iff]
        intro a ha
        obtain ⟨i, hi, rfl⟩ := List.mem_iff_getElem.mp ha
        rw [List.length_take] at hi
        rw [List.getElem_take, hdue i (by omega), decide_eq_true_eq]
        omega
      have hkept : (r.raised.drop n).filter (r.isDueAgain n) = r.raised.drop n := by
        rw [List.filter_eq_self]
        intro a ha
        obtain ⟨i, hi, rfl⟩ := List.mem_iff_getElem.mp ha
        rw [List.length_drop] at hi
        rw [List.getElem_drop, hdue (n + i) (by omega), decide_eq_true_eq]
        omega
      rw [htook, hkept, List.nil_append]
    rw [sent_of_large h, hleft, List.take_one, List.head?_drop]

/-- Every tick that owes somebody a first message sends one exactly when it is
unhindered, and where all of them are, every alert is sent within as many ticks as
there are alerts. -/
theorem alerts_take_turns (r : Ticks) :
    (∀ n, (∃ a, a ∈ r.waiting n) → ((∃ a ∈ r.waiting n, a ∈ r.sent n) ↔ r.Unhindered n)) ∧
      ((∀ n < r.raised.length, (∃ a, a ∈ r.waiting n) → r.Unhindered n) →
        ∀ a ∈ r.raised, ∃ n < r.raised.length, a ∈ r.sent n) := by
  refine ⟨fun n hwaiting => sends_new_iff hwaiting, ?_⟩
  intro hunhindered a ha
  have hall := all_served (fun m a => decide (a ∈ r.sent m)) r.raised ?_ a ha
  · simpa using hall
  · intro n hn hwaiting
    obtain ⟨b, hb, hsent⟩ := (sends_new_iff hwaiting).mpr (hunhindered n hn hwaiting)
    exact ⟨b, hb, by simpa using hsent⟩

end Ticks

section Sample

def longAlert (n : UInt16) : Alert where
  key := units "slash_window_open:" ++ [n]
  fingerprint := units "under-1h"
  urgency := .urgent
  text := List.replicate 1000 32

theorem longAlert_inj (m n : UInt16) : longAlert m = longAlert n ↔ m = n := by
  constructor
  · intro h
    exact List.singleton_inj.mp (List.append_cancel_left (congrArg Alert.key h))
  · rintro rfl
    rfl

theorem costOf_longAlert (n : UInt16) : costOf (longAlert n).text = 1003 := by
  rw [costOf, longAlert, List.length_replicate]

def longAlerts : List Alert := [longAlert 1, longAlert 2, longAlert 3, longAlert 4]

theorem longAlerts_distinct : (longAlerts.map (·.key)).Nodup := by decide

/-- Four urgent alerts of which no two fit one message. -/
def longTicksEvery (period : ℤ) : Ticks where
  env := sampleEnv
  scope := [units "slash_window_open"]
  alerts := longAlerts
  incomplete := fun _ => []
  start := 0
  period := period
  outbox := []
  available := sampleEnv_available
  distinct := longAlerts_distinct

def longTicks : Ticks := longTicksEvery (5 * 60 * 1000)

variable {period : ℤ}

theorem raised_longTicks : (longTicksEvery period).raised = longAlerts := by
  apply List.filter_eq_self.mpr
  intro a ha
  simp only [longTicksEvery, longAlerts, List.mem_cons, List.not_mem_nil, or_false] at ha
  change inScope [units "slash_window_open"] a.key = true
  obtain rfl | rfl | rfl | rfl := ha <;> decide

theorem large_longTicks : ∀ a ∈ (longTicksEvery period).raised,
    a.isUrgent = true ∧ alertTextBudget < 2 * costOf a.text := by
  rw [raised_longTicks]
  intro a ha
  simp only [longAlerts, List.mem_cons, List.not_mem_nil, or_false] at ha
  obtain rfl | rfl | rfl | rfl := ha <;>
    exact ⟨rfl, by rw [costOf_longAlert, alertTextBudget]; omega⟩

theorem sent_longTicks (hperiod : 0 ≤ period) {n : ℕ} (hround : n * period < 900000) :
    (longTicksEvery period).sent n = longAlerts[n]?.toList := by
  rw [Ticks.sent_first_round hperiod large_longTicks hround, raised_longTicks]

/-- At four minutes a tick all four are sent before the first is due again. -/
theorem unhindered_longTicks {n : ℕ} (hn : n < 4) :
    (longTicksEvery (4 * 60 * 1000)).Unhindered n := by
  have hsent : ∀ m ≤ n, (longTicksEvery (4 * 60 * 1000)).sent m = longAlerts[m]?.toList := by
    intro m hm
    apply sent_longTicks <;> omega
  have hturn : longAlerts[n]? = some (longAlert (UInt16.ofNat (n + 1))) := by
    obtain rfl | rfl | rfl | rfl : n = 0 ∨ n = 1 ∨ n = 2 ∨ n = 3 := by omega
    all_goals rfl
  have hwaiting : longAlert (UInt16.ofNat (n + 1)) ∈
      (longTicksEvery (4 * 60 * 1000)).waiting n := by
    rw [Ticks.waiting, mem_neverServed, raised_longTicks]
    refine ⟨List.mem_of_getElem? hturn, ?_⟩
    intro m hm
    have hlength : m < longAlerts.length := by change m < 4; omega
    simp only [hsent m hm.le, decide_eq_false_iff_not, Option.mem_toList, ← hturn]
    rw [List.getElem?_inj hlength longAlerts_distinct.of_map]
    exact hm.ne
  apply (Ticks.sends_new_iff ⟨_, hwaiting⟩).mp
  refine ⟨_, hwaiting, ?_⟩
  rw [hsent n le_rfl, hturn]
  simp

theorem long_alerts_take_turns :
    ∀ a ∈ longAlerts, ∃ n < 4, a ∈ (longTicksEvery (4 * 60 * 1000)).sent n := by
  have hturns := (Ticks.alerts_take_turns (longTicksEvery (4 * 60 * 1000))).2
  rw [raised_longTicks] at hturns
  apply hturns
  intro n hn _
  exact unhindered_longTicks hn

/-- The fourth alert was never sent when the fourth tick comes, at which the first
is due again and goes before it. -/
theorem fourth_alert_passed_over :
    longAlert 4 ∈ longTicks.waiting 3 ∧ ¬ ∃ a ∈ longTicks.waiting 3, a ∈ longTicks.sent 3 := by
  have hsent : ∀ m < 3, longTicks.sent m = longAlerts[m]?.toList := by
    intro m hm
    apply sent_longTicks <;> omega
  have h3 : longTicks.sent 3 = [longAlert 1] := by
    have hfirst : longTicks.raised = longAlert 1 :: longAlerts.tail := raised_longTicks
    have hlast : longTicks.lastSent (longAlert 1) 3 = some 0 := by
      simp [Ticks.lastSent, hsent, longAlerts, longAlert_inj]
      rfl
    have hdue : longTicks.isDueAgain 3 (longAlert 1) = true := by
      rw [Ticks.isDueAgain, hlast]
      rfl
    rw [Ticks.sent_of_large (r := longTicks) large_longTicks, hfirst,
      List.filter_cons_of_pos hdue]
    rfl
  constructor
  · rw [Ticks.waiting, mem_neverServed]
    refine ⟨?_, ?_⟩
    · change _ ∈ (longTicksEvery _).raised
      rw [raised_longTicks]
      simp [longAlerts]
    · intro m hm
      rw [hsent m hm]
      obtain rfl | rfl | rfl : m = 0 ∨ m = 1 ∨ m = 2 := by omega
      all_goals simp [longAlerts, longAlert_inj]
  · rintro ⟨a, hwaiting, hsent3⟩
    rw [h3, List.mem_singleton] at hsent3
    have hnever := (mem_neverServed.mp hwaiting).2 0 (by omega)
    simp [hsent3, hsent 0, longAlerts] at hnever

end Sample

end Lolipay.Coordinator.AlertTurns
