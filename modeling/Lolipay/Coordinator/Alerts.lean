import Lolipay.Lists.Budget
import Lolipay.Script.Units

namespace Lolipay.Coordinator.Alerts

open Lolipay.Lists.Budget Lolipay.Script.Units

inductive Urgency where
  | routine
  | urgent
  deriving DecidableEq, Repr

structure Alert where
  key : Text
  fingerprint : Text
  urgency : Urgency
  text : Text
  deriving DecidableEq, Repr

def Alert.isUrgent (a : Alert) : Bool := a.urgency == .urgent

/-- What the sort asks of two alerts; zero keeps them as they stand. -/
def compareUrgency (a b : Alert) : ℤ :=
  if a.urgency = b.urgency then 0 else if a.urgency = .urgent then -1 else 1

/-- The sort of the language is stable. -/
def byUrgencyFirst (alerts : List Alert) : List Alert :=
  alerts.mergeSort fun a b => compareUrgency a b ≤ 0

def alertTextBudget : ℕ := 1800

def costOf (text : Text) : ℕ := text.length + 3

/-- The loop of `fitToBudget`, left at the first alert that is too long. -/
def fitLoop (budget : ℕ) : List Alert → List Alert → ℕ → List Alert
  | [], included, _ => included
  | a :: rest, included, used =>
    if used + costOf a.text > budget then included
    else fitLoop budget rest (included ++ [a]) (used + costOf a.text)

structure Fit where
  included : List Alert
  omitted : ℕ

def fitToBudget (alerts : List Alert) (budget : ℕ) : Fit :=
  let ordered := byUrgencyFirst alerts
  let included := fitLoop budget ordered [] 0
  let included := if included.length = 0 then ordered.take 1 else included
  ⟨included, alerts.length - included.length⟩

/-- The loop of `summarise`, with a list of texts. -/
def showLoop (budget : ℕ) : List Alert → List Text → ℕ → List Text
  | [], shown, _ => shown
  | a :: rest, shown, used =>
    if used + costOf a.text > budget then shown
    else showLoop budget rest (shown ++ [a.text]) (used + costOf a.text)

def shownTexts (alerts : List Alert) (budget : ℕ) : List Text :=
  let shown := showLoop budget (byUrgencyFirst alerts) [] 0
  if shown.length = 0 then (alerts.take 1).map (·.text.take budget) else shown

def omittedTexts (alerts : List Alert) (budget : ℕ) : ℕ :=
  alerts.length - (shownTexts alerts budget).length

def separator : Text := units " · "

def summarise (alerts : List Alert) (budget : ℕ) : Text :=
  let body := separator.intercalate (shownTexts alerts budget)
  let omitted := omittedTexts alerts budget
  if omitted > 0 then body ++ units (" · and " ++ toString omitted ++ " more not listed") else body

theorem length_separator : separator.length = 3 := by decide

theorem compareUrgency_eq :
    (fun a b : Alert => decide (compareUrgency a b ≤ 0)) = markedFirst Alert.isUrgent := by
  funext a b
  cases ha : a.urgency <;> cases hb : b.urgency <;>
    simp [compareUrgency, markedFirst, Alert.isUrgent, ha, hb]

theorem byUrgencyFirst_eq (alerts : List Alert) :
    byUrgencyFirst alerts =
      alerts.filter (·.isUrgent) ++ alerts.filter (fun a => !a.isUrgent) := by
  rw [byUrgencyFirst, compareUrgency_eq, mergeSort_markedFirst]

theorem byUrgencyFirst_perm (alerts : List Alert) : (byUrgencyFirst alerts).Perm alerts :=
  List.mergeSort_perm alerts _

theorem length_byUrgencyFirst (alerts : List Alert) :
    (byUrgencyFirst alerts).length = alerts.length :=
  (byUrgencyFirst_perm alerts).length_eq

theorem byUrgencyFirst_of_front {alerts included : List Alert}
    (h : included <+: byUrgencyFirst alerts) : byUrgencyFirst included = included := by
  have hsorted : (byUrgencyFirst alerts).Pairwise fun a b => markedFirst Alert.isUrgent a b := by
    rw [byUrgencyFirst, compareUrgency_eq]
    exact List.pairwise_mergeSort (markedFirst_trans _) (markedFirst_total _) alerts
  rw [byUrgencyFirst, compareUrgency_eq]
  exact List.mergeSort_of_pairwise (hsorted.sublist h.sublist)

variable {alerts : List Alert}

theorem fitLoop_eq (budget : ℕ) (ordered included : List Alert) {used : ℕ} (h : used ≤ budget) :
    fitLoop budget ordered included used =
      included ++ fitting (fun a => costOf a.text) (budget - used) ordered := by
  induction ordered generalizing included used with
  | nil => simp [fitLoop, fitting]
  | cons a rest ih =>
    unfold fitLoop fitting
    by_cases ha : used + costOf a.text > budget
    · rw [if_pos ha, if_neg (by omega), List.append_nil]
    · rw [if_neg ha, if_pos (by omega), ih _ (by omega), Nat.sub_add_eq, List.append_assoc]
      rfl

theorem showLoop_eq (budget : ℕ) (ordered : List Alert) (included : List Alert) (used : ℕ) :
    showLoop budget ordered (included.map (·.text)) used =
      (fitLoop budget ordered included used).map (·.text) := by
  induction ordered generalizing included used with
  | nil => rfl
  | cons a rest ih =>
    unfold showLoop fitLoop
    split_ifs
    · rfl
    · rw [← ih, List.map_append]
      rfl

def selected (alerts : List Alert) (budget : ℕ) : List Alert :=
  fitting (fun a => costOf a.text) budget (byUrgencyFirst alerts)

theorem fitLoop_start (alerts : List Alert) (budget : ℕ) :
    fitLoop budget (byUrgencyFirst alerts) [] 0 = selected alerts budget :=
  fitLoop_eq budget (byUrgencyFirst alerts) [] (Nat.zero_le budget)

theorem included_eq (alerts : List Alert) (budget : ℕ) :
    (fitToBudget alerts budget).included =
      if selected alerts budget = [] then (byUrgencyFirst alerts).take 1
      else selected alerts budget := by
  rw [fitToBudget, fitLoop_start]
  by_cases hnone : selected alerts budget = []
  · simp [hnone]
  · simp [hnone]

theorem shownTexts_eq (alerts : List Alert) (budget : ℕ) :
    shownTexts alerts budget =
      if selected alerts budget = [] then (alerts.take 1).map (·.text.take budget)
      else (selected alerts budget).map (·.text) := by
  have hloop := showLoop_eq budget (byUrgencyFirst alerts) [] 0
  rw [List.map_nil, fitLoop_start] at hloop
  rw [shownTexts, hloop]
  by_cases hnone : selected alerts budget = []
  · simp [hnone]
  · simp [hnone]

theorem included_front (alerts : List Alert) (budget : ℕ) :
    (fitToBudget alerts budget).included <+: byUrgencyFirst alerts := by
  rw [included_eq]
  split_ifs
  · exact List.take_prefix 1 _
  · exact fitting_front budget _

theorem length_included_le (alerts : List Alert) (budget : ℕ) :
    (fitToBudget alerts budget).included.length ≤ alerts.length :=
  length_byUrgencyFirst alerts ▸ (included_front alerts budget).length_le

theorem included_ne_nil {alerts : List Alert} (h : alerts ≠ []) (budget : ℕ) :
    (fitToBudget alerts budget).included ≠ [] := by
  rw [included_eq]
  split_ifs with hnone
  · have hpos : 0 < (byUrgencyFirst alerts).length := by
      rw [length_byUrgencyFirst]
      exact List.length_pos_iff.mpr h
    rw [ne_eq, List.take_eq_nil_iff]
    simpa using List.length_pos_iff.mp hpos
  · exact hnone

theorem included_cases (alerts : List Alert) (budget : ℕ) :
    ((fitToBudget alerts budget).included.map (costOf ·.text)).sum ≤ budget ∨
      ∃ a, (fitToBudget alerts budget).included = [a] ∧ budget < costOf a.text := by
  rw [included_eq]
  split_ifs with hnone
  · rw [selected] at hnone
    cases hordered : byUrgencyFirst alerts with
    | nil => exact Or.inl (Nat.zero_le budget)
    | cons a rest =>
      rw [hordered, fitting_eq_nil_iff] at hnone
      exact Or.inr ⟨a, rfl, hnone⟩
  · exact Or.inl (sum_fitting_le budget _)

/-- Two alerts or more at the front of the order are included exactly when they fit. -/
theorem front_included_iff {budget : ℕ} {front : List Alert}
    (hfront : front <+: byUrgencyFirst alerts) (htwo : 2 ≤ front.length) :
    front <+: (fitToBudget alerts budget).included ↔ (front.map (costOf ·.text)).sum ≤ budget := by
  rw [included_eq]
  split_ifs with hnone
  · rw [← front_fitting_iff hfront, show fitting _ budget _ = [] from hnone, List.prefix_nil]
    constructor
    · intro h
      have hlen := h.length_le
      rw [List.length_take] at hlen
      omega
    · rintro rfl
      simp at htwo
  · exact front_fitting_iff hfront

theorem included_of_large {budget : ℕ} (h : ∀ a ∈ alerts, budget < 2 * costOf a.text) :
    (fitToBudget alerts budget).included = (byUrgencyFirst alerts).take 1 := by
  have hlarge : ∀ a ∈ byUrgencyFirst alerts, budget < 2 * costOf a.text := by
    intro a ha
    exact h a ((byUrgencyFirst_perm alerts).mem_iff.mp ha)
  rw [included_eq, selected]
  obtain hnone | hone := fitting_of_large hlarge
  · rw [if_pos hnone]
  · rw [hone, ite_self]

theorem included_of_sum_le {budget : ℕ}
    (h : (alerts.map (costOf ·.text)).sum ≤ budget) :
    (fitToBudget alerts budget).included = byUrgencyFirst alerts := by
  have hsum : ((byUrgencyFirst alerts).map (costOf ·.text)).sum ≤ budget := by
    rwa [((byUrgencyFirst_perm alerts).map _).sum_nat]
  rw [included_eq, selected, fitting_of_sum_le hsum]
  split_ifs with hnone
  · simp [hnone]
  · rfl

theorem selected_included {included : List Alert} {budget : ℕ}
    (hordered : byUrgencyFirst included = included)
    (hfit : (included.map (costOf ·.text)).sum ≤ budget) : selected included budget = included := by
  rw [selected, hordered]
  exact fitting_of_sum_le hfit

theorem shown_of_fit {included : List Alert} {budget : ℕ}
    (hordered : byUrgencyFirst included = included)
    (hfit : (included.map (costOf ·.text)).sum ≤ budget) :
    shownTexts included budget = included.map (·.text) := by
  rw [shownTexts_eq, selected_included hordered hfit]
  split_ifs with hnone
  · simp [hnone]
  · rfl

theorem shown_of_long {a : Alert} {budget : ℕ} (hlong : budget < costOf a.text) :
    shownTexts [a] budget = [a.text.take budget] := by
  have hnone : selected [a] budget = [] := by
    rw [selected, byUrgencyFirst, List.mergeSort_singleton]
    exact fitting_eq_nil_iff.mpr hlong
  rw [shownTexts_eq, if_pos hnone]
  rfl

/-- What `summarise` makes of the alerts that `fitToBudget` selected: their texts
in order, one that is too long for the budget cut to it, and none left out. -/
theorem summarise_included (alerts : List Alert) (budget : ℕ) :
    omittedTexts (fitToBudget alerts budget).included budget = 0 ∧
      summarise (fitToBudget alerts budget).included budget =
        separator.intercalate (shownTexts (fitToBudget alerts budget).included budget) ∧
      (((fitToBudget alerts budget).included.map (costOf ·.text)).sum ≤ budget ∧
          shownTexts (fitToBudget alerts budget).included budget =
            (fitToBudget alerts budget).included.map (·.text) ∨
        ∃ a, (fitToBudget alerts budget).included = [a] ∧ budget < costOf a.text ∧
          shownTexts (fitToBudget alerts budget).included budget = [a.text.take budget]) := by
  have hordered := byUrgencyFirst_of_front (included_front alerts budget)
  have hcases := included_cases alerts budget
  generalize (fitToBudget alerts budget).included = included at hordered hcases
  have homitted : omittedTexts included budget = 0 := by
    obtain hfit | ⟨a, rfl, hlong⟩ := hcases
    · rw [omittedTexts, shown_of_fit hordered hfit, List.length_map, Nat.sub_self]
    · rw [omittedTexts, shown_of_long hlong]
      rfl
  refine ⟨homitted, ?_, ?_⟩
  · simp [summarise, homitted]
  · obtain hfit | ⟨a, rfl, hlong⟩ := hcases
    · exact Or.inl ⟨hfit, shown_of_fit hordered hfit⟩
    · exact Or.inr ⟨a, rfl, hlong, shown_of_long hlong⟩

theorem length_summarise_included (alerts : List Alert) (budget : ℕ) :
    (summarise (fitToBudget alerts budget).included budget).length ≤ budget := by
  obtain ⟨-, hbody, ⟨hfit, hshown⟩ | ⟨a, ha, -, hshown⟩⟩ := summarise_included alerts budget
  · rw [hbody, hshown]
    apply (length_intercalate_le _ _).trans
    simpa only [List.map_map, Function.comp_def, length_separator, costOf] using hfit
  · rw [hbody, hshown, List.intercalate_singleton]
    exact List.length_take_le budget a.text

/-- What is selected to be recorded is what the message shows. -/
theorem selected_are_shown (alerts : List Alert) (budget : ℕ) :
    (fitToBudget alerts budget).included <+: byUrgencyFirst alerts ∧
      byUrgencyFirst alerts =
        alerts.filter (·.isUrgent) ++ alerts.filter (fun a => !a.isUrgent) ∧
      (alerts ≠ [] → (fitToBudget alerts budget).included ≠ []) ∧
      (fitToBudget alerts budget).included.length + (fitToBudget alerts budget).omitted =
        alerts.length ∧
      (summarise (fitToBudget alerts budget).included budget).length ≤ budget ∧
      omittedTexts (fitToBudget alerts budget).included budget = 0 ∧
      summarise (fitToBudget alerts budget).included budget =
        separator.intercalate (shownTexts (fitToBudget alerts budget).included budget) ∧
      (((fitToBudget alerts budget).included.map (costOf ·.text)).sum ≤ budget ∧
          shownTexts (fitToBudget alerts budget).included budget =
            (fitToBudget alerts budget).included.map (·.text) ∨
        ∃ a, (fitToBudget alerts budget).included = [a] ∧ budget < costOf a.text ∧
          shownTexts (fitToBudget alerts budget).included budget = [a.text.take budget]) := by
  have hlength := length_included_le alerts budget
  refine ⟨included_front alerts budget, byUrgencyFirst_eq alerts,
    fun h => included_ne_nil h budget, ?_, length_summarise_included alerts budget,
    summarise_included alerts budget⟩
  change _ + (alerts.length - (fitToBudget alerts budget).included.length) = _
  omega

end Lolipay.Coordinator.Alerts
