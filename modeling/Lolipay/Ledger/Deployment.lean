import Lolipay.Ledger.Runs
import Lolipay.Ledger.Invocation

namespace Lolipay.Ledger.Deployment

open Lolipay.Ledger.Calls Lolipay.Ledger.Invocation Lolipay.Ledger.Runs

/-- A contract's storage, all token balances and the time of the last ledger. -/
structure World (σ : Type) where
  contents : σ
  balances : Balances
  now : ℕ

structure Receipt (ev : Type) where
  transfers : List Transfer
  events : List ev
  deriving DecidableEq, Repr

/-- Either somebody calls the contract, or time passes while other addresses
move tokens without it. -/
inductive Action (op : Type) where
  | call (env : Env) (o : op)
  | other (time : ℕ) (moves : List Transfer)

variable {σ ev ε op : Type}

def Action.time : Action op → ℕ
  | .call env _ => env.timestamp
  | .other time _ => time

/-- Calls reach the contract under its own address, ledger times never
decrease, and nobody else can move the contract's tokens. -/
def admits (self : Address) (w : World σ) : Action op → Prop
  | .call env _ => env.contract = self ∧ w.now ≤ env.timestamp
  | .other time moves => w.now ≤ time ∧ ∀ t ∈ moves, t.payer ≠ self ∧ 0 ≤ t.amount

instance (self : Address) (w : World σ) : (a : Action op) → Decidable (admits self w a)
  | .call env _ => inferInstanceAs (Decidable (env.contract = self ∧ w.now ≤ env.timestamp))
  | .other time moves =>
    inferInstanceAs (Decidable (w.now ≤ time ∧ ∀ t ∈ moves, t.payer ≠ self ∧ 0 ≤ t.amount))

theorem admits_time {self : Address} {w : World σ} {a : Action op} (h : admits self w a) :
    w.now ≤ a.time := by
  cases a with
  | call env o => exact h.2
  | other time moves => exact h.1

section

variable (exec : Env → Host σ ev → op → Outcome ε (Host σ ev))

def invoke (w : World σ) (env : Env) (o : op) : Outcome ε (Host σ ev) :=
  exec env (enter w.contents w.balances) o

/-- A failed call is rolled back and leaves everything but the clock as it was. -/
def next (w : World σ) : Action op → World σ
  | .call env o =>
    match invoke exec w env o with
    | .ok h => ⟨h.storage, h.balances, env.timestamp⟩
    | .error _ => { w with now := env.timestamp }
  | .other time moves => { w with balances := moveAll w.balances moves, now := time }

def receipt (w : World σ) : Action op → Option (Receipt ev)
  | .call env o =>
    match invoke exec w env o with
    | .ok h => some ⟨h.transfers, h.events⟩
    | .error _ => none
  | .other _ _ => none

def machine (self : Address) : Machine (World σ) (Action op) (Option (Receipt ev)) :=
  ⟨admits self, next exec, receipt exec⟩

theorem now_next (w : World σ) (a : Action op) : (next exec w a).now = a.time := by
  cases a with
  | other time moves => rfl
  | call env o =>
    simp only [next]
    split <;> rfl

variable {exec} in
theorem run_time_le {self : Address} {w w' : World σ}
    {tr : List (Entry (World σ) (Action op) (Option (Receipt ev)))}
    (h : Run (machine exec self) w tr w') : ∀ e ∈ tr, e.act.time ≤ w'.now := by
  induction h with
  | nil => simp
  | @snoc tr u h a ha ih =>
    intro e he
    have hnow : ((machine exec self).next u a).now = a.time := now_next exec u a
    rw [hnow]
    obtain he | he := List.mem_append.mp he
    · exact (ih e he).trans (admits_time ha)
    · obtain rfl := List.mem_singleton.mp he
      exact le_rfl

end

/-- A call has one of the effects on the storage, and makes the transfers that
go with it and no others. -/
def Performs (Effect : Env → σ → op → σ → List Transfer → Prop) (env : Env) (h : Host σ ev)
    (o : op) (h' : Host σ ev) : Prop :=
  ∃ ts, Effect env h.storage o h'.storage ts ∧
    h'.balances = moveAll h.balances ts ∧ h'.transfers = h.transfers ++ ts

def Effective (exec : Env → Host σ ev → op → Outcome ε (Host σ ev))
    (Effect : Env → σ → op → σ → List Transfer → Prop) : Prop :=
  ∀ env h o h', exec env h o = .ok h' → Performs Effect env h o h'

variable {exec : Env → Host σ ev → op → Outcome ε (Host σ ev)}
  {Effect : Env → σ → op → σ → List Transfer → Prop}

/-- A call either fails and changes nothing but the clock, or has an effect. -/
theorem call_cases (heff : Effective exec Effect) (w : World σ) (env : Env) (o : op) :
    (next exec w (.call env o) = { w with now := env.timestamp } ∧
      receipt exec w (.call env o) = none) ∨
    ∃ c ts evs, Effect env w.contents o c ts ∧
      next exec w (.call env o) = ⟨c, moveAll w.balances ts, env.timestamp⟩ ∧
      receipt exec w (.call env o) = some ⟨ts, evs⟩ := by
  cases hx : invoke exec w env o with
  | error f => exact .inl ⟨by simp only [next, hx], by simp only [receipt, hx]⟩
  | ok h =>
    obtain ⟨ts, he, hbal, htr⟩ := heff env _ o h hx
    refine .inr ⟨h.storage, ts, h.events, he, ?_, ?_⟩
    · simp only [next, hx, hbal, enter]
    · simp only [receipt, hx, htr, enter, List.nil_append]

end Lolipay.Ledger.Deployment
