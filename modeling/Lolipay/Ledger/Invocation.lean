import Lolipay.Ledger.Calls
import Lolipay.Ledger.Storage

namespace Lolipay.Ledger.Invocation

open Lolipay.Ledger.Calls Lolipay.Ledger.Storage

/-- An account or a contract. Contracts compare addresses and nothing else. -/
structure Address where
  key : ℕ
  deriving DecidableEq, Repr

structure Transfer where
  token : Address
  payer : Address
  payee : Address
  amount : ℤ
  deriving DecidableEq, Repr

/-- What the ledger gives to one invocation. `accepts` is the token contract's
own decision on a transfer. An address authorises a call by signing it; the
running contract never does, for it has no key and never invokes itself. -/
structure Env where
  contract : Address
  timestamp : ℕ
  signers : List Address
  accepts : Transfer → Bool
  silent : contract ∉ signers

abbrev Balances := Address → Address → ℤ

def move (b : Balances) (t : Transfer) : Balances := fun token holder =>
  b token holder - (if token = t.token ∧ holder = t.payer then t.amount else 0)
    + (if token = t.token ∧ holder = t.payee then t.amount else 0)

def moveAll (b : Balances) (ts : List Transfer) : Balances := ts.foldl move b

/-- Storage and token balances during an invocation, with the transfers made
and the events published so far. -/
structure Host (σ ev : Type) where
  storage : σ
  balances : Balances
  transfers : List Transfer
  events : List ev

variable {σ ev ε : Type}

def enter (storage : σ) (balances : Balances) : Host σ ev := ⟨storage, balances, [], []⟩

def Host.paid (h : Host σ ev) (ts : List Transfer) : Host σ ev :=
  { h with balances := moveAll h.balances ts, transfers := h.transfers ++ ts }

def Host.publish (h : Host σ ev) (e : ev) : Host σ ev := { h with events := h.events ++ [e] }

/-- A token transfer moves exactly the stated amount or fails the whole call.
Negative amounts are refused by every token. -/
def Host.transfer (env : Env) (h : Host σ ev) (t : Transfer) : Outcome ε (Host σ ev) :=
  if 0 ≤ t.amount ∧ env.accepts t then .ok (h.paid [t]) else .error .token

/-- The same invocation over another storage. -/
def Host.mapStorage (f : σ → σ) (h : Host σ ev) : Host σ ev := { h with storage := f h.storage }

def requireAuth (env : Env) (a : Address) : Outcome ε Unit :=
  if a ∈ env.signers then .ok () else .error .auth

@[simp] theorem requireAuth_eq_ok (env : Env) (a : Address) (u : Unit) :
    (requireAuth env a : Outcome ε Unit) = .ok u ↔ a ∈ env.signers := by
  by_cases h : a ∈ env.signers <;> simp [requireAuth, h]

@[simp] theorem transfer_eq_ok (env : Env) (h h' : Host σ ev) (t : Transfer) :
    (h.transfer env t : Outcome ε (Host σ ev)) = .ok h' ↔
      (0 ≤ t.amount ∧ env.accepts t) ∧ h' = h.paid [t] := by
  rw [Host.transfer]
  split
  next hp => simp [hp, eq_comm]
  next hp => simp only [reduceCtorEq, hp, false_and]

theorem transfer_mapStorage (f : σ → σ) (env : Env) (h : Host σ ev) (t : Transfer) :
    ((h.mapStorage f).transfer env t : Outcome ε (Host σ ev)) =
      (h.transfer env t).map (Host.mapStorage f) := by
  unfold Host.transfer
  split <;> rfl

@[simp] theorem paid_nil (h : Host σ ev) : h.paid [] = h := by simp [Host.paid, moveAll]

@[simp] theorem paid_paid (h : Host σ ev) (ts us : List Transfer) :
    (h.paid ts).paid us = h.paid (ts ++ us) := by
  simp [Host.paid, moveAll]

theorem moveAll_cons (b : Balances) (t : Transfer) (ts : List Transfer) :
    moveAll b (t :: ts) = moveAll (move b t) ts := rfl

theorem le_moveAll (b : Balances) (ts : List Transfer) (token holder : Address)
    (h : ∀ t ∈ ts, t.payer ≠ holder ∧ 0 ≤ t.amount) :
    b token holder ≤ moveAll b ts token holder := by
  induction ts generalizing b with
  | nil => exact le_rfl
  | cons t ts ih =>
    have ht := h t (by simp)
    have hm : b token holder ≤ move b t token holder := by
      have hp : ¬(token = t.token ∧ holder = t.payer) := fun hc => ht.1 hc.2.symm
      simp only [move, hp, if_false]
      split <;> omega
    exact hm.trans (ih (move b t) fun u hu => h u (by simp [hu]))

def outgoing (a : Address) (ts : List Transfer) : List Transfer := ts.filter fun t => t.payer = a

def amounts (ts : List Transfer) : ℤ := (ts.map fun t => t.amount).sum

/-- A holder who makes all the payments loses at most what they add up to;
less if he pays himself. -/
theorem moveAll_payer (b : Balances) (ts : List Transfer) (token holder : Address)
    (h : ∀ t ∈ ts, t.payer = holder ∧ t.token = token ∧ 0 ≤ t.amount) :
    b token holder - amounts ts ≤ moveAll b ts token holder := by
  induction ts generalizing b with
  | nil => simp [amounts, moveAll]
  | cons t ts ih =>
    obtain ⟨hp, htok, hnn⟩ := h t (by simp)
    have hrest := ih (move b t) fun u hu => h u (by simp [hu])
    have hm : b token holder - t.amount ≤ move b t token holder := by
      simp only [move, hp, htok, true_and, if_true]
      split <;> omega
    rw [moveAll_cons]
    simp only [amounts, List.map_cons, List.sum_cons] at hrest ⊢
    omega

end Lolipay.Ledger.Invocation
