import Mathlib.Algebra.Order.Ring.Int
import Mathlib.Tactic.Common

namespace Lolipay.Ledger.Calls

/-- Why a contract call is rolled back: the contract's own error, a missing
authorisation, checked arithmetic that overflowed, or a refused token transfer. -/
inductive Fault (ε : Type) where
  | error (e : ε)
  | auth
  | trap
  | token
  deriving DecidableEq, Repr

abbrev Outcome (ε α : Type) := Except (Fault ε) α

variable {ε α β γ : Type}

def rejectIf (p : Prop) [Decidable p] (e : ε) : Outcome ε Unit :=
  if p then .error (.error e) else .ok ()

def okOr (o : Option α) (e : ε) : Outcome ε α :=
  match o with
  | some a => .ok a
  | none => .error (.error e)

def u64Limit : ℕ := 2 ^ 64

def i128Limit : ℤ := 2 ^ 127

/-- The contracts are compiled with overflow checks, so an addition that
leaves the 64-bit range aborts the call instead of wrapping. -/
def addU64 (a b : ℕ) : Outcome ε ℕ :=
  if a + b < u64Limit then .ok (a + b) else .error .trap

def checkI128 (x : ℤ) : Outcome ε ℤ :=
  if -i128Limit ≤ x ∧ x < i128Limit then .ok x else .error .trap

def addI128 (a b : ℤ) : Outcome ε ℤ := checkI128 (a + b)

def subI128 (a b : ℤ) : Outcome ε ℤ := checkI128 (a - b)

def mulI128 (a b : ℤ) : Outcome ε ℤ := checkI128 (a * b)

@[simp] theorem bind_eq_ok (x : Outcome ε α) (f : α → Outcome ε β) (b : β) :
    (x >>= f) = .ok b ↔ ∃ a, x = .ok a ∧ f a = .ok b := by
  cases x <;> simp [bind, Except.bind]

@[simp] theorem ok_bind (a : α) (f : α → Outcome ε β) : (Except.ok a >>= f) = f a := rfl

theorem map_bind (x : Outcome ε α) (f : α → Outcome ε β) (g : β → γ) :
    (x >>= f).map g = x >>= fun a => (f a).map g := by
  cases x <;> rfl

theorem bind_map (x : Outcome ε α) (g : α → β) (f : β → Outcome ε γ) :
    x.map g >>= f = x >>= fun a => f (g a) := by
  cases x <;> rfl

@[simp] theorem rejectIf_eq_ok (p : Prop) [Decidable p] (e : ε) (u : Unit) :
    rejectIf p e = .ok u ↔ ¬p := by
  by_cases hp : p <;> simp [rejectIf, hp]

@[simp] theorem okOr_eq_ok (o : Option α) (e : ε) (a : α) : okOr o e = .ok a ↔ o = some a := by
  cases o <;> simp [okOr]

@[simp] theorem addU64_eq_ok (a b c : ℕ) :
    (addU64 a b : Outcome ε ℕ) = .ok c ↔ a + b < u64Limit ∧ c = a + b := by
  rw [addU64]
  split
  next h => simp [h, eq_comm]
  next h => simp [h]

@[simp] theorem checkI128_eq_ok (x y : ℤ) :
    (checkI128 x : Outcome ε ℤ) = .ok y ↔ (-i128Limit ≤ x ∧ x < i128Limit) ∧ y = x := by
  rw [checkI128]
  split
  next h => simp [h, eq_comm]
  next h => simp [h]

end Lolipay.Ledger.Calls
