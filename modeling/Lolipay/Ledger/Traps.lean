import Lolipay.Ledger.Invocation

namespace Lolipay.Ledger.Traps

open Lolipay.Ledger.Calls Lolipay.Ledger.Invocation

variable {σ ev ε α β : Type}

def NoTrap (x : Outcome ε α) : Prop := x ≠ .error .trap

theorem noTrap_ok (a : α) : NoTrap (.ok a : Outcome ε α) := by
  intro h
  cases h

theorem noTrap_error (e : ε) : NoTrap (.error (.error e) : Outcome ε α) := by
  intro h
  cases h

/-- A sequence does not overflow if its first part does not, and neither does
the rest on any value that the first part can give. -/
theorem noTrap_bind (x : Outcome ε α) (f : α → Outcome ε β) :
    NoTrap (x >>= f) ↔ NoTrap x ∧ ∀ a, x = .ok a → NoTrap (f a) := by
  cases x with
  | ok a => simp [NoTrap]
  | error e => simp [NoTrap, bind, Except.bind]

theorem noTrap_rejectIf (p : Prop) [Decidable p] (e : ε) : NoTrap (rejectIf p e) := by
  rw [rejectIf]
  split
  next => exact noTrap_error e
  next => exact noTrap_ok ()

theorem noTrap_okOr (o : Option α) (e : ε) : NoTrap (okOr o e) := by
  cases o with
  | none => exact noTrap_error e
  | some a => exact noTrap_ok a

theorem noTrap_requireAuth (env : Env) (a : Address) : NoTrap (requireAuth env a : Outcome ε Unit) := by
  rw [requireAuth]
  split
  next => exact noTrap_ok ()
  next => simp [NoTrap]

theorem noTrap_transfer (env : Env) (h : Host σ ev) (t : Transfer) :
    NoTrap (h.transfer env t : Outcome ε (Host σ ev)) := by
  rw [Host.transfer]
  split
  next => exact noTrap_ok _
  next => simp [NoTrap]

theorem noTrap_addU64 (a b : ℕ) : NoTrap (addU64 a b : Outcome ε ℕ) ↔ a + b < u64Limit := by
  rw [addU64]
  split
  next h => simp [NoTrap, h]
  next h => simp [NoTrap, h]

theorem noTrap_checkI128 (x : ℤ) :
    NoTrap (checkI128 x : Outcome ε ℤ) ↔ -i128Limit ≤ x ∧ x < i128Limit := by
  rw [checkI128]
  split
  next h => simp [NoTrap, h]
  next h => simp only [NoTrap, ne_eq, not_true_eq_false, h]

end Lolipay.Ledger.Traps
