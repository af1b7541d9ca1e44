import Lolipay.Async.Scheduling

namespace Lolipay.Async.AdvisoryLock

open Lolipay.Async.Scheduling

variable {K : Type} [DecidableEq K] {locks : K → Option Pid} {pid q : Pid} {key k : K}

/-- A process waits for a lock that another one holds. -/
def Available (key : K) (pid : Pid) (locks : K → Option Pid) : Prop :=
  locks key = none ∨ locks key = some pid

instance : Decidable (Available key pid locks) := inferInstanceAs (Decidable (_ ∨ _))

def acquire (key : K) (pid : Pid) (locks : K → Option Pid) : K → Option Pid :=
  fun k => if k = key then some pid else locks k

/-- All locks of a process end with its transaction. -/
def release (pid : Pid) (locks : K → Option Pid) : K → Option Pid :=
  fun k => if locks k = some pid then none else locks k

@[simp] theorem acquire_self : acquire key pid locks key = some pid := if_pos rfl

theorem acquire_keeps (h : Available key pid locks) (hk : locks k = some q) :
    acquire key pid locks k = some q := by
  by_cases hkey : k = key
  · subst hkey
    obtain hfree | hmine := h
    · rw [hfree] at hk
      cases hk
    · exact acquire_self.trans (hmine.symm.trans hk)
  · exact (if_neg hkey).trans hk

omit [DecidableEq K] in
theorem release_keeps (hq : pid ≠ q) (hk : locks k = some q) : release pid locks k = some q := by
  simp [release, hk, Ne.symm hq]

end Lolipay.Async.AdvisoryLock
