import Lolipay.Async.Scheduling

namespace Lolipay.Async.RowLock

open Lolipay.Async.Scheduling

variable {S T : Type} {s t u : S} {pid q : Pid} {tx : T} {held held' : Option (Pid × T)}

/-- What the process has come to in the transaction that holds the lock, if that
is its own. -/
def own (pid : Pid) : Option (Pid × T) → Option T
  | some (q, tx) => if q = pid then some tx else none
  | none => none

/-- The end of one's transaction, if one holds the lock at all. -/
def release (pid : Pid) (held : Option (Pid × T)) : Option (Pid × T) :=
  held.filter fun h => h.1 ≠ pid

@[simp] theorem own_none : own pid (none : Option (Pid × T)) = none := rfl

@[simp] theorem own_self : own pid (some (pid, tx)) = some tx := if_pos rfl

theorem own_of_ne (h : q ≠ pid) : own pid (some (q, tx)) = none := if_neg h

theorem own_eq_some : own pid held = some tx ↔ held = some (pid, tx) := by
  constructor
  · intro h
    obtain _ | ⟨q, tx'⟩ := held
    · cases h
    · by_cases hq : q = pid
      · subst hq
        obtain rfl := Option.some.inj (own_self.symm.trans h)
        rfl
      · rw [own_of_ne hq] at h
        cases h
  · rintro rfl
    exact own_self

theorem eq_of_release {h : Pid × T} (hheld : release pid held = some h) : held = some h :=
  (Option.filter_eq_some_iff.mp hheld).1

@[simp] theorem own_release : own pid (release pid held) = none := by
  obtain _ | ⟨q, tx⟩ := held
  · rfl
  · by_cases hq : q = pid
    · simp [release, Option.filter, hq]
    · simp [release, Option.filter, hq, own]

theorem own_release_of_ne (h : q ≠ pid) : own pid (release q held) = own pid held := by
  obtain _ | ⟨r, tx⟩ := held
  · rfl
  · by_cases hr : r = q
    · subst hr
      simp [release, Option.filter, own, h]
    · simp [release, Option.filter, hr]

/-- A transaction locks a row when it first writes to it and works on a version
of its own until it ends. `held` tells whose transaction that is and what it has
come to; `same` is what nobody else changes meanwhile. -/
structure Lock (S T : Type) where
  held : S → Option (Pid × T)
  same : S → S → Prop
  refl : ∀ s, same s s
  trans : ∀ {s t u}, same s t → same t u → same s u

variable {l : Lock S T}

/-- The others neither end the transaction of a process nor begin one for it. -/
structure Lock.Keeps (l : Lock S T) (pid : Pid) (s t : S) : Prop where
  own : own pid (l.held t) = own pid (l.held s)
  same : (RowLock.own pid (l.held s)).isSome → l.same s t

theorem Lock.Keeps.refl (pid : Pid) (s : S) : l.Keeps pid s s := ⟨rfl, fun _ => l.refl s⟩

theorem Lock.Keeps.trans (h : l.Keeps pid s t) (h' : l.Keeps pid t u) : l.Keeps pid s u := by
  refine ⟨h'.own.trans h.own, fun hown => l.trans (h.same hown) (h'.same ?_)⟩
  rwa [h.own]

theorem Lock.Keeps.of_none (h : RowLock.own pid (l.held s) = none)
    (h' : RowLock.own pid (l.held t) = none) : l.Keeps pid s t := by
  refine ⟨h'.trans h.symm, fun hown => ?_⟩
  rw [h] at hown
  cases hown

theorem Lock.Keeps.of_held (h : l.held t = l.held s) (hsame : l.same s t) : l.Keeps pid s t :=
  ⟨by rw [h], fun _ => hsame⟩

theorem Lock.Keeps.of_release (hq : q ≠ pid) (hheld : l.held t = release q (l.held s))
    (hsame : l.same s t) : l.Keeps pid s t := by
  refine ⟨?_, fun _ => hsame⟩
  rw [hheld, own_release_of_ne hq]

end Lolipay.Async.RowLock
