import Mathlib.Tactic.Common

namespace Lolipay.Async.Polling

variable {A Err : Type}

inductive Round (A Err : Type) where
  | answer (a : A)
  | pending
  | error (e : Err)

def Round.isError : Round A Err → Bool
  | .error _ => true
  | _ => false

/-- What a poll meets: whether it may still ask when it comes to a round, and what
comes of it there. -/
structure Watch (A Err : Type) where
  mayAsk : ℕ → Bool
  hears : ℕ → Round A Err

def Watch.drop (w : Watch A Err) (n : ℕ) : Watch A Err :=
  ⟨fun i => w.mayAsk (n + i), fun i => w.hears (n + i)⟩

inductive Outcome (A Err : Type) where
  | answered (a : A)
  | failed (e : Err)
  | timedOut

/-- Asking until there is an answer, an error too many, or no time left; `none` is a
poll that is still at it. -/
def poll (w : Watch A Err) : ℕ → ℕ → Option (Outcome A Err)
  | 0, _ => none
  | fuel + 1, spare =>
    if w.mayAsk 0 then
      match w.hears 0, spare with
      | .answer a, _ => some (.answered a)
      | .pending, spare => poll (w.drop 1) fuel spare
      | .error _, spare + 1 => poll (w.drop 1) fuel spare
      | .error e, 0 => some (.failed e)
    else some .timedOut

def errorsBefore (w : Watch A Err) (n : ℕ) : ℕ :=
  (List.range n).countP fun i => (w.hears i).isError

/-- The answer comes in round `n`, in time, and not after an error too many. -/
structure Answers (w : Watch A Err) (spare : ℕ) (a : A) (n : ℕ) : Prop where
  answer : w.hears n = .answer a
  inTime : ∀ i ≤ n, w.mayAsk i = true
  first : ∀ i < n, ∀ b, w.hears i ≠ .answer b
  errors : errorsBefore w n ≤ spare

variable {w : Watch A Err} {spare fuel n : ℕ} {a : A} {r : Outcome A Err}

theorem drop_drop (w : Watch A Err) (m n : ℕ) : (w.drop m).drop n = w.drop (m + n) := by
  simp [Watch.drop, Nat.add_assoc]

@[simp]
theorem errorsBefore_zero (w : Watch A Err) : errorsBefore w 0 = 0 := rfl

theorem errorsBefore_succ (w : Watch A Err) (n : ℕ) :
    errorsBefore w (n + 1) = errorsBefore (w.drop 1) n + if (w.hears 0).isError then 1 else 0 := by
  rw [errorsBefore, List.range_succ_eq_map, List.countP_cons, List.countP_map, errorsBefore]
  congr 1
  apply List.countP_congr
  intro i _
  simp [Watch.drop, Nat.add_comm 1 i]

theorem poll_mono {fuel' : ℕ} (h : poll w fuel spare = some r) (hle : fuel ≤ fuel') :
    poll w fuel' spare = some r := by
  induction fuel generalizing w spare fuel' with
  | zero => cases h
  | succ fuel ih =>
    obtain ⟨fuel', rfl⟩ : ∃ m, fuel' = m + 1 := ⟨fuel' - 1, by omega⟩
    have hle' : fuel ≤ fuel' := by omega
    unfold poll at h ⊢
    split
    next hask =>
      rw [if_pos hask] at h
      split at h
      next heq => exact h
      next heq => exact ih h hle'
      next heq => exact ih h hle'
      next heq => exact h
    next hask =>
      rw [if_neg hask] at h
      exact h

theorem poll_unique {fuel' : ℕ} {r' : Outcome A Err} (h : poll w fuel spare = some r)
    (h' : poll w fuel' spare = some r') : r = r' := by
  obtain hle | hle := Nat.le_total fuel fuel'
  · exact Option.some.inj ((poll_mono h hle).symm.trans h')
  · exact Option.some.inj (h.symm.trans (poll_mono h' hle))

theorem answers_zero_iff :
    Answers w spare a 0 ↔ w.mayAsk 0 = true ∧ w.hears 0 = .answer a := by
  constructor
  · intro h
    exact ⟨h.inTime 0 (Nat.le_refl 0), h.answer⟩
  · rintro ⟨hask, hanswer⟩
    refine ⟨hanswer, fun i hi => ?_, fun i hi => absurd hi (Nat.not_lt_zero i), Nat.zero_le _⟩
    rw [Nat.le_zero.mp hi]
    exact hask

theorem answers_succ_iff (spent : ℕ) (hspent : spent = if (w.hears 0).isError then 1 else 0) :
    Answers w (spare + spent) a (n + 1) ↔ w.mayAsk 0 = true ∧ (∀ b, w.hears 0 ≠ .answer b) ∧
      Answers (w.drop 1) spare a n := by
  have hsucc := errorsBefore_succ w n
  rw [← hspent] at hsucc
  constructor
  · rintro ⟨hanswer, htime, hfirst, herrors⟩
    refine ⟨htime 0 (Nat.zero_le _), hfirst 0 (Nat.succ_pos n), ?_, fun i hi => ?_, fun i hi => ?_, ?_⟩
    · rw [← hanswer, Watch.drop, Nat.add_comm]
    · exact htime (1 + i) (by omega)
    · exact hfirst (1 + i) (by omega)
    · omega
  · rintro ⟨hask, hno, hanswer, htime, hfirst, herrors⟩
    refine ⟨?_, fun i hi => ?_, fun i hi => ?_, ?_⟩
    · rw [← hanswer, Watch.drop, Nat.add_comm]
    · cases i with
      | zero => exact hask
      | succ i =>
        rw [Nat.add_comm]
        exact htime i (by omega)
    · cases i with
      | zero => exact hno
      | succ i =>
        rw [Nat.add_comm]
        exact hfirst i (by omega)
    · omega

theorem answers_of_poll (h : poll w fuel spare = some (.answered a)) : ∃ n, Answers w spare a n := by
  induction fuel generalizing w spare with
  | zero => cases h
  | succ fuel ih =>
    unfold poll at h
    split at h
    next hask =>
      split at h
      next b heq =>
        obtain rfl : b = a := Outcome.answered.inj (Option.some.inj h)
        exact ⟨0, answers_zero_iff.mpr ⟨hask, heq⟩⟩
      next heq =>
        obtain ⟨n, hn⟩ := ih h
        refine ⟨n + 1, (answers_succ_iff 0 ?_).mpr ⟨hask, ?_, hn⟩⟩
        · simp [heq, Round.isError]
        · simp [heq]
      next e spare heq =>
        obtain ⟨n, hn⟩ := ih h
        refine ⟨n + 1, (answers_succ_iff 1 ?_).mpr ⟨hask, ?_, hn⟩⟩
        · simp [heq, Round.isError]
        · simp [heq]
      next => cases h
    next => cases h

theorem poll_of_answers (h : Answers w spare a n) : poll w (n + 1) spare = some (.answered a) := by
  induction n generalizing w spare with
  | zero =>
    obtain ⟨hask, heq⟩ := answers_zero_iff.mp h
    simp [poll, hask, heq]
  | succ n ih =>
    unfold poll
    rw [if_pos (h.inTime 0 (Nat.zero_le _))]
    cases heq : w.hears 0 with
    | answer b => exact absurd heq (h.first 0 (Nat.succ_pos n) b)
    | pending =>
      refine ih ((answers_succ_iff 0 ?_).mp h).2.2
      simp [heq, Round.isError]
    | error e =>
      cases spare with
      | zero =>
        have herrors := h.errors
        rw [errorsBefore_succ, heq] at herrors
        simp [Round.isError] at herrors
      | succ spare =>
        refine ih ((answers_succ_iff 1 ?_).mp h).2.2
        simp [heq, Round.isError]

/-- As time passes, a poll comes to an end. -/
theorem poll_ends (h : w.mayAsk n = false) : ∃ r, poll w (n + 1) spare = some r := by
  induction n generalizing w spare with
  | zero => exact ⟨.timedOut, by simp [poll, h]⟩
  | succ n ih =>
    have hrest : (w.drop 1).mayAsk n = false := by
      change w.mayAsk (1 + n) = false
      rw [Nat.add_comm]
      exact h
    unfold poll
    split
    next =>
      split
      next => exact ⟨_, rfl⟩
      next => exact ih hrest
      next => exact ih hrest
      next => exact ⟨_, rfl⟩
    next => exact ⟨_, rfl⟩

end Lolipay.Async.Polling
