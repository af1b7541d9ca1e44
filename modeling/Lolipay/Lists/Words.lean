import Mathlib.Data.List.Basic
import Mathlib.Data.List.TakeWhile

namespace Lolipay.Lists.Words

variable {α : Type*} [DecidableEq α] {a a' b b' : List α} {c : α}

theorem forall_ne (h : c ∉ a) : ∀ u ∈ a, decide (u ≠ c) = true := by
  intro u hu
  exact decide_eq_true fun heq => h (heq ▸ hu)

theorem takeWhile_append_cons (h : c ∉ a) (b : List α) : (a ++ c :: b).takeWhile (· ≠ c) = a := by
  rw [List.takeWhile_append_of_pos (forall_ne h)]
  simp

theorem dropWhile_append_cons (h : c ∉ a) (b : List α) :
    ((a ++ c :: b).dropWhile (· ≠ c)).drop 1 = b := by
  rw [List.dropWhile_append_of_pos (forall_ne h)]
  simp

theorem takeWhile_of_not_mem (h : c ∉ a) : a.takeWhile (· ≠ c) = a := by
  rw [List.takeWhile_eq_self_iff]
  exact forall_ne h

theorem dropWhile_of_not_mem (h : c ∉ a) : a.dropWhile (· ≠ c) = [] := by
  rw [List.dropWhile_eq_nil_iff]
  exact forall_ne h

theorem word_inj (ha : c ∉ a) (ha' : c ∉ a') (h : a ++ c :: b = a' ++ c :: b') : a = a' ∧ b = b' := by
  constructor
  · rw [← takeWhile_append_cons ha b, h, takeWhile_append_cons ha']
  · rw [← dropWhile_append_cons ha b, h, dropWhile_append_cons ha']

section Split

variable {α β : Type*} [DecidableEq α] [DecidableEq β] {c : α} {d : β}

theorem splitOn_append_of_not_mem {a : List β} (h : d ∉ a) (b : List β) :
    (a ++ b).splitOn d = (b.splitOn d).modifyHead (a ++ ·) := by
  induction a with
  | nil =>
    obtain ⟨w, ws, hws⟩ := List.exists_cons_of_ne_nil (List.splitOn_ne_nil d b)
    rw [List.nil_append, hws]
    rfl
  | cons e a ih =>
    obtain ⟨hhead, hrest⟩ := not_or.mp (mt List.mem_cons.mpr h)
    obtain ⟨w, ws, hws⟩ := List.exists_cons_of_ne_nil (List.splitOn_ne_nil d b)
    have hne : (e == d) = false := beq_eq_false_iff_ne.mpr (Ne.symm hhead)
    rw [List.cons_append, List.splitOn_cons_eq_if_modifyHead, hne, ih hrest, hws]
    rfl

theorem splitOn_flatMap {f : α → List β} (hsep : f c = [d]) (hother : ∀ a, a ≠ c → d ∉ f a)
    (l : List α) :
    (l.flatMap f).splitOn d = (l.splitOn c).map fun part => part.flatMap f := by
  induction l with
  | nil => rfl
  | cons a l ih =>
    obtain ⟨w, ws, hws⟩ := List.exists_cons_of_ne_nil (List.splitOn_ne_nil c l)
    rw [List.flatMap_cons, List.splitOn_cons_eq_if_modifyHead]
    by_cases ha : a = c
    · subst ha
      rw [hsep, List.singleton_append, List.splitOn_cons_eq_if_modifyHead, ih]
      simp
    · rw [splitOn_append_of_not_mem (hother a ha), ih, hws]
      simp [ha]

end Split

end Lolipay.Lists.Words
