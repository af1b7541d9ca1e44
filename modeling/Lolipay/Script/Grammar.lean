import Mathlib.Computability.RegularExpressions

namespace Lolipay.Script.Grammar

open RegularExpression

variable {α : Type} {a : α} {l xs : List α} {P Q : RegularExpression α}

def oneOf (l : List α) : RegularExpression α := (l.map char).sum

def plus' (P : RegularExpression α) : RegularExpression α := P * P.star

def optional (P : RegularExpression α) : RegularExpression α := 1 + P

def Matches (P : RegularExpression α) (xs : List α) : Prop := xs ∈ P.matches'

theorem matches_rmatch [DecidableEq α] : P.rmatch xs = true ↔ Matches P xs :=
  rmatch_iff_matches' P xs

theorem matches_char : Matches (char a) xs ↔ xs = [a] := Iff.rfl

theorem matches_add : Matches (P + Q) xs ↔ Matches P xs ∨ Matches Q xs := Iff.rfl

theorem matches_mul : Matches (P * Q) xs ↔ ∃ ys zs, Matches P ys ∧ Matches Q zs ∧ xs = ys ++ zs := by
  unfold Matches
  rw [matches'_mul, Language.mem_mul]
  constructor
  · rintro ⟨ys, hys, zs, hzs, rfl⟩
    exact ⟨ys, zs, hys, hzs, rfl⟩
  · rintro ⟨ys, zs, hys, hzs, rfl⟩
    exact ⟨ys, hys, zs, hzs, rfl⟩

theorem matches_star : Matches P.star xs ↔
    ∃ words : List (List α), (∀ ys ∈ words, Matches P ys) ∧ xs = words.flatten := by
  unfold Matches
  rw [matches'_star, Language.mem_kstar]
  exact exists_congr fun words => and_comm

theorem matches_one : Matches (1 : RegularExpression α) xs ↔ xs = [] := Iff.rfl

theorem matches_optional : Matches (optional P) xs ↔ xs = [] ∨ Matches P xs :=
  matches_add.trans (or_congr_left matches_one)

theorem matches_oneOf : Matches (oneOf l) xs ↔ ∃ a ∈ l, xs = [a] := by
  induction l with
  | nil =>
    simp only [List.not_mem_nil, false_and, exists_false, iff_false]
    exact Language.notMem_zero xs
  | cons b l ih =>
    rw [oneOf, List.map_cons, List.sum_cons, matches_add, matches_char, ← oneOf, ih]
    simp

theorem matches_star_oneOf : Matches (oneOf l).star xs ↔ ∀ a ∈ xs, a ∈ l := by
  rw [matches_star]
  constructor
  · rintro ⟨words, hwords, rfl⟩ a ha
    obtain ⟨word, hword, ha⟩ := List.mem_flatten.mp ha
    obtain ⟨b, hb, rfl⟩ := matches_oneOf.mp (hwords word hword)
    exact List.mem_singleton.mp ha ▸ hb
  · intro h
    refine ⟨xs.map fun a => [a], ?_, ?_⟩
    · intro ys hys
      obtain ⟨a, ha, rfl⟩ := List.mem_map.mp hys
      exact matches_oneOf.mpr ⟨a, h a ha, rfl⟩
    · induction xs with
      | nil => rfl
      | cons a xs ih =>
        rw [List.map_cons, List.flatten_cons, ← ih fun b hb => h b (List.mem_cons_of_mem a hb)]
        rfl

theorem matches_plus : Matches (plus' P) xs ↔
    ∃ words : List (List α), words ≠ [] ∧ (∀ ys ∈ words, Matches P ys) ∧ xs = words.flatten := by
  rw [plus', matches_mul]
  constructor
  · rintro ⟨ys, zs, hys, hzs, rfl⟩
    obtain ⟨words, hwords, rfl⟩ := matches_star.mp hzs
    refine ⟨ys :: words, List.cons_ne_nil _ _, ?_, rfl⟩
    exact List.forall_mem_cons.mpr ⟨hys, hwords⟩
  · rintro ⟨words, hne, hwords, rfl⟩
    cases words with
    | nil => exact absurd rfl hne
    | cons ys words =>
      obtain ⟨hys, hwords⟩ := List.forall_mem_cons.mp hwords
      exact ⟨ys, words.flatten, hys, matches_star.mpr ⟨words, hwords, rfl⟩, rfl⟩

theorem matches_plus_oneOf : Matches (plus' (oneOf l)) xs ↔ xs ≠ [] ∧ ∀ a ∈ xs, a ∈ l := by
  rw [plus', matches_mul]
  constructor
  · rintro ⟨ys, zs, hys, hzs, rfl⟩
    obtain ⟨a, ha, rfl⟩ := matches_oneOf.mp hys
    refine ⟨List.cons_ne_nil _ _, ?_⟩
    exact List.forall_mem_cons.mpr ⟨ha, matches_star_oneOf.mp hzs⟩
  · rintro ⟨hne, hall⟩
    cases xs with
    | nil => exact absurd rfl hne
    | cons a xs =>
      obtain ⟨ha, hall⟩ := List.forall_mem_cons.mp hall
      exact ⟨[a], xs, matches_oneOf.mpr ⟨a, ha, rfl⟩, matches_star_oneOf.mpr hall, rfl⟩

theorem matches_pow_oneOf {n : ℕ} :
    Matches (oneOf l ^ n) xs ↔ xs.length = n ∧ ∀ a ∈ xs, a ∈ l := by
  induction n generalizing xs with
  | zero =>
    rw [List.length_eq_zero_iff]
    constructor
    · intro h
      obtain rfl : xs = [] := h
      exact ⟨rfl, fun a ha => absurd ha List.not_mem_nil⟩
    · rintro ⟨rfl, -⟩
      exact rfl
  | succ n ih =>
    change Matches (oneOf l ^ n * oneOf l) xs ↔ _
    rw [matches_mul]
    constructor
    · rintro ⟨ys, zs, hys, hzs, rfl⟩
      obtain ⟨rfl, hall⟩ := ih.mp hys
      obtain ⟨a, ha, rfl⟩ := matches_oneOf.mp hzs
      refine ⟨by simp, List.forall_mem_append.mpr ⟨hall, ?_⟩⟩
      exact List.forall_mem_singleton.mpr ha
    · rintro ⟨hlength, hall⟩
      obtain rfl | ⟨ys, a, rfl⟩ := List.eq_nil_or_concat xs
      · cases hlength
      · rw [List.concat_eq_append] at hlength hall ⊢
        obtain ⟨hys, ha⟩ := List.forall_mem_append.mp hall
        have hlength' : ys.length = n := by simpa using hlength
        exact ⟨ys, [a], ih.mpr ⟨hlength', hys⟩,
          matches_oneOf.mpr ⟨a, ha a (List.mem_singleton_self a), rfl⟩, rfl⟩

end Lolipay.Script.Grammar
