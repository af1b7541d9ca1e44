import Lolipay.Script.Units
import Lolipay.Script.Grammar
import Lolipay.Ledger.Decimal
import Lolipay.Lists.Words
import Mathlib.Data.List.DropRight

namespace Lolipay.Script.Numerals

open Lolipay.Script.Units Lolipay.Script.Grammar Lolipay.Ledger.Decimal Lolipay.Lists.Words

def unit (c : Char) : UInt16 := c.toNat.toUInt16

def digits : Text := [48, 49, 50, 51, 52, 53, 54, 55, 56, 57]

def isDigit (u : UInt16) : Bool := 48 ≤ u && u ≤ 57

/-- What a pattern calls a blank, and what trimming takes away. -/
def blanks : Text :=
  [0x9, 0xa, 0xb, 0xc, 0xd, 0x20, 0xa0, 0x1680, 0x2000, 0x2001, 0x2002, 0x2003, 0x2004, 0x2005,
    0x2006, 0x2007, 0x2008, 0x2009, 0x200a, 0x2028, 0x2029, 0x202f, 0x205f, 0x3000, 0xfeff]

def trim (t : Text) : Text := (t.dropWhile (· ∈ blanks)).rdropWhile (· ∈ blanks)

def numeral (t : Text) : ℕ := t.foldl (fun n u => 10 * n + (u.toNat - 48)) 0

def decimal (n : ℕ) : Text := units (toString n)

variable {t t' left right : Text} {u : UInt16} {n : ℕ}

theorem isDigit_iff : isDigit u = true ↔ 48 ≤ u.toNat ∧ u.toNat ≤ 57 := by
  simp only [isDigit, Bool.and_eq_true, decide_eq_true_eq, UInt16.le_iff_toNat_le]
  exact Iff.rfl

theorem mem_digits : u ∈ digits ↔ isDigit u = true := by
  rw [isDigit_iff]
  simp only [digits, List.mem_cons, List.not_mem_nil, or_false, ← UInt16.toNat_inj]
  constructor
  · rintro (h | h | h | h | h | h | h | h | h | h) <;> rw [h] <;> decide
  · rintro ⟨hlow, hhigh⟩
    change u.toNat = 48 ∨ u.toNat = 49 ∨ u.toNat = 50 ∨ u.toNat = 51 ∨ u.toNat = 52 ∨
      u.toNat = 53 ∨ u.toNat = 54 ∨ u.toNat = 55 ∨ u.toNat = 56 ∨ u.toNat = 57
    omega

@[simp]
theorem numeral_nil : numeral [] = 0 := rfl

theorem foldl_numeral (t : Text) (n : ℕ) :
    t.foldl (fun n u => 10 * n + (u.toNat - 48)) n = n * 10 ^ t.length + numeral t := by
  induction t generalizing n with
  | nil => simp [numeral]
  | cons u t ih =>
    rw [numeral, List.foldl_cons, List.foldl_cons, ih, ih (10 * 0 + _), List.length_cons, pow_succ,
      Nat.mul_zero, Nat.zero_add, Nat.add_mul, Nat.add_assoc, Nat.mul_comm 10 n, Nat.mul_assoc,
      Nat.mul_comm 10]

theorem numeral_append (t t' : Text) :
    numeral (t ++ t') = numeral t * 10 ^ t'.length + numeral t' := by
  rw [numeral, List.foldl_append, foldl_numeral]
  rfl

theorem numeral_concat (t : Text) (u : UInt16) :
    numeral (t ++ [u]) = numeral t * 10 + (u.toNat - 48) := by
  have hlast : numeral [u] = u.toNat - 48 := by simp [numeral]
  rw [numeral_append, hlast, List.length_singleton, pow_one]

theorem numeral_zeros (k : ℕ) : numeral (List.replicate k 48) = 0 := by
  induction k with
  | zero => rfl
  | succ k ih =>
    rw [List.replicate_succ', numeral_append, ih]
    rfl

theorem matches_plus_digits : Matches (plus' (oneOf digits)) t ↔ t ≠ [] ∧ ∀ u ∈ t, isDigit u = true := by
  rw [matches_plus_oneOf]
  exact and_congr_right fun _ => forall₂_congr fun _ _ => mem_digits

theorem matches_digits {k : ℕ} :
    Matches (oneOf digits ^ k) t ↔ t.length = k ∧ ∀ u ∈ t, isDigit u = true := by
  rw [matches_pow_oneOf]
  exact and_congr_right fun _ => forall₂_congr fun _ _ => mem_digits

theorem numeral_lt (h : ∀ u ∈ t, isDigit u = true) : numeral t < 10 ^ t.length := by
  induction t using List.reverseRecOn with
  | nil => decide
  | append_singleton t u ih =>
    have hrest := ih fun v hv => h v (List.mem_append_left _ hv)
    have hu := h u (List.mem_append_right _ List.mem_cons_self)
    obtain ⟨-, hhigh⟩ := isDigit_iff.mp hu
    rw [numeral_concat, List.length_append, List.length_singleton, pow_succ]
    omega

section Parts

variable {c c' : Char}

theorem unitsOf_eq (h : c.toNat < 0x10000) : unitsOf c = [unit c] := if_pos h

theorem unit_not_mem_unitsOf (hc : c.toNat < 0xd800) (h : c' ≠ c) : unit c ∉ unitsOf c' := by
  intro hmem
  have hvalid := valid_toNat c'
  have hne : c'.toNat ≠ c.toNat := mt Char.toNat_inj.mp h
  simp only [unitsOf, unit] at hmem
  split_ifs at hmem <;>
    simp only [List.mem_cons, List.not_mem_nil, or_false, ← UInt16.toNat_inj, toNat_toUInt16] at hmem <;>
    omega

theorem splitOn_units (hc : c.toNat < 0xd800) (s : String) :
    (units s).splitOn (unit c) = (s.toList.splitOn c).map fun part => units (String.ofList part) := by
  have hsep : unitsOf c = [unit c] := unitsOf_eq (by omega)
  have hsplit := splitOn_flatMap hsep (fun _ => unit_not_mem_unitsOf hc) s.toList
  simpa only [units, String.toList_ofList] using hsplit

end Parts

section Decimal

theorem unitsOf_digit {c : Char} (h : c.isDigit = true) : unitsOf c = [unit c] := by
  obtain ⟨-, hhigh⟩ := Char.isDigit_iff_toNat.mp h
  exact unitsOf_eq (lt_of_le_of_lt hhigh (by decide))

theorem toNat_unit {c : Char} (h : c.isDigit = true) : (unit c).toNat = c.toNat := by
  obtain ⟨-, hhigh⟩ := Char.isDigit_iff_toNat.mp h
  exact UInt16.toNat_ofNat_of_lt' (lt_of_le_of_lt hhigh (by decide))

theorem isDigit_unit {c : Char} (h : c.isDigit = true) : isDigit (unit c) = true := by
  rw [isDigit_iff, toNat_unit h]
  exact Char.isDigit_iff_toNat.mp h

theorem flatMap_unitsOf {l : List Char} (h : ∀ c ∈ l, c.isDigit = true) :
    l.flatMap unitsOf = l.map unit := by
  induction l with
  | nil => rfl
  | cons c l ih =>
    obtain ⟨hc, hl⟩ := List.forall_mem_cons.mp h
    rw [List.flatMap_cons, unitsOf_digit hc, ih hl, List.map_cons, List.singleton_append]

theorem isDigit_map {l : List Char} (h : ∀ c ∈ l, c.isDigit = true) :
    ∀ u ∈ l.map unit, isDigit u = true := by
  intro u hu
  obtain ⟨c, hc, rfl⟩ := List.mem_map.mp hu
  exact isDigit_unit (h c hc)

theorem numeral_map {l : List Char} (h : ∀ c ∈ l, c.isDigit = true) :
    numeral (l.map unit) = digitsValue l := by
  rw [numeral, List.foldl_map, digitsValue, Nat.ofDigitChars_eq_foldl]
  apply List.foldl_ext _ _ _
  intro n c hc
  rw [toNat_unit (h c hc)]
  rfl

theorem decimal_eq (n : ℕ) : decimal n = (toString n).toList.map unit :=
  flatMap_unitsOf fun _ => isDigit_of_mem

theorem isDigit_decimal (n : ℕ) : ∀ u ∈ decimal n, isDigit u = true := by
  rw [decimal_eq]
  exact isDigit_map fun _ => isDigit_of_mem

@[simp]
theorem numeral_decimal (n : ℕ) : numeral (decimal n) = n := by
  rw [decimal_eq, numeral_map fun _ => isDigit_of_mem]
  exact digitsValue_toString n

theorem decimal_ne_nil (n : ℕ) : decimal n ≠ [] := by
  rw [decimal_eq, Nat.toString_eq_repr, Nat.toList_repr]
  exact fun h => Nat.toDigits_ne_nil (List.map_eq_nil_iff.mp h)

theorem decimal_ne_zero_cons (h : t ≠ []) : decimal n ≠ 48 :: t := by
  intro heq
  have hdigits := isDigit_decimal n
  rw [heq] at hdigits
  have hvalue : numeral (48 :: t) = numeral t := rfl
  have hlt : n < 10 ^ t.length := by
    have hlt := numeral_lt (List.forall_mem_cons.mp hdigits).2
    rwa [← hvalue, ← heq, numeral_decimal] at hlt
  have hlength : (decimal n).length ≤ t.length := by
    rw [decimal_eq, List.length_map]
    exact length_toString_le hlt (List.length_pos_iff.mpr h)
  rw [heq, List.length_cons] at hlength
  omega

theorem decimal_append {m d : ℕ} (hm : 0 < m) (hd : d < 10) :
    decimal m ++ decimal d = decimal (10 * m + d) := by
  simp only [decimal_eq, Nat.toString_eq_repr, Nat.toList_repr]
  rw [← List.map_append, Nat.toDigits_append_toDigits (by decide) hm hd]

theorem decimal_digit (h : isDigit u = true) : decimal (u.toNat - 48) = [u] := by
  obtain ⟨hlow, hhigh⟩ := isDigit_iff.mp h
  have hsmall : u.toNat - 48 < 10 := by omega
  have hunit : unit (u.toNat - 48).digitChar = u := by
    rw [← UInt16.toNat_inj, toNat_unit (by simp [hsmall]), Nat.toNat_digitChar_of_lt_ten hsmall]
    omega
  rw [decimal_eq, Nat.toString_eq_repr, Nat.toList_repr, Nat.toDigits_of_lt_base hsmall, List.map_singleton,
    hunit]

theorem decimal_zero : decimal 0 = [48] := by
  have hdigit := decimal_digit (show isDigit 48 = true by decide)
  have hvalue : (48 : UInt16).toNat - 48 = 0 := by decide
  rwa [hvalue] at hdigit

theorem decimal_mul_pow {m : ℕ} (hm : 0 < m) (k : ℕ) :
    decimal (m * 10 ^ k) = decimal m ++ List.replicate k 48 := by
  induction k with
  | zero => simp
  | succ k ih =>
    have hpos : 0 < m * 10 ^ k := Nat.mul_pos hm (Nat.pow_pos (by decide))
    have hstep : m * 10 ^ (k + 1) = 10 * (m * 10 ^ k) + 0 := by
      rw [pow_succ, ← Nat.mul_assoc, Nat.mul_comm, Nat.add_zero]
    rw [hstep, ← decimal_append hpos (by decide), ih, decimal_zero, List.append_assoc,
      ← List.replicate_succ']

theorem zeros_decimal (hne : t ≠ []) (h : ∀ u ∈ t, isDigit u = true) :
    ∃ k, t = List.replicate k 48 ++ decimal (numeral t) := by
  induction t using List.reverseRecOn with
  | nil => exact absurd rfl hne
  | append_singleton t u ih =>
    obtain ⟨ht, hu⟩ := List.forall_mem_append.mp h
    have hu := List.forall_mem_singleton.mp hu
    have happend := numeral_concat t u
    by_cases hnil : t = []
    · subst hnil
      refine ⟨0, ?_⟩
      rw [happend, numeral_nil, Nat.zero_mul, Nat.zero_add, decimal_digit hu]
      rfl
    · obtain ⟨k, hk⟩ := ih hnil ht
      by_cases hzero : numeral t = 0
      · refine ⟨k + 1, ?_⟩
        rw [happend, hzero, Nat.zero_mul, Nat.zero_add, decimal_digit hu, List.replicate_succ',
          ← decimal_zero, ← hzero, ← hk]
      · have hsmall : u.toNat - 48 < 10 := by
          obtain ⟨-, hhigh⟩ := isDigit_iff.mp hu
          omega
        refine ⟨k, ?_⟩
        rw [happend, Nat.mul_comm, ← decimal_append (Nat.pos_of_ne_zero hzero) hsmall,
          decimal_digit hu, ← List.append_assoc, ← hk]

end Decimal

section Trim

theorem trim_eq (t : Text) : ∃ left right, t = left ++ trim t ++ right ∧
    (∀ u ∈ left, u ∈ blanks) ∧ ∀ u ∈ right, u ∈ blanks := by
  refine ⟨t.takeWhile (· ∈ blanks), (t.dropWhile (· ∈ blanks)).rtakeWhile (· ∈ blanks), ?_, ?_, ?_⟩
  · rw [trim, List.append_assoc, List.rdropWhile_append_rtakeWhile, List.takeWhile_append_dropWhile]
  · intro u hu
    simpa using List.mem_takeWhile_imp hu
  · intro u hu
    simpa using List.mem_rtakeWhile_imp hu

theorem not_blank (h : isDigit u = true) : u ∉ blanks := by
  have hall : blanks.all (!isDigit ·) = true := by decide
  intro hblank
  have hu := List.all_eq_true.mp hall u hblank
  rw [h] at hu
  cases hu

theorem trim_append (hleft : ∀ u ∈ left, u ∈ blanks) (hright : ∀ u ∈ right, u ∈ blanks)
    (hne : t ≠ []) (hhead : t.head hne ∉ blanks) (hlast : t.getLast hne ∉ blanks) :
    trim (left ++ t ++ right) = t := by
  have hfront : (left ++ t ++ right).dropWhile (· ∈ blanks) = t ++ right := by
    rw [List.append_assoc, List.dropWhile_append_of_pos fun u hu => decide_eq_true (hleft u hu)]
    cases t with
    | nil => exact absurd rfl hne
    | cons u t =>
      rw [List.cons_append, List.dropWhile_cons_of_neg]
      simpa using hhead
  have hback : (t ++ right).rdropWhile (· ∈ blanks) = t.rdropWhile (· ∈ blanks) := by
    rw [List.rdropWhile, List.reverse_append, List.dropWhile_append_of_pos, ← List.rdropWhile]
    intro u hu
    exact decide_eq_true (hright u (List.mem_reverse.mp hu))
  rw [trim, hfront, hback, List.rdropWhile_eq_self_iff]
  intro hne
  simpa using hlast

end Trim

end Lolipay.Script.Numerals
