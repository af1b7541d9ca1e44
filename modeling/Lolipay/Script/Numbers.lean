import Lolipay.Script.Numerals
import Lolipay.Lists.Words
import Mathlib.Algebra.Order.Field.Rat
import Mathlib.Algebra.Order.Field.Power
import Mathlib.Data.Nat.Factorization.Basic

namespace Lolipay.Script.Numbers

open Lolipay.Script.Units Lolipay.Script.Numerals Lolipay.Lists.Words Lolipay.Ledger.Decimal

/-- The shortest decimal that reads back as a positive number: its digits, and how many
of them stand before the point. Since no shorter one does, the last digit is no zero. -/
structure Shortest where
  digits : ℕ
  point : ℤ
  last : digits % 10 ≠ 0

/-- A number of the program, told by how it is printed. There is one zero, as the two
that there are compare equal and print the same. -/
inductive Number where
  | nan
  | infinity (negative : Bool)
  | zero
  | finite (negative : Bool) (d : Shortest)

def exponent (n : ℤ) : Text := (if n < 0 then unit '-' else unit '+') :: decimal (n - 1).natAbs

/-- The decimal itself, with an exponent when it is very large or very small. -/
def Shortest.text (d : Shortest) : Text :=
  let s := decimal d.digits
  let k := s.length
  let n := d.point
  if -5 ≤ n ∧ n ≤ 21 then
    if k ≤ n then s ++ List.replicate (n - k).toNat (unit '0')
    else if 0 < n then s.take n.toNat ++ unit '.' :: s.drop n.toNat
    else unit '0' :: unit '.' :: (List.replicate (-n).toNat (unit '0') ++ s)
  else
    if k = 1 then s ++ unit 'e' :: exponent n
    else s.take 1 ++ unit '.' :: (s.drop 1 ++ unit 'e' :: exponent n)

def sign (negative : Bool) : Text := if negative then [unit '-'] else []

/-- `Number::toString`. -/
def Number.text : Number → Text
  | .nan => units "NaN"
  | .infinity negative => sign negative ++ units "Infinity"
  | .zero => [unit '0']
  | .finite negative d => sign negative ++ d.text

section Values

/-- What digits with a point stand for. -/
def mantissaValue (t : Text) : ℚ :=
  let fraction := (t.dropWhile (· ≠ unit '.')).drop 1
  (numeral (t.takeWhile (· ≠ unit '.')) : ℚ) + numeral fraction / 10 ^ fraction.length

def exponentValue : Text → ℤ
  | [] => 0
  | u :: t => if u = unit '-' then -numeral t else numeral t

def literalValue (t : Text) : ℚ :=
  mantissaValue (t.takeWhile (· ≠ unit 'e')) *
    10 ^ exponentValue ((t.dropWhile (· ≠ unit 'e')).drop 1)

def Shortest.value (d : Shortest) : ℚ :=
  (d.digits : ℚ) * 10 ^ (d.point - (decimal d.digits).length)

variable {a t : Text} {c : UInt16}

theorem not_mem_of_isDigit (hc : isDigit c = false) (h : ∀ u ∈ a, isDigit u = true) : c ∉ a := by
  intro hmem
  cases hc.symm.trans (h c hmem)

theorem mantissaValue_digits (h : ∀ u ∈ a, isDigit u = true) : mantissaValue a = numeral a := by
  have hpoint := not_mem_of_isDigit (show isDigit (unit '.') = false from rfl) h
  rw [mantissaValue, takeWhile_of_not_mem hpoint, dropWhile_of_not_mem hpoint]
  simp

theorem mantissaValue_point (h : ∀ u ∈ a, isDigit u = true) (b : Text) :
    mantissaValue (a ++ unit '.' :: b) = numeral (a ++ b) / 10 ^ b.length := by
  have hpoint := not_mem_of_isDigit (show isDigit (unit '.') = false from rfl) h
  have hpow : (10 : ℚ) ^ b.length ≠ 0 := pow_ne_zero _ (by decide)
  rw [mantissaValue, takeWhile_append_cons hpoint, dropWhile_append_cons hpoint, numeral_append]
  push_cast
  rw [add_div, mul_div_cancel_right₀ _ hpow]

theorem literalValue_plain (h : unit 'e' ∉ t) : literalValue t = mantissaValue t := by
  rw [literalValue, takeWhile_of_not_mem h, dropWhile_of_not_mem h]
  simp [exponentValue]

theorem literalValue_exponent (h : unit 'e' ∉ t) (b : Text) :
    literalValue (t ++ unit 'e' :: b) = mantissaValue t * 10 ^ exponentValue b := by
  rw [literalValue, takeWhile_append_cons h, dropWhile_append_cons h]

theorem exponentValue_exponent {n : ℤ} (h : n ≠ 0) : exponentValue (exponent n) = n - 1 := by
  have hplus : unit '+' ≠ unit '-' := by decide
  unfold exponent
  by_cases hn : n < 0
  · rw [if_pos hn, exponentValue, if_pos rfl, numeral_decimal]
    omega
  · rw [if_neg hn, exponentValue, if_neg hplus, numeral_decimal]
    omega

end Values

section Texts

variable {d d' : Shortest}

theorem Shortest.digits_pos (d : Shortest) : 0 < d.digits := by
  have hlast := d.last
  omega

theorem Shortest.value_pos (d : Shortest) : 0 < d.value := by
  have hdigits : (0 : ℚ) < d.digits := Nat.cast_pos.mpr d.digits_pos
  exact mul_pos hdigits (zpow_pos (by decide) _)

theorem div_pow_eq (x : ℚ) (j : ℕ) : x / 10 ^ j = x * 10 ^ (-(j : ℤ)) := by
  rw [zpow_neg, zpow_natCast, div_eq_mul_inv]

theorem not_mem_point {a b : Text} (ha : ∀ u ∈ a, isDigit u = true) (hb : ∀ u ∈ b, isDigit u = true) :
    unit 'e' ∉ a ++ unit '.' :: b := by
  rw [List.mem_append, List.mem_cons, not_or, not_or]
  exact ⟨not_mem_of_isDigit rfl ha, by decide, not_mem_of_isDigit rfl hb⟩

theorem literalValue_point {a b : Text} (ha : ∀ u ∈ a, isDigit u = true)
    (hb : ∀ u ∈ b, isDigit u = true) :
    literalValue (a ++ unit '.' :: b) = numeral (a ++ b) * 10 ^ (-(b.length : ℤ)) := by
  rw [literalValue_plain (not_mem_point ha hb), mantissaValue_point ha, div_pow_eq]

theorem isDigit_zeros (k : ℕ) : ∀ u ∈ List.replicate k (unit '0'), isDigit u = true := by
  intro u hu
  rw [List.eq_of_mem_replicate hu]
  decide

theorem Shortest.literalValue_text (d : Shortest) : literalValue d.text = d.value := by
  have hdigits := isDigit_decimal d.digits
  have hlength : 0 < (decimal d.digits).length := List.length_pos_iff.mpr (decimal_ne_nil _)
  have htake (j : ℕ) : ∀ u ∈ (decimal d.digits).take j, isDigit u = true :=
    fun u hu => hdigits u (List.mem_of_mem_take hu)
  have hdrop (j : ℕ) : ∀ u ∈ (decimal d.digits).drop j, isDigit u = true :=
    fun u hu => hdigits u (List.mem_of_mem_drop hu)
  simp only [Shortest.text, Shortest.value]
  split_ifs with hrange hwhole hpos hone
  · have hall := List.forall_mem_append.mpr ⟨hdigits, isDigit_zeros (d.point - (decimal d.digits).length).toNat⟩
    have hpow : ((10 ^ (d.point - (decimal d.digits).length).toNat : ℕ) : ℚ) =
        10 ^ (d.point - (decimal d.digits).length) := by
      rw [Nat.cast_pow, ← zpow_natCast, Int.toNat_of_nonneg (by omega)]
      rfl
    rw [literalValue_plain (not_mem_of_isDigit rfl hall), mantissaValue_digits hall, numeral_append,
      numeral_decimal, List.length_replicate, Nat.cast_add, Nat.cast_mul, hpow]
    have hzeros : numeral (List.replicate (d.point - (decimal d.digits).length).toNat (unit '0')) = 0 :=
      numeral_zeros _
    rw [hzeros, Nat.cast_zero, add_zero]
  · have hexp : -(((decimal d.digits).length - d.point.toNat : ℕ) : ℤ) =
        d.point - (decimal d.digits).length := by
      omega
    rw [literalValue_point (htake _) (hdrop _), List.take_append_drop, numeral_decimal, List.length_drop, hexp]
  · have hrest := List.forall_mem_append.mpr ⟨isDigit_zeros (-d.point).toNat, hdigits⟩
    have hzeros : numeral ([unit '0'] ++ (List.replicate (-d.point).toNat (unit '0') ++ decimal d.digits)) =
        d.digits := by
      rw [numeral_append, numeral_append, numeral_decimal]
      have hnone : numeral (List.replicate (-d.point).toNat (unit '0')) = 0 := numeral_zeros _
      have hfirst : numeral [unit '0'] = 0 := numeral_zeros 1
      rw [hnone, hfirst, Nat.zero_mul, Nat.zero_mul, Nat.zero_add, Nat.zero_add]
    have hpoint := literalValue_point (isDigit_zeros 1) hrest
    rw [List.replicate_one, hzeros, List.length_append, List.length_replicate] at hpoint
    have hexp : -(((-d.point).toNat + (decimal d.digits).length : ℕ) : ℤ) =
        d.point - (decimal d.digits).length := by
      omega
    rw [hexp] at hpoint
    exact hpoint
  · rw [literalValue_exponent (not_mem_of_isDigit rfl hdigits), mantissaValue_digits hdigits, numeral_decimal,
      exponentValue_exponent (by omega), hone]
    rfl
  · have hsplit : (decimal d.digits).take 1 ++
          unit '.' :: ((decimal d.digits).drop 1 ++ unit 'e' :: exponent d.point) =
        ((decimal d.digits).take 1 ++ unit '.' :: (decimal d.digits).drop 1) ++
          unit 'e' :: exponent d.point := by
      simp
    rw [hsplit, literalValue_exponent (not_mem_point (htake 1) (hdrop 1)), mantissaValue_point (htake 1),
      List.take_append_drop, numeral_decimal, exponentValue_exponent (by omega), div_pow_eq, mul_assoc,
      ← zpow_add₀ (by decide), List.length_drop]
    have hexp : -(((decimal d.digits).length - 1 : ℕ) : ℤ) + (d.point - 1) =
        d.point - (decimal d.digits).length := by
      omega
    rw [hexp]

theorem scaled_eq {m m' : ℕ} {e e' : ℤ} (hm : m % 10 ≠ 0) (hle : e ≤ e')
    (h : (m : ℚ) * 10 ^ e = m' * 10 ^ e') : m = m' ∧ e = e' := by
  obtain ⟨j, rfl⟩ := Int.le.dest hle
  have hpow : (10 : ℚ) ^ e ≠ 0 := zpow_ne_zero _ (by decide)
  rw [zpow_add₀ (by decide), mul_comm ((10 : ℚ) ^ e), ← mul_assoc, mul_left_inj' hpow, zpow_natCast] at h
  have hnat : m = m' * 10 ^ j := by exact_mod_cast h
  cases j with
  | zero => exact ⟨by simpa using hnat, by simp⟩
  | succ j =>
    rw [pow_succ, ← Nat.mul_assoc] at hnat
    exact absurd (hnat ▸ Nat.mul_mod_left _ 10) hm

theorem Shortest.value_injective : Function.Injective Shortest.value := by
  intro d d' h
  have hboth : d.digits = d'.digits ∧
      d.point - (decimal d.digits).length = d'.point - (decimal d'.digits).length := by
    obtain hle | hle := le_total (d.point - (decimal d.digits).length : ℤ)
      (d'.point - (decimal d'.digits).length)
    · exact scaled_eq d.last hle h
    · obtain ⟨hdigits, hpoint⟩ := scaled_eq d'.last hle h.symm
      exact ⟨hdigits.symm, hpoint.symm⟩
  obtain ⟨hdigits, hpoint⟩ := hboth
  rw [hdigits, sub_left_inj] at hpoint
  obtain ⟨digits, point, last⟩ := d
  obtain ⟨digits', point', last'⟩ := d'
  obtain rfl : digits = digits' := hdigits
  obtain rfl : point = point' := hpoint
  rfl

theorem Shortest.text_injective : Function.Injective Shortest.text := by
  intro d d' h
  apply Shortest.value_injective
  rw [← d.literalValue_text, h, d'.literalValue_text]

theorem Shortest.text_head (d : Shortest) : ∃ u t, d.text = u :: t ∧ isDigit u = true := by
  have hdigits := isDigit_decimal d.digits
  obtain ⟨u, s, hs⟩ := List.exists_cons_of_ne_nil (decimal_ne_nil d.digits)
  have hu : isDigit u = true := hdigits u (hs ▸ List.mem_cons_self)
  simp only [Shortest.text, hs]
  split_ifs with hrange hwhole hpos hone
  · exact ⟨u, _, rfl, hu⟩
  · obtain ⟨j, hj⟩ := Nat.exists_eq_succ_of_ne_zero (show d.point.toNat ≠ 0 by omega)
    rw [hj]
    exact ⟨u, _, rfl, hu⟩
  · exact ⟨unit '0', _, rfl, by decide⟩
  · exact ⟨u, _, rfl, hu⟩
  · exact ⟨u, _, rfl, hu⟩

theorem Shortest.exists_text {n : ℕ} (hpos : 0 < n) (hn : n < 10 ^ 21) : ∃ d : Shortest, d.text = decimal n := by
  obtain ⟨k, m, hm, rfl⟩ := Nat.exists_eq_pow_mul_and_not_dvd (show n ≠ 0 by omega) 10 (by decide)
  have hlast : m % 10 ≠ 0 := fun h => hm (Nat.dvd_of_mod_eq_zero h)
  have hdecimal : decimal (10 ^ k * m) = decimal m ++ List.replicate k (unit '0') := by
    rw [Nat.mul_comm]
    exact decimal_mul_pow (by omega) k
  have hlength : (decimal m).length + k ≤ 21 := by
    have hle := length_toString_le hn (by decide)
    rwa [← List.length_map (f := unit), ← decimal_eq, hdecimal, List.length_append,
      List.length_replicate] at hle
  refine ⟨⟨m, (decimal m).length + k, hlast⟩, ?_⟩
  have hrange : -5 ≤ ((decimal m).length + k : ℤ) ∧ ((decimal m).length + k : ℤ) ≤ 21 := by omega
  have hwhole : ((decimal m).length : ℤ) ≤ (decimal m).length + k := by omega
  simp only [Shortest.text, if_pos hrange, if_pos hwhole, add_sub_cancel_left, Int.toNat_natCast]
  exact hdecimal.symm

theorem Number.exists_text {n : ℤ} (h : n.natAbs < 10 ^ 21) :
    ∃ x : Number, x.text = sign (n < 0) ++ decimal n.natAbs := by
  by_cases hzero : n = 0
  · subst hzero
    exact ⟨.zero, decimal_zero.symm⟩
  · obtain ⟨d, hd⟩ := Shortest.exists_text (Int.natAbs_pos.mpr hzero) h
    refine ⟨.finite (n < 0) d, ?_⟩
    rw [Number.text, hd]

/-- What a number is printed with beside digits. -/
def marks : Text := units "-+.eNaInfity"

theorem Shortest.text_units (d : Shortest) : ∀ u ∈ d.text, isDigit u = true ∨ u ∈ marks := by
  have hdigits (k : ℕ) : ∀ u ∈ decimal k, isDigit u = true ∨ u ∈ marks :=
    fun u hu => Or.inl (isDigit_decimal k u hu)
  have hzeros (k : ℕ) : ∀ u ∈ List.replicate k (unit '0'), isDigit u = true ∨ u ∈ marks :=
    fun u hu => Or.inl (isDigit_zeros k u hu)
  have htake (k j : ℕ) : ∀ u ∈ (decimal k).take j, isDigit u = true ∨ u ∈ marks :=
    fun u hu => hdigits k u (List.mem_of_mem_take hu)
  have hdrop (k j : ℕ) : ∀ u ∈ (decimal k).drop j, isDigit u = true ∨ u ∈ marks :=
    fun u hu => hdigits k u (List.mem_of_mem_drop hu)
  have hpoint : isDigit (unit '.') = true ∨ unit '.' ∈ marks := by decide
  have hexponent (n : ℤ) : ∀ u ∈ unit 'e' :: exponent n, isDigit u = true ∨ u ∈ marks := by
    refine List.forall_mem_cons.mpr ⟨by decide, List.forall_mem_cons.mpr ⟨?_, hdigits _⟩⟩
    split <;> decide
  simp only [Shortest.text]
  split_ifs with hrange hwhole hpos hone <;> simp only [List.forall_mem_append, List.forall_mem_cons]
  · exact ⟨hdigits _, hzeros _⟩
  · exact ⟨htake _ _, hpoint, hdrop _ _⟩
  · exact ⟨by decide, hpoint, hzeros _, hdigits _⟩
  · exact ⟨hdigits _, List.forall_mem_cons.mp (hexponent _)⟩
  · exact ⟨htake _ _, hpoint, hdrop _ _, List.forall_mem_cons.mp (hexponent _)⟩

theorem units_of_all {t : Text} (h : t.all (fun u => isDigit u || decide (u ∈ marks)) = true) :
    ∀ u ∈ t, isDigit u = true ∨ u ∈ marks := by
  intro u hu
  simpa using List.all_eq_true.mp h u hu

theorem Number.text_units (x : Number) : ∀ u ∈ x.text, isDigit u = true ∨ u ∈ marks := by
  have hsign (negative : Bool) : ∀ u ∈ sign negative, isDigit u = true ∨ u ∈ marks := by
    cases negative with
    | true => exact units_of_all (by decide)
    | false => exact List.forall_mem_nil _
  cases x with
  | nan => exact units_of_all (by decide)
  | infinity negative => exact List.forall_mem_append.mpr ⟨hsign negative, units_of_all (by decide)⟩
  | zero => exact units_of_all (by decide)
  | finite negative d => exact List.forall_mem_append.mpr ⟨hsign negative, d.text_units⟩

/-- A text without the minus in front. -/
def unsigned (t : Text) : Text := if t.head? = some (unit '-') then t.tail else t

theorem unsigned_sign {t : Text} (h : t.head? ≠ some (unit '-')) (negative : Bool) :
    unsigned (sign negative ++ t) = t := by
  cases negative with
  | true => rfl
  | false => exact if_neg h

theorem sign_inj {t : Text} (h : t.head? ≠ some (unit '-')) {b b' : Bool}
    (hsame : sign b ++ t = sign b' ++ t) : b = b' := by
  cases b <;> cases b'
  · rfl
  · exact absurd (congrArg List.head? hsame) h
  · exact absurd (congrArg List.head? hsame).symm h
  · rfl

theorem Shortest.head_text (d : Shortest) : ∃ u, d.text.head? = some u ∧ isDigit u = true := by
  obtain ⟨u, t, htext, hu⟩ := d.text_head
  exact ⟨u, by rw [htext]; rfl, hu⟩

/-- Which of the four kinds of number a text without a sign belongs to. -/
def kindOf (t : Text) : ℕ :=
  if t.head? = some (unit 'N') then 0
  else if t.head? = some (unit 'I') then 1
  else if t = [unit '0'] then 2
  else 3

theorem kindOf_text (d : Shortest) : kindOf d.text = 3 := by
  obtain ⟨u, hhead, hu⟩ := d.head_text
  have hzero : d.text ≠ [unit '0'] := by
    intro heq
    have hvalue := d.literalValue_text
    have hnone : literalValue [unit '0'] = 0 := by
      have hdigits : mantissaValue [unit '0'] = numeral [unit '0'] := mantissaValue_digits (isDigit_zeros 1)
      rw [literalValue_plain (by decide), hdigits]
      exact Nat.cast_zero
    rw [heq, hnone] at hvalue
    exact d.value_pos.ne hvalue
  have hother {c : Char} (hc : isDigit (unit c) = false) : d.text.head? ≠ some (unit c) := by
    rw [hhead]
    intro heq
    obtain rfl := Option.some.inj heq
    cases hc.symm.trans hu
  rw [kindOf, if_neg (hother rfl), if_neg (hother rfl), if_neg hzero]

theorem Shortest.not_minus (d : Shortest) : d.text.head? ≠ some (unit '-') := by
  obtain ⟨u, hhead, hu⟩ := d.head_text
  rw [hhead]
  rintro heq
  obtain rfl := Option.some.inj heq
  cases hu

def Number.magnitude : Number → Text
  | .nan => units "NaN"
  | .infinity _ => units "Infinity"
  | .zero => [unit '0']
  | .finite _ d => d.text

theorem Number.unsigned_text (x : Number) : unsigned x.text = x.magnitude := by
  cases x with
  | nan => decide
  | infinity negative => exact unsigned_sign (by decide) negative
  | zero => decide
  | finite negative d => exact unsigned_sign d.not_minus negative

def Number.kind : Number → ℕ
  | .nan => 0
  | .infinity _ => 1
  | .zero => 2
  | .finite _ _ => 3

theorem Number.kindOf_magnitude (x : Number) : kindOf x.magnitude = x.kind := by
  cases x with
  | nan => decide
  | infinity negative =>
    change kindOf (units "Infinity") = 1
    decide
  | zero => decide
  | finite negative d => exact kindOf_text d

/-- A number is told by its text. -/
theorem Number.text_injective : Function.Injective Number.text := by
  intro x y h
  have hmagnitude := congrArg unsigned h
  rw [x.unsigned_text, y.unsigned_text] at hmagnitude
  have hkind := congrArg kindOf hmagnitude
  rw [x.kindOf_magnitude, y.kindOf_magnitude] at hkind
  match x, y, h, hmagnitude, hkind with
  | .nan, .nan, _, _, _ => rfl
  | .zero, .zero, _, _, _ => rfl
  | .infinity negative, .infinity negative', h, _, _ =>
    rw [sign_inj (by decide) h]
  | .finite negative d, .finite negative' d', h, hmagnitude, _ =>
    obtain rfl := Shortest.text_injective hmagnitude
    rw [sign_inj d.not_minus h]

end Texts

end Lolipay.Script.Numbers
