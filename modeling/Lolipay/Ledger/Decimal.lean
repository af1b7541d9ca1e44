import Mathlib.Algebra.Order.Field.Rat
import Mathlib.Tactic.Common

namespace Lolipay.Ledger.Decimal

/-- `String.padStart`. -/
def padStart (length : ℕ) (fill : Char) (text : String) : String :=
  String.ofList (List.replicate (length - text.toList.length) fill ++ text.toList)

def digitsValue (digits : List Char) : ℕ := Nat.ofDigitChars 10 digits 0

def unsignedValue (text : List Char) : ℚ :=
  let fraction := (text.dropWhile (· ≠ '.')).drop 1
  digitsValue (text.takeWhile (· ≠ '.')) + digitsValue fraction / 10 ^ fraction.length

/-- The number that a decimal text stands for: digits with a point, and perhaps a
minus in front. -/
def decimalValue (text : String) : ℚ :=
  match text.toList with
  | '-' :: rest => -unsignedValue rest
  | rest => unsignedValue rest

def fractionDigits (text : String) : ℕ := ((text.toList.dropWhile (· ≠ '.')).drop 1).length

/-- An amount with a fixed number of places behind the point. -/
def fixedPoint (negative : Bool) (places whole fraction : ℕ) : String :=
  (if negative then "-" else "") ++ toString whole ++ "." ++ padStart places '0' (toString fraction)

theorem div_add_mod_div (n : ℕ) {k : ℕ} (hk : 0 < k) :
    ((n / k : ℕ) : ℚ) + (n % k : ℕ) / k = n / k := by
  have hk' : (k : ℚ) ≠ 0 := Nat.cast_ne_zero.mpr hk.ne'
  have hsplit : ((n / k * k + n % k : ℕ) : ℚ) = n := by rw [Nat.div_add_mod']
  rw [Nat.cast_add, Nat.cast_mul] at hsplit
  rw [eq_div_iff hk', add_mul, div_mul_cancel₀ _ hk', hsplit]

variable {places whole fraction : ℕ}

theorem isDigit_of_mem {c : Char} (h : c ∈ (toString whole).toList) : c.isDigit = true := by
  rw [Nat.toString_eq_repr, Nat.toList_repr] at h
  exact Nat.isDigit_of_mem_toDigits (by decide) (by decide) h

theorem digitsValue_toString (n : ℕ) : digitsValue (toString n).toList = n := by
  rw [Nat.toString_eq_repr, Nat.toList_repr, digitsValue, Nat.ofDigitChars_ten_toDigits]

theorem digitsValue_padStart (places n : ℕ) : digitsValue (padStart places '0' (toString n)).toList = n := by
  rw [padStart, String.toList_ofList, digitsValue, Nat.ofDigitChars_append, Nat.ofDigitChars_replicate_zero,
    Nat.mul_zero]
  exact digitsValue_toString n

theorem length_padStart {fill : Char} {text : String} (h : text.toList.length ≤ places) :
    (padStart places fill text).toList.length = places := by
  rw [padStart, String.toList_ofList, List.length_append, List.length_replicate]
  omega

theorem length_toString_le (h : fraction < 10 ^ places) (hpos : 0 < places) :
    (toString fraction).toList.length ≤ places := by
  rw [Nat.toString_eq_repr, Nat.toList_repr]
  exact (Nat.length_toDigits_le_iff (by decide) hpos).mpr h

theorem not_mem_toString {c : Char} (hc : c.isDigit = false) : c ∉ (toString whole).toList := by
  intro h
  cases hc.symm.trans (isDigit_of_mem h)

theorem toString_inj {m n : ℕ} (h : toString m = toString n) : m = n := by
  rw [← digitsValue_toString m, h, digitsValue_toString]

theorem not_mem_int_toString {c : Char} (hc : c.isDigit = false) (hminus : c ≠ '-') (n : ℤ) :
    c ∉ (toString n).toList := by
  rw [Int.toString_eq_repr, Int.repr_eq_if]
  split
  next => exact not_mem_toString hc
  next =>
    rw [String.toList_append, List.mem_append, not_or]
    exact ⟨fun h => hminus (List.mem_singleton.mp h), not_mem_toString hc⟩

theorem int_toString_inj {m n : ℤ} (h : toString m = toString n) : m = n := by
  -- Only one of the two signs would leave a minus where there is a digit.
  have hsign (k l : ℕ) : toString k ≠ "-" ++ toString l := by
    intro heq
    have hmem : '-' ∉ (toString k).toList := not_mem_toString (by decide)
    rw [heq, String.toList_append] at hmem
    exact hmem (List.mem_append_left _ List.mem_cons_self)
  rw [Int.toString_eq_repr, Int.toString_eq_repr, Int.repr_eq_if, Int.repr_eq_if] at h
  split at h <;> split at h
  · have := toString_inj h
    omega
  · exact absurd h (hsign _ _)
  · exact absurd h.symm (hsign _ _)
  · have := toString_inj ((String.append_right_inj _).mp h)
    omega

theorem split_point (whole : ℕ) (rest : List Char) :
    ((toString whole).toList ++ '.' :: rest).takeWhile (· ≠ '.') = (toString whole).toList ∧
      ((toString whole).toList ++ '.' :: rest).dropWhile (· ≠ '.') = '.' :: rest := by
  have hdigits : ∀ c ∈ (toString whole).toList, decide (c ≠ '.') = true := by
    intro c hc
    apply decide_eq_true
    intro heq
    subst heq
    exact not_mem_toString (by decide) hc
  rw [List.takeWhile_append_of_pos hdigits, List.dropWhile_append_of_pos hdigits]
  simp

theorem unsignedValue_fixed (h : fraction < 10 ^ places) (hpos : 0 < places) :
    unsignedValue ((toString whole).toList ++ '.' :: (padStart places '0' (toString fraction)).toList) =
      whole + fraction / 10 ^ places := by
  obtain ⟨htake, hdrop⟩ := split_point whole (padStart places '0' (toString fraction)).toList
  simp only [unsignedValue, htake, hdrop, List.drop_one, List.tail_cons, digitsValue_toString,
    digitsValue_padStart, length_padStart (length_toString_le h hpos)]

theorem fixedPoint_toList (negative : Bool) (places whole fraction : ℕ) :
    (fixedPoint negative places whole fraction).toList =
      (if negative then ['-'] else []) ++
        ((toString whole).toList ++ '.' :: (padStart places '0' (toString fraction)).toList) := by
  have hpoint : ".".toList = ['.'] := by decide
  cases negative with
  | false =>
    simp [fixedPoint, hpoint]
  | true =>
    have hminus : "-".toList = ['-'] := by decide
    simp [fixedPoint, hpoint, hminus]

/-- The text stands for the amount. -/
theorem decimalValue_fixedPoint (negative : Bool) (h : fraction < 10 ^ places) (hpos : 0 < places) :
    decimalValue (fixedPoint negative places whole fraction) =
      (if negative then -1 else 1) * (whole + fraction / 10 ^ places) := by
  rw [decimalValue, fixedPoint_toList, ← unsignedValue_fixed h hpos]
  cases negative with
  | true => simp
  | false =>
    have hhead : ∃ c cs, (toString whole).toList = c :: cs ∧ c ≠ '-' := by
      cases hdigits : (toString whole).toList with
      | nil =>
        rw [Nat.toString_eq_repr, Nat.toList_repr] at hdigits
        exact absurd hdigits Nat.toDigits_ne_nil
      | cons c cs =>
        refine ⟨c, cs, rfl, fun heq => ?_⟩
        exact not_mem_toString (c := '-') (by decide) (by rw [hdigits, heq]; exact List.mem_cons_self)
    obtain ⟨c, cs, hdigits, hc⟩ := hhead
    simp only [Bool.false_eq_true, if_false, List.nil_append, hdigits, List.cons_append, one_mul]
    split
    next rest heq => exact absurd (List.cons.inj heq).1 hc
    next => rfl

theorem fractionDigits_fixedPoint (negative : Bool) (h : fraction < 10 ^ places) (hpos : 0 < places) :
    fractionDigits (fixedPoint negative places whole fraction) = places := by
  obtain ⟨-, hdrop⟩ := split_point whole (padStart places '0' (toString fraction)).toList
  rw [fractionDigits, fixedPoint_toList]
  have hsame : ((if negative = true then ['-'] else []) ++ ((toString whole).toList ++
      '.' :: (padStart places '0' (toString fraction)).toList)).dropWhile (· ≠ '.') =
      '.' :: (padStart places '0' (toString fraction)).toList := by
    cases negative with
    | false => exact hdrop
    | true => simpa using hdrop
  rw [hsame, List.drop_one, List.tail_cons, length_padStart (length_toString_le h hpos)]

end Lolipay.Ledger.Decimal
