import Lolipay.Coordinator.Money
import Lolipay.Script.Numerals

namespace Lolipay.Coordinator.UsdcText

open Lolipay.Coordinator.Money Lolipay.Ledger.Decimal
open Lolipay.Script.Units Lolipay.Script.Grammar Lolipay.Script.Numerals
open RegularExpression (char)

/-- `^\d+(\.\d+)?$` -/
def usdcPattern : RegularExpression UInt16 :=
  plus' (oneOf digits) * optional (char (unit '.') * plus' (oneOf digits))

def usdcToBaseUnits (input : Text) (decimals : ℕ := 7) : Except String Text :=
  let trimmed := trim input
  if usdcPattern.rmatch trimmed = false then .error "Enter a valid USDC amount"
  else
    let parts := trimmed.splitOn (unit '.')
    let whole := parts[0]?.getD []
    let frac := parts[1]?.getD []
    if decimals < frac.length then .error ("Max " ++ toString decimals ++ " decimal places")
    else
      let scaledFrac := (frac ++ List.replicate decimals (unit '0')).take decimals
      let base := numeral whole * 10 ^ decimals + numeral scaledFrac
      if base ≤ 0 then .error "Amount must be greater than 0"
      else .ok (decimal base)

/-- A decimal literal with at most `places` digits behind the point, and its value. -/
inductive Literal (places : ℕ) : Text → ℚ → Prop
  | whole {whole : Text} (hne : whole ≠ []) (hwhole : ∀ u ∈ whole, isDigit u = true) :
      Literal places whole (numeral whole)
  | point {whole frac : Text} (hne : whole ≠ []) (hwhole : ∀ u ∈ whole, isDigit u = true)
      (hpos : 0 < frac.length) (hle : frac.length ≤ places) (hfrac : ∀ u ∈ frac, isDigit u = true) :
      Literal places (whole ++ unit '.' :: frac) (numeral whole + numeral frac / 10 ^ frac.length)

variable {places decimals n : ℕ} {input t whole frac result : Text} {v w : ℚ}

theorem usdcPattern_iff : usdcPattern.rmatch t = true ↔ ∃ whole frac : Text, whole ≠ [] ∧
    (∀ u ∈ whole, isDigit u = true) ∧ (∀ u ∈ frac, isDigit u = true) ∧
    t = whole ++ (if frac = [] then [] else unit '.' :: frac) := by
  rw [matches_rmatch, usdcPattern, matches_mul]
  constructor
  · rintro ⟨whole, rest, hwhole, hrest, rfl⟩
    obtain ⟨hne, hwhole⟩ := matches_plus_digits.mp hwhole
    obtain rfl | hrest := matches_optional.mp hrest
    · exact ⟨whole, [], hne, hwhole, by simp, by simp⟩
    · obtain ⟨point, frac, hpoint, hfrac, rfl⟩ := matches_mul.mp hrest
      obtain rfl := matches_char.mp hpoint
      obtain ⟨hfracNe, hfrac⟩ := matches_plus_digits.mp hfrac
      exact ⟨whole, frac, hne, hwhole, hfrac, by rw [if_neg hfracNe]; rfl⟩
  · rintro ⟨whole, frac, hne, hwhole, hfrac, rfl⟩
    refine ⟨whole, _, matches_plus_digits.mpr ⟨hne, hwhole⟩, matches_optional.mpr ?_, rfl⟩
    by_cases hnil : frac = []
    · exact Or.inl (if_pos hnil)
    · rw [if_neg hnil]
      refine Or.inr (matches_mul.mpr ⟨[unit '.'], frac, matches_char.mpr rfl, ?_, rfl⟩)
      exact matches_plus_digits.mpr ⟨hnil, hfrac⟩

theorem point_not_mem (h : ∀ u ∈ t, isDigit u = true) : unit '.' ∉ t := by
  intro hmem
  cases h _ hmem

theorem split_parts (hwhole : ∀ u ∈ whole, isDigit u = true) (hfrac : ∀ u ∈ frac, isDigit u = true)
    (ht : t = whole ++ (if frac = [] then [] else unit '.' :: frac)) :
    (t.splitOn (unit '.'))[0]?.getD [] = whole ∧ (t.splitOn (unit '.'))[1]?.getD [] = frac := by
  subst ht
  by_cases hnil : frac = []
  · rw [if_pos hnil, List.append_nil, List.splitOn_eq_singleton (point_not_mem hwhole)]
    exact ⟨rfl, hnil.symm⟩
  · rw [if_neg hnil, List.splitOn_append_cons_self_of_not_mem (point_not_mem hwhole),
      List.splitOn_eq_singleton (point_not_mem hfrac)]
    exact ⟨rfl, rfl⟩

theorem numeral_scaled (h : frac.length ≤ decimals) :
    numeral ((frac ++ List.replicate decimals (unit '0')).take decimals) =
      numeral frac * 10 ^ (decimals - frac.length) := by
  have hzeros : decimals ⊓ (decimals - frac.length) = decimals - frac.length := by omega
  rw [List.take_append, List.take_of_length_le h, List.take_replicate, numeral_append,
    List.length_replicate, min_comm, hzeros]
  exact congrArg _ (numeral_zeros _)

theorem literal_iff : Literal places t v ↔ ∃ whole frac : Text, whole ≠ [] ∧
    (∀ u ∈ whole, isDigit u = true) ∧ (∀ u ∈ frac, isDigit u = true) ∧
    t = whole ++ (if frac = [] then [] else unit '.' :: frac) ∧ frac.length ≤ places ∧
    v = numeral whole + numeral frac / 10 ^ frac.length := by
  constructor
  · intro h
    cases h with
    | whole hne hwhole =>
      exact ⟨t, [], hne, hwhole, by simp, by simp, Nat.zero_le _, by simp [numeral]⟩
    | @point whole frac hne hwhole hpos hle hfrac =>
      have hfracNe : frac ≠ [] := List.length_pos_iff.mp hpos
      exact ⟨whole, frac, hne, hwhole, hfrac, by rw [if_neg hfracNe], hle, rfl⟩
  · rintro ⟨whole, frac, hne, hwhole, hfrac, rfl, hle, rfl⟩
    by_cases hnil : frac = []
    · subst hnil
      simpa [numeral] using Literal.whole hne hwhole
    · rw [if_neg hnil]
      exact Literal.point hne hwhole (List.length_pos_iff.mpr hnil) hle hfrac

/-- A literal has one value. -/
theorem Literal.unique (hv : Literal places t v) (hw : Literal places t w) : v = w := by
  obtain ⟨whole, frac, -, hwhole, hfrac, ht, -, rfl⟩ := literal_iff.mp hv
  obtain ⟨whole', frac', -, hwhole', hfrac', ht', -, rfl⟩ := literal_iff.mp hw
  obtain ⟨hpart, hrest⟩ := split_parts hwhole hfrac ht
  obtain ⟨hpart', hrest'⟩ := split_parts hwhole' hfrac' ht'
  obtain rfl : whole = whole' := hpart.symm.trans hpart'
  obtain rfl : frac = frac' := hrest.symm.trans hrest'
  rfl

theorem scaled_value (whole : Text) (h : frac.length ≤ decimals) :
    ((numeral whole * 10 ^ decimals + numeral frac * 10 ^ (decimals - frac.length) : ℕ) : ℚ) =
      (numeral whole + numeral frac / 10 ^ frac.length) * 10 ^ decimals := by
  have hne : (10 : ℚ) ^ frac.length ≠ 0 := pow_ne_zero _ (by decide)
  have hpow : (10 : ℚ) ^ decimals = 10 ^ frac.length * 10 ^ (decimals - frac.length) := by
    rw [← pow_add, Nat.add_sub_cancel' h]
  push_cast
  rw [add_mul, div_mul_eq_mul_div, hpow]
  congr 1
  rw [mul_left_comm, mul_div_cancel_left₀ _ hne]

theorem Literal.exists_scaled (h : Literal decimals t v) : ∃ n : ℕ, (n : ℚ) = v * 10 ^ decimals := by
  obtain ⟨whole, frac, -, -, -, -, hle, rfl⟩ := literal_iff.mp h
  exact ⟨_, scaled_value whole hle⟩

theorem usdcToBaseUnits_parts (hne : whole ≠ []) (hwhole : ∀ u ∈ whole, isDigit u = true)
    (hfrac : ∀ u ∈ frac, isDigit u = true)
    (ht : trim input = whole ++ (if frac = [] then [] else unit '.' :: frac))
    (hle : frac.length ≤ decimals) :
    usdcToBaseUnits input decimals =
      if numeral whole * 10 ^ decimals + numeral frac * 10 ^ (decimals - frac.length) ≤ 0 then
        .error "Amount must be greater than 0"
      else
        .ok (decimal (numeral whole * 10 ^ decimals + numeral frac * 10 ^ (decimals - frac.length))) := by
  have hpattern : usdcPattern.rmatch (trim input) = true :=
    usdcPattern_iff.mpr ⟨whole, frac, hne, hwhole, hfrac, ht⟩
  obtain ⟨hpart, hrest⟩ := split_parts hwhole hfrac ht
  simp only [usdcToBaseUnits, hpattern, hpart, hrest, Bool.true_eq_false, if_false, not_lt.mpr hle,
    numeral_scaled hle]

theorem parts_of_ok (h : usdcToBaseUnits input decimals = .ok result) : ∃ whole frac : Text,
    whole ≠ [] ∧ (∀ u ∈ whole, isDigit u = true) ∧ (∀ u ∈ frac, isDigit u = true) ∧
    trim input = whole ++ (if frac = [] then [] else unit '.' :: frac) ∧ frac.length ≤ decimals := by
  simp only [usdcToBaseUnits] at h
  split at h
  next => cases h
  next hpattern =>
    obtain ⟨whole, frac, hne, hwhole, hfrac, ht⟩ :=
      usdcPattern_iff.mp (Bool.not_eq_false _ ▸ hpattern)
    obtain ⟨-, hrest⟩ := split_parts hwhole hfrac ht
    split at h
    next => cases h
    next hle =>
      rw [hrest, not_lt] at hle
      exact ⟨whole, frac, hne, hwhole, hfrac, ht, hle⟩

/-- An amount is taken exactly when it is a literal of positive value. -/
theorem usdcToBaseUnits_eq_ok : usdcToBaseUnits input decimals = .ok result ↔
    ∃ v : ℚ, Literal decimals (trim input) v ∧ 0 < v ∧
      ∃ n : ℕ, (n : ℚ) = v * 10 ^ decimals ∧ result = decimal n := by
  have hpow : (0 : ℚ) < 10 ^ decimals := pow_pos (by decide) _
  constructor
  · intro h
    obtain ⟨whole, frac, hne, hwhole, hfrac, ht, hle⟩ := parts_of_ok h
    have hscaled := scaled_value whole hle
    rw [usdcToBaseUnits_parts hne hwhole hfrac ht hle] at h
    split at h
    next => cases h
    next hpos =>
      cases h
      refine ⟨_, literal_iff.mpr ⟨whole, frac, hne, hwhole, hfrac, ht, hle, rfl⟩, ?_, _, hscaled, rfl⟩
      rw [not_le] at hpos
      apply (mul_pos_iff_of_pos_right hpow).mp
      rw [← hscaled]
      exact Nat.cast_pos.mpr hpos
  · rintro ⟨v, hv, hpos, n, hn, rfl⟩
    obtain ⟨whole, frac, hne, hwhole, hfrac, ht, hle, rfl⟩ := literal_iff.mp hv
    rw [usdcToBaseUnits_parts hne hwhole hfrac ht hle]
    have hscaled := hn.trans (scaled_value whole hle).symm
    have hbase := Nat.cast_injective hscaled
    have hn' : 0 < n := by
      rw [← Nat.cast_pos (α := ℚ), hn]
      exact mul_pos hpos hpow
    rw [← hbase, if_neg (not_le.mpr hn')]

section Shown

theorem Literal.ne_nil (h : Literal places t v) : t ≠ [] := by
  cases h with
  | whole hne hwhole => exact hne
  | point hne hwhole hpos hle hfrac => exact List.append_ne_nil_of_left_ne_nil hne _

theorem Literal.trim (h : Literal places t v) : trim t = t := by
  have hne := h.ne_nil
  have hends : isDigit (t.head hne) = true ∧ isDigit (t.getLast hne) = true := by
    cases h with
    | whole _ hwhole => exact ⟨hwhole _ (List.head_mem hne), hwhole _ (List.getLast_mem hne)⟩
    | @point whole frac hwholeNe hwhole hpos hle hfrac =>
      have hfracNe : frac ≠ [] := List.length_pos_iff.mp hpos
      constructor
      · rw [List.head_append_left hwholeNe]
        exact hwhole _ (List.head_mem hwholeNe)
      · rw [List.getLast_append_of_ne_nil hne (List.cons_ne_nil _ frac), List.getLast_cons hfracNe]
        exact hfrac _ (List.getLast_mem hfracNe)
  obtain ⟨hhead, hlast⟩ := hends
  simpa using trim_append (List.forall_mem_nil _) (List.forall_mem_nil _) hne (not_blank hhead)
    (not_blank hlast)

theorem isDigit_padStart {c : Char} (h : c ∈ (padStart places '0' (toString n)).toList) :
    c.isDigit = true := by
  rw [padStart, String.toList_ofList] at h
  obtain h | h := List.mem_append.mp h
  · rw [List.eq_of_mem_replicate h]
    decide
  · exact isDigit_of_mem h

theorem units_baseUnits (n : ℕ) : units (baseUnitsToUsdcString n) = decimal (n / usdcBaseUnits) ++
    unit '.' :: (padStart 7 '0' (toString (n % usdcBaseUnits))).toList.map unit := by
  have hpoint : unitsOf '.' = [unit '.'] := by decide
  rw [baseUnitsToUsdcString, units, fixedPoint_toList, decide_eq_false (not_lt.mpr (Int.natCast_nonneg n)),
    if_neg Bool.false_ne_true, List.nil_append, List.flatMap_append, List.flatMap_cons, hpoint,
    flatMap_unitsOf fun _ => isDigit_padStart, flatMap_unitsOf fun _ => isDigit_of_mem, decimal_eq]
  rfl

theorem literal_baseUnits (n : ℕ) :
    Literal 7 (units (baseUnitsToUsdcString n)) (n / usdcBaseUnits) := by
  have hlt : n % usdcBaseUnits < 10 ^ 7 := Nat.mod_lt _ (by decide)
  have hlength : ((padStart 7 '0' (toString (n % usdcBaseUnits))).toList.map unit).length = 7 := by
    rw [List.length_map]
    exact length_padStart (length_toString_le hlt (by decide))
  have hpow : (10 : ℚ) ^ 7 = usdcBaseUnits := by norm_num [usdcBaseUnits]
  rw [units_baseUnits]
  refine literal_iff.mpr ⟨decimal (n / usdcBaseUnits), _, decimal_ne_nil _, isDigit_decimal _,
    isDigit_map fun _ => isDigit_padStart, ?_, hlength.le, ?_⟩
  · rw [if_neg (List.length_pos_iff.mp (by rw [hlength]; decide))]
  · rw [hlength, numeral_decimal, numeral_map fun _ => isDigit_padStart, digitsValue_padStart, hpow,
      div_add_mod_div n (by decide)]

theorem usdcToBaseUnits_baseUnits (h : 0 < n) :
    usdcToBaseUnits (units (baseUnitsToUsdcString n)) = .ok (decimal n) := by
  have hliteral := literal_baseUnits n
  have hunits : (0 : ℚ) < usdcBaseUnits := Nat.cast_pos.mpr (by decide)
  have hpow : (10 : ℚ) ^ 7 = usdcBaseUnits := by norm_num [usdcBaseUnits]
  rw [usdcToBaseUnits_eq_ok, hliteral.trim, hpow]
  refine ⟨_, hliteral, div_pos (Nat.cast_pos.mpr h) hunits, n, ?_, rfl⟩
  rw [div_mul_cancel₀ _ hunits.ne']

end Shown

/-- An amount in USDC that was typed is taken at its value, and what is shown for it
is the same amount. -/
theorem usdc_amounts_inverse :
    (∀ input, (∃ result, usdcToBaseUnits input = .ok result) ↔
      ∃ v, Literal 7 (trim input) v ∧ 0 < v) ∧
    (∀ input v, Literal 7 (trim input) v → 0 < v →
      ∃ n : ℕ, (n : ℚ) = v * 10 ^ 7 ∧ usdcToBaseUnits input = .ok (decimal n)) ∧
    (∀ n : ℕ, 0 < n → usdcToBaseUnits (units (baseUnitsToUsdcString n)) = .ok (decimal n)) ∧
    (∀ input result, usdcToBaseUnits input = .ok result →
      ∀ v, Literal 7 (trim input) v → decimalValue (baseUnitsToUsdcString (numeral result)) = v) := by
  have hpow : (10 : ℚ) ^ 7 = usdcBaseUnits := by norm_num [usdcBaseUnits]
  have htaken : ∀ input v, Literal 7 (trim input) v → 0 < v →
      ∃ n : ℕ, (n : ℚ) = v * 10 ^ 7 ∧ usdcToBaseUnits input = .ok (decimal n) := by
    intro input v hv hpos
    obtain ⟨n, hn⟩ := hv.exists_scaled
    exact ⟨n, hn, usdcToBaseUnits_eq_ok.mpr ⟨v, hv, hpos, n, hn, rfl⟩⟩
  refine ⟨fun input => ⟨?_, ?_⟩, htaken, fun n => usdcToBaseUnits_baseUnits, ?_⟩
  · rintro ⟨result, h⟩
    obtain ⟨v, hv, hpos, -⟩ := usdcToBaseUnits_eq_ok.mp h
    exact ⟨v, hv, hpos⟩
  · rintro ⟨v, hv, hpos⟩
    obtain ⟨n, -, h⟩ := htaken input v hv hpos
    exact ⟨decimal n, h⟩
  · intro input result h v hv
    obtain ⟨w, hw, -, n, hn, rfl⟩ := usdcToBaseUnits_eq_ok.mp h
    obtain rfl := hv.unique hw
    rw [numeral_decimal, (decimalValue_baseUnits n).1, Int.cast_natCast, hn, hpow]
    exact mul_div_cancel_right₀ v (Nat.cast_ne_zero.mpr (by decide))

end Lolipay.Coordinator.UsdcText
