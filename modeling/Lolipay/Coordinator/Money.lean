import Lolipay.Ledger.Rounding
import Lolipay.Ledger.Decimal
import Lolipay.Escrow.Types
import Mathlib.Data.Int.ConditionallyCompleteOrder
import Mathlib.Tactic.NormNum

namespace Lolipay.Coordinator.Money

open Lolipay.Ledger.Rounding Lolipay.Ledger.Decimal
open Lolipay.Escrow.Types (Flow)

/-- `bigint` division rounds towards zero. -/
def applyBps (amount : ℤ) (bps : ℕ) : ℤ := (amount * bps).tdiv 10000

def usdcBaseUnits : ℕ := 10000000

def baseUnitsToUsdcString (base : ℤ) : String :=
  let magnitude := base.natAbs
  fixedPoint (base < 0) 7 (magnitude / usdcBaseUnits) (magnitude % usdcBaseUnits)

structure Fees where
  platformFee : ℤ
  lpFee : ℤ
  net : ℤ
  deriving DecidableEq, Repr

def splitFees (usdc : ℤ) (platformBps lpBps : ℕ) : Fees :=
  let platformFee := applyBps usdc platformBps
  let lpFee := applyBps usdc lpBps
  ⟨platformFee, lpFee, usdc - platformFee - lpFee⟩

/-- A price in millionths of the fiat unit for one USDC, as it comes out of the
rounding of the quoted text. -/
structure Price where
  micro : ℤ
  micro_pos : 0 < micro

def spreadMicro (price : Price) (spreadBps : ℕ) : ℤ := (price.micro * spreadBps).tdiv 10000

def withSpread (price : Price) (spreadBps : ℕ) (sell : Bool) : ℤ :=
  if sell then price.micro - spreadMicro price spreadBps
  else price.micro + spreadMicro price spreadBps

def quoteFiat (usdcBaseUnits : ℤ) (price : Price) (spreadBps : ℕ) (sell : Bool) : ℤ :=
  ((usdcBaseUnits * withSpread price spreadBps sell).tdiv 10000000).tdiv 1000000

/-- It throws on an amount that is not positive and on a spread that eats up the price. -/
def quoteUsdcForFiat (fiatAmount : ℤ) (price : Price) (spreadBps : ℕ) (sell : Bool) : Option ℤ :=
  let withSpread := withSpread price spreadBps sell
  if fiatAmount ≤ 0 then none
  else if withSpread ≤ 0 then none
  else
    let numerator := fiatAmount * 10000000 * 1000000
    some ((numerator + withSpread - 1).tdiv withSpread)

/-- A base unit of USDC at a price of one millionth. -/
def scale : ℤ := 10000000000000

variable {price : Price} {s : ℕ} {sell : Bool} {f u v : ℤ}

theorem quoteFiat_eq (u : ℤ) (price : Price) (s : ℕ) (sell : Bool) :
    quoteFiat u price s sell = (u * withSpread price s sell).tdiv scale :=
  tdiv_tdiv _ _ (by decide)

theorem quoteUsdcForFiat_eq_some :
    quoteUsdcForFiat f price s sell = some u ↔ 0 < f ∧ 0 < withSpread price s sell ∧
      u = (f * scale + withSpread price s sell - 1).tdiv (withSpread price s sell) := by
  have hscale : f * 10000000 * 1000000 = f * scale := by
    rw [scale]
    omega
  simp only [quoteUsdcForFiat, hscale, Option.ite_none_left_eq_some, not_le, Option.some.injEq]
  constructor
  · rintro ⟨hf, hw, rfl⟩
    exact ⟨hf, hw, rfl⟩
  · rintro ⟨hf, hw, rfl⟩
    exact ⟨hf, hw, rfl⟩

theorem spreadMicro_nonneg (price : Price) (s : ℕ) : 0 ≤ spreadMicro price s :=
  Int.tdiv_nonneg (Int.mul_nonneg price.micro_pos.le (Int.natCast_nonneg s)) (by decide)

theorem spreadMicro_lt (price : Price) (hs : s < 10000) : spreadMicro price s < price.micro := by
  have hpos := price.micro_pos
  have hle := tdiv_mul_le_self (c := 10000) (Int.mul_nonneg hpos.le (Int.natCast_nonneg s)) (by decide)
  have hlt : price.micro * s < price.micro * 10000 :=
    Int.mul_lt_mul_of_pos_left (by omega) hpos
  simp only [spreadMicro]
  omega

theorem withSpread_pos (price : Price) (hs : s < 10000) (sell : Bool) :
    0 < withSpread price s sell := by
  have hpos := price.micro_pos
  have hnonneg := spreadMicro_nonneg price s
  have hlt := spreadMicro_lt price hs
  rw [withSpread]
  split <;> omega

theorem le_quoteFiat_iff (hf : 0 < f) :
    f ≤ quoteFiat u price s sell ↔ f * scale ≤ u * withSpread price s sell := by
  rw [quoteFiat_eq]
  exact le_tdiv_iff hf (by decide)

theorem quoteFiat_mul_le (h : 0 ≤ u * withSpread price s sell) :
    quoteFiat u price s sell * scale ≤ u * withSpread price s sell := by
  rw [quoteFiat_eq]
  exact tdiv_mul_le_self h (by decide)

theorem lt_quoteFiat_add_one_mul (u : ℤ) (price : Price) (s : ℕ) (sell : Bool) :
    u * withSpread price s sell < (quoteFiat u price s sell + 1) * scale := by
  rw [quoteFiat_eq]
  exact Int.lt_tdiv_add_one_mul_self _ (by decide)

theorem quoteFiat_mono (price : Price) (hs : s < 10000) (sell : Bool) :
    Monotone fun u => quoteFiat u price s sell := by
  intro u v huv
  have hle := Int.mul_le_mul_of_nonneg_right huv (withSpread_pos price hs sell).le
  simp only [quoteFiat_eq]
  exact Int.tdiv_le_tdiv (by decide) hle

/-- The amount of USDC for an amount of fiat is the least that covers it. -/
theorem quoteUsdcForFiat_isLeast (h : quoteUsdcForFiat f price s sell = some u) :
    IsLeast { u | f ≤ quoteFiat u price s sell } u := by
  obtain ⟨hf, hw, rfl⟩ := quoteUsdcForFiat_eq_some.mp h
  have hnum : 0 < f * scale := Int.mul_pos hf (by decide)
  constructor
  · exact (le_quoteFiat_iff hf).mpr ((roundUp_le_iff hnum hw).mp le_rfl)
  · intro v hv
    exact (roundUp_le_iff hnum hw).mpr ((le_quoteFiat_iff hf).mp hv)

theorem quoteUsdcForFiat_pos (h : quoteUsdcForFiat f price s sell = some u) : 0 < u := by
  obtain ⟨hf, hw, -⟩ := quoteUsdcForFiat_eq_some.mp h
  have hcovered := (le_quoteFiat_iff hf).mp (quoteUsdcForFiat_isLeast h).1
  have hnum : 0 < f * scale := Int.mul_pos hf (by decide)
  by_contra hneg
  have hless := Int.mul_nonpos_of_nonpos_of_nonneg (not_lt.mp hneg) hw.le
  omega

theorem quoteUsdcForFiat_lt (h : quoteUsdcForFiat f price s sell = some u) :
    (u - 1) * withSpread price s sell < f * scale := by
  obtain ⟨hf, hw, rfl⟩ := quoteUsdcForFiat_eq_some.mp h
  have hnum : 0 < f * scale := Int.mul_pos hf (by decide)
  rw [← not_le, ← roundUp_le_iff hnum hw]
  omega

theorem quoteFiat_quoteUsdcForFiat (h : quoteUsdcForFiat f price s sell = some u)
    (hw : withSpread price s sell ≤ scale) : quoteFiat u price s sell = f := by
  have hleast := quoteUsdcForFiat_isLeast h
  have hlt := quoteUsdcForFiat_lt h
  obtain ⟨hf, -, -⟩ := quoteUsdcForFiat_eq_some.mp h
  refine le_antisymm ?_ hleast.1
  rw [← Int.lt_add_one_iff, ← not_le, le_quoteFiat_iff (by omega)]
  intro hle
  rw [Int.sub_mul, Int.one_mul] at hlt
  rw [Int.add_mul, Int.one_mul] at hle
  omega

/-- The two directions of a quote are adjoint, and a round trip gives nothing away. -/
theorem quotes_adjoint (price : Price) (hs : s < 10000) :
    (∀ sell f, 0 < f → ∃ u, quoteUsdcForFiat f price s sell = some u ∧
      IsLeast { u | f ≤ quoteFiat u price s sell } u ∧
      (withSpread price s sell ≤ scale → quoteFiat u price s sell = f)) ∧
    (∀ sell, Monotone fun u => quoteFiat u price s sell) ∧
    (withSpread price s false ≤ scale → ∀ f u, quoteUsdcForFiat f price s false = some u →
      quoteFiat u price s true ≤ f) := by
  refine ⟨fun sell f hf => ?_, quoteFiat_mono price hs, fun hw f u h => ?_⟩
  · have hsome := quoteUsdcForFiat_eq_some.mpr ⟨hf, withSpread_pos price hs sell, rfl⟩
    exact ⟨_, hsome, quoteUsdcForFiat_isLeast hsome, quoteFiat_quoteUsdcForFiat hsome⟩
  · have hbought := quoteFiat_quoteUsdcForFiat h hw
    have hu := (quoteUsdcForFiat_pos h).le
    have hprices : withSpread price s true ≤ withSpread price s false := by
      have hnonneg := spreadMicro_nonneg price s
      simp only [withSpread, if_true, Bool.false_eq_true, if_false]
      omega
    calc quoteFiat u price s true ≤ quoteFiat u price s false := by
          simp only [quoteFiat_eq]
          exact Int.tdiv_le_tdiv (by decide) (Int.mul_le_mul_of_nonneg_left hprices hu)
      _ = f := hbought

theorem decimalValue_baseUnits (base : ℤ) :
    decimalValue (baseUnitsToUsdcString base) = base / usdcBaseUnits ∧
      fractionDigits (baseUnitsToUsdcString base) = 7 := by
  have hlt : base.natAbs % usdcBaseUnits < 10 ^ 7 := Nat.mod_lt _ (by decide)
  have hpow : (10 : ℚ) ^ 7 = usdcBaseUnits := by norm_num [usdcBaseUnits]
  refine ⟨?_, fractionDigits_fixedPoint _ hlt (by decide)⟩
  rw [baseUnitsToUsdcString, decimalValue_fixedPoint _ hlt (by decide), hpow,
    div_add_mod_div _ (by decide)]
  obtain hneg | hpos := lt_or_ge base 0
  · have habs : (base.natAbs : ℤ) = -base := Int.ofNat_natAbs_of_nonpos hneg.le
    have hcast : (base.natAbs : ℚ) = -base := by
      rw [← Int.cast_natCast, habs, Int.cast_neg]
    rw [hcast, decide_eq_true hneg, if_pos rfl, neg_div, neg_one_mul, neg_neg]
  · have habs : (base.natAbs : ℤ) = base := Int.natAbs_of_nonneg hpos
    have hcast : (base.natAbs : ℚ) = base := by rw [← Int.cast_natCast, habs]
    rw [hcast, decide_eq_false (not_lt.mpr hpos), if_neg Bool.false_ne_true, one_mul]

theorem baseUnitsToUsdcString_injective : Function.Injective baseUnitsToUsdcString := by
  intro a b h
  have hvalue := (decimalValue_baseUnits a).1
  rw [h, (decimalValue_baseUnits b).1, div_left_inj' (by norm_num [usdcBaseUnits])] at hvalue
  exact (Int.cast_injective hvalue).symm

def samplePrice : Price := ⟨16000000000, by decide⟩

theorem sample_quotes_adjoint :
    IsLeast { u | 200000 ≤ quoteFiat u samplePrice 150 false } 123152710 ∧
      quoteFiat 123152710 samplePrice 150 false = 200000 ∧
      quoteFiat 123152710 samplePrice 150 true ≤ 200000 := by
  obtain ⟨hquotes, -, htrip⟩ := quotes_adjoint samplePrice (show 150 < 10000 by decide)
  obtain ⟨u, hu, hleast, hback⟩ := hquotes false 200000 (by decide)
  obtain rfl : u = 123152710 := Option.some.inj (hu.symm.trans (by decide))
  exact ⟨hleast, hback (by decide), htrip (by decide) 200000 _ hu⟩

end Lolipay.Coordinator.Money
