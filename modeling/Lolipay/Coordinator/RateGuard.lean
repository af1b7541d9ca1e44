import Mathlib.Algebra.Order.Field.Rat
import Mathlib.Tactic.Linarith
import Mathlib.Tactic.GCongr
import Mathlib.Tactic.Ring
import Lolipay.Coordinator.Money

namespace Lolipay.Coordinator.RateGuard

open Lolipay.Ledger.Rounding Lolipay.Escrow.Types Lolipay.Coordinator.Money

def spreadCoversPriceDeviation (spreadBps priceDeviationMaxBps : ℕ) : Option String :=
  if priceDeviationMaxBps < spreadBps then none
  else some ("PRICE_DEVIATION_MAX_BPS (" ++ toString priceDeviationMaxBps ++
    ") must stay strictly below Config.spreadBps (" ++ toString spreadBps ++
    ") — INV-30.1: one accepted price anomaly would otherwise be able to consume the " ++
    "entire spread cushion on an escrow lock that cannot be repriced")

def platformFeeFitsSpread (platformFeeBps spreadBps priceDeviationMaxBps : ℕ) : Option String :=
  if spreadBps ≤ platformFeeBps + priceDeviationMaxBps then
    some ("platformFeeBps (" ++ toString platformFeeBps ++ ") plus priceDeviationMaxBps (" ++
      toString priceDeviationMaxBps ++ ") must stay strictly below Config.spreadBps (" ++
      toString spreadBps ++ "): on a withdrawal the provider keeps the spread less the platform fee, " ++
      "the SEP-24 record declares no fee, and one accepted price move of up to the deviation band " ++
      "must still leave the provider something")
  else none

inductive AmountInput where
  | usdc (amount : ℤ)
  | fiat (amount : ℤ)
  deriving DecidableEq, Repr

/-- The amounts of USDC and of fiat that `createQuote` comes to. -/
def quotedAmounts (flow : Flow) (input : AmountInput) (price : Price) (spreadBps : ℕ) :
    Option (ℤ × ℤ) :=
  match input with
  | .usdc amount => some (amount, quoteFiat amount price spreadBps (flow ≠ .topUp))
  | .fiat amount =>
    (quoteUsdcForFiat amount price spreadBps (flow ≠ .topUp)).map fun usdc => (usdc, amount)

def worth (usdc : ℤ) (price : ℚ) : ℚ := usdc * price / scale

variable {price : Price} {s f d : ℕ} {u F : ℤ} {p : ℚ}

theorem platformFeeFitsSpread_eq_none : platformFeeFitsSpread f s d = none ↔ f + d < s := by
  simp [platformFeeFitsSpread]

/-- The floor of the spread loses less than one millionth, which one basis point
of a price from one hundredth on makes up for. -/
theorem spreadMicro_ge (hfit : f + d < s) (hprice : 10000 ≤ price.micro) :
    price.micro * (f + d) ≤ spreadMicro price s * 10000 := by
  have hfloor := Int.lt_tdiv_add_one_mul_self (price.micro * s) (show (0 : ℤ) < 10000 by decide)
  have hslack : price.micro * (f + d + 1) ≤ price.micro * s :=
    Int.mul_le_mul_of_nonneg_left (by omega) price.micro_pos.le
  rw [← spreadMicro, Int.add_mul] at hfloor
  rw [Int.mul_add, Int.mul_one] at hslack
  omega

theorem sell_price_le (hfit : f + d < s) (hprice : 10000 ≤ price.micro) :
    withSpread price s true * 10000 ≤ price.micro * (10000 - (f + d)) := by
  have hspread := spreadMicro_ge hfit hprice
  simp only [withSpread, if_true, Int.sub_mul, Int.mul_sub]
  omega

theorem buy_price_ge (hfit : f + d < s) (hprice : 10000 ≤ price.micro) :
    price.micro * (10000 + (f + d)) ≤ withSpread price s false * 10000 := by
  have hspread := spreadMicro_ge hfit hprice
  simp only [withSpread, Bool.false_eq_true, if_false, Int.add_mul, Int.mul_add] at hspread ⊢
  omega

/-- A true price that is at most `d` basis points away from the quoted one. -/
def Within (d : ℕ) (price : Price) (p : ℚ) : Prop := |p - price.micro| * 10000 ≤ d * price.micro

theorem Within.bounds (h : Within d price p) :
    price.micro * (10000 - d : ℚ) ≤ p * 10000 ∧ p * 10000 ≤ price.micro * (10000 + d : ℚ) := by
  have habove := (mul_le_mul_of_nonneg_right (le_abs_self (p - price.micro)) (by norm_num)).trans h
  have hbelow := (mul_le_mul_of_nonneg_right (neg_abs_le (p - price.micro)) (by norm_num : (0 : ℚ) ≤ 10000))
  rw [Within] at h
  constructor <;> linarith

theorem net_of_platformFee_ge (f : ℕ) (hu : 0 ≤ u) : u * (10000 - f) ≤ (u - applyBps u f) * 10000 := by
  have hfloor := tdiv_mul_le_self (c := 10000) (Int.mul_nonneg hu (Int.natCast_nonneg f)) (by decide)
  rw [← applyBps] at hfloor
  rw [Int.mul_sub, Int.sub_mul]
  omega

/-- Two cuts of `f` and `d` parts in `k`, one after the other, leave at least what
one cut of both together leaves. -/
theorem cuts_le {k u w P p n f d : ℚ} (hk : 0 < k) (hu : 0 ≤ u) (hP : 0 ≤ P) (hf : 0 ≤ f) (hfk : f ≤ k)
    (hd : 0 ≤ d) (hdk : d ≤ k) (hw : w * k ≤ P * (k - (f + d))) (hn : u * (k - f) ≤ n * k)
    (hp : P * (k - d) ≤ p * k) : u * w ≤ n * p := by
  have hnk : 0 ≤ n * k := (mul_nonneg hu (sub_nonneg.mpr hfk)).trans hn
  have hcuts : (k - (f + d)) * k ≤ (k - f) * (k - d) := by
    have hfd := mul_nonneg hf hd
    linarith
  have hchain : u * w * (k * k) ≤ n * p * (k * k) :=
    calc u * w * (k * k) = u * (w * k) * k := by ring
      _ ≤ u * (P * (k - (f + d))) * k := by gcongr
      _ = u * P * ((k - (f + d)) * k) := by ring
      _ ≤ u * P * ((k - f) * (k - d)) := by gcongr
      _ = u * (k - f) * (P * (k - d)) := by ring
      _ ≤ n * k * (p * k) := mul_le_mul hn hp (mul_nonneg hP (sub_nonneg.mpr hdk)) hnk
      _ = n * p * (k * k) := by ring
  exact le_of_mul_le_mul_right hchain (mul_pos hk hk)

theorem sell_value_le (hfit : f + d < s) (hs : s ≤ 9999) (hprice : 10000 ≤ price.micro)
    (hp : Within d price p) (hu : 0 ≤ u) :
    (u * withSpread price s true : ℚ) ≤ (u - applyBps u f : ℤ) * p := by
  have hsell : ((withSpread price s true * 10000 : ℤ) : ℚ) ≤ (price.micro * (10000 - (f + d)) : ℤ) :=
    Int.cast_le.mpr (sell_price_le hfit hprice)
  have hnet : ((u * (10000 - f) : ℤ) : ℚ) ≤ ((u - applyBps u f) * 10000 : ℤ) :=
    Int.cast_le.mpr (net_of_platformFee_ge f hu)
  push_cast at hsell
  rw [Int.cast_mul, Int.cast_mul, Int.cast_sub 10000, Int.cast_natCast, Int.cast_ofNat] at hnet
  have hf : (f : ℚ) ≤ 10000 := Nat.cast_le_ofNat.mpr (by omega)
  have hd : (d : ℚ) ≤ 10000 := Nat.cast_le_ofNat.mpr (by omega)
  exact cuts_le (by norm_num) (Int.cast_nonneg hu) (Int.cast_nonneg price.micro_pos.le) (Nat.cast_nonneg f)
    hf (Nat.cast_nonneg d) hd hsell hnet hp.bounds.1

theorem buy_value_ge (hfit : f + d < s) (hprice : 10000 ≤ price.micro) (hp : Within d price p)
    (hu : 0 ≤ u) : u * p ≤ (u * withSpread price s false : ℚ) := by
  have hu' : (0 : ℚ) ≤ u := by exact_mod_cast hu
  have hmicro : (0 : ℚ) ≤ price.micro := by exact_mod_cast price.micro_pos.le
  have hbuy : (price.micro : ℚ) * (10000 + (f + d)) ≤ withSpread price s false * 10000 := by
    exact_mod_cast buy_price_ge hfit hprice
  have hfee : (0 : ℚ) ≤ price.micro * f := mul_nonneg hmicro (Nat.cast_nonneg f)
  have hle : p ≤ withSpread price s false := by
    have habove := hp.bounds.2
    linarith
  exact mul_le_mul_of_nonneg_left hle hu'

theorem worth_le {x : ℚ} (h : u * p ≤ x * scale) : worth u p ≤ x := by
  rw [worth, div_le_iff₀ (by norm_num [scale])]
  exact h

theorem le_worth {x : ℚ} (h : x * scale ≤ u * p) : x ≤ worth u p := by
  rw [worth, le_div_iff₀ (by norm_num [scale])]
  exact h

/-- The provider is never under water on an accepted quote. On a withdrawal the
USDC that it receives is worth at least the fiat that it pays; on a deposit the
fiat that it receives is worth at least the USDC that it locks, up to one unit of
the amount that is rounded. The check of the fee implies the one of the spread,
and the spread is at most what a patch may set. -/
theorem provider_not_under_water (hfee : platformFeeFitsSpread f s d = none) (hs : s ≤ 9999)
    (hprice : 10000 ≤ price.micro) (hp : Within d price p) :
    (∀ input u F, quotedAmounts .withdraw input price s = some (u, F) → 0 ≤ u →
      F ≤ worth (u - applyBps u f) p) ∧
    (∀ amount u F, quotedAmounts .topUp (.usdc amount) price s = some (u, F) → 0 ≤ u →
      worth u p ≤ F + 1) ∧
    (∀ amount u F, quotedAmounts .topUp (.fiat amount) price s = some (u, F) →
      worth (u - 1) p ≤ F) := by
  have hfit := platformFeeFitsSpread_eq_none.mp hfee
  refine ⟨?_, ?_, ?_⟩
  · intro input u F hquoted hu
    refine le_worth (le_trans ?_ (sell_value_le hfit hs hprice hp hu))
    have hcovered : F * scale ≤ u * withSpread price s true := by
      cases input with
      | usdc amount =>
        obtain ⟨rfl, rfl⟩ := Prod.mk.inj (Option.some.inj hquoted)
        exact quoteFiat_mul_le (Int.mul_nonneg hu (withSpread_pos price (by omega) true).le)
      | fiat amount =>
        obtain ⟨usdc, hquote, hpair⟩ := Option.map_eq_some_iff.mp hquoted
        obtain ⟨rfl, rfl⟩ := Prod.mk.inj hpair
        obtain ⟨hpos, -, -⟩ := quoteUsdcForFiat_eq_some.mp hquote
        exact (le_quoteFiat_iff hpos).mp (quoteUsdcForFiat_isLeast hquote).1
    exact_mod_cast hcovered
  · intro amount u F hquoted hu
    obtain ⟨rfl, rfl⟩ := Prod.mk.inj (Option.some.inj hquoted)
    refine worth_le ((buy_value_ge hfit hprice hp hu).trans ?_)
    have hbelow : amount * withSpread price s false < (quoteFiat amount price s false + 1) * scale :=
      lt_quoteFiat_add_one_mul amount price s false
    exact_mod_cast hbelow.le
  · intro amount u F hquoted
    obtain ⟨usdc, hquote, hpair⟩ := Option.map_eq_some_iff.mp hquoted
    obtain ⟨rfl, rfl⟩ := Prod.mk.inj hpair
    have hpos := quoteUsdcForFiat_pos hquote
    refine worth_le ((buy_value_ge hfit hprice hp (by omega)).trans ?_)
    have hbelow : (usdc - 1) * withSpread price s false < amount * scale := quoteUsdcForFiat_lt hquote
    exact_mod_cast hbelow.le

/-- The market has gone up by the whole deviation since the quote. -/
theorem sample_not_under_water :
    worth (123152710 - 1) 16160000000 ≤ 200000 ∧ 197000 ≤ worth (125000000 - 375000) 15840000000 := by
  have hfee : platformFeeFitsSpread 30 150 100 = none := by decide
  have hup : Within 100 samplePrice 16160000000 := by norm_num [Within, samplePrice]
  have hdown : Within 100 samplePrice 15840000000 := by norm_num [Within, samplePrice]
  have hdeposit := (provider_not_under_water hfee (by decide) (by decide) hup).2.2
    200000 123152710 200000 (by decide)
  have hwithdrawal := (provider_not_under_water hfee (by decide) (by decide) hdown).1
    (.usdc 125000000) 125000000 197000 (by decide) (by decide)
  exact ⟨hdeposit, hwithdrawal⟩

end Lolipay.Coordinator.RateGuard
