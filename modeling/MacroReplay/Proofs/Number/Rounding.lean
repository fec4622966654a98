import MacroReplay.Number.Arithmetic
import MacroReplay.Proofs.Number.Integer
import Mathlib.Data.Int.Log
import Mathlib.Data.Rat.Floor
import Mathlib.Tactic.FieldSimp
import Mathlib.Tactic.Linarith
import Mathlib.Tactic.Positivity
import Mathlib.Tactic.Ring

/-!
# Rounding to a number

The number nearest to a ratio depends on the value of the ratio alone, and a ratio that is the value of a
number is not rounded. The same holds of decimals, however their digits and their exponent are chosen.

* `exponentFor_eq` — the exponent, in terms of the logarithm of the ratio;
* `nearest_congr`, `nearest_of_canonical` — ratios;
* `ofDecimal_congr`, `ofDecimal_of_canonical` — decimals.
-/

namespace MacroReplay.Number

/-! ## Integers -/

/-- A common factor of the two terms does not count. -/
theorem divideToEven_mul_mul (n d : Nat) {c : Nat} (hc : 0 < c) :
    divideToEven (n * c) (d * c) = divideToEven n d := by
  have hquotient : n * c / (d * c) = n / d := Nat.mul_div_mul_right n d hc
  have hrest : n * c % (d * c) = n % d * c := Nat.mul_mod_mul_right c n d
  have hbeyond : d * c < 2 * (n % d * c) ↔ d < 2 * (n % d) := by
    rw [← Nat.mul_assoc, Nat.mul_lt_mul_right hc]
  have htie : 2 * (n % d * c) = d * c ↔ 2 * (n % d) = d := by
    rw [← Nat.mul_assoc, Nat.mul_right_cancel_iff hc]
  simp only [divideToEven, hquotient, hrest, hbeyond, htie]

/-- Equal ratios are rounded to the same integer. -/
theorem divideToEven_congr {n d n' d' : Nat} (hd : 0 < d) (hd' : 0 < d') (h : n * d' = n' * d) :
    divideToEven n d = divideToEven n' d' := by
  rw [← divideToEven_mul_mul n d hd', ← divideToEven_mul_mul n' d' hd, h, Nat.mul_comm d d']

/-! ## Powers -/

/-- A power with an integer exponent, by powers with natural ones. -/
theorem zpow_eq_div {b : ℚ} (hb : b ≠ 0) (e : ℤ) : b ^ e = b ^ e.toNat / b ^ (-e).toNat := by
  rw [← zpow_natCast, ← zpow_natCast, ← zpow_sub₀ hb, Int.toNat_sub_toNat_neg]

/-- A ratio whose terms are shifted by a binary exponent. -/
theorem shifted_ratio (num den : Nat) (e : ℤ) :
    ((num * Nat.pow 2 (-e).toNat : Nat) : ℚ) / (den * Nat.pow 2 e.toNat : Nat) =
      (num : ℚ) / den / 2 ^ e := by
  rw [zpow_eq_div two_ne_zero]
  push_cast [Nat.pow_eq]
  field_simp

/-- The terms of the ratio that a mantissa and an exponent stand for. -/
theorem ratio_of_scaled {b : Nat} (hb : b ≠ 0) (m : Nat) (e : ℤ) :
    ((m * Nat.pow b e.toNat : Nat) : ℚ) / (Nat.pow b (-e).toNat : Nat) = m * (b : ℚ) ^ e := by
  rw [zpow_eq_div (by exact_mod_cast hb)]
  push_cast [Nat.pow_eq]
  ring

theorem scaled_pos {b m : Nat} (hb : b ≠ 0) (hm : m ≠ 0) (e : ℤ) : (0 : ℚ) < m * (b : ℚ) ^ e :=
  mul_pos (by positivity) (zpow_pos (by positivity) e)

/-- Scaling by a power of the base moves the logarithm by the exponent. -/
theorem log_scaled {b m : Nat} (hb : 1 < b) (hm : m ≠ 0) (e : ℤ) :
    Int.log b ((m : ℚ) * (b : ℚ) ^ e) = Nat.log b m + e := by
  have hpos : (0 : ℚ) < m * (b : ℚ) ^ e := scaled_pos (by omega) hm e
  have hbase : (b : ℚ) ≠ 0 := by positivity
  have hunit : (0 : ℚ) < (b : ℚ) ^ e := zpow_pos (by positivity) e
  have hlow : (b : ℚ) ^ Nat.log b m ≤ m := by exact_mod_cast Nat.pow_log_le_self b hm
  have hhigh : (m : ℚ) < (b : ℚ) ^ (Nat.log b m + 1) := by
    exact_mod_cast Nat.lt_pow_succ_log_self hb m
  apply le_antisymm
  · rw [← Int.lt_add_one_iff, ← Int.lt_zpow_iff_log_lt hb hpos, add_right_comm, zpow_add₀ hbase]
    exact mul_lt_mul_of_pos_right (by exact_mod_cast hhigh) hunit
  · rw [← Int.zpow_le_iff_le_log hb hpos, zpow_add₀ hbase]
    exact mul_le_mul_of_nonneg_right (by exact_mod_cast hlow) hunit.le

/-! ## The exponent -/

section Ratio

variable {num den : Nat}

/-- The difference of the lengths is the logarithm of the ratio, or one more. -/
theorem log_ratio (hnum : num ≠ 0) (hden : den ≠ 0) :
    (num.log2 : ℤ) - den.log2 - 1 ≤ Int.log 2 ((num : ℚ) / den) ∧
      Int.log 2 ((num : ℚ) / den) ≤ (num.log2 : ℤ) - den.log2 := by
  have hpos : (0 : ℚ) < num / den := by positivity
  have hlow : (2 : ℚ) ^ num.log2 ≤ num := by exact_mod_cast Nat.log2_self_le hnum
  have hhigh : (num : ℚ) < 2 ^ (num.log2 + 1) := by exact_mod_cast Nat.lt_log2_self
  have hlow' : (2 : ℚ) ^ den.log2 ≤ den := by exact_mod_cast Nat.log2_self_le hden
  have hhigh' : (den : ℚ) < 2 ^ (den.log2 + 1) := by exact_mod_cast Nat.lt_log2_self
  constructor
  · rw [← Int.zpow_le_iff_le_log (by norm_num) hpos, sub_sub, zpow_sub₀ (by norm_num), Nat.cast_ofNat]
    exact div_le_div₀ (by positivity) (by exact_mod_cast hlow) (by positivity)
      (by exact_mod_cast hhigh'.le)
  · rw [← Int.lt_add_one_iff, ← Int.lt_zpow_iff_log_lt (by norm_num) hpos, sub_add_eq_add_sub,
      zpow_sub₀ (by norm_num), Nat.cast_ofNat]
    exact div_lt_div₀ (by exact_mod_cast hhigh) (by exact_mod_cast hlow') (zpow_pos two_pos _).le
      (zpow_pos two_pos _)

/-- The exponent is a function of the ratio. -/
theorem exponentFor_eq (hnum : num ≠ 0) (hden : den ≠ 0) :
    exponentFor num den = max (Int.log 2 ((num : ℚ) / den) - 52) (-1074) := by
  have hpos : (0 : ℚ) < num / den := by positivity
  obtain ⟨hlow, hhigh⟩ := log_ratio hnum hden
  -- The comparison asks whether the first guess was the one that is too great.
  have htest (g : ℤ) : num * Nat.pow 2 (-g).toNat < Nat.pow 2 52 * (den * Nat.pow 2 g.toNat) ↔
      Int.log 2 ((num : ℚ) / den) < g + 52 := by
    have hunit : (0 : ℚ) < (den * Nat.pow 2 g.toNat : Nat) := by
      exact_mod_cast Nat.mul_pos (Nat.pos_of_ne_zero hden) (Nat.two_pow_pos _)
    have hpow : (2 : ℚ) ^ (g + 52) = 2 ^ 52 * 2 ^ g := by
      rw [zpow_add₀ two_ne_zero, mul_comm]
      norm_cast
    rw [← Int.lt_zpow_iff_log_lt (by norm_num) hpos, Nat.cast_ofNat, hpow,
      ← div_lt_iff₀ (zpow_pos two_pos g), ← shifted_ratio num den g, div_lt_iff₀ hunit]
    norm_cast
  simp only [exponentFor, htest]
  split <;> congr 1 <;> omega

/-! ## Ratios -/

theorem num_ne_zero {m : Nat} {e : ℤ} (hm : m ≠ 0) (hvalue : (num : ℚ) / den = m * 2 ^ e) :
    num ≠ 0 := by
  rintro rfl
  have hpos : (0 : ℚ) < m * 2 ^ e := scaled_pos two_ne_zero hm e
  rw [← hvalue] at hpos
  simp at hpos

/-- Equal ratios are rounded to the same number. -/
theorem nearest_congr (negative : Bool) {num' den' : Nat} (hden : 0 < den) (hden' : 0 < den')
    (h : (num : ℚ) / den = num' / den') : nearest negative num den = nearest negative num' den' := by
  have hcross : num * den' = num' * den := by
    rw [div_eq_div_iff (by positivity) (by positivity)] at h
    exact_mod_cast h
  by_cases hnum : num = 0
  · have hnum' : num' = 0 := by
      rw [hnum, Nat.zero_mul, eq_comm, Nat.mul_eq_zero] at hcross
      omega
    rw [nearest, nearest, if_pos hnum, if_pos hnum']
  · have hnum' : num' ≠ 0 := by
      rintro rfl
      rw [Nat.zero_mul, Nat.mul_eq_zero] at hcross
      omega
    -- The exponent depends on the logarithm of the fraction only, and the significand on the
    -- quotient.
    have hexponent : exponentFor num den = exponentFor num' den' := by
      rw [exponentFor_eq hnum (by omega), exponentFor_eq hnum' (by omega), h]
    have hmantissa (e : ℤ) :
        divideToEven (num * Nat.pow 2 (-e).toNat) (den * Nat.pow 2 e.toNat) =
          divideToEven (num' * Nat.pow 2 (-e).toNat) (den' * Nat.pow 2 e.toNat) := by
      refine divideToEven_congr (Nat.mul_pos hden (Nat.two_pow_pos _))
        (Nat.mul_pos hden' (Nat.two_pow_pos _)) ?_
      calc num * Nat.pow 2 (-e).toNat * (den' * Nat.pow 2 e.toNat)
          = num * den' * (Nat.pow 2 (-e).toNat * Nat.pow 2 e.toNat) := by ring
        _ = num' * den * (Nat.pow 2 (-e).toNat * Nat.pow 2 e.toNat) := by rw [hcross]
        _ = num' * Nat.pow 2 (-e).toNat * (den * Nat.pow 2 e.toNat) := by ring
    simp only [nearest, if_neg hnum, if_neg hnum', hexponent, hmantissa]

/-- The exponent of a number is the one that its value is rounded at. -/
theorem exponentFor_of_canonical {m : Nat} {e : ℤ} (h : Canonical m e) (hm : m ≠ 0) (hden : den ≠ 0)
    (hvalue : (num : ℚ) / den = m * 2 ^ e) : exponentFor num den = e := by
  obtain ⟨hupper, hleast, -, hfull⟩ := h
  have hlog : Int.log 2 ((m : ℚ) * 2 ^ e) = Nat.log 2 m + e := log_scaled one_lt_two hm e
  have hmost : Nat.log 2 m < 53 := Nat.log_lt_of_lt_pow hm hupper
  rw [exponentFor_eq (num_ne_zero hm hvalue) hden, hvalue, hlog]
  rcases hfull with hfull | rfl
  · have hall : 52 ≤ Nat.log 2 m := Nat.le_log_of_pow_le one_lt_two hfull
    omega
  · omega

/-- A ratio that is the value of a number is not rounded. -/
theorem nearest_of_canonical (negative : Bool) {m : Nat} {e : ℤ} (h : Canonical m e) (hm : m ≠ 0)
    (hden : 0 < den) (hvalue : (num : ℚ) / den = m * 2 ^ e) :
    nearest negative num den = .finite negative m e h := by
  have hexponent := exponentFor_of_canonical h hm (by omega) hvalue
  have hunit : 0 < den * Nat.pow 2 e.toNat := Nat.mul_pos hden (Nat.two_pow_pos _)
  have hexact : num * Nat.pow 2 (-e).toNat = m * (den * Nat.pow 2 e.toNat) := by
    have hshift := shifted_ratio num den e
    rw [hvalue, mul_div_assoc, div_self (zpow_pos two_pos e).ne', mul_one,
      div_eq_iff (by positivity)] at hshift
    exact_mod_cast hshift
  have hbelow : m ≠ Nat.pow 2 53 := Nat.ne_of_lt h.1
  simp only [nearest, if_neg (num_ne_zero hm hvalue), hexponent, hexact, divideToEven_mul m hunit,
    if_neg hbelow, make, dif_pos h]

end Ratio

/-- Rounding treats both signs alike. -/
theorem nearest_true (num den : Nat) : nearest true num den = (nearest false num den).neg := by
  have hmake (m : Nat) (e : ℤ) : make true m e = (make false m e).neg := by
    unfold make
    split <;> rfl
  simp only [nearest, hmake]
  split
  · rfl
  · split <;> rfl

/-! ## Decimals -/

/-- The number of decimal digits, as a logarithm. -/
theorem length_toDigits (m : Nat) : (Nat.toDigits 10 m).length = Nat.log 10 m + 1 := by
  apply le_antisymm
  · exact (Nat.length_toDigits_le_iff (by decide) (by omega)).2 (Nat.lt_pow_succ_log_self (by decide) m)
  · by_contra hless
    have hpos : 0 < Nat.log 10 m := by
      have hsome : 0 < (Nat.toDigits 10 m).length := Nat.length_toDigits_pos
      omega
    have hm : m ≠ 0 := by
      rintro rfl
      simp at hpos
    have hshort : m < 10 ^ Nat.log 10 m :=
      (Nat.length_toDigits_le_iff (by decide) hpos).1 (by omega)
    exact absurd (Nat.pow_log_le_self 10 hm) (by omega)

section Decimal

variable {m m' : Nat} {k k' : ℤ}

/-- The limits that a decimal is compared with before it is rounded speak of its value. -/
theorem ofDecimal_eq (negative : Bool) (hm : m ≠ 0) :
    ofDecimal negative m k =
      if 310 < Int.log 10 ((m : ℚ) * 10 ^ k) + 1 then .infinite negative
      else if Int.log 10 ((m : ℚ) * 10 ^ k) + 1 < -330 then zero negative
      else nearest negative (m * Nat.pow 10 k.toNat) (Nat.pow 10 (-k).toNat) := by
  have hlog : Int.log 10 ((m : ℚ) * 10 ^ k) = Nat.log 10 m + k := log_scaled (by norm_num) hm k
  have hsize : ((Nat.toDigits 10 m).length : ℤ) + k = Int.log 10 ((m : ℚ) * 10 ^ k) + 1 := by
    rw [hlog, length_toDigits]
    omega
  simp only [ofDecimal, if_neg hm, hsize]

/-- Numerator and denominator of a decimal number: one of the two powers of ten is 1. -/
theorem ratio_of_decimal (m : Nat) (k : ℤ) :
    ((m * Nat.pow 10 k.toNat : Nat) : ℚ) / (Nat.pow 10 (-k).toNat : Nat) = m * 10 ^ k :=
  ratio_of_scaled (by norm_num) m k

/-- Decimals of equal value are the same number. -/
theorem ofDecimal_congr (negative : Bool) (hm : m ≠ 0) (hm' : m' ≠ 0)
    (h : (m : ℚ) * 10 ^ k = m' * 10 ^ k') : ofDecimal negative m k = ofDecimal negative m' k' := by
  have hnearest : nearest negative (m * Nat.pow 10 k.toNat) (Nat.pow 10 (-k).toNat) =
      nearest negative (m' * Nat.pow 10 k'.toNat) (Nat.pow 10 (-k').toNat) := by
    refine nearest_congr negative (Nat.pow_pos (by decide)) (Nat.pow_pos (by decide)) ?_
    rw [ratio_of_decimal, ratio_of_decimal, h]
  rw [ofDecimal_eq negative hm, ofDecimal_eq negative hm', h, hnearest]

/-- The decimal places of a number. -/
theorem log_of_canonical {e : ℤ} (h : Canonical m e) (hm : m ≠ 0) :
    -324 ≤ Int.log 10 ((m : ℚ) * 2 ^ e) ∧ Int.log 10 ((m : ℚ) * 2 ^ e) ≤ 308 := by
  have hpos : (0 : ℚ) < m * 2 ^ e := scaled_pos two_ne_zero hm e
  obtain ⟨hupper, hleast, hgreatest, -⟩ := h
  have hone : (1 : ℚ) ≤ m := by exact_mod_cast Nat.pos_of_ne_zero hm
  have hbelow : (m : ℚ) ≤ 2 ^ 53 := by exact_mod_cast hupper.le
  -- The least number is 2^-1074, and the greatest lies below 2^53 * 2^971.
  have hsmall : ((2 ^ 1074 : Nat) : ℚ) ≤ (10 ^ 324 : Nat) := Nat.cast_le.2 (by decide +kernel)
  have hgreat : ((2 ^ 53 * 2 ^ 971 : Nat) : ℚ) < (10 ^ 309 : Nat) := Nat.cast_lt.2 (by decide +kernel)
  simp only [Nat.cast_pow, Nat.cast_mul, Nat.cast_ofNat] at hsmall hgreat
  constructor
  · rw [← Int.zpow_le_iff_le_log (by norm_num) hpos, Nat.cast_ofNat]
    calc (10 : ℚ) ^ (-324 : ℤ) = (10 ^ 324)⁻¹ := by rw [zpow_neg, zpow_ofNat]
      _ ≤ (2 ^ 1074)⁻¹ := inv_anti₀ (by positivity) hsmall
      _ = 1 * 2 ^ (-1074 : ℤ) := by rw [zpow_neg, zpow_ofNat, one_mul]
      _ ≤ m * 2 ^ e := mul_le_mul hone (zpow_le_zpow_right₀ one_le_two hleast) (zpow_pos two_pos _).le
        (by positivity)
  · suffices hlog : Int.log 10 ((m : ℚ) * 2 ^ e) < 309 by omega
    rw [← Int.lt_zpow_iff_log_lt (by norm_num) hpos, Nat.cast_ofNat]
    calc (m : ℚ) * 2 ^ e ≤ 2 ^ 53 * 2 ^ (971 : ℤ) :=
          mul_le_mul hbelow (zpow_le_zpow_right₀ one_le_two hgreatest) (zpow_pos two_pos _).le
            (by positivity)
      _ = 2 ^ 53 * 2 ^ 971 := by rw [zpow_ofNat]
      _ < 10 ^ 309 := hgreat
      _ = 10 ^ (309 : ℤ) := by rw [zpow_ofNat]

/-- A decimal that is the value of a number is not rounded. -/
theorem ofDecimal_of_canonical (negative : Bool) {n : Nat} {e : ℤ} (h : Canonical n e) (hn : n ≠ 0)
    (hvalue : (m : ℚ) * 10 ^ k = n * 2 ^ e) : ofDecimal negative m k = .finite negative n e h := by
  obtain ⟨hleast, hmost⟩ := log_of_canonical h hn
  have hm : m ≠ 0 := by
    rintro rfl
    have hpos : (0 : ℚ) < n * 2 ^ e := scaled_pos two_ne_zero hn e
    rw [← hvalue] at hpos
    simp at hpos
  rw [ofDecimal_eq negative hm, hvalue, if_neg (by omega), if_neg (by omega)]
  refine nearest_of_canonical negative h hn (Nat.pow_pos (by decide)) ?_
  rw [ratio_of_decimal, hvalue]

/-- A negative decimal number is the opposite of the positive one. -/
theorem ofDecimal_true (m : Nat) (k : ℤ) : ofDecimal true m k = (ofDecimal false m k).neg := by
  simp only [ofDecimal, nearest_true]
  repeat' split
  all_goals rfl

end Decimal
end MacroReplay.Number
