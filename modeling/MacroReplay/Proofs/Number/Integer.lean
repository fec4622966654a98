import MacroReplay.Number.Basic

/-!
# Integers among the numbers

Natural numbers below `2 ^ 53` are numbers exactly:

* `Number.exponentFor_one` — the exponent that leaves a mantissa of 53 bits;
* `Number.nearest_one` — the mantissa is the integer, shifted, and nothing is rounded;
* `Number.toInt?_ofNat` — so the integer can be read back.
-/

namespace MacroReplay
namespace Number

/-- A quotient without remainder is not rounded. -/
theorem divideToEven_mul (n : Nat) {d : Nat} (hpos : 0 < d) : divideToEven (n * d) d = n := by
  have hquotient : n * d / d = n := Nat.mul_div_cancel n hpos
  have hrest : n * d % d = 0 := Nat.mul_mod_left n d
  have hnear : ¬ (d < 2 * 0 ∨ 2 * 0 = d ∧ n % 2 = 1) := by omega
  simp only [divideToEven, hquotient, hrest, if_neg hnear]

theorem divideToEven_one (n : Nat) : divideToEven n 1 = n := by
  simpa using divideToEven_mul n Nat.one_pos

/-- The bounds that `log2` gives for a mantissa that is shifted to 53 bits. -/
theorem shifted_bounds {n : Nat} (hpos : n ≠ 0) (hlt : n < Nat.pow 2 53) :
    n.log2 ≤ 52 ∧ Nat.pow 2 52 ≤ n * Nat.pow 2 (52 - n.log2) ∧
      n * Nat.pow 2 (52 - n.log2) < Nat.pow 2 53 := by
  have hlog : n.log2 < 53 := (Nat.log2_lt hpos).2 hlt
  have hlow : 2 ^ n.log2 ≤ n := Nat.log2_self_le hpos
  have hhigh : n < 2 ^ (n.log2 + 1) := Nat.lt_log2_self
  have hlower : 2 ^ 52 ≤ n * 2 ^ (52 - n.log2) := by
    calc 2 ^ 52 = 2 ^ n.log2 * 2 ^ (52 - n.log2) := by
          rw [← Nat.pow_add]
          congr 1
          omega
      _ ≤ n * 2 ^ (52 - n.log2) := Nat.mul_le_mul_right _ hlow
  have hupper : n * 2 ^ (52 - n.log2) < 2 ^ 53 := by
    calc n * 2 ^ (52 - n.log2) < 2 ^ (n.log2 + 1) * 2 ^ (52 - n.log2) :=
          Nat.mul_lt_mul_of_pos_right hhigh (Nat.two_pow_pos _)
      _ = 2 ^ 53 := by
          rw [← Nat.pow_add]
          congr 1
          omega
  exact ⟨by omega, hlower, hupper⟩

/-- A positive integer below 2^53 gets the exponent that puts its highest bit at the top of the
significand. -/
theorem exponentFor_one {n : Nat} (hpos : n ≠ 0) (hlt : n < Nat.pow 2 53) :
    exponentFor n 1 = (n.log2 : Int) - 52 := by
  obtain ⟨hlog, hlower, -⟩ := shifted_bounds hpos hlt
  have hshift : (-((n.log2 : Int) - 0 - 52)).toNat = 52 - n.log2 := by omega
  have hwhole : ((n.log2 : Int) - 0 - 52).toNat = 0 := by omega
  have hlog1 : Nat.log2 1 = 0 := by decide
  have hfits : ¬ n * Nat.pow 2 (52 - n.log2) < Nat.pow 2 52 * (1 * Nat.pow 2 0) := by
    simpa using hlower
  simp only [exponentFor, hlog1, Int.natCast_zero, hshift, hwhole, if_neg hfits]
  omega

/-- An integer below `2 ^ 53` is not rounded. -/
theorem nearest_one (negative : Bool) {n : Nat} (hpos : n ≠ 0) (hlt : n < Nat.pow 2 53) :
    nearest negative n 1 = make negative (n * Nat.pow 2 (52 - n.log2)) ((n.log2 : Int) - 52) := by
  obtain ⟨hlog, -, hupper⟩ := shifted_bounds hpos hlt
  have hshift : (-((n.log2 : Int) - 52)).toNat = 52 - n.log2 := by omega
  have hwhole : ((n.log2 : Int) - 52).toNat = 0 := by omega
  have hunit : 1 * Nat.pow 2 0 = 1 := rfl
  simp only [nearest, if_neg hpos, exponentFor_one hpos hlt, hshift, hwhole, hunit,
    divideToEven_one, if_neg (Nat.ne_of_lt hupper)]

theorem toInt?_zero (negative : Bool) : (zero negative).toInt? = some 0 := by
  rw [zero, toInt?, if_neg (by decide), if_pos (Nat.zero_mod _), Nat.zero_div]
  cases negative <;> rfl

/-- A natural number below `2 ^ 53` is read back from its number. -/
theorem toInt?_ofNat {n : Nat} (hlt : n < Nat.pow 2 53) : (ofNat n).toInt? = some (n : Int) := by
  by_cases hpos : n = 0
  · rw [hpos, ofNat, nearest, if_pos rfl, toInt?_zero]
    rfl
  obtain ⟨hlog, hlower, hupper⟩ := shifted_bounds hpos hlt
  have hcanonical : Canonical (n * Nat.pow 2 (52 - n.log2)) ((n.log2 : Int) - 52) :=
    ⟨hupper, by omega, by omega, .inl hlower⟩
  have hmake : ofNat n = .finite false (n * Nat.pow 2 (52 - n.log2)) ((n.log2 : Int) - 52)
      hcanonical := by
    rw [ofNat, nearest_one false hpos hlt, make, dif_pos hcanonical]
  rw [hmake]
  by_cases hwhole : n.log2 = 52
  · simp [toInt?, hwhole]
  · -- The shift is undone by the division.
    have hneg : ¬ (0 : Int) ≤ (n.log2 : Int) - 52 := by omega
    have hshift : (-((n.log2 : Int) - 52)).toNat = 52 - n.log2 := by omega
    have hunit : 0 < Nat.pow 2 (52 - n.log2) := Nat.two_pow_pos _
    simp only [toInt?, if_neg hneg, hshift, Nat.mul_mod_left, Nat.mul_div_cancel _ hunit,
      if_true, Option.map_some, Bool.false_eq_true, if_false]

end Number
end MacroReplay
