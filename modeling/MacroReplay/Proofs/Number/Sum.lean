import MacroReplay.Proofs.Number.Rendering

/-!
# Sums of integers

A sum of integers is rounded like any other sum, and so is an integer that is read. Nothing is rounded as
long as the integers are numbers themselves, which those up to `2 ^ 53` all are.

* `toInt?_ofInt` — integers up to `2 ^ 53` are numbers;
* `ofInt_add` — a sum of two integers that are numbers;
* `Spells.exists_read` — an integer in decimal is read as the number that it is.
-/

namespace MacroReplay.Number

open Text (isDigit digitsValue)

/-- An integer that is a number. -/
def IsExact (k : ℤ) : Prop :=
  ∃ x : Number, x.toInt? = some k

/-! ## Integers that are numbers -/

def signFactor (negative : Bool) : ℤ :=
  if negative then -1 else 1

section Finite

variable {negative : Bool} {m : Nat} {e k : ℤ} {h : Canonical m e}

/-- The integer that a finite number stands for is its value. -/
theorem cast_of_toInt? (hk : (Number.finite negative m e h).toInt? = some k) :
    (k : ℚ) = signFactor negative * (m * 2 ^ e) := by
  obtain ⟨size, hsize, rfl⟩ := exists_size_of_toInt? hk
  rw [← hsize]
  cases negative <;> simp [signFactor]

end Finite

theorem ofInt_zero : ofInt 0 = zero false := rfl

/-- The sign of an integer is the sign of the number, and its size is rounded. -/
theorem ofInt_signed (negative : Bool) {size : Nat} (hsize : size ≠ 0) :
    ofInt (if negative then -(size : ℤ) else size) = nearest negative size 1 := by
  cases negative with
  | false =>
      have habove : ¬(size : ℤ) < 0 := by omega
      simp only [ofInt, Bool.false_eq_true, if_false, habove, decide_false, Int.natAbs_natCast]
  | true =>
      have hbelow : -(size : ℤ) < 0 := by omega
      simp only [ofInt, if_true, hbelow, decide_true, Int.natAbs_neg, Int.natAbs_natCast]

theorem ofInt_natCast (n : Nat) : ofInt n = ofNat n := by
  by_cases hn : n = 0
  · rw [hn]
    rfl
  · exact ofInt_signed false hn

/-- The opposite number stands for the opposite integer. -/
theorem toInt?_neg (x : Number) : x.neg.toInt? = x.toInt?.map (-·) := by
  cases x with
  | nan | infinite => rfl
  | finite negative m e h =>
      simp only [neg, toInt?, Option.map_map]
      congr 1
      cases negative <;> funext size <;> simp

/-- Up to 2^53 no integer is rounded. -/
theorem toInt?_ofNat_of_le {n : Nat} (hn : n ≤ 2 ^ 53) : (ofNat n).toInt? = some (n : ℤ) := by
  rcases hn.lt_or_eq with hlt | rfl
  · exact toInt?_ofNat hlt
  · decide +kernel

/-- Integers up to `2 ^ 53` are numbers. -/
theorem toInt?_ofInt {k : ℤ} (hk : k.natAbs ≤ 2 ^ 53) : (ofInt k).toInt? = some k := by
  rcases Int.natAbs_eq k with hpos | hneg
  · rw [hpos, ofInt_natCast, toInt?_ofNat_of_le hk]
  · by_cases hzero : k.natAbs = 0
    · rw [Int.natAbs_eq_zero.1 hzero, ofInt_zero, toInt?_zero]
    · have hofInt : ofInt (-k.natAbs) = (ofNat k.natAbs).neg := by
        rw [ofNat, ← nearest_true]
        exact ofInt_signed true hzero
      rw [hneg, hofInt, toInt?_neg, toInt?_ofNat_of_le hk]
      rfl

/-- Every integer of at most 2^53 in size is exact. -/
theorem IsExact.of_le {k : ℤ} (hk : k.natAbs ≤ 2 ^ 53) : IsExact k :=
  ⟨ofInt k, toInt?_ofInt hk⟩

/-! ## Sums -/

/-- A term of a sum, at the exponent of the sum. -/
theorem cast_aligned {base e : ℤ} (hle : base ≤ e) (negative : Bool) (m : Nat) :
    (aligned base negative m e : ℚ) * 2 ^ base = signFactor negative * (m * 2 ^ e) := by
  have hshift : (2 : ℚ) ^ e = 2 ^ (e - base).toNat * 2 ^ base := by
    rw [← zpow_natCast, Int.toNat_of_nonneg (by omega), ← zpow_add₀ two_ne_zero, sub_add_cancel]
  have hsize : ((m * Nat.pow 2 (e - base).toNat : Nat) : ℚ) * 2 ^ base = m * 2 ^ e := by
    rw [hshift]
    push_cast [Nat.pow_eq]
    ring
  rw [← hsize]
  cases negative with
  | false => simp [aligned, signFactor]
  | true =>
      simp only [aligned, signFactor, if_true, Int.cast_neg, Int.cast_natCast, Int.cast_one]
      ring

/-- What is scaled to an integer is rounded like the integer. -/
theorem scaled_eq_ofInt {n k base : ℤ} (hvalue : (n : ℚ) * 2 ^ base = k) :
    scaled (n < 0) n.natAbs base = ofInt k := by
  have hunit : (0 : ℚ) < 2 ^ base := zpow_pos two_pos base
  have hsign : n < 0 ↔ k < 0 := by
    rw [← Int.cast_lt_zero (R := ℚ), ← Int.cast_lt_zero (R := ℚ) (n := k), ← hvalue, mul_neg_iff]
    simp [hunit, hunit.not_gt]
  have hratio : ((n.natAbs * Nat.pow 2 base.toNat : Nat) : ℚ) / (Nat.pow 2 (-base).toNat : Nat) =
      (k.natAbs : ℚ) / (1 : Nat) := by
    rw [ratio_of_scaled two_ne_zero, Nat.cast_one, div_one, Nat.cast_natAbs, Nat.cast_natAbs,
      Int.cast_abs, Int.cast_abs, ← hvalue, abs_mul, abs_of_pos hunit, Nat.cast_ofNat]
  rw [ofInt, scaled, decide_eq_decide.2 hsign]
  exact nearest_congr _ (Nat.two_pow_pos _) Nat.one_pos hratio

section Sum

variable {x y : Number} {a b : ℤ}

/-- The sum of two integers is rounded once; where it is zero, it has the sign that both of them have. -/
theorem add_of_toInt? (hx : x.toInt? = some a) (hy : y.toInt? = some b) :
    x.add y = if a + b = 0 then zero (x.isNegative && y.isNegative) else ofInt (a + b) := by
  cases x with
  | nan | infinite => cases hx
  | finite s m e h =>
      cases y with
      | nan | infinite => cases hy
      | finite t n f h' =>
          have hvalue : ((aligned (min e f) s m e + aligned (min e f) t n f : ℤ) : ℚ) * 2 ^ min e f =
              (a + b : ℤ) := by
            push_cast
            rw [add_mul, cast_aligned (min_le_left e f), cast_aligned (min_le_right e f),
              cast_of_toInt? hx, cast_of_toInt? hy]
          have hzero : aligned (min e f) s m e + aligned (min e f) t n f = 0 ↔ a + b = 0 := by
            rw [← Int.cast_eq_zero (α := ℚ), ← Int.cast_eq_zero (α := ℚ) (n := a + b), ← hvalue,
              mul_eq_zero_iff_right (zpow_pos two_pos _).ne']
          simp only [add, hzero, isNegative, scaled_eq_ofInt hvalue]

theorem nonpos_of_isNegative (hx : x.toInt? = some a) (hneg : x.isNegative = true) : a ≤ 0 := by
  cases x with
  | nan | infinite => cases hx
  | finite negative m e h =>
      cases hneg
      obtain ⟨size, -, rfl⟩ := exists_size_of_toInt? hx
      simp

/-- An integer is added to a sum of integers. -/
theorem ofInt_add (ha : a.natAbs ≤ 2 ^ 53) (hy : y.toInt? = some b) :
    (ofInt a).add y = ofInt (a + b) := by
  have hx := toInt?_ofInt ha
  rw [add_of_toInt? hx hy]
  split
  · rename_i hsum
    -- Two terms with a minus sign and the sum zero are zero, and a sum of integers is never `-0`.
    have hplus : ((ofInt a).isNegative && y.isNegative) = false := by
      by_cases hzero : a = 0
      · rw [hzero, ofInt_zero]
        rfl
      · rw [Bool.and_eq_false_iff, ← Bool.not_eq_true, ← Bool.not_eq_true]
        by_contra hboth
        rw [not_or, not_not, not_not] at hboth
        have hleft := nonpos_of_isNegative hx hboth.1
        have hright := nonpos_of_isNegative hy hboth.2
        omega
    rw [hplus, hsum, ofInt_zero]
  · rfl

end Sum

/-! ## Integers in decimal -/

/-- The spellings of an integer in decimal: an optional sign and digits. -/
inductive Spells : List Char → ℤ → Prop where
  | plain {digits : List Char} : digits ≠ [] → digits.all isDigit = true →
      Spells digits (digitsValue digits)
  | plus {digits : List Char} : digits ≠ [] → digits.all isDigit = true →
      Spells ('+' :: digits) (digitsValue digits)
  | minus {digits : List Char} : digits ≠ [] → digits.all isDigit = true →
      Spells ('-' :: digits) (-(digitsValue digits : ℤ))

/-- A spelled integer is made of characters of the notation. -/
theorem Spells.all_isNotation {cs : List Char} {k : ℤ} (hspells : Spells cs k) :
    cs.all isNotation = true := by
  have hdigits {digits : List Char} (hall : digits.all isDigit = true) : digits.all isNotation = true :=
    List.all_eq_true.2 fun c hc => by simp only [isNotation, List.all_eq_true.1 hall c hc, Bool.true_or]
  cases hspells with
  | plain _ hall => exact hdigits hall
  | plus _ hall | minus _ hall =>
      rw [List.all_cons, hdigits hall]
      decide

/-- Digits are read as the number that the integer is. -/
theorem exists_readUnsigned {digits : List Char} (hsome : digits ≠ []) (hall : digits.all isDigit = true)
    (negative : Bool) {k : ℤ} (hk : k = signFactor negative * digitsValue digits) (hexact : IsExact k) :
    ∃ x, readUnsigned negative digits = some x ∧ x.toInt? = some k := by
  refine ⟨_, readUnsigned_digits negative hall hsome, ?_⟩
  by_cases hzero : digitsValue digits = 0
  · rw [hk, hzero, ofDecimal, if_pos rfl, toInt?_zero, Nat.cast_zero, mul_zero]
  · obtain ⟨x, hx⟩ := hexact
    cases x with
    | nan | infinite => cases hx
    | finite s m e h =>
        obtain ⟨size, hsize, hsigned⟩ := exists_size_of_toInt? hx
        obtain ⟨rfl, rfl⟩ : s = negative ∧ size = digitsValue digits := by
          rw [hk] at hsigned
          cases s <;> cases negative <;> simp [signFactor] at hsigned ⊢ <;> omega
        have hm : m ≠ 0 := by
          rintro rfl
          rw [Nat.cast_zero, zero_mul, Nat.cast_eq_zero] at hsize
          exact hzero hsize
        rw [ofDecimal_of_canonical s h hm (by rw [hsize, zpow_zero, mul_one]), hx]

/-- An integer in decimal is read as the number that it is. -/
theorem Spells.exists_read {text : String} {k : ℤ} (hspells : Spells text.toList k)
    (hexact : IsExact k) :
    ∃ x, read text = some x ∧ x.toInt? = some k := by
  rw [read_eq_readDecimal hspells.all_isNotation]
  generalize text.toList = cs at hspells
  cases hspells with
  | plain hsome hall =>
      rw [readDecimal_of_positional (all_isPositional hall)]
      exact exists_readUnsigned hsome hall false (by simp [signFactor]) hexact
  | plus hsome hall => exact exists_readUnsigned hsome hall false (by simp [signFactor]) hexact
  | minus hsome hall => exact exists_readUnsigned hsome hall true (by simp [signFactor]) hexact

end MacroReplay.Number
