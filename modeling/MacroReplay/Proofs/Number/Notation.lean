import MacroReplay.Number.Text
import MacroReplay.Proofs.Number.Rounding
import MacroReplay.Proofs.Text.Character

/-!
# Numbers in positional notation

What is written in digits, with a point or without one, is read as the number that the digits stand for.

* `readUnsigned_digits`, `readUnsigned_point` — digits, and digits with a point among them;
* `readUnsigned_positional` — a list of digits with the place of its point;
* `readUnsigned_ofScaled` — a decimal that was laid out is read as the decimal.
-/

namespace MacroReplay

open Text (isDigit digitsValue)

namespace Number

def isPositional (c : Char) : Bool :=
  isDigit c || c == '.'

variable {whole fraction cs : List Char}

theorem all_isPositional (hcs : cs.all isDigit = true) : cs.all isPositional = true := by
  refine List.all_eq_true.2 fun c hc => ?_
  rw [isPositional, List.all_eq_true.1 hcs c hc, Bool.true_or]

/-! ## Digits and a point -/

/-- Digits alone are read as an integer. -/
theorem readUnsigned_digits (negative : Bool) (hwhole : whole.all isDigit = true) (hsome : whole ≠ []) :
    readUnsigned negative whole = some (ofDecimal negative (digitsValue whole) 0) := by
  have hspan := @Text.span_of_stop whole [] isDigit hwhole (by simp)
  rw [List.append_nil] at hspan
  simp [readUnsigned, spanDigits, hspan, hsome]

/-- Digits on both sides of a point: each digit behind it lowers the exponent by one. -/
theorem readUnsigned_point (negative : Bool) (hwhole : whole.all isDigit = true) (hsome : whole ≠ [])
    (hfraction : fraction.all isDigit = true) :
    readUnsigned negative (whole ++ '.' :: fraction) =
      some (ofDecimal negative (digitsValue (whole ++ fraction)) (-fraction.length)) := by
  have hfront := @Text.span_of_stop whole ('.' :: fraction) isDigit hwhole (by rintro next ⟨⟩; decide)
  have hback := @Text.span_of_stop fraction [] isDigit hfraction (by simp)
  rw [List.append_nil] at hback
  simp [readUnsigned, spanDigits, hfront, hback, hsome]

/-! ## Digits with the place of their point -/

variable {d : Decimal}

/-- Positional notation has digits and at most a point. -/
theorem all_isPositional_positional (hdigits : d.digits.all isDigit = true) :
    d.positional.toList.all isPositional = true := by
  have hzeros (n : Nat) : (List.replicate n '0').all isPositional = true := by
    simp [isPositional, isDigit]
  have hall := all_isPositional hdigits
  by_cases hsmall : d.point ≤ 0
  · rw [Decimal.positional, if_pos hsmall, String.toList_ofList, List.all_cons, List.all_cons,
      List.all_append, hzeros, hall]
    decide
  · rw [Decimal.positional, if_neg hsmall]
    by_cases hlong : d.digits.length ≤ d.point.toNat
    · simp only [if_pos hlong, String.toList_ofList, List.all_append, hzeros, hall, Bool.and_self]
    · -- The point stands between two parts of the digits.
      rw [← List.take_append_drop d.point.toNat d.digits, List.all_append, Bool.and_eq_true] at hall
      simp only [if_neg hlong, String.toList_ofList, List.all_append, List.all_cons, hall.1, hall.2]
      decide

/-- Wherever the point comes to stand, positional notation is read as the digits it was made of. -/
theorem readUnsigned_positional (negative : Bool) (hdigits : d.digits.all isDigit = true)
    (hvalue : digitsValue d.digits ≠ 0) :
    readUnsigned negative d.positional.toList =
      some (ofDecimal negative (digitsValue d.digits) (d.point - d.digits.length)) := by
  have hzeros (n : Nat) : (List.replicate n '0').all isDigit = true := by simp [isDigit]
  have hsome : d.digits ≠ [] := by
    intro hnone
    rw [hnone] at hvalue
    exact hvalue rfl
  by_cases hsmall : d.point ≤ 0
  · -- The point stands before all digits, behind a zero, with zeros in between.
    have hfraction : (List.replicate (-d.point).toNat '0' ++ d.digits).all isDigit = true := by
      rw [List.all_append, hzeros, hdigits]
      rfl
    have hread := @readUnsigned_point ['0'] _ negative (by decide) (by simp) hfraction
    have hsame : digitsValue (['0'] ++ (List.replicate (-d.point).toNat '0' ++ d.digits)) =
        digitsValue d.digits := by
      have hzero : digitsValue ['0'] = 0 := by decide
      rw [Text.digitsValue_append, Text.digitsValue_append, Text.digitsValue_zeros, hzero]
      simp
    have hlength : (-(List.replicate (-d.point).toNat '0' ++ d.digits).length : ℤ) =
        d.point - d.digits.length := by
      rw [List.length_append, List.length_replicate]
      omega
    rw [hsame, hlength] at hread
    rw [Decimal.positional, if_pos hsmall, String.toList_ofList]
    exact hread
  · by_cases hlong : d.digits.length ≤ d.point.toNat
    · -- Zeros behind the digits take the place of an exponent.
      have hwhole : (d.digits ++ List.replicate (d.point.toNat - d.digits.length) '0').all isDigit =
          true := by
        rw [List.all_append, hzeros, hdigits]
        rfl
      have hread := readUnsigned_digits negative hwhole (by simp [hsome])
      have hshift : (d.point.toNat - d.digits.length : Nat) = d.point - d.digits.length := by omega
      have hsame : digitsValue (d.digits ++ List.replicate (d.point.toNat - d.digits.length) '0') =
          10 ^ (d.point.toNat - d.digits.length) * digitsValue d.digits := by
        rw [Text.digitsValue_append, Text.digitsValue_zeros, List.length_replicate, Nat.add_zero,
          Nat.pow_eq]
      have hequal :
          ofDecimal negative (10 ^ (d.point.toNat - d.digits.length) * digitsValue d.digits) 0 =
          ofDecimal negative (digitsValue d.digits) (d.point - d.digits.length) := by
        refine ofDecimal_congr negative (by positivity) hvalue ?_
        rw [← hshift, zpow_natCast]
        push_cast
        ring
      rw [hsame, hequal] at hread
      rw [Decimal.positional, if_neg hsmall]
      simp only [if_pos hlong, String.toList_ofList]
      exact hread
    · -- The point stands among the digits.
      have hparts : d.digits.take d.point.toNat ++ d.digits.drop d.point.toNat = d.digits :=
        List.take_append_drop _ _
      have hall := hdigits
      rw [← hparts, List.all_append, Bool.and_eq_true] at hall
      have hfront : d.digits.take d.point.toNat ≠ [] := by
        rw [Ne, List.take_eq_nil_iff]
        rintro (hnone | hnone)
        · omega
        · exact hsome hnone
      have hread := readUnsigned_point negative hall.1 hfront hall.2
      have hlength : (-(d.digits.drop d.point.toNat).length : ℤ) = d.point - d.digits.length := by
        rw [List.length_drop]
        omega
      rw [hparts, hlength] at hread
      rw [Decimal.positional, if_neg hsmall]
      simp only [if_neg hlong, String.toList_ofList]
      exact hread

/-! ## A mantissa and an exponent -/

/-- Only zeros are taken off. -/
theorem exists_zeros (m : Nat) (k : ℤ) :
    ∃ j, Nat.toDigits 10 m = (Decimal.ofScaled m k).digits ++ List.replicate j '0' := by
  let zeros := (Nat.toDigits 10 m).reverse.takeWhile (· == '0')
  have hzeros : zeros = List.replicate zeros.length '0' :=
    List.eq_replicate_of_mem fun c hc => beq_iff_eq.1 (List.all_eq_true.1 List.all_takeWhile c hc)
  refine ⟨zeros.length, ?_⟩
  have hparts : zeros ++ (Nat.toDigits 10 m).reverse.dropWhile (· == '0') =
      (Nat.toDigits 10 m).reverse := List.takeWhile_append_dropWhile
  have hback := congrArg List.reverse hparts
  rw [List.reverse_append, List.reverse_reverse, hzeros, List.reverse_replicate] at hback
  exact hback.symm

theorem all_isDigit_ofScaled (m : Nat) (k : ℤ) :
    (Decimal.ofScaled m k).digits.all isDigit = true := by
  obtain ⟨j, hj⟩ := exists_zeros m k
  have hall := Text.all_isDigit_toDigits m
  rw [hj, List.all_append, Bool.and_eq_true] at hall
  exact hall.1

/-- A decimal that was laid out is read as the decimal. -/
theorem readUnsigned_ofScaled (negative : Bool) {m : Nat} (hm : m ≠ 0) (k : ℤ) :
    readUnsigned negative (Decimal.ofScaled m k).positional.toList = some (ofDecimal negative m k) := by
  obtain ⟨j, hj⟩ := exists_zeros m k
  -- The zeros at the end, which are not kept as digits, are a power of ten.
  have hm_eq : m = 10 ^ j * digitsValue (Decimal.ofScaled m k).digits := by
    have hwritten := congrArg digitsValue hj
    rw [Text.digitsValue_toDigits, Text.digitsValue_append, Text.digitsValue_zeros,
      List.length_replicate, Nat.add_zero] at hwritten
    exact hwritten
  have hvalue : digitsValue (Decimal.ofScaled m k).digits ≠ 0 := by
    intro hzero
    rw [hzero, Nat.mul_zero] at hm_eq
    exact hm hm_eq
  have hpoint : (Decimal.ofScaled m k).point - (Decimal.ofScaled m k).digits.length = k + j := by
    have hlength := congrArg List.length hj
    rw [List.length_append, List.length_replicate] at hlength
    have hplace : (Decimal.ofScaled m k).point = (Nat.toDigits 10 m).length + k := rfl
    omega
  rw [readUnsigned_positional negative (all_isDigit_ofScaled m k) hvalue, hpoint]
  refine congrArg some (ofDecimal_congr negative hvalue hm ?_)
  have hscaled : (m : ℚ) = 10 ^ j * digitsValue (Decimal.ofScaled m k).digits := by exact_mod_cast hm_eq
  calc (digitsValue (Decimal.ofScaled m k).digits : ℚ) * 10 ^ (k + j)
      = 10 ^ j * digitsValue (Decimal.ofScaled m k).digits * 10 ^ k := by
        rw [zpow_add₀ (by norm_num), zpow_natCast]
        ring
    _ = m * 10 ^ k := by rw [← hscaled]

end Number
end MacroReplay
