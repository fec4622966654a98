import MacroReplay.Proofs.Number.Notation
import MacroReplay.Proofs.Text.Trimming
import MacroReplay.Value

/-!
# The text of a number

A number is written as an integer, or in the fewest digits that read back, and either text is read as the
number that was written.

* `exists_size_of_toInt?` — the integer that a number equals;
* `exists_scaled_shortest` — the fewest digits are those of a decimal that reads back;
* `exists_body` — the text of a finite number, and what the digits in it are read as;
* `numbers_survive_rendering` — numbers, as text and back.
-/

namespace MacroReplay

open Text (isDigit digitsValue)

namespace Number

def unsignedZero (x : Number) : Number :=
  if x = zero true then zero false else x

theorem unsignedZero_of_ne {x : Number} (hx : x ≠ zero true) : x.unsignedZero = x :=
  if_neg hx

/-! ## Integers -/

section Finite

variable {negative : Bool} {m : Nat} {e : ℤ} {h : Canonical m e}

/-- An integer that equals a number has its value and its sign. -/
theorem exists_size_of_toInt? {k : ℤ} (hk : (Number.finite negative m e h).toInt? = some k) :
    ∃ size : Nat, (size : ℚ) = m * 2 ^ e ∧ k = if negative then -(size : ℤ) else size := by
  have hsize (size : Nat) (hsize : (size : ℚ) = m * 2 ^ e)
      (hk : some (if negative then -(size : ℤ) else size) = some k) :
      ∃ size : Nat, (size : ℚ) = m * 2 ^ e ∧ k = if negative then -(size : ℤ) else size :=
    ⟨size, hsize, (Option.some.inj hk).symm⟩
  by_cases hwhole : 0 ≤ e
  · simp only [toInt?, if_pos hwhole, Option.map_some] at hk
    refine hsize _ ?_ hk
    rw [← Int.toNat_of_nonneg hwhole, zpow_natCast]
    push_cast [Nat.pow_eq]
    rfl
  · by_cases hdvd : m % Nat.pow 2 (-e).toNat = 0
    · simp only [toInt?, if_neg hwhole, if_pos hdvd, Option.map_some] at hk
      refine hsize _ ?_ hk
      -- The exponent is negative, but the significand has all the twos that it takes away.
      obtain ⟨size, hm⟩ := Nat.dvd_of_mod_eq_zero hdvd
      have hquotient : m / Nat.pow 2 (-e).toNat = size :=
        Nat.div_eq_of_eq_mul_right (Nat.two_pow_pos _) hm
      have htoNat : e.toNat = 0 := by omega
      rw [hquotient, hm, zpow_eq_div two_ne_zero, htoNat]
      push_cast [Nat.pow_eq]
      field_simp
    · simp only [toInt?, if_neg hwhole, if_neg hdvd, Option.map_none, reduceCtorEq] at hk

theorem size_ne_zero {size : Nat} (hm : m ≠ 0) (hsize : (size : ℚ) = m * 2 ^ e) : size ≠ 0 := by
  have hpos : (0 : ℚ) < m * 2 ^ e := scaled_pos two_ne_zero hm e
  rw [← hsize] at hpos
  exact_mod_cast hpos.ne'

/-- The sign stands before the digits. -/
theorem toString_signed {size : Nat} (hsize : size ≠ 0) :
    toString (if negative then -(size : ℤ) else size) = withSign negative (toString size) := by
  cases negative with
  | false => rfl
  | true =>
      have hbelow : ¬ (0 : ℤ) ≤ -(size : ℤ) := by omega
      rw [if_pos rfl, Int.toString_eq_repr, Int.repr_eq_if, if_neg hbelow, neg_neg, Int.toNat_natCast]
      rfl

/-! ## The fewest digits -/

/-- What the search gives reads back. -/
theorem ofDecimal_of_firstReadingBack {half : Half} {x : Number} {num den count grids m : Nat} {k : ℤ}
    (hfound : firstReadingBack half x num den count grids = some (m, k)) : ofDecimal false m k = x := by
  induction grids generalizing count with
  | zero => nomatch hfound
  | succ grids ih =>
      unfold firstReadingBack at hfound
      split at hfound
      · rename_i found hfind
        cases hfound
        simpa using List.find?_some hfind
      · exact ih hfound

/-- A significand and an exponent in canonical form are kept. -/
theorem scaled_of_canonical (h : Canonical m e) (hm : m ≠ 0) :
    scaled negative m e = .finite negative m e h :=
  nearest_of_canonical negative h hm (Nat.two_pow_pos _) (ratio_of_scaled two_ne_zero m e)

/-- All digits of a number stand for its value. -/
theorem exactDecimal_value (m : Nat) (e : ℤ) :
    ((exactDecimal m e).1 : ℚ) * 10 ^ (exactDecimal m e).2 = m * 2 ^ e := by
  have hten : (10 : ℚ) ^ (-e).toNat = 2 ^ (-e).toNat * 5 ^ (-e).toNat := by
    rw [← mul_pow]
    norm_num
  rw [exactDecimal, zpow_neg, zpow_natCast, hten, zpow_eq_div two_ne_zero]
  push_cast [Nat.pow_eq]
  field_simp

/-- The fewest digits are those of a decimal that reads back. -/
theorem exists_scaled_shortest (half : Half) (h : Canonical m e) (hm : m ≠ 0) :
    ∃ n k, shortest half m e = Decimal.ofScaled n k ∧ n ≠ 0 ∧
      ofDecimal false n k = .finite false m e h := by
  have hscaled : scaled false m e = .finite false m e h := scaled_of_canonical h hm
  have hread : ∃ n k, shortest half m e = Decimal.ofScaled n k ∧
      ofDecimal false n k = .finite false m e h := by
    cases hsearch : firstReadingBack half (scaled false m e) (ratio m e).1 (ratio m e).2 1 17 with
    | some found =>
        refine ⟨found.1, found.2, by simp [shortest, hsearch], ?_⟩
        rw [ofDecimal_of_firstReadingBack hsearch, hscaled]
    | none =>
        refine ⟨(exactDecimal m e).1, (exactDecimal m e).2, by simp [shortest, hsearch], ?_⟩
        exact ofDecimal_of_canonical false h hm (exactDecimal_value m e)
  obtain ⟨n, k, hshortest, hn⟩ := hread
  refine ⟨n, k, hshortest, ?_, hn⟩
  rintro rfl
  rw [ofDecimal, if_pos rfl] at hn
  cases hn
  exact hm rfl

/-! ## Texts -/

/-- The text of a finite number is a sign and digits. The digits are read as the number, with whatever
sign. -/
theorem exists_body (negative : Bool) (h : Canonical m e) (hm : m ≠ 0) :
    ∃ body : List Char, (Number.finite negative m e h).render = withSign negative (String.ofList body) ∧
      body.all isPositional = true ∧
      ∀ sign, readUnsigned sign body = some (.finite sign m e h) := by
  -- The shortest digits in positional notation, which all numbers but the smaller integers are
  -- written in.
  have hwritten : ∃ body : List Char,
      withSign negative (shortest .up m e).positional = withSign negative (String.ofList body) ∧
      body.all isPositional = true ∧
      ∀ sign, readUnsigned sign body = some (.finite sign m e h) := by
    obtain ⟨n, k, hshortest, hn, hread⟩ := exists_scaled_shortest .up h hm
    refine ⟨(shortest .up m e).positional.toList, by rw [String.ofList_toList], ?_, fun sign => ?_⟩
    · rw [hshortest]
      exact all_isPositional_positional (all_isDigit_ofScaled n k)
    · rw [hshortest, readUnsigned_ofScaled sign hn]
      cases sign with
      | false => rw [hread]
      | true => rw [ofDecimal_true, hread, neg, Bool.not_false]
  cases hinteger : (Number.finite negative m e h).toInt? with
  | none =>
      simp only [render, hinteger]
      exact hwritten
  | some i =>
      by_cases hrange : i.natAbs < Nat.pow 10 21
      · -- An integer below 10^21 is written in full.
        obtain ⟨size, hsize, rfl⟩ := exists_size_of_toInt? hinteger
        have hsome := size_ne_zero hm hsize
        refine ⟨Nat.toDigits 10 size, ?_, all_isPositional (Text.all_isDigit_toDigits size),
          fun sign => ?_⟩
        · simp only [render, hinteger, if_pos hrange, toString_signed hsome]
          exact congrArg _ Nat.repr_eq_ofList_toDigits
        · have hdigits : Nat.toDigits 10 size ≠ [] := List.length_pos_iff.1 Nat.length_toDigits_pos
          rw [readUnsigned_digits sign (Text.all_isDigit_toDigits size) hdigits,
            Text.digitsValue_toDigits]
          refine congrArg some (ofDecimal_of_canonical sign h hm ?_)
          rw [hsize, zpow_zero, mul_one]
      · simp only [render, hinteger, if_neg hrange]
        exact hwritten

end Finite

theorem render_zero (negative : Bool) : (zero negative).render = "0" := by
  cases negative <;> decide +kernel

/-- The mantissa of zero is zero, and there is no other number like that. -/
theorem eq_zero_of_canonical {e : ℤ} (h : Canonical 0 e) (negative : Bool) :
    Number.finite negative 0 e h = zero negative := by
  obtain ⟨-, -, -, hfull | rfl⟩ := id h
  · exact absurd hfull (by decide)
  · rfl

/-! ## Reading -/

theorem isNotation_of_isPositional {c : Char} (hc : isPositional c = true) : isNotation c = true := by
  unfold isPositional at hc
  simp only [isNotation, hc, Bool.true_or]

/-- There are no blanks in the notation of a number. -/
theorem isBlank_of_isNotation {c : Char} (hc : isNotation c = true) : Text.isBlank c = false := by
  simp only [isNotation, Bool.or_eq_true, beq_iff_eq] at hc
  rcases hc with ((((hdigit | rfl) | rfl) | rfl) | rfl) | rfl
  · exact Text.isBlank_of_isDigit hdigit
  all_goals decide

/-- Decimal notation is read as it stands. -/
theorem read_eq_readDecimal {s : String} (hs : s.toList.all isNotation = true) :
    read s = readDecimal s.toList := by
  have htrim : Text.trimChars s.toList = s.toList :=
    Text.trimChars_of_visible fun c hc => isBlank_of_isNotation (List.all_eq_true.1 hs c hc)
  have hother (spelling : String) (hspelling : spelling.toList.all isNotation = false) :
      s.toList ≠ spelling.toList := by
    intro hsame
    rw [hsame, hspelling] at hs
    nomatch hs
  simp only [read, htrim, hother "Infinity" (by decide), hother "+Infinity" (by decide),
    hother "-Infinity" (by decide), hs, or_self, if_false, if_true]

/-- A text without a sign is read without one. -/
theorem readDecimal_of_positional {cs : List Char} (hcs : cs.all isPositional = true) :
    readDecimal cs = readUnsigned false cs := by
  cases cs with
  | nil => rfl
  | cons c cs =>
      rw [List.all_cons, Bool.and_eq_true] at hcs
      have hminus : c ≠ '-' := by
        rintro rfl
        exact absurd hcs.1 (by decide)
      have hplus : c ≠ '+' := by
        rintro rfl
        exact absurd hcs.1 (by decide)
      simp [readDecimal, hminus, hplus]

/-- The sign before positional notation is read off first. -/
theorem read_withSign {body : List Char} (hbody : body.all isPositional = true) (negative : Bool) :
    read (withSign negative (String.ofList body)) = readUnsigned negative body := by
  have hnotation : body.all isNotation = true :=
    List.all_eq_true.2 fun c hc => isNotation_of_isPositional (List.all_eq_true.1 hbody c hc)
  cases negative with
  | false =>
      have hlist : (withSign false (String.ofList body)).toList = body := String.toList_ofList
      rw [read_eq_readDecimal (by rw [hlist, hnotation]), hlist, readDecimal_of_positional hbody]
  | true =>
      have hlist : (withSign true (String.ofList body)).toList = '-' :: body := by
        simp [withSign]
      rw [read_eq_readDecimal (by rw [hlist, List.all_cons, hnotation]; decide), hlist]
      rfl

/-- A number is read back from its text, but for the sign of a zero. -/
theorem read_render {x : Number} (hx : x ≠ .nan) : read x.render = some x.unsignedZero := by
  cases x with
  | nan => exact absurd rfl hx
  | infinite negative => cases negative <;> decide +kernel
  | finite negative m e h =>
      by_cases hm : m = 0
      · subst hm
        rw [eq_zero_of_canonical, render_zero]
        cases negative <;> decide +kernel
      · obtain ⟨body, hrender, hbody, hread⟩ := exists_body negative h hm
        have hnonzero : Number.finite negative m e h ≠ zero true := by
          intro hzero
          cases hzero
          exact hm rfl
        rw [hrender, read_withSign hbody, hread, unsignedZero_of_ne hnonzero]

/-- The texts that can be read at all. -/
theorem notation_of_read {s : String} {x : Number} (hread : read s = some x) :
    Text.trim s ∈ ["Infinity", "+Infinity", "-Infinity"] ∨
      ∀ c ∈ (Text.trim s).toList, isDigit c = true ∨ c ∈ ['.', '+', '-', 'e', 'E'] := by
  have hspelled {spelling : String} (hsame : Text.trimChars s.toList = spelling.toList) :
      Text.trim s = spelling := by
    rw [Text.trim, hsame, String.ofList_toList]
  simp only [read] at hread
  split at hread
  · rename_i hsame
    rcases hsame with hsame | hsame <;> simp [hspelled hsame]
  · split at hread
    · rename_i hsame
      simp [hspelled hsame]
    · split at hread
      · rename_i hnotation
        refine .inr fun c hc => ?_
        rw [Text.trim, String.toList_ofList] at hc
        have hkind := List.all_eq_true.1 hnotation c hc
        simp only [isNotation, Bool.or_eq_true, beq_iff_eq] at hkind
        simp only [List.mem_cons, List.not_mem_nil, or_false]
        grind
      · nomatch hread

end Number

/-! ## Values -/

open Number (zero)

/-- **Numbers survive rendering.** A number is read back from its text, infinities included; only the
sign of a zero is lost, and what is not a number has a text that writes none. Other texts than the
spellings of infinity and those in decimal notation write no number. -/
theorem Value.numbers_survive_rendering :
    (∀ x : Number, x ≠ .nan → x ≠ zero true → (Value.text x.render).toNumber? = some x) ∧
      (Value.text (Number.render .nan)).toNumber? = none ∧
      (Value.text (Number.render .nan)).toNumber = .nan ∧
      ∀ (s : String) (x : Number), (Value.text s).toNumber? = some x →
        Text.trim s ∈ ["Infinity", "+Infinity", "-Infinity"] ∨
          ∀ c ∈ (Text.trim s).toList, isDigit c = true ∨ c ∈ ['.', '+', '-', 'e', 'E'] := by
  refine ⟨?_, by decide +kernel, by decide +kernel, fun s x => Number.notation_of_read⟩
  intro x hnumber hzero
  have hread := Number.read_render hnumber
  rw [Number.unsignedZero_of_ne hzero] at hread
  exact hread

/-- One tenth below zero, the greatest finite number, and a thousand below zero written with an
exponent. -/
theorem Value.numbers_survive_rendering_tenth :
    let tenth : Number := .finite true 7205759403792794 (-56) (by decide)
    let greatest : Number := .finite false 9007199254740991 971 (by decide)
    (tenth.render = "-0.1" ∧ (Value.text tenth.render).toNumber? = some tenth) ∧
      (Value.text greatest.render).toNumber? = some greatest ∧
      ((Value.text "\t-1e3 ").toNumber? = some (Number.ofInt (-1000)) ∧
        ∀ c ∈ "-1e3".toList, isDigit c = true ∨ c ∈ ['.', '+', '-', 'e', 'E']) := by
  intro tenth greatest
  obtain ⟨hread, -, -, htexts⟩ := Value.numbers_survive_rendering
  have hthousand : (Value.text "\t-1e3 ").toNumber? = some (Number.ofInt (-1000)) := by decide +kernel
  have htrim : Text.trim "\t-1e3 " = "-1e3" := by decide +kernel
  have hnotation := htexts _ _ hthousand
  rw [htrim] at hnotation
  refine ⟨⟨by decide +kernel, hread tenth (by decide) (by decide)⟩,
    hread greatest (by decide) (by decide), hthousand, ?_⟩
  exact hnotation.resolve_left (by decide)

end MacroReplay
