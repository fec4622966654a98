import MacroReplay.Text.Ascii
import MacroReplay.Text.Blank

/-!
# Kinds of characters

* `isBlank_of_visible` — the printed characters of ASCII are not blank;
* `span_of_stop` — what a scan for one kind of character takes;
* `digitsValue_toDigits` — the digits of a number write it.
-/

namespace MacroReplay.Text

variable {c : Char} {cs rest : List Char}

/-! ## Blanks -/

/-- The visible characters of ASCII are no blanks. -/
theorem isBlank_of_visible (hlow : 33 ≤ c.toNat) (hhigh : c.toNat ≤ 126) : isBlank c = false := by
  rw [← Bool.not_eq_true]
  intro hblank
  simp only [isBlank, Bool.or_eq_true, Bool.and_eq_true, decide_eq_true_eq, beq_iff_eq] at hblank
  omega

/-! ## Scans -/

/-- A scan takes all characters of its kind, if it is stopped behind them. -/
theorem span_of_stop {p : Char → Bool} (hcs : cs.all p = true)
    (hrest : ∀ next ∈ rest.head?, p next = false) :
    (cs ++ rest).takeWhile p = cs ∧ (cs ++ rest).dropWhile p = rest := by
  have hall : ∀ c ∈ cs, p c = true := List.all_eq_true.1 hcs
  have hstop : rest.takeWhile p = [] ∧ rest.dropWhile p = rest := by
    cases rest with
    | nil => simp
    | cons next rest => simp [hrest next rfl]
  rw [List.takeWhile_append_of_pos hall, List.dropWhile_append_of_pos hall, hstop.1, hstop.2,
    List.append_nil]
  exact ⟨rfl, rfl⟩

/-! ## Digits -/

theorem toNat_of_isDigit (hc : isDigit c = true) : 48 ≤ c.toNat ∧ c.toNat ≤ 57 := by
  simp only [isDigit, Bool.and_eq_true, decide_eq_true_eq] at hc
  exact hc

/-- The value of a digit is below ten. -/
theorem digitValue_lt (hc : isDigit c = true) : digitValue c < 10 := by
  have hrange := toNat_of_isDigit hc
  have hzero : '0'.toNat = 48 := rfl
  rw [digitValue]
  omega

theorem isBlank_of_isDigit (hc : isDigit c = true) : isBlank c = false := by
  obtain ⟨hlow, hhigh⟩ := toNat_of_isDigit hc
  exact isBlank_of_visible (by omega) (by omega)

theorem all_isDigit_toDigits (n : Nat) : (Nat.toDigits 10 n).all isDigit = true := by
  refine List.all_eq_true.2 fun c hc => ?_
  have hdigit : c.isDigit = true := Nat.isDigit_of_mem_toDigits (by decide) (by decide) hc
  exact hdigit

/-- The decimal digits of a number have its value. -/
theorem digitsValue_toDigits (n : Nat) : digitsValue (Nat.toDigits 10 n) = n :=
  Nat.ofDigitChars_ten_toDigits

/-- Further digits move those before them to the left. -/
theorem digitsValue_append (cs ds : List Char) :
    digitsValue (cs ++ ds) = Nat.pow 10 ds.length * digitsValue cs + digitsValue ds := by
  have happend : digitsValue (cs ++ ds) = Nat.ofDigitChars 10 ds (digitsValue cs) :=
    Nat.ofDigitChars_append 0
  rw [happend, Nat.ofDigitChars_eq_ofDigitChars_zero]
  rfl

theorem digitsValue_zeros (n : Nat) : digitsValue (List.replicate n '0') = 0 := by
  have hzeros : digitsValue (List.replicate n '0') = 10 ^ n * 0 := Nat.ofDigitChars_replicate_zero
  simpa using hzeros

end MacroReplay.Text
