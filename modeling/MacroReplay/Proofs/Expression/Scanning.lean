import MacroReplay.Expression.Token
import MacroReplay.Proofs.Text.Character

/-!
# Tokens at the front of an expression

Each kind of token but the quoted text, with what has to stand behind it for the token to end there:

* `tokenize_single` — signs, parentheses and commas end by themselves;
* `tokenize_name` — a name ends before a character that no name has;
* `tokenize_number` — a number without an exponent ends before a character that is neither of a number
  nor the mark of an exponent.
-/

namespace MacroReplay.Expression

variable {c : Char} {cs rest : List Char}

/-! ## Signs, parentheses and commas -/

/-- A character that is a token by itself is scanned whatever follows. -/
theorem tokenize_single {t : Token} (ht : single? c = some t)
    (hc : (Text.isBlank c || isNumeric c || (c == '"' || c == '\x27') || isNameStart c) = false)
    (rest : List Char) : tokenize (c :: rest) = (tokenize rest).map (t :: ·) := by
  obtain ⟨hkind, hname⟩ := Bool.or_eq_false_iff.1 hc
  obtain ⟨hplain, hquote⟩ := Bool.or_eq_false_iff.1 hkind
  obtain ⟨hblank, hnumeric⟩ := Bool.or_eq_false_iff.1 hplain
  rw [tokenize]
  simp only [hblank, hnumeric, hquote, hname, ht, Bool.false_eq_true, if_false]

/-! ## Names -/

theorem toNat_bounds_of_isNameStart (hc : isNameStart c = true) : 65 ≤ c.toNat ∧ c.toNat ≤ 122 := by
  simp only [isNameStart, Text.isLetter, Bool.or_eq_true, Bool.and_eq_true, decide_eq_true_eq,
    beq_iff_eq] at hc
  rcases hc with (⟨hlow, hhigh⟩ | ⟨hlow, hhigh⟩) | rfl
  · have hlow' : 97 ≤ c.toNat := hlow
    have hhigh' : c.toNat ≤ 122 := hhigh
    omega
  · have hlow' : 65 ≤ c.toNat := hlow
    have hhigh' : c.toNat ≤ 90 := hhigh
    omega
  · decide

/-- A name is taken for nothing else by its first character. -/
theorem kind_of_isNameStart (hc : isNameStart c = true) :
    Text.isBlank c = false ∧ isNumeric c = false ∧ (c == '"' || c == '\x27') = false := by
  obtain ⟨hlow, hhigh⟩ := toNat_bounds_of_isNameStart hc
  refine ⟨Text.isBlank_of_visible (by omega) (by omega), ?_, ?_⟩
  · rw [← Bool.not_eq_true]
    intro hnumeric
    rcases Bool.or_eq_true_iff.1 hnumeric with hdigit | hpoint
    · have hbounds := Text.toNat_of_isDigit hdigit
      omega
    · cases beq_iff_eq.1 hpoint
      contradiction
  · rw [← Bool.not_eq_true]
    intro hquote
    simp only [Bool.or_eq_true, beq_iff_eq] at hquote
    rcases hquote with rfl | rfl <;> contradiction

/-- A name is scanned up to the first character that is not one of names. -/
theorem tokenize_name (hc : isNameStart c = true) (hcs : cs.all isNameChar = true)
    (hrest : ∀ next ∈ rest.head?, isNameChar next = false) :
    tokenize (c :: (cs ++ rest)) = (tokenize rest).map (.name (String.ofList (c :: cs)) :: ·) := by
  obtain ⟨hblank, hnumeric, hquote⟩ := kind_of_isNameStart hc
  obtain ⟨htaken, hdropped⟩ := Text.span_of_stop hcs hrest
  rw [tokenize]
  simp only [hblank, hnumeric, hquote, hc, htaken, hdropped, Bool.false_eq_true, if_false, if_true]

/-! ## Numbers -/

theorem isBlank_of_isNumeric (hc : isNumeric c = true) : Text.isBlank c = false := by
  rcases Bool.or_eq_true_iff.1 hc with hdigit | hpoint
  · exact Text.isBlank_of_isDigit hdigit
  · cases beq_iff_eq.1 hpoint
    decide

/-- Without its mark there is no exponent. -/
theorem spanExponent_of_no_mark (hrest : ∀ next ∈ rest.head?, next ≠ 'e' ∧ next ≠ 'E') :
    spanExponent rest = ([], rest) := by
  cases rest with
  | nil => rfl
  | cons next rest => simp [spanExponent, hrest next rfl]

/-- Digits and points are scanned as one number, if no exponent follows. -/
theorem tokenize_number {n : Number} (hcs : (c :: cs).all isNumeric = true)
    (hread : Number.readUnsigned false (c :: cs) = some n)
    (hrest : ∀ next ∈ rest.head?, isNumeric next = false ∧ next ≠ 'e' ∧ next ≠ 'E') :
    tokenize (c :: (cs ++ rest)) = (tokenize rest).map (.number n :: ·) := by
  obtain ⟨hc, htail⟩ : isNumeric c = true ∧ cs.all isNumeric = true := by simpa using hcs
  obtain ⟨htaken, hdropped⟩ := Text.span_of_stop htail fun next h => (hrest next h).1
  have hend : spanExponent rest = ([], rest) := spanExponent_of_no_mark fun next h => (hrest next h).2
  have hwritten : c :: cs ++ [] = c :: cs := List.append_nil _
  rw [tokenize]
  simp only [isBlank_of_isNumeric hc, hc, htaken, hdropped, hend, hwritten, hread, Bool.false_eq_true,
    if_false, if_true]

end MacroReplay.Expression
