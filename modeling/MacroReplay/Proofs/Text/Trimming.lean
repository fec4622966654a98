import Mathlib.Data.List.DropRight
import MacroReplay.Text.Blank

/-!
# Trimming

* `trimChars_eq_self`, `trimChars_of_visible` — a text that neither begins nor ends with a blank stays as
  it is;
* `Trimmed` — a line without the blanks around it;
* `trimmed_trimChars` — this is what trimming makes of a line.
-/

namespace MacroReplay.Text

/-! ## Texts that stay as they are -/

/-- Nothing is dropped if the first character stays. -/
theorem dropWhile_of_head? {p : Char → Bool} {cs : List Char}
    (hfirst : ∀ c, cs.head? = some c → p c = false) : cs.dropWhile p = cs := by
  cases cs with
  | nil => rfl
  | cons c cs => simp [hfirst c rfl]

/-- Trimming only looks at the ends of a text. -/
theorem trimChars_eq_self {cs : List Char} (hfirst : ∀ c, cs.head? = some c → isBlank c = false)
    (hlast : ∀ c, cs.getLast? = some c → isBlank c = false) : trimChars cs = cs := by
  have hback : cs.reverse.dropWhile isBlank = cs.reverse :=
    dropWhile_of_head? (by simpa only [List.head?_reverse] using hlast)
  rw [trimChars, dropBlanks, dropEndBlanks, dropWhile_of_head? hfirst, hback, List.reverse_reverse]

/-- A text without blanks is not trimmed. -/
theorem trimChars_of_visible {cs : List Char} (hcs : ∀ c ∈ cs, isBlank c = false) :
    trimChars cs = cs :=
  trimChars_eq_self (fun c hc => hcs c (List.mem_of_head? hc)) fun c hc =>
    hcs c (List.mem_of_getLast? hc)

/-! ## Blanks around a line -/

/-- `Trimmed l t` means that `t` is the line `l` without the blanks around it. -/
structure Trimmed (l t : List Char) : Prop where
  cut : ∃ front back, l = front ++ (t ++ back) ∧ (∀ c ∈ front, isBlank c = true) ∧
    ∀ c ∈ back, isBlank c = true
  first : ∀ c, t.head? = some c → isBlank c = false
  last : ∀ c, t.getLast? = some c → isBlank c = false

theorem isBlank_of_head?_dropWhile {l : List Char} {c : Char}
    (hc : (l.dropWhile isBlank).head? = some c) : isBlank c = false := by
  have hfirst := List.head?_dropWhile_not isBlank l
  rw [hc] at hfirst
  exact hfirst

/-- The function trims as the relation says. -/
theorem trimmed_trimChars (l : List Char) : Trimmed l (trimChars l) where
  cut := by
    have hback : dropBlanks l = trimChars l ++ (dropBlanks l).rtakeWhile isBlank :=
      (List.rdropWhile_append_rtakeWhile ..).symm
    refine ⟨l.takeWhile isBlank, (dropBlanks l).rtakeWhile isBlank, ?_, ?_, ?_⟩
    · rw [← hback]
      exact List.takeWhile_append_dropWhile.symm
    · exact fun c hc => List.mem_takeWhile_imp hc
    · exact fun c hc => List.mem_rtakeWhile_imp hc
  first := by
    intro c hc
    -- The line begins the same before the blanks at its end are taken away.
    obtain ⟨back, hprefix⟩ : trimChars l <+: dropBlanks l := List.rdropWhile_prefix ..
    apply isBlank_of_head?_dropWhile (l := l)
    show (dropBlanks l).head? = some c
    rw [← hprefix, List.head?_append, hc]
    rfl
  last := by
    intro c hc
    rw [trimChars, dropEndBlanks, List.getLast?_reverse] at hc
    exact isBlank_of_head?_dropWhile hc

theorem Trimmed.subset {l t : List Char} (h : Trimmed l t) : t ⊆ l := by
  obtain ⟨front, back, rfl, -, -⟩ := h.cut
  intro c hc
  simp [hc]

/-- A trimmed text is not trimmed further. -/
theorem Trimmed.trimChars_eq {l t : List Char} (h : Trimmed l t) : trimChars t = t :=
  trimChars_eq_self h.first h.last

/-- The trimmed line begins with the first character of the line that is not blank. -/
theorem Trimmed.find?_eq {l t : List Char} (h : Trimmed l t) :
    l.find? (fun c => !isBlank c) = t.head? := by
  obtain ⟨front, back, rfl, hfront, hback⟩ := h.cut
  have hskip : front.find? (fun c => !isBlank c) = none := by simpa using hfront
  rw [List.find?_append, hskip, Option.none_or]
  cases ht : t with
  | nil => simpa using hback
  | cons c t =>
      have hc : isBlank c = false := h.first c (by simp [ht])
      simp [hc]

end MacroReplay.Text
