import Mathlib.Data.Bool.AllAny
import Mathlib.Data.List.Infix
import MacroReplay.Text.Split

/-!
# What a replacement leaves

The occurrences of a text in another are found from the left and replaced one by one. What was put in is
not looked at again, and what stands between two occurrences is left as it is.

* `Replaced` — the occurrences and what stands between them, as a relation;
* `absent_replace` — the replaced text does not occur any more;
* `infix_before_replace` — a text that has nothing of what is put in is not made by replacing.
-/

namespace MacroReplay
namespace Text

variable {old new cs out : List Char}

/-! ## Occurrences -/

/-- A text that has no character of a front stands behind it. -/
theorem infix_behind_foreign {front part rest : List Char} (hforeign : ∀ c ∈ front, c ∉ part)
    (hpart : part <:+: front ++ rest) : part <:+: rest := by
  induction front with
  | nil => exact hpart
  | cons c front ih =>
      rcases List.infix_cons_iff.1 hpart with hbegins | hbehind
      · rcases List.prefix_cons_iff.1 hbegins with rfl | ⟨tail, rfl, -⟩
        · exact List.nil_infix
        · exact absurd List.mem_cons_self (hforeign c List.mem_cons_self)
      · exact ih (fun d hd => hforeign d (by simp [hd])) hbehind

/-- A part that has none of the characters at the end of a text stands before them. -/
theorem infix_before_foreign {front part back : List Char} (hforeign : ∀ c ∈ back, c ∉ part)
    (hpart : part <:+: front ++ back) : part <:+: front := by
  rw [← List.reverse_infix, List.reverse_append] at hpart
  rw [← List.reverse_infix]
  exact infix_behind_foreign (by simpa using hforeign) hpart

/-! ## Replacements -/

/-- An occurrence at the front is replaced, and the next one is looked for behind it. -/
theorem replaceChars_append (hold : old ≠ []) (new rest : List Char) :
    replaceChars old new (old ++ rest) = new ++ replaceChars old new rest := by
  obtain ⟨c, tail, rfl⟩ := List.exists_cons_of_ne_nil hold
  have hfront : (c :: tail).isPrefixOf (c :: (tail ++ rest)) = true :=
    List.isPrefixOf_iff_prefix.2 ⟨rest, rfl⟩
  rw [List.cons_append, replaceChars]
  simp [hfront]

/-- Where the old text does not stand, a character is kept. -/
theorem replaceChars_cons {c : Char} (hfront : ¬old <+: c :: cs) (new : List Char) :
    replaceChars old new (c :: cs) = c :: replaceChars old new cs := by
  rw [← List.isPrefixOf_iff_prefix, Bool.not_eq_true] at hfront
  rw [replaceChars]
  simp [hfront]

/-- `Replaced old new cs out` means that `out` is `cs` with every `old` replaced by `new`. -/
inductive Replaced (old new : List Char) : List Char → List Char → Prop where
  | nil : Replaced old new [] []
  | put {rest out : List Char} : Replaced old new rest out → Replaced old new (old ++ rest) (new ++ out)
  | keep {c : Char} {cs out : List Char} : ¬old <+: c :: cs → Replaced old new cs out →
      Replaced old new (c :: cs) (c :: out)

/-- The function replaces as the relation says. -/
theorem replaced_replaceChars (hold : old ≠ []) (new cs : List Char) :
    Replaced old new cs (replaceChars old new cs) := by
  by_cases hfront : old <+: cs
  · obtain ⟨rest, hrest⟩ := hfront
    rw [← hrest, replaceChars_append hold]
    exact .put (replaced_replaceChars hold new rest)
  · cases cs with
    | nil =>
        rw [replaceChars]
        exact .nil
    | cons c cs =>
        rw [replaceChars_cons hfront]
        exact .keep hfront (replaced_replaceChars hold new cs)
termination_by cs.length
decreasing_by
  · have hpos : 0 < old.length := List.length_pos_iff.2 hold
    rw [← hrest, List.length_append]
    omega
  · simp

namespace Replaced

/-- A text that does not have the old part is left as it is. -/
theorem eq_of_absent (h : Replaced old new cs out) (hnone : ¬old <:+: cs) : out = cs := by
  induction h with
  | nil => rfl
  | put => exact absurd (List.prefix_append _ _).isInfix hnone
  | keep _ _ ih => rw [ih fun hoccurs => hnone (List.infix_cons_iff.2 (.inr hoccurs))]

section Foreign

variable {part : List Char} (hnew : new ≠ []) (hforeign : ∀ c ∈ new, c ∉ part)
include hnew hforeign

/-- A front of the result that has no character of what was put in is a front of the text. -/
theorem prefix_before (h : Replaced old new cs out) (hpart : part <+: out) : part <+: cs := by
  obtain ⟨n, new, rfl⟩ := List.exists_cons_of_ne_nil hnew
  induction h generalizing part with
  | nil => exact hpart
  | put =>
      rcases List.prefix_cons_iff.1 hpart with rfl | ⟨tail, rfl, -⟩
      · exact List.nil_prefix
      · exact absurd List.mem_cons_self (hforeign n List.mem_cons_self)
  | keep _ _ ih =>
      rcases List.prefix_cons_iff.1 hpart with rfl | ⟨tail, rfl, htail⟩
      · exact List.nil_prefix
      · exact (List.prefix_cons_inj _).2 (ih htail fun c hc hmem => hforeign c hc (by simp [hmem]))

/-- What stands in the text afterwards, and shares no character with the new part, stood in
it before. -/
theorem infix_before (h : Replaced old new cs out) (hpart : part <:+: out) : part <:+: cs := by
  induction h with
  | nil => exact hpart
  | put _ ih => exact (ih (infix_behind_foreign hforeign hpart)).trans (List.suffix_append _ _).isInfix
  | keep hold hrest ih =>
      rcases List.infix_cons_iff.1 hpart with hfront | hbehind
      · exact ((hrest.keep hold).prefix_before hnew hforeign hfront).isInfix
      · exact List.infix_cons_iff.2 (.inr (ih hbehind))

end Foreign

/-- No occurrence is left where the text that is put in has nothing of it. -/
theorem absent (h : Replaced old new cs out) (hold : old ≠ []) (hnew : new ≠ [])
    (hforeign : ∀ c ∈ new, c ∉ old) : ¬old <:+: out := by
  induction h with
  | nil => simpa using hold
  | put _ ih => exact fun hpart => ih (infix_behind_foreign hforeign hpart)
  | keep hfront hrest ih =>
      intro hpart
      rcases List.infix_cons_iff.1 hpart with hbegins | hbehind
      · exact hfront ((hrest.keep hfront).prefix_before hnew hforeign hbegins)
      · exact ih hbehind

end Replaced

/-! ## Texts -/

section Texts

variable {old new text : String}

theorem replaced_replace (hold : old.toList ≠ []) (new text : String) :
    Replaced old.toList new.toList text.toList (replace old new text).toList := by
  rw [replace, String.toList_ofList]
  exact replaced_replaceChars hold _ _

theorem replace_of_absent (hold : old.toList ≠ []) (hnone : ¬old.toList <:+: text.toList) :
    replace old new text = text :=
  String.toList_injective ((replaced_replace hold new text).eq_of_absent hnone)

/-- A new part without characters of the old one leaves no old part behind. -/
theorem absent_replace (hold : old.toList ≠ []) (hnew : new.toList ≠ [])
    (hforeign : new.toList.all (· ∉ old.toList)) : ¬old.toList <:+: (replace old new text).toList :=
  (replaced_replace hold new text).absent hold hnew (List.all_iff_forall_prop.1 hforeign)

/-- A part that shares no character with the new text was there before. -/
theorem infix_before_replace {part : String} (hold : old.toList ≠ []) (hnew : new.toList ≠ [])
    (hforeign : new.toList.all (· ∉ part.toList))
    (hpart : part.toList <:+: (replace old new text).toList) : part.toList <:+: text.toList :=
  (replaced_replace hold new text).infix_before hnew (List.all_iff_forall_prop.1 hforeign) hpart

end Texts
end Text
end MacroReplay
