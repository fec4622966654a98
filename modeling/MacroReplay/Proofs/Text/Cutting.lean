import Mathlib.Data.List.Infix
import MacroReplay.Text.Split

/-!
# Cutting and joining

* `cutAt_append`, `cutAt_of_notMem` — a cut at the first occurrence of a character;
* `splitAt_first`, `splitAt_of_notMem` — the parts between the occurrences of a character;
* `PartsOf` — the parts of a text between the occurrences of `&&`, found from the left;
* `partsOf_iff` — these are the parts that a text is split into;
* `partsOf_intercalate` — parts are read from the text that they make up.
-/

namespace MacroReplay.Text

/-! ## Cutting at the first occurrence of a character -/

/-- A text without the separator is not cut. -/
theorem cutAt_of_notMem {sep : Char} {cs : List Char} (h : sep ∉ cs) :
    cutAt (· == sep) cs = none := by
  induction cs with
  | nil => rfl
  | cons c cs ih =>
      obtain ⟨hc, hcs⟩ := not_or.1 (List.mem_cons.not.1 h)
      have hother : (c == sep) = false := beq_eq_false_iff_ne.2 (Ne.symm hc)
      simp [cutAt, hother, ih hcs]

/-- The text is cut at the first separator. -/
theorem cutAt_append {sep : Char} {before : List Char} (h : sep ∉ before) (after : List Char) :
    cutAt (· == sep) (before ++ sep :: after) = some (before, after) := by
  induction before with
  | nil => simp [cutAt]
  | cons c before ih =>
      obtain ⟨hc, hbefore⟩ := not_or.1 (List.mem_cons.not.1 h)
      have hother : (c == sep) = false := beq_eq_false_iff_ne.2 (Ne.symm hc)
      simp [cutAt, hother, ih hbefore]

/-! ## Splitting at every occurrence of a character -/

/-- There is always a part, if only an empty one. -/
theorem splitAt_ne_nil (p : Char → Bool) (cs : List Char) : splitAt p cs ≠ [] := by
  cases cs with
  | nil => simp [splitAt]
  | cons c cs =>
      unfold splitAt
      split
      · simp
      · split <;> simp

/-- The first part of a text goes up to the first character at which it is cut. -/
theorem splitAt_first {p : Char → Bool} {l : List Char} (hl : ∀ c ∈ l, p c = false) {sep : Char}
    (hsep : p sep = true) (rest : List Char) : splitAt p (l ++ sep :: rest) = l :: splitAt p rest := by
  induction l with
  | nil => simp [splitAt, hsep]
  | cons c l ih =>
      have hc : p c = false := hl c (by simp)
      have htail : splitAt p (l ++ sep :: rest) = l :: splitAt p rest :=
        ih fun d hd => hl d (by simp [hd])
      simp [splitAt, hc, htail]

/-- A text without the separator is its only part. -/
theorem splitAt_of_notMem {sep : Char} {cs : List Char} (h : sep ∉ cs) :
    splitAt (· == sep) cs = [cs] := by
  induction cs with
  | nil => rfl
  | cons c cs ih =>
      obtain ⟨hc, hcs⟩ := not_or.1 (List.mem_cons.not.1 h)
      have hother : (c == sep) = false := beq_eq_false_iff_ne.2 (Ne.symm hc)
      simp [splitAt, hother, ih hcs]

/-! ## Parts between pairs -/

/-- `PartsOf cs parts` means that `parts` stand between the occurrences of `&&` in `cs`, each occurrence
being the first one behind the occurrence before. -/
inductive PartsOf : List Char → List (List Char) → Prop where
  | last {part : List Char} : ¬['&', '&'] <:+: part → PartsOf part [part]
  | cut {part rest : List Char} {parts : List (List Char)} :
      ¬['&', '&'] <:+: part ++ ['&'] → PartsOf rest parts →
      PartsOf (part ++ '&' :: '&' :: rest) (part :: parts)

theorem PartsOf.ne_nil {cs : List Char} {parts : List (List Char)} (h : PartsOf cs parts) :
    parts ≠ [] := by
  cases h <;> simp

theorem pair_infix_cons_of_ne {c : Char} {cs : List Char} (hc : c ≠ '&') :
    ['&', '&'] <:+: c :: cs ↔ ['&', '&'] <:+: cs := by
  rw [List.infix_cons_iff]
  simp [List.cons_prefix_cons, hc.symm]

theorem pair_infix_concat_of_ne {c : Char} {cs : List Char} (hc : c ≠ '&') :
    ['&', '&'] <:+: cs ++ [c] ↔ ['&', '&'] <:+: cs := by
  have hreversed : ['&', '&'].reverse <:+: (cs ++ [c]).reverse ↔ ['&', '&'].reverse <:+: cs.reverse := by
    rw [List.reverse_append]
    exact pair_infix_cons_of_ne hc
  rwa [List.reverse_infix, List.reverse_infix] at hreversed

/-- A pair stands at the front or further on. -/
theorem pair_infix_cons_iff {c d : Char} {cs : List Char} :
    ['&', '&'] <:+: c :: d :: cs ↔ c = '&' ∧ d = '&' ∨ ['&', '&'] <:+: d :: cs := by
  rw [List.infix_cons_iff]
  simp [List.cons_prefix_cons, eq_comm]

/-- A character in front of a text goes to the first part, unless it is half of a pair. -/
theorem PartsOf.cons {c d : Char} {cs part : List Char} {parts : List (List Char)}
    (h : PartsOf (d :: cs) (part :: parts)) (hpair : ¬(c = '&' ∧ d = '&')) :
    PartsOf (c :: d :: cs) ((c :: part) :: parts) := by
  generalize htext : d :: cs = text at h
  cases h with
  | last hnone =>
      subst htext
      exact .last fun hpart => hpair ((pair_infix_cons_iff.1 hpart).resolve_right hnone)
  | @cut _ rest _ hnone hrest =>
      rw [← List.cons_append]
      refine .cut ?_ hrest
      -- The first part begins with `d`, or it is empty and `d` is the first half of the pair.
      have hfront : ∃ tail, part ++ ['&'] = d :: tail := by
        cases part with
        | nil => exact ⟨[], by simp [(List.cons.inj htext).1]⟩
        | cons e part => exact ⟨part ++ ['&'], by simp [(List.cons.inj htext).1]⟩
      obtain ⟨tail, htail⟩ := hfront
      rw [List.cons_append, htail, pair_infix_cons_iff, ← htail]
      exact fun hpart => hpart.elim hpair hnone

theorem splitAtPair_cons {c d : Char} {cs part : List Char} {parts : List (List Char)}
    (hsplit : splitAtPair '&' '&' (d :: cs) = part :: parts) (hpair : ¬(c = '&' ∧ d = '&')) :
    splitAtPair '&' '&' (c :: d :: cs) = (c :: part) :: parts := by
  simp [splitAtPair, hpair, hsplit]

/-- Cutting at the pairs gives the parts. -/
theorem partsOf_splitAtPair (cs : List Char) : PartsOf cs (splitAtPair '&' '&' cs) := by
  fun_induction splitAtPair '&' '&' cs with
  | case1 => exact .last (by simp)
  | case2 c => exact .last fun hpart => absurd hpart.length_le (by simp)
  | case3 c d cs hpair ih =>
      obtain ⟨rfl, rfl⟩ : c = '&' ∧ d = '&' := by simpa using hpair
      have hshort : ¬['&', '&'] <:+: [] ++ ['&'] := fun hpart => absurd hpart.length_le (by simp)
      exact .cut hshort ih
  | case4 c d cs hpair hnil ih =>
      rw [hnil] at ih
      exact absurd rfl ih.ne_nil
  | case5 c d cs hpair part parts hsplit ih =>
      rw [hsplit] at ih
      exact ih.cons (by simpa using hpair)

/-- A text has its parts in one way only. -/
theorem PartsOf.splitAtPair_eq {cs : List Char} {parts : List (List Char)} (h : PartsOf cs parts) :
    splitAtPair '&' '&' cs = parts := by
  induction h with
  | @last part hnone =>
      induction part with
      | nil => rfl
      | cons c part ih =>
          cases part with
          | nil => rfl
          | cons d part =>
              rw [pair_infix_cons_iff, not_or] at hnone
              exact splitAtPair_cons (ih hnone.2) hnone.1
  | @cut part rest parts hnone hrest ih =>
      induction part with
      | nil => simp [splitAtPair, ih]
      | cons c part ihpart =>
          cases part with
          | nil =>
              -- A sign at the end of the part would make a pair with the first sign of the
              -- separator.
              have hc : ¬(c = '&' ∧ '&' = '&') := by
                rw [List.singleton_append, pair_infix_cons_iff, not_or] at hnone
                exact hnone.1
              exact splitAtPair_cons (ihpart (fun hpart => absurd hpart.length_le (by simp))) hc
          | cons d part =>
              rw [List.cons_append, List.cons_append, pair_infix_cons_iff, not_or] at hnone
              exact splitAtPair_cons (ihpart hnone.2) hnone.1

/-- There is only one way to cut a text at its pairs. -/
theorem partsOf_iff {cs : List Char} {parts : List (List Char)} :
    PartsOf cs parts ↔ parts = splitAtPair '&' '&' cs :=
  ⟨fun h => h.splitAtPair_eq.symm, fun h => h ▸ partsOf_splitAtPair cs⟩

/-- Parts without the separator's character are read from the text that they make up. -/
theorem partsOf_intercalate {parts : List (List Char)} (hne : parts ≠ [])
    (hparts : ∀ part ∈ parts, '&' ∉ part) : PartsOf (['&', '&'].intercalate parts) parts := by
  -- A pair needs two of the characters, and each part with one half of a pair has one.
  have hsingle {part : List Char} (hpart : '&' ∉ part) : ¬['&', '&'] <:+: part ++ ['&'] := by
    intro hpair
    have hcount := hpair.sublist.count_le '&'
    simp [List.count_eq_zero_of_not_mem hpart] at hcount
  induction parts with
  | nil => exact absurd rfl hne
  | cons part parts ih =>
      have hpart : '&' ∉ part := hparts part (by simp)
      cases parts with
      | nil =>
          rw [List.intercalate_singleton]
          exact .last fun hpair => hsingle hpart (hpair.trans (List.prefix_append ..).isInfix)
      | cons next parts =>
          rw [List.intercalate_cons_cons, List.append_assoc]
          exact .cut (hsingle hpart) (ih (by simp) fun q hq => hparts q (by simp [hq]))

/-! ## Ends of joined parts -/

/-- Joined parts begin like the first of them. -/
theorem head?_intercalate {sep part : List Char} (parts : List (List Char)) (hpart : part ≠ []) :
    (sep.intercalate (part :: parts)).head? = part.head? := by
  obtain ⟨c, cs, rfl⟩ := List.exists_cons_of_ne_nil hpart
  cases parts with
  | nil => rw [List.intercalate_singleton]
  | cons next parts => simp [List.intercalate_cons_cons]

/-- Joined parts end like the last of them. -/
theorem getLast?_intercalate {sep part : List Char} {parts : List (List Char)}
    (hlast : parts.getLast? = some part) (hpart : part ≠ []) :
    (sep.intercalate parts).getLast? = part.getLast? := by
  obtain ⟨before, rfl⟩ := List.getLast?_eq_some_iff.1 hlast
  clear hlast
  induction before with
  | nil => rw [List.nil_append, List.intercalate_singleton]
  | cons first before ih =>
      obtain ⟨next, behind, hbehind⟩ : ∃ next behind, before ++ [part] = next :: behind :=
        List.exists_cons_of_ne_nil (by simp)
      have hne : (sep.intercalate (before ++ [part])).getLast? ≠ none := by
        rw [ih, Ne, List.getLast?_eq_none_iff]
        exact hpart
      rw [List.cons_append, hbehind, List.intercalate_cons_cons, ← hbehind, List.getLast?_append, ih]
      obtain ⟨c, hc⟩ := Option.ne_none_iff_exists'.1 (ih ▸ hne)
      simp [hc]

end MacroReplay.Text
