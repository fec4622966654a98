import MacroReplay.Proofs.Command.Quoting
import MacroReplay.Proofs.Text.Trimming

/-!
# The lines of a text

* `LinesOf` — the lines of a text, each with its end: a line feed, a carriage return and a line feed, or
  the end of the text;
* `linesOf_lines` — these are the lines that a text is read by;
* `lines_intercalate` — lines that are put together again are the lines of what they make up.
-/

namespace MacroReplay
namespace Text

/-! ## Line ends -/

/-- `LinesOf cs ls` means that the lines of `cs` are `ls`. A text that ends with a line feed has no line
behind it. -/
inductive LinesOf : List Char → List (List Char) → Prop where
  | nil : LinesOf [] []
  | last {l : List Char} : l ≠ [] → '\n' ∉ l → LinesOf l [l]
  | feed {l rest : List Char} {ls : List (List Char)} :
      '\n' ∉ l → l.getLast? ≠ some '\r' → LinesOf rest ls → LinesOf (l ++ '\n' :: rest) (l :: ls)
  | returnFeed {l rest : List Char} {ls : List (List Char)} :
      '\n' ∉ l → LinesOf rest ls → LinesOf (l ++ '\r' :: '\n' :: rest) (l :: ls)

/-- A line feed ends a line, with a carriage return before it if there is one. -/
theorem lines_append_feed {l : List Char} (hl : '\n' ∉ l) (rest : List Char) :
    lines (l ++ '\n' :: rest) = stripReturn l :: lines rest := by
  have hparts : splitAt (· == '\n') (l ++ '\n' :: rest) = l :: splitAt (· == '\n') rest := by
    refine splitAt_first ?_ (by simp) rest
    intro c hc
    rw [beq_eq_false_iff_ne]
    rintro rfl
    exact hl hc
  -- What stands behind the line feed has a last part of its own.
  obtain ⟨part, parts, hrest⟩ := List.exists_cons_of_ne_nil (splitAt_ne_nil (· == '\n') rest)
  simp only [lines, hparts, hrest, List.dropLast_cons_cons, List.map_cons, List.getLast?_cons_cons]
  split
  · rfl
  · rfl
  · rfl

theorem stripReturn_concat (l : List Char) : stripReturn (l ++ ['\r']) = l := by
  simp [stripReturn]

theorem stripReturn_of_ne {l : List Char} (hl : l.getLast? ≠ some '\r') : stripReturn l = l := by
  simp [stripReturn, hl]

/-- A text is read by its lines. -/
theorem linesOf_lines (cs : List Char) : LinesOf cs (lines cs) := by
  by_cases hfeed : '\n' ∈ cs
  · obtain ⟨l, rest, hcs, hl⟩ := List.eq_append_cons_of_mem hfeed
    have hrest : LinesOf rest (lines rest) := linesOf_lines rest
    rw [hcs, lines_append_feed hl]
    by_cases hreturn : l.getLast? = some '\r'
    · obtain ⟨front, rfl⟩ := List.getLast?_eq_some_iff.1 hreturn
      have hfront : '\n' ∉ front := fun hmem => hl (by simp [hmem])
      rw [stripReturn_concat, List.append_assoc]
      exact .returnFeed hfront hrest
    · rw [stripReturn_of_ne hreturn]
      exact .feed hl hreturn hrest
  · by_cases hnil : cs = []
    · subst hnil
      exact .nil
    · rw [lines_of_single hnil hfeed]
      exact .last hnil hfeed
termination_by cs.length
decreasing_by
  rw [hcs, List.length_append, List.length_cons]
  omega

/-- No line holds a line feed. -/
theorem LinesOf.feed_notMem {cs : List Char} {ls : List (List Char)} (h : LinesOf cs ls) :
    ∀ l ∈ ls, '\n' ∉ l := by
  induction h with
  | nil => simp
  | last _ hfeed => simpa using hfeed
  | feed hfeed _ _ ih => simpa using ⟨hfeed, ih⟩
  | returnFeed hfeed _ ih => simpa using ⟨hfeed, ih⟩

/-- Lines that a text can be read by are read again from the text that they make up. -/
theorem lines_intercalate {ls : List (List Char)}
    (hls : ∀ l ∈ ls, l ≠ [] ∧ '\n' ∉ l ∧ l.getLast? ≠ some '\r') :
    lines (['\n'].intercalate ls) = ls := by
  induction ls with
  | nil => rfl
  | cons l ls ih =>
      obtain ⟨hne, hfeed, hreturn⟩ := hls l (by simp)
      cases ls with
      | nil =>
          rw [List.intercalate_singleton]
          exact lines_of_single hne hfeed
      | cons l' ls =>
          have hbehind : lines (['\n'].intercalate (l' :: ls)) = l' :: ls :=
            ih fun x hx => hls x (by simp [hx])
          rw [List.intercalate_cons_cons, List.append_assoc, List.singleton_append,
            lines_append_feed hfeed, stripReturn_of_ne hreturn, hbehind]

end Text
end MacroReplay
