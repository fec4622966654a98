import MacroReplay.Expression.Grammar
import MacroReplay.Proofs.Command.Layout
import MacroReplay.Proofs.Text.Replacement

/-!
# Expressions between quotes

An expression is written as `EVAL(…)` with quotes around it. A backslash stands before each quote of the
same kind inside.

* `guarded` — an expression with these backslashes;
* `argument?_invoked` — the expression is read back from what was written, whatever it is;
* `isToken_invoked`, `cutAtEquals_invoked` — on a line it is one token, and no `=` in it makes a key.
-/

namespace MacroReplay
namespace Expression

variable {quote : Char} {e : List Char}

/-- An expression with a backslash before each quote. -/
def guarded (quote : Char) (e : List Char) : List Char :=
  e.flatMap fun c => if c = quote then ['\\', c] else [c]

theorem guarded_cons_self (quote : Char) (e : List Char) :
    guarded quote (quote :: e) = ['\\', quote] ++ guarded quote e := by
  simp [guarded]

theorem guarded_cons {c : Char} (hc : c ≠ quote) (e : List Char) :
    guarded quote (c :: e) = c :: guarded quote e := by
  simp [guarded, hc]

/-! ## Reading back -/

/-- No quote stands at the front of a guarded text without its backslash. -/
theorem head?_guarded (hquote : quote ≠ '\\') (e : List Char) :
    (guarded quote e).head? ≠ some quote := by
  cases e with
  | nil => simp [guarded]
  | cons c e =>
      by_cases hc : c = quote
      · rw [hc, guarded_cons_self]
        simpa using hquote.symm
      · rw [guarded_cons hc]
        simpa using hc

/-- Taking the backslashes off again gives the expression. -/
theorem replaceChars_guarded (hquote : quote ≠ '\\') (e : List Char) :
    Text.replaceChars ['\\', quote] [quote] (guarded quote e) = e := by
  induction e with
  | nil => simp [guarded, Text.replaceChars]
  | cons c e ih =>
      by_cases hc : c = quote
      · rw [hc, guarded_cons_self, Text.replaceChars_append (by simp), ih]
        rfl
      · -- A backslash of the expression itself is not followed by a bare quote.
        have hfront : ¬['\\', quote] <+: c :: guarded quote e := by
          intro hprefix
          obtain ⟨rest, hrest⟩ := (List.cons_prefix_cons.1 hprefix).2
          exact head?_guarded hquote e (by simp [← hrest])
        rw [guarded_cons hc, Text.replaceChars_cons hfront, ih]

def invoked (quote : Char) (e : String) : String :=
  "EVAL(" ++ String.ofList (quote :: (guarded quote e.toList ++ [quote])) ++ ")"

/-- The call written out, character by character. -/
theorem toList_invoked (quote : Char) (e : String) :
    (invoked quote e).toList =
      "EVAL(".toList ++ ((quote :: (guarded quote e.toList ++ [quote])) ++ [')']) := by
  simp [invoked]

/-- A text between two visible characters is not trimmed. -/
theorem trimChars_between {first last : Char} (hfirst : Text.isBlank first = false)
    (hlast : Text.isBlank last = false) (body : List Char) :
    Text.trimChars (first :: (body ++ [last])) = first :: (body ++ [last]) := by
  refine Text.trimChars_eq_self ?_ ?_
  · intro c hc
    cases hc
    exact hfirst
  · intro c hc
    rw [← List.cons_append, List.getLast?_concat] at hc
    cases hc
    exact hlast

/-- Whatever an expression is, it is read back from `EVAL(…)` as it was written. -/
theorem argument?_invoked (hquote : quote = '"' ∨ quote = '\x27') (e : String) :
    argument? (invoked quote e) = some e := by
  have hvisible : Text.isBlank quote = false := by rcases hquote with rfl | rfl <;> decide
  have hslash : quote ≠ '\\' := by rcases hquote with rfl | rfl <;> decide
  -- Blanks of the expression stand inside the quotes, so neither of the two trims takes any.
  have houter : Text.trimChars (invoked quote e).toList = (invoked quote e).toList := by
    rw [toList_invoked, ← List.append_assoc]
    exact trimChars_between (by decide) (by decide) _
  have hinner := trimChars_between hvisible hvisible (guarded quote e.toList)
  have hdrop : ((invoked quote e).toList.drop 5).dropLast =
      quote :: (guarded quote e.toList ++ [quote]) := by
    rw [toList_invoked]
    exact List.dropLast_concat
  have hfront : ((invoked quote e).toList.take 5).map Char.toUpper = "EVAL(".toList := by
    rw [toList_invoked]
    rfl
  have hend : (invoked quote e).toList.getLast? = some ')' := by
    rw [toList_invoked, ← List.append_assoc, List.getLast?_concat]
  simp only [argument?, houter, hfront, hend, hdrop, hinner, List.getLast?_concat, hquote,
    List.dropLast_concat, replaceChars_guarded hslash, String.ofList_toList, and_self, if_true]

/-! ## On a line -/

/-- Guarding an expression puts a backslash and a quote in the place of each quote. -/
theorem replaced_guarded (quote : Char) (e : List Char) :
    Text.Replaced [quote] ['\\', quote] e (guarded quote e) := by
  induction e with
  | nil => exact .nil
  | cons c e ih =>
      by_cases hc : c = quote
      · rw [hc, guarded_cons_self]
        exact .put ih
      · rw [guarded_cons hc]
        exact .keep (by simpa using fun h => hc h.symm) ih

/-- An expression without backslashes can stand between double quotes of a line. -/
theorem quotable_guarded (hslash : '\\' ∉ e) : Quotable (guarded '"' e) := by
  induction e with
  | nil => exact .nil
  | cons c e ih =>
      have htail : Quotable (guarded '"' e) := ih fun h => hslash (by simp [h])
      by_cases hc : c = '"'
      · rw [hc, guarded_cons_self]
        exact .escape htail
      · have hbackslash : c ≠ '\\' := fun h => hslash (by simp [h])
        rw [guarded_cons hc]
        exact .plain hc hbackslash htail

section Invoked

variable {e : String}

/-- The call is one token of a command line, blanks and all. -/
theorem isToken_invoked (hslash : '\\' ∉ e.toList) : IsToken (invoked '"' e).toList := by
  rw [toList_invoked]
  refine (isToken_of_isBare (by simp) (by decide)).append ?_
  exact (isToken_of_quotable (quotable_guarded hslash)).append
    (isToken_of_isBare (by simp) (by decide))

theorem toList_invoked_double (e : String) :
    (invoked '"' e).toList = "EVAL(\"".toList ++ (guarded '"' e.toList ++ "\")".toList) := by
  simp [toList_invoked]

/-- No equals sign of the expression is taken for that of a key. -/
theorem cutAtEquals_invoked (hslash : '\\' ∉ e.toList) :
    cutAtEquals .outside (invoked '"' e).toList = none := by
  have hbody : Quotable (guarded '"' e.toList) := quotable_guarded hslash
  have hfront : cutAtEquals .outside "EVAL(\"".toList = none := by decide
  have hinside : Quoting.outside.behind "EVAL(\"".toList = .inside := by decide
  rw [toList_invoked_double, cutAtEquals_append hfront, hinside,
    cutAtEquals_append (cutAtEquals_of_quotable hbody), Quoting.behind_of_quotable hbody]
  rfl

/-- The quotes do not stand around the whole token, so they are not taken off with it. -/
theorem unquote_invoked (e : String) : unquote (invoked '"' e) = invoked '"' e := by
  have hbare : unquoteChars (invoked '"' e).toList = (invoked '"' e).toList := by
    rw [toList_invoked]
    rfl
  rw [unquote, hbare, String.ofList_toList]

/-- A text that has no character of those written around and into an expression stands in it. -/
theorem infix_before_invoked {part : List Char} (hforeign : "EVAL(\"\\)".toList.all (· ∉ part))
    (hpart : part <:+: (invoked '"' e).toList) : part <:+: e.toList := by
  have hapart : ∀ marks, marks ⊆ "EVAL(\"\\)".toList → ∀ c ∈ marks, c ∉ part :=
    fun _ hmarks c hc => List.all_iff_forall_prop.1 hforeign c (hmarks hc)
  rw [toList_invoked_double] at hpart
  have hbody : part <:+: guarded '"' e.toList := by
    refine Text.infix_before_foreign ?_ (Text.infix_behind_foreign ?_ hpart)
    · exact hapart _ (by decide)
    · exact hapart _ (by decide)
  refine (replaced_guarded '"' e.toList).infix_before (by simp) ?_ hbody
  exact hapart _ (by decide)

end Invoked
end Expression
end MacroReplay
