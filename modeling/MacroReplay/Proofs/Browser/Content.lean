import MacroReplay.Browser.Tag
import MacroReplay.Proofs.Handler.Assign

/-!
# What is filled in and what is assigned

`TAG` with `CONTENT=` and `SET` both compute `EVAL(…)`, and both put spaces and line breaks in the place
of marks. `SET` leaves the value of an expression as it is; `TAG` looks for marks in it too.

* `Browser.resolved_eq_self_iff` — the texts that `TAG` leaves as they are;
* `Browser.unescape_eq_resolved` — the texts of which the two commands make the same;
* `Browser.content_beside_assigned` — what is filled in beside what the variable holds.
-/

namespace MacroReplay
namespace Browser

open Variable (user)

/-! ## Marks -/

/-- A text with a space for each `<SP>` and a line break for each `<BR>`. -/
def resolved (text : String) : String :=
  Text.replace "<BR>" "\n" (Text.replace "<SP>" " " text)

/-- What a `CONTENT=` stands for is its value as text with the marks resolved, whether the value is
computed or not. -/
theorem contentText_eq (written : String) :
    contentText written = resolved (argumentValue written).render :=
  rfl

/-- No mark is left behind, not even one that the replacement of another could have made. -/
theorem absent_resolved (text : String) :
    ∀ mark ∈ ["<SP>", "<BR>"], ¬mark.toList <:+: (resolved text).toList := by
  have hspace : ¬"<SP>".toList <:+: (resolved text).toList := by
    intro hpart
    -- A line break is no part of the mark, so it would have been there before.
    have hbefore := Text.infix_before_replace (by decide) (by decide) (by decide) hpart
    exact Text.absent_replace (by decide) (by decide) (by decide) hbefore
  have hbreak : ¬"<BR>".toList <:+: (resolved text).toList :=
    Text.absent_replace (by decide) (by decide) (by decide)
  simpa using ⟨hspace, hbreak⟩

/-- A text without marks stays as it is, and no other does. -/
theorem resolved_eq_self_iff (text : String) :
    resolved text = text ↔ ∀ mark ∈ ["<SP>", "<BR>"], ¬mark.toList <:+: text.toList := by
  constructor
  · intro hsame
    have hnone := absent_resolved text
    rwa [hsame] at hnone
  · intro hnone
    rw [resolved, Text.replace_of_absent (by decide) (hnone "<SP>" (by simp)),
      Text.replace_of_absent (by decide) (hnone "<BR>" (by simp))]

/-- Where no mark is in lower case, `SET` replaces the same. -/
theorem unescape_eq_resolved {text : String}
    (hlower : ∀ mark ∈ ["<sp>", "<br>"], ¬mark.toList <:+: text.toList) :
    Assign.unescape text = resolved text := by
  have hspace : ¬"<sp>".toList <:+: (Text.replace "<SP>" " " text).toList := fun hpart =>
    hlower "<sp>" (by simp) (Text.infix_before_replace (by decide) (by decide) (by decide) hpart)
  have hbreak : ¬"<br>".toList <:+: (resolved text).toList := by
    intro hpart
    have hbefore := Text.infix_before_replace (by decide) (by decide) (by decide) hpart
    exact hlower "<br>" (by simp)
      (Text.infix_before_replace (by decide) (by decide) (by decide) hbefore)
  rw [Assign.unescape, Text.replace_of_absent (by decide) hspace]
  exact Text.replace_of_absent (by decide) hbreak

/-! ## Values -/

/-- The marks in a computed text are resolved too. -/
theorem contentText_of_argument {text inner : String}
    (hargument : Expression.argument? text = some inner) :
    contentText text = resolved (Expression.evaluate inner).render := by
  simp only [contentText_eq, argumentValue, hargument]

/-- A text that is not computed has its marks resolved. -/
theorem contentText_of_plain {text : String} (hargument : Expression.argument? text = none) :
    contentText text = resolved text := by
  simp only [contentText_eq, argumentValue, hargument]
  rfl

/-- What `TAG` fills in beside what the variable holds after `SET`. Of an expression the variable holds
the value, and it is filled in with its marks replaced, so they are the same exactly if it has none. Any
other text is filled in as the variable holds it. -/
theorem content_beside_assigned {text : String} {assignment lookup : Invocation} {i : Fin 10}
    (hname : assignment.arg? 0 = some (user i)) (hvalue : assignment.arg? 1 = some text)
    (hcontent : lookup.param? "CONTENT" = some text) (hextract : lookup.param? "EXTRACT" = none)
    (s : Store) :
    ∃ after v filled, Assign.set s assignment = .ok after ∧ (∀ now, after.get now (user i) = some v) ∧
      tagAction lookup = .ok (.fill filled) ∧
      (∀ inner, Expression.argument? text = some inner →
        v = Expression.evaluate inner ∧ filled = resolved v.render ∧
          (filled = v.render ↔ ∀ mark ∈ ["<SP>", "<BR>"], ¬mark.toList <:+: v.render.toList)) ∧
      (Expression.argument? text = none →
        (∀ mark ∈ ["<sp>", "<br>"], ¬mark.toList <:+: text.toList) →
        filled = resolved text ∧ v = .text filled) := by
  have hset : Assign.set s assignment =
      .ok { s with values := s.values.put (user i) (Assign.literalValue text) } := by
    simp only [Assign.set, Assign.operands, hname, hvalue, bind, Except.bind, s.set_user]
  have hgives := Memory.gives_put ⟨s, ()⟩ i (Assign.literalValue text)
  have haction : tagAction lookup = .ok (.fill (contentText text)) := by
    simp only [tagAction, hcontent, hextract]
  refine ⟨_, _, _, hset, fun now => hgives.current now _ (Variable.sameName_iff.2 rfl), haction, ?_, ?_⟩
  · -- Both compute the same value, and `TAG` resolves the marks in its text.
    intro inner hargument
    have hliteral : Assign.literalValue text = Expression.evaluate inner := by
      simp only [Assign.literalValue, hargument]
    rw [hliteral, contentText_of_argument hargument]
    exact ⟨rfl, rfl, resolved_eq_self_iff _⟩
  · -- Both resolve marks, and they differ in lower case only.
    intro hargument hlower
    have hliteral : Assign.literalValue text = .text (Assign.unescape text) := by
      simp only [Assign.literalValue, hargument]
    rw [hliteral, contentText_of_plain hargument, unescape_eq_resolved hlower]
    exact ⟨rfl, rfl⟩

/-- A text with marks, and an expression whose value has one that both commands leave alone. -/
theorem content_beside_assigned_marks :
    let assignment (text : String) : Invocation :=
      ⟨⟨"SET", [], "", 1, none⟩,
        [⟨⟨none, "!VAR1", "!VAR1"⟩, "!VAR1", "!VAR1"⟩, ⟨⟨none, text, text⟩, text, text⟩]⟩
    let lookup (text : String) : Invocation :=
      ⟨⟨"TAG", [], "", 1, none⟩, [⟨⟨some "CONTENT", text, text⟩, text, text⟩]⟩
    (∃ after, Assign.set .initial (assignment "a<SP>b<BR>c") = .ok after ∧
        (∀ now, after.get now "!VAR1" = some (.text "a b\nc")) ∧
        tagAction (lookup "a<SP>b<BR>c") = .ok (.fill "a b\nc")) ∧
      ∃ after, Assign.set .initial (assignment "EVAL(\"\x27a<sp>b\x27\")") = .ok after ∧
        (∀ now, after.get now "!VAR1" = some (.text "a<sp>b")) ∧
        tagAction (lookup "EVAL(\"\x27a<sp>b\x27\")") = .ok (.fill "a<sp>b") := by
  intro assignment lookup
  have hname : ∀ text, (assignment text).arg? 0 = some (user 1) := fun _ => rfl
  have hvalue : ∀ text, (assignment text).arg? 1 = some text := fun _ => rfl
  have hcontent : ∀ text, (lookup text).param? "CONTENT" = some text := fun _ => rfl
  constructor
  · obtain ⟨after, v, filled, hset, hheld, haction, -, hplain⟩ :=
      content_beside_assigned (hname "a<SP>b<BR>c") (hvalue _) (hcontent _) rfl .initial
    obtain ⟨hfilled, hv⟩ := hplain (by decide +kernel) (by decide)
    have hresolved : resolved "a<SP>b<BR>c" = "a b\nc" := by decide +kernel
    rw [hresolved] at hfilled
    subst hfilled hv
    exact ⟨after, hset, hheld, haction⟩
  · obtain ⟨after, v, filled, hset, hheld, haction, hexpression, -⟩ :=
      content_beside_assigned (hname "EVAL(\"\x27a<sp>b\x27\")") (hvalue _) (hcontent _) rfl .initial
    obtain ⟨hv, -, hsame⟩ := hexpression "\x27a<sp>b\x27" (by decide +kernel)
    have hevaluated : Expression.evaluate "\x27a<sp>b\x27" = .text "a<sp>b" := by decide +kernel
    rw [hevaluated] at hv
    subst hv
    rw [hsame.2 (by decide)] at haction
    exact ⟨after, hset, hheld, haction⟩

/-- A mark that an expression gives, and one in lower case: each is replaced by one of the
two commands. -/
theorem content_differs_from_assigned :
    contentText "EVAL(\"\x27a<SP>b\x27\")" = "a b" ∧
      (Assign.literalValue "EVAL(\"\x27a<SP>b\x27\")").render = "a<SP>b" ∧
      contentText "a<sp>b" = "a<sp>b" ∧ (Assign.literalValue "a<sp>b").render = "a b" := by
  decide +kernel

end Browser
end MacroReplay
