import MacroReplay.Proofs.Expression.Parsing
import MacroReplay.Proofs.Expression.Scanning
import MacroReplay.Proofs.Number.Rendering
import MacroReplay.Proofs.Variable.Placeholder

/-!
# Results as expressions

The text of a finite number is an expression and is worth that number. The texts `Infinity`, `-Infinity`
and `NaN` are no expressions: the grammar has no name that is not called.

* `tokenize_body` — digits are one token;
* `evaluate?_render` — what the text of a number is worth;
* `evaluates_rendered_result` — results of expressions, also by way of a variable.
-/

namespace MacroReplay

open Calendar (DateTime)
open Expansion (placeholder)
open Number (Canonical readUnsigned withSign zero)

namespace Expression

open MacroReplay.Expression.Derivation

/-! ## Tokens -/

/-- Digits are one token. -/
theorem tokenize_body {body : List Char} {x : Number} (hbody : body.all Number.isPositional = true)
    (hread : readUnsigned false body = some x) : tokenize body = .ok [.number x] := by
  cases body with
  | nil => nomatch hread
  | cons c cs =>
      have htoken := @tokenize_number c cs [] x hbody hread (by simp)
      rw [List.append_nil, tokenize] at htoken
      exact htoken

/-- A number in positional notation is one token, or two with the sign. -/
theorem tokenize_withSign {body : List Char} {x : Number} (hbody : body.all Number.isPositional = true)
    (hread : readUnsigned false body = some x) (negative : Bool) :
    tokenize (withSign negative (String.ofList body)).toList =
      .ok (if negative then [.operator .minus, .number x] else [.number x]) := by
  cases negative with
  | false =>
      have hlist : (withSign false (String.ofList body)).toList = body := String.toList_ofList
      rw [hlist, tokenize_body hbody hread]
      rfl
  | true =>
      have hlist : (withSign true (String.ofList body)).toList = '-' :: body := by simp [withSign]
      rw [hlist, tokenize_single rfl (by decide), tokenize_body hbody hread]
      rfl

/-! ## Values -/

/-- A number alone is worth itself. -/
theorem parse_number (arith : Arithmetic) (x : Number) :
    (parse [.number x]).map (Tree.value arith) = .ok (.number x) :=
  parse_tokens arith (d := .of (.of (.plain (.number x)) .none) .none) (show 1 ≤ 256 by decide)

/-- Behind a minus sign it is worth its opposite. -/
theorem parse_negative (arith : Arithmetic) (x : Number) :
    (parse [.operator .minus, .number x]).map (Tree.value arith) = .ok (.number x.neg) :=
  parse_tokens arith (d := .of (.of (.signed .minus (.plain (.number x))) .none) .none)
    (show 2 ≤ 256 by decide)

/-- A signed number in positional notation evaluates to the number. -/
theorem evaluate?_withSign {body : List Char} {x : Number} (hbody : body.all Number.isPositional = true)
    (hread : readUnsigned false body = some x) (negative : Bool) :
    evaluate? (withSign negative (String.ofList body)) =
      .ok (.number (if negative then x.neg else x)) := by
  rw [evaluate?, evaluateWith?, tokenize_withSign hbody hread]
  cases negative with
  | false => exact parse_number _ x
  | true => exact parse_negative _ x

/-- What the text of a number is worth. -/
theorem evaluate?_render (x : Number) :
    evaluate? x.render =
      if x.isFinite then .ok (.number x.unsignedZero) else .error .unexpectedEnd := by
  cases x with
  | nan => decide +kernel
  | infinite negative => cases negative <;> decide +kernel
  | finite negative m e h =>
      by_cases hm : m = 0
      · subst hm
        rw [Number.eq_zero_of_canonical, Number.render_zero]
        cases negative <;> decide +kernel
      · obtain ⟨body, hrender, hbody, hread⟩ := Number.exists_body negative h hm
        have hnonzero : Number.finite negative m e h ≠ zero true := by
          intro hzero
          cases hzero
          exact hm rfl
        rw [hrender, evaluate?_withSign hbody (hread false), Number.unsignedZero_of_ne hnonzero]
        cases negative <;> rfl

/-! ## Results -/

/-- **Finite results are read back.** The text of a finite result is an expression that is worth the
same number, where a zero comes back without its sign. The text of a result that is not finite is no
expression. A variable that holds the result hands on that text. -/
theorem evaluates_rendered_result {e : String} {x : Number} (he : evaluate? e = .ok (.number x)) :
    (x.isFinite = true → evaluate? x.render = .ok (.number x.unsignedZero)) ∧
      (x.isFinite = true → x ≠ zero true → evaluate? x.render = evaluate? e) ∧
      (x.isFinite = false → evaluate? x.render = .error .unexpectedEnd) ∧
      ∀ (s : Store) (now : DateTime) (name : String), Store.has name = true →
        s.get now name = some (.number x) →
        evaluate? (s.expand now (placeholder name)) = evaluate? x.render := by
  have hworth := evaluate?_render x
  refine ⟨fun hfinite => ?_, fun hfinite hzero => ?_, fun hinfinite => ?_, ?_⟩
  · rw [hworth, if_pos hfinite]
  · rw [hworth, if_pos hfinite, Number.unsignedZero_of_ne hzero, he]
  · rw [hworth, hinfinite]
    rfl
  · intro s now name hname hheld
    rw [Store.expand_variable hname, Store.getText, hheld]
    rfl

/-- Minus one third comes back as it was written; a quotient by zero does not. -/
theorem evaluates_rendered_result_third :
    let third : Number := .finite true 6004799503160661 (-54) (by decide)
    let s : Store := ⟨[("!VAR1", .number third)], [], false⟩
    let now : DateTime := ⟨2026, 1, 2, 3, 4, 5⟩
    (evaluate? "-1 / 3" = .ok (.number third) ∧ third.render = "-0.3333333333333333" ∧
      evaluate? "-0.3333333333333333" = evaluate? "-1 / 3" ∧
      evaluate? (s.expand now "\x7b\x7b!Var1\x7d\x7d") = .ok (.number third)) ∧
      (evaluate? "-1 / 0" = .ok (.number (.infinite true)) ∧
        evaluate? "-Infinity" = .error .unexpectedEnd) := by
  intro third s now
  have hthird : evaluate? "-1 / 3" = .ok (.number third) := by decide +kernel
  have hrender : third.render = "-0.3333333333333333" := by decide +kernel
  have hinfinite : evaluate? "-1 / 0" = .ok (.number (.infinite true)) := by decide +kernel
  obtain ⟨hback, hsame, -, hheld⟩ := evaluates_rendered_result hthird
  have hexpand : evaluate? (s.expand now "\x7b\x7b!Var1\x7d\x7d") = evaluate? third.render :=
    hheld s now "!Var1" (by decide +kernel) (by decide +kernel)
  have hagain := hsame rfl (by decide)
  rw [hback rfl] at hexpand
  rw [hrender] at hagain
  exact ⟨⟨hthird, hrender, hagain, hexpand⟩, hinfinite,
    (evaluates_rendered_result hinfinite).2.2.1 rfl⟩

/-- The quotient by zero is a number whose text is no expression. -/
theorem infinite_result_unread :
    ∃ (e : String) (x : Number), evaluate? e = .ok (.number x) ∧
      ¬∃ y, evaluate? x.render = .ok (.number y) := by
  refine ⟨"1 / 0", .infinite false, by decide +kernel, ?_⟩
  rintro ⟨y, hy⟩
  have hworth : evaluate? (Number.render (.infinite false)) = .error .unexpectedEnd := by decide +kernel
  rw [hworth] at hy
  nomatch hy

end Expression
end MacroReplay
