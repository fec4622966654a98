import MacroReplay.Proofs.Expression.Parsing
import MacroReplay.Proofs.Expression.Scanning

/-!
# Texts between quotes

A text is written as a literal between single or double quotes, with a backslash before each backslash
and each quote of the same kind. Nothing is lost by that, whatever characters the text has:

* `spanQuoted_escaped` — the scanner takes the backslashes off, and stops at the closing quote;
* `tokenize_literal` — a literal is one token, and what stands behind it is read as if it stood alone;
* `concat_of_literals` — a call of `concat` puts the texts of its literals behind each other.
-/

namespace MacroReplay.Expression

/-! ## Literals -/

inductive Quote where
  | double
  | single
  deriving DecidableEq, Repr

namespace Quote

def char : Quote → Char
  | .double => '"'
  | .single => '\x27'

def escape (q : Quote) (c : Char) : List Char :=
  if c = '\\' ∨ c = q.char then ['\\', c] else [c]

theorem char_ne_backslash (q : Quote) : q.char ≠ '\\' := by
  cases q <;> decide

end Quote

/-- A text with the quotes that it is written between. -/
structure Literal where
  quote : Quote
  text : String
  deriving DecidableEq, Repr

def Literal.written (l : Literal) : String :=
  String.ofList (l.quote.char :: (l.text.toList.flatMap l.quote.escape ++ [l.quote.char]))

/-- A call of `concat` with literals as its arguments. -/
def concatenation (ls : List Literal) : String :=
  "concat(" ++ ",".intercalate (ls.map Literal.written) ++ ")"

example : concatenation [⟨.single, "it\x27s"⟩, ⟨.double, "\\"⟩] =
    "concat(\x27it\\\x27s\x27,\"\\\\\")" := by
  decide

/-! ## Scanning -/

/-- A character that is no backslash closes the text if it is the quote, and else belongs to it. -/
theorem spanQuoted_cons {quote c : Char} (hc : c ≠ '\\') (cs : List Char) :
    spanQuoted quote (c :: cs) =
      if c == quote then some ([], cs) else (spanQuoted quote cs).map fun (a, b) => (c :: a, b) := by
  rw [spanQuoted]
  · exact fun h _ => hc h
  · exact fun _ _ h _ => hc h

/-- The scanner gives back what was written, and the rest of the input behind the closing quote. -/
theorem spanQuoted_escaped (q : Quote) (cs rest : List Char) :
    spanQuoted q.char (cs.flatMap q.escape ++ q.char :: rest) = some (cs, rest) := by
  induction cs with
  | nil =>
      rw [List.flatMap_nil, List.nil_append, spanQuoted_cons q.char_ne_backslash]
      simp
  | cons c cs ih =>
      by_cases hc : c = '\\' ∨ c = q.char
      · -- The backslash takes the character with it, so it does not end the literal.
        simp [Quote.escape, hc, spanQuoted, ih]
      · obtain ⟨hslash, hquote⟩ := not_or.1 hc
        rw [List.flatMap_cons, Quote.escape, if_neg hc, List.singleton_append, List.cons_append,
          spanQuoted_cons hslash, ih]
        simp [hquote]

/-- A literal is one token. -/
theorem tokenize_literal (l : Literal) (rest : List Char) :
    tokenize (l.written.toList ++ rest) = (tokenize rest).map (.text l.text :: ·) := by
  have hspan := spanQuoted_escaped l.quote l.text.toList rest
  have hquote : Text.isBlank l.quote.char = false ∧ isNumeric l.quote.char = false ∧
      (l.quote.char == '"' || l.quote.char == '\x27') = true := by
    cases l.quote <;> decide
  obtain ⟨hvisible, hnumeric, hopens⟩ := hquote
  rw [Literal.written, String.toList_ofList, List.cons_append, List.append_assoc,
    List.singleton_append, tokenize, hvisible, hnumeric, hopens]
  simp only [Bool.false_eq_true, if_false, if_true]
  split
  · rename_i hnone
    rw [hspan] at hnone
    cases hnone
  · rename_i body behind hsome
    rw [hspan] at hsome
    cases hsome
    rw [String.ofList_toList]

/-- The front of the call is two tokens. -/
theorem tokenize_concat (rest : List Char) :
    tokenize ("concat(".toList ++ rest) =
      (tokenize rest).map fun ts => .name "concat" :: .opening :: ts := by
  have hopening : tokenize ('(' :: rest) = (tokenize rest).map (.opening :: ·) :=
    tokenize_single rfl (by decide) rest
  have hname : tokenize ('c' :: ("oncat".toList ++ '(' :: rest)) =
      (tokenize ('(' :: rest)).map (.name "concat" :: ·) := by
    refine tokenize_name (by decide) (by decide) ?_
    rintro next ⟨⟩
    decide
  rw [hopening] at hname
  exact hname.trans (by cases tokenize rest <;> rfl)

/-- The literals of a call, with commas between them. -/
theorem tokenize_literals (ls : List Literal) {rest : List Char} {ts : List Token}
    (hrest : tokenize rest = .ok ts) :
    tokenize ([','].intercalate (ls.map fun l => l.written.toList) ++ rest) =
      .ok ((ls.map fun l => .text l.text).intersperse .comma ++ ts) := by
  induction ls with
  | nil => exact hrest
  | cons l ls ih =>
      cases ls with
      | nil =>
          rw [List.map_singleton, List.intercalate_singleton, tokenize_literal, hrest]
          rfl
      | cons next ls =>
          have hcomma : ∀ cs, tokenize (',' :: cs) = (tokenize cs).map (.comma :: ·) :=
            tokenize_single rfl (by decide)
          rw [List.map_cons, List.map_cons] at ih ⊢
          rw [List.intercalate_cons_cons, List.append_assoc, List.append_assoc, tokenize_literal,
            List.singleton_append, hcomma, ih]
          rfl

/-- The call is scanned into its literals with commas between them. -/
theorem tokenize_concatenation (ls : List Literal) :
    tokenize (concatenation ls).toList = .ok (.name "concat" :: .opening ::
      ((ls.map fun l => .text l.text).intersperse .comma ++ [.closing])) := by
  have hclosing : tokenize [')'] = .ok [.closing] := by
    rw [tokenize_single rfl (by decide), tokenize]
    rfl
  have hliterals := tokenize_literals ls hclosing
  rw [concatenation, String.toList_append, String.toList_append, List.append_assoc,
    String.toList_intercalate, List.map_map, tokenize_concat]
  exact congrArg (Except.map fun ts => Token.name "concat" :: .opening :: ts) hliterals

/-! ## Calls -/

open MacroReplay.Expression.Derivation

def textExpr (s : String) : Expr := .of (.of (.plain (.text s)) .none) .none

def textArgs (s : String) : List String → Args
  | [] => .last (textExpr s)
  | next :: more => .cons (textExpr s) (textArgs next more)

/-- The derivation has the tokens of the texts. -/
theorem tokens_textArgs (s : String) (more : List String) :
    (textArgs s more).tokens = ((s :: more).map Token.text).intersperse .comma := by
  induction more generalizing s with
  | nil => rfl
  | cons next more ih =>
      rw [textArgs, Args.tokens, ih]
      rfl

/-- Arguments do not nest, however many there are. -/
theorem depth_textArgs (s : String) (more : List String) : (textArgs s more).depth ≤ 1 := by
  induction more generalizing s with
  | nil => exact Nat.le_refl 1
  | cons next more ih => exact Nat.max_le.2 ⟨Nat.le_refl 1, ih next⟩

/-- Its value is all texts behind each other. -/
theorem joined_textArgs (arith : Arithmetic) (s : String) (more : List String) :
    (textArgs s more).joined arith = String.join (s :: more) := by
  induction more generalizing s with
  | nil =>
      rw [String.join_cons, String.join_nil, String.append_empty]
      rfl
  | cons next more ih =>
      rw [String.join_cons, ← ih]
      rfl

def concatExpr (texts : List String) : Expr :=
  have hname : IsCalled "concat" "concat" := ⟨"concat", .inl rfl, by decide⟩
  let called : Primary :=
    match texts with
    | [] => .concatNone "concat" hname
    | s :: more => .concat "concat" hname (textArgs s more)
  .of (.of (.plain called) .none) .none

/-- A call of `concat` with texts is worth the texts behind each other, under any arithmetic. -/
theorem parse_concat (arith : Arithmetic) (texts : List String) :
    (parse (.name "concat" :: .opening :: ((texts.map .text).intersperse .comma ++ [.closing]))).map
      (Tree.value arith) = .ok (.text (String.join texts)) := by
  have htokens : (concatExpr texts).tokens =
      .name "concat" :: .opening :: ((texts.map .text).intersperse .comma ++ [.closing]) := by
    cases texts with
    | nil => rfl
    | cons s more =>
        rw [← tokens_textArgs]
        simp [concatExpr, Expr.tokens, MoreTerms.tokens, Term.tokens, MoreUnaries.tokens,
          Unary.tokens, Primary.tokens]
  have hdepth : (concatExpr texts).depth ≤ 256 := by
    cases texts with
    | nil => decide
    | cons s more =>
        have hargs := depth_textArgs s more
        simp only [concatExpr, Expr.depth, MoreTerms.depth, Term.depth, MoreUnaries.depth, Unary.depth,
          Primary.depth]
        omega
  have hvalue : (concatExpr texts).value arith = .text (String.join texts) := by
    cases texts with
    | nil => rfl
    | cons s more => exact congrArg Value.text (joined_textArgs arith s more)
  rw [← htokens, ← hvalue]
  exact parse_tokens arith hdepth

/-- **Literals are lossless.** A call of `concat` with any literals as its arguments is worth their texts
behind each other: each of them is one token, with the text that was written. -/
theorem concat_of_literals (ls : List Literal) :
    evaluate? (concatenation ls) = .ok (.text (String.join (ls.map Literal.text))) ∧
      tokenize (concatenation ls).toList = .ok (.name "concat" :: .opening ::
        ((ls.map fun l => .text l.text).intersperse .comma ++ [.closing])) ∧
      ∀ l : Literal, tokenize l.written.toList = .ok [.text l.text] ∧
        ∀ rest, tokenize (l.written.toList ++ rest) = (tokenize rest).map (.text l.text :: ·) := by
  have htokens := tokenize_concatenation ls
  refine ⟨?_, htokens, fun l => ⟨?_, tokenize_literal l⟩⟩
  · have hparse := parse_concat Number.binary64 (ls.map Literal.text)
    rw [List.map_map] at hparse
    rw [evaluate?, evaluateWith?, htokens]
    exact hparse
  · have halone := tokenize_literal l []
    rw [List.append_nil, tokenize] at halone
    exact halone

end MacroReplay.Expression
