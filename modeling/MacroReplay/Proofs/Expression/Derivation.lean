import MacroReplay.Expression.Grammar

/-!
# Derivations of expressions

The derivation trees of the grammar

    expr    := term (('+' | '-') term)*
    term    := unary (('*' | '/' | '%') unary)*
    unary   := ('-' | '+') unary | primary ('^' unary)?
    primary := NUMBER | TEXT | NAME '(' args? ')' | '(' expr ')'
    args    := expr (',' expr)*

in which every called function is known and is given the arguments that it takes. A tree has

* `tokens` — the tokens that it derives;
* `depth` — how many of its `unary` nodes stand above each other, at most;
* `value` — what it is worth, under an interpretation of the arithmetic primitives.

No two trees derive the same tokens: `Expr.tokens_injective`.
-/

namespace MacroReplay.Expression

/-! ## Names of functions -/

def Function.word : Function → String
  | .floor => "floor"
  | .ceil => "ceil"
  | .round => "round"
  | .abs => "abs"
  | .sqrt => "sqrt"

/-- The name is the word, in any letter case, and possibly behind `Math.` or `math.`. -/
def IsCalled (word name : String) : Prop :=
  ∃ spelled, (name = spelled ∨ name = "Math." ++ spelled ∨ name = "math." ++ spelled) ∧
    Text.lower spelled = word

/-- Either spelling of the prefix is taken off. -/
theorem bareName_of_prefixed {name spelled : String}
    (h : name = "Math." ++ spelled ∨ name = "math." ++ spelled) :
    bareName name = Text.lower spelled := by
  rcases h with rfl | rfl <;> simp [bareName, String.toList_append]

theorem eq_append_of_isPrefixOf {front name : String}
    (h : front.toList.isPrefixOf name.toList = true) : ∃ spelled, name = front ++ spelled := by
  rcases List.isPrefixOf_iff_prefix.1 h with ⟨cs, hcs⟩
  refine ⟨String.ofList cs, String.toList_inj.1 ?_⟩
  rw [String.toList_append, String.toList_ofList, hcs]

/-- A name has the prefix in one of its spellings, or is only put in lower case. -/
theorem prefixed_or_bareName_eq (name : String) :
    (∃ spelled, name = "Math." ++ spelled ∨ name = "math." ++ spelled) ∨
      bareName name = Text.lower name := by
  by_cases hfront : ("Math.".toList.isPrefixOf name.toList ||
      "math.".toList.isPrefixOf name.toList) = true
  · rcases Bool.or_eq_true_iff.1 hfront with hMath | hmath
    · rcases eq_append_of_isPrefixOf hMath with ⟨spelled, hname⟩
      exact .inl ⟨spelled, .inl hname⟩
    · rcases eq_append_of_isPrefixOf hmath with ⟨spelled, hname⟩
      exact .inl ⟨spelled, .inr hname⟩
  · exact .inr (if_neg hfront)

/-- A name calls a word if it is the word once the prefix is off. -/
theorem isCalled_iff {word name : String} (hword : '.' ∉ word.toList) :
    IsCalled word name ↔ bareName name = word := by
  constructor
  · rintro ⟨spelled, rfl | hfront, rfl⟩
    · rcases prefixed_or_bareName_eq name with ⟨behind, hname⟩ | hbare
      · -- A name that the prefix was taken off has a point, and the word has none.
        have hdot : '.' ∈ name.toList := by
          rcases hname with rfl | rfl <;> simp [String.toList_append]
        refine absurd ?_ hword
        rw [Text.lower, String.toList_ofList]
        exact List.mem_map.2 ⟨'.', hdot, rfl⟩
      · exact hbare
    · exact bareName_of_prefixed hfront
  · rintro rfl
    rcases prefixed_or_bareName_eq name with ⟨spelled, hfront⟩ | hbare
    · exact ⟨spelled, .inr hfront, (bareName_of_prefixed hfront).symm⟩
    · exact ⟨name, .inl rfl, hbare.symm⟩

example : IsCalled (Function.word .floor) "Math.FLOOR" :=
  ⟨"FLOOR", .inr (.inl (by decide)), by decide⟩

theorem Function.dot_notMem_word (f : Function) : '.' ∉ f.word.toList := by
  cases f <;> decide

/-- Different functions have different words. -/
theorem Function.word_injective {f f' : Function} (h : f.word = f'.word) : f = f' := by
  cases f <;> cases f' <;> first | rfl | exact absurd h (by decide)

/-- None of them is that of `concat`. -/
theorem Function.word_ne_concat (f : Function) : f.word ≠ "concat" := by
  cases f <;> decide

/-- A name is called for one word only. -/
theorem IsCalled.word_eq {word word' name : String} (hword : '.' ∉ word.toList)
    (hword' : '.' ∉ word'.toList) (h : IsCalled word name) (h' : IsCalled word' name) :
    word = word' :=
  ((isCalled_iff hword).1 h).symm.trans ((isCalled_iff hword').1 h')

/-- A name that calls a function of one number does not call `concat`. -/
theorem Function.not_isCalled_concat {f : Function} {name : String}
    (h : IsCalled f.word name) : ¬ IsCalled "concat" name :=
  fun hconcat => f.word_ne_concat (h.word_eq f.dot_notMem_word (by decide) hconcat)

namespace Derivation

/-! ## Operators -/

/-- The operators of a sum, which are the signs of an operand too. -/
inductive Additive where
  | plus
  | minus

inductive Multiplicative where
  | times
  | over
  | modulo

def Additive.token : Additive → Token
  | .plus => .operator .plus
  | .minus => .operator .minus

def Multiplicative.token : Multiplicative → Token
  | .times => .operator .times
  | .over => .operator .over
  | .modulo => .operator .modulo

/-- `+` adds two numbers and otherwise joins texts, `-` takes its operands as numbers. -/
def Additive.value (arith : Arithmetic) : Additive → Value → Value → Value
  | .plus, .number x, .number y => .number (arith.add x y)
  | .plus, x, y => .text (x.renderWith arith ++ y.renderWith arith)
  | .minus, x, y => .number (arith.sub (x.toNumberWith arith) (y.toNumberWith arith))

def Multiplicative.value (arith : Arithmetic) (x y : Value) : Multiplicative → Value
  | .times => .number (arith.mul (x.toNumberWith arith) (y.toNumberWith arith))
  | .over => .number (arith.div (x.toNumberWith arith) (y.toNumberWith arith))
  | .modulo => .number (arith.rem (x.toNumberWith arith) (y.toNumberWith arith))

/-- An operand behind a sign. -/
def Additive.signed (arith : Arithmetic) (x : Value) : Additive → Value
  | .plus => .number (x.toNumberWith arith)
  | .minus => .number (x.toNumberWith arith).neg

/-- A function of one argument, which is taken as a number; `round` goes up from the half. -/
def called (arith : Arithmetic) (x : Value) : Function → Value
  | .floor => .number (arith.floor (x.toNumberWith arith))
  | .ceil => .number (arith.ceil (x.toNumberWith arith))
  | .round => .number (arith.floor (arith.add (x.toNumberWith arith) Number.half))
  | .abs => .number (arith.abs (x.toNumberWith arith))
  | .sqrt => .number (arith.sqrt (x.toNumberWith arith))

/-! ## Trees -/

mutual

inductive Expr where
  | of (first : Term) (more : MoreTerms)

/-- The `(('+' | '-') term)*` of an expression. -/
inductive MoreTerms where
  | none
  | link (op : Additive) (t : Term) (more : MoreTerms)

inductive Term where
  | of (first : Unary) (more : MoreUnaries)

/-- The `(('*' | '/' | '%') unary)*` of a term. -/
inductive MoreUnaries where
  | none
  | link (op : Multiplicative) (u : Unary) (more : MoreUnaries)

inductive Unary where
  | signed (sign : Additive) (u : Unary)
  | plain (p : Primary)
  | power (p : Primary) (exponent : Unary)

inductive Primary where
  | number (n : Number)
  | text (s : String)
  | group (e : Expr)
  | apply (f : Function) (name : String) (h : IsCalled f.word name) (argument : Expr)
  | concatNone (name : String) (h : IsCalled "concat" name)
  | concat (name : String) (h : IsCalled "concat" name) (arguments : Args)

inductive Args where
  | last (e : Expr)
  | cons (e : Expr) (more : Args)

end

/-! ## Tokens -/

mutual

def Expr.tokens : Expr → List Token
  | .of first more => first.tokens ++ more.tokens

def MoreTerms.tokens : MoreTerms → List Token
  | .none => []
  | .link op t more => op.token :: (t.tokens ++ more.tokens)

def Term.tokens : Term → List Token
  | .of first more => first.tokens ++ more.tokens

def MoreUnaries.tokens : MoreUnaries → List Token
  | .none => []
  | .link op u more => op.token :: (u.tokens ++ more.tokens)

def Unary.tokens : Unary → List Token
  | .signed sign u => sign.token :: u.tokens
  | .plain p => p.tokens
  | .power p exponent => p.tokens ++ .operator .power :: exponent.tokens

def Primary.tokens : Primary → List Token
  | .number n => [.number n]
  | .text s => [.text s]
  | .group e => .opening :: (e.tokens ++ [.closing])
  | .apply _ name _ argument => .name name :: .opening :: (argument.tokens ++ [.closing])
  | .concatNone name _ => [.name name, .opening, .closing]
  | .concat name _ arguments => .name name :: .opening :: (arguments.tokens ++ [.closing])

def Args.tokens : Args → List Token
  | .last e => e.tokens
  | .cons e more => e.tokens ++ .comma :: more.tokens

end

/-! ## Depth -/

mutual

def Expr.depth : Expr → Nat
  | .of first more => max first.depth more.depth

def MoreTerms.depth : MoreTerms → Nat
  | .none => 0
  | .link _ t more => max t.depth more.depth

def Term.depth : Term → Nat
  | .of first more => max first.depth more.depth

def MoreUnaries.depth : MoreUnaries → Nat
  | .none => 0
  | .link _ u more => max u.depth more.depth

def Unary.depth : Unary → Nat
  | .signed _ u => u.depth + 1
  | .plain p => p.depth + 1
  | .power p exponent => max p.depth exponent.depth + 1

def Primary.depth : Primary → Nat
  | .number _ => 0
  | .text _ => 0
  | .group e => e.depth
  | .apply _ _ _ argument => argument.depth
  | .concatNone _ _ => 0
  | .concat _ _ arguments => arguments.depth

def Args.depth : Args → Nat
  | .last e => e.depth
  | .cons e more => max e.depth more.depth

end

/-! ## Values -/

section Values

variable (arith : Arithmetic)

mutual

def Expr.value : Expr → Value
  | .of first more => more.value first.value

/-- The value of a sum, given that of the terms before. -/
def MoreTerms.value (left : Value) : MoreTerms → Value
  | .none => left
  | .link op t more => more.value (op.value arith left t.value)

def Term.value : Term → Value
  | .of first more => more.value first.value

/-- The value of a product, given that of the factors before. -/
def MoreUnaries.value (left : Value) : MoreUnaries → Value
  | .none => left
  | .link op u more => more.value (op.value arith left u.value)

def Unary.value : Unary → Value
  | .signed sign u => sign.signed arith u.value
  | .plain p => p.value
  | .power p exponent =>
      .number (arith.pow (p.value.toNumberWith arith) (exponent.value.toNumberWith arith))

def Primary.value : Primary → Value
  | .number n => .number n
  | .text s => .text s
  | .group e => e.value
  | .apply f _ _ argument => called arith argument.value f
  | .concatNone _ _ => .text ""
  | .concat _ _ arguments => .text arguments.joined

def Args.joined : Args → String
  | .last e => e.value.renderWith arith
  | .cons e more => e.value.renderWith arith ++ more.joined

end

end Values

/-! ## What stands at the front and behind -/

end Derivation

/-- How far an expression reaches over a token: an operand goes on with a token of rank 4, a product
with one of rank 3, a sum with one of rank 2, and arguments with one of rank 1. -/
def Token.rank : Token → Nat
  | .operator .power => 4
  | .operator .times => 3
  | .operator .over => 3
  | .operator .modulo => 3
  | .operator .plus => 2
  | .operator .minus => 2
  | .comma => 1
  | _ => 0

def Token.startsPrimary : Token → Bool
  | .number _ => true
  | .text _ => true
  | .name _ => true
  | .opening => true
  | _ => false

namespace Derivation

/-- The next token, if there is one, is of a lower rank. -/
def StopsAt (rank : Nat) (ts : List Token) : Prop :=
  ∀ t ∈ ts.head?, t.rank < rank

/-- What stops a smaller reach stops a greater one. -/
theorem StopsAt.mono {rank rank' : Nat} {ts : List Token} (h : StopsAt rank ts)
    (hle : rank ≤ rank') : StopsAt rank' ts :=
  fun t ht => Nat.lt_of_lt_of_le (h t ht) hle

theorem stopsAt_nil (rank : Nat) : StopsAt rank [] := by
  simp [StopsAt]

theorem stopsAt_cons {rank : Nat} (t : Token) (ts : List Token) (h : t.rank < rank) :
    StopsAt rank (t :: ts) := by
  intro t' ht'
  cases ht'
  exact h

theorem not_stopsAt_cons {rank : Nat} {t : Token} {ts : List Token} (h : rank ≤ t.rank) :
    ¬ StopsAt rank (t :: ts) :=
  fun hstops => Nat.lt_irrefl _ (Nat.lt_of_lt_of_le (hstops t rfl) h)

theorem Additive.rank_token (op : Additive) : op.token.rank = 2 := by
  cases op <;> rfl

theorem Multiplicative.rank_token (op : Multiplicative) : op.token.rank = 3 := by
  cases op <;> rfl

theorem Additive.token_injective {op op' : Additive} (h : op.token = op'.token) : op = op' := by
  cases op <;> cases op' <;> first | rfl | nomatch h

theorem Multiplicative.token_injective {op op' : Multiplicative} (h : op.token = op'.token) :
    op = op' := by
  cases op <;> cases op' <;> first | rfl | nomatch h

/-- Behind a term comes a sign, or what follows the sum. -/
theorem MoreTerms.stopsAt (more : MoreTerms) {rest : List Token} (h : StopsAt 2 rest) :
    StopsAt 3 (more.tokens ++ rest) := by
  cases more with
  | none => exact h.mono (by decide)
  | link op t more => exact stopsAt_cons _ _ (by rw [op.rank_token]; decide)

/-- Behind a factor comes an operator of products, or what follows the product. -/
theorem MoreUnaries.stopsAt (more : MoreUnaries) {rest : List Token} (h : StopsAt 3 rest) :
    StopsAt 4 (more.tokens ++ rest) := by
  cases more with
  | none => exact h.mono (by decide)
  | link op u more => exact stopsAt_cons _ _ (by rw [op.rank_token]; decide)

/-- A primary begins with a token that only primaries begin with. -/
theorem Primary.front (p : Primary) :
    ∃ t ts, p.tokens = t :: ts ∧ t.startsPrimary = true := by
  cases p <;> exact ⟨_, _, rfl, rfl⟩

/-- A primary does not begin with a sign. -/
theorem Primary.tokens_ne_sign (p : Primary) (sign : Additive) {ts rest : List Token} :
    sign.token :: ts ≠ p.tokens ++ rest := by
  rcases p.front with ⟨t, ts', hp, hstarts⟩
  rw [hp, List.cons_append]
  intro h
  rw [← (List.cons.inj h).1] at hstarts
  cases sign <;> nomatch hstarts

/-- Nothing that can be read begins with a closing parenthesis. -/
theorem Unary.front (u : Unary) : ∃ t ts, u.tokens = t :: ts ∧ t ≠ .closing := by
  have hprimary (p : Primary) : ∃ t ts, p.tokens = t :: ts ∧ t ≠ .closing := by
    rcases p.front with ⟨t, ts, hp, hstarts⟩
    refine ⟨t, ts, hp, ?_⟩
    rintro rfl
    nomatch hstarts
  cases u with
  | signed sign u => exact ⟨sign.token, u.tokens, rfl, by cases sign <;> nofun⟩
  | plain p => exact hprimary p
  | power p exponent =>
      rcases hprimary p with ⟨t, ts, hp, ht⟩
      exact ⟨t, _, by rw [Unary.tokens, hp, List.cons_append], ht⟩

/-- The same for whole expressions. -/
theorem Expr.front (e : Expr) : ∃ t ts, e.tokens = t :: ts ∧ t ≠ .closing := by
  rcases e with ⟨⟨u, factors⟩, terms⟩
  rcases u.front with ⟨t, ts, hu, ht⟩
  exact ⟨t, _, by rw [Expr.tokens, Term.tokens, hu, List.cons_append, List.cons_append], ht⟩

/-- A call without arguments is not one with arguments. -/
theorem Args.tokens_ne_closing (args : Args) {ts rest : List Token} :
    .closing :: ts ≠ args.tokens ++ rest := by
  have hfront : ∃ t ts', args.tokens = t :: ts' ∧ t ≠ .closing := by
    cases args with
    | last e => exact e.front
    | cons e more =>
        rcases e.front with ⟨t, ts', he, ht⟩
        exact ⟨t, _, by rw [Args.tokens, he, List.cons_append], ht⟩
  rcases hfront with ⟨t, ts', hargs, ht⟩
  rw [hargs, List.cons_append]
  intro h
  exact ht (List.cons.inj h).1.symm

/-! ## One tree for each list of tokens

Each statement says that the front of a list is derived in one way only, if the tokens behind it cannot
go on with it. -/

mutual

/-- The tokens decide where an expression ends and how it is built, if what follows does not go on with
it. -/
theorem Expr.unique_front (e e' : Expr) {rest rest' : List Token} (hrest : StopsAt 2 rest)
    (hrest' : StopsAt 2 rest') (h : e.tokens ++ rest = e'.tokens ++ rest') :
    e = e' ∧ rest = rest' := by
  match e, e' with
  | .of first more, .of first' more' =>
      rw [Expr.tokens, Expr.tokens, List.append_assoc, List.append_assoc] at h
      obtain ⟨rfl, hmore⟩ :=
        first.unique_front first' (more.stopsAt hrest) (more'.stopsAt hrest') h
      obtain ⟨rfl, rfl⟩ := more.unique_front more' hrest hrest' hmore
      exact ⟨rfl, rfl⟩

/-- The same for the rest of a sum. -/
theorem MoreTerms.unique_front (more more' : MoreTerms) {rest rest' : List Token}
    (hrest : StopsAt 2 rest) (hrest' : StopsAt 2 rest')
    (h : more.tokens ++ rest = more'.tokens ++ rest') : more = more' ∧ rest = rest' := by
  match more, more' with
  | .none, .none => exact ⟨rfl, h⟩
  | .none, .link op t more =>
      rw [MoreTerms.tokens, List.nil_append] at h
      rw [h] at hrest
      exact absurd hrest (not_stopsAt_cons (Nat.le_of_eq op.rank_token.symm))
  | .link op t more, .none =>
      rw [MoreTerms.tokens, MoreTerms.tokens, List.nil_append] at h
      rw [← h] at hrest'
      exact absurd hrest' (not_stopsAt_cons (Nat.le_of_eq op.rank_token.symm))
  | .link op t more, .link op' t' more' =>
      simp only [MoreTerms.tokens, List.cons_append, List.append_assoc, List.cons.injEq] at h
      obtain rfl := Additive.token_injective h.1
      obtain ⟨rfl, hmore⟩ := t.unique_front t' (more.stopsAt hrest) (more'.stopsAt hrest') h.2
      obtain ⟨rfl, rfl⟩ := more.unique_front more' hrest hrest' hmore
      exact ⟨rfl, rfl⟩

/-- The same for a term. -/
theorem Term.unique_front (t t' : Term) {rest rest' : List Token} (hrest : StopsAt 3 rest)
    (hrest' : StopsAt 3 rest') (h : t.tokens ++ rest = t'.tokens ++ rest') :
    t = t' ∧ rest = rest' := by
  match t, t' with
  | .of first more, .of first' more' =>
      rw [Term.tokens, Term.tokens, List.append_assoc, List.append_assoc] at h
      obtain ⟨rfl, hmore⟩ :=
        first.unique_front first' (more.stopsAt hrest) (more'.stopsAt hrest') h
      obtain ⟨rfl, rfl⟩ := more.unique_front more' hrest hrest' hmore
      exact ⟨rfl, rfl⟩

/-- The same for the rest of a product. -/
theorem MoreUnaries.unique_front (more more' : MoreUnaries) {rest rest' : List Token}
    (hrest : StopsAt 3 rest) (hrest' : StopsAt 3 rest')
    (h : more.tokens ++ rest = more'.tokens ++ rest') : more = more' ∧ rest = rest' := by
  match more, more' with
  | .none, .none => exact ⟨rfl, h⟩
  | .none, .link op u more =>
      rw [MoreUnaries.tokens, List.nil_append] at h
      rw [h] at hrest
      exact absurd hrest (not_stopsAt_cons (Nat.le_of_eq op.rank_token.symm))
  | .link op u more, .none =>
      rw [MoreUnaries.tokens, MoreUnaries.tokens, List.nil_append] at h
      rw [← h] at hrest'
      exact absurd hrest' (not_stopsAt_cons (Nat.le_of_eq op.rank_token.symm))
  | .link op u more, .link op' u' more' =>
      simp only [MoreUnaries.tokens, List.cons_append, List.append_assoc, List.cons.injEq] at h
      obtain rfl := Multiplicative.token_injective h.1
      obtain ⟨rfl, hmore⟩ := u.unique_front u' (more.stopsAt hrest) (more'.stopsAt hrest') h.2
      obtain ⟨rfl, rfl⟩ := more.unique_front more' hrest hrest' hmore
      exact ⟨rfl, rfl⟩

/-- The same for an operand behind its signs. -/
theorem Unary.unique_front (u u' : Unary) {rest rest' : List Token} (hrest : StopsAt 4 rest)
    (hrest' : StopsAt 4 rest') (h : u.tokens ++ rest = u'.tokens ++ rest') :
    u = u' ∧ rest = rest' := by
  match u, u' with
  | .signed sign u, .signed sign' u' =>
      simp only [Unary.tokens, List.cons_append, List.cons.injEq] at h
      obtain rfl := Additive.token_injective h.1
      obtain ⟨rfl, rfl⟩ := u.unique_front u' hrest hrest' h.2
      exact ⟨rfl, rfl⟩
  -- No primary begins with a sign.
  | .signed sign u, .plain p => exact absurd h (p.tokens_ne_sign sign)
  | .signed sign u, .power p exponent =>
      rw [Unary.tokens, Unary.tokens, List.append_assoc] at h
      exact absurd h (p.tokens_ne_sign sign)
  | .plain p, .signed sign u => exact absurd h.symm (p.tokens_ne_sign sign)
  | .power p exponent, .signed sign u =>
      rw [Unary.tokens, Unary.tokens, List.append_assoc] at h
      exact absurd h.symm (p.tokens_ne_sign sign)
  | .plain p, .plain p' =>
      obtain ⟨rfl, rfl⟩ := p.unique_front p' h
      exact ⟨rfl, rfl⟩
  -- The caret of a power may not follow an operand.
  | .plain p, .power p' exponent' =>
      rw [Unary.tokens, Unary.tokens, List.append_assoc] at h
      obtain ⟨rfl, rfl⟩ := p.unique_front p' h
      exact absurd hrest (not_stopsAt_cons (by decide))
  | .power p exponent, .plain p' =>
      rw [Unary.tokens, Unary.tokens, List.append_assoc] at h
      obtain ⟨rfl, rfl⟩ := p.unique_front p' h
      exact absurd hrest' (not_stopsAt_cons (by decide))
  | .power p exponent, .power p' exponent' =>
      rw [Unary.tokens, Unary.tokens, List.append_assoc, List.append_assoc] at h
      obtain ⟨rfl, hpower⟩ := p.unique_front p' h
      obtain ⟨rfl, rfl⟩ :=
        exponent.unique_front exponent' hrest hrest' (List.cons.inj hpower).2
      exact ⟨rfl, rfl⟩

/-- A primary ends by itself, whatever follows. -/
theorem Primary.unique_front (p p' : Primary) {rest rest' : List Token}
    (h : p.tokens ++ rest = p'.tokens ++ rest') : p = p' ∧ rest = rest' := by
  cases p with
  | number n =>
      cases p' with
      | number n' => simpa [Primary.tokens] using h
      | _ => simp [Primary.tokens] at h
  | text s =>
      cases p' with
      | text s' => simpa [Primary.tokens] using h
      | _ => simp [Primary.tokens] at h
  | group e =>
      cases p' with
      | group e' =>
          simp only [Primary.tokens, List.cons_append, List.append_assoc] at h
          obtain ⟨rfl, hclosing⟩ := e.unique_front e' (stopsAt_cons _ _ (by decide))
            (stopsAt_cons _ _ (by decide)) (List.cons.inj h).2
          exact ⟨rfl, (List.cons.inj hclosing).2⟩
      | _ => simp [Primary.tokens] at h
  | apply f name hname argument =>
      cases p' with
      | apply f' name' hname' argument' =>
          simp only [Primary.tokens, List.cons_append, List.append_assoc, List.cons.injEq,
            Token.name.injEq] at h
          obtain ⟨rfl, -, h⟩ := h
          obtain rfl := Function.word_injective
            (hname.word_eq f.dot_notMem_word f'.dot_notMem_word hname')
          obtain ⟨rfl, hclosing⟩ := argument.unique_front argument' (stopsAt_cons _ _ (by decide))
            (stopsAt_cons _ _ (by decide)) h
          exact ⟨rfl, (List.cons.inj hclosing).2⟩
      -- The name decides which function is called.
      | concatNone name' hname' | concat name' hname' arguments' =>
          obtain ⟨hsame, -⟩ := List.cons.inj h
          cases hsame
          exact absurd hname' (Function.not_isCalled_concat hname)
      | _ => simp [Primary.tokens] at h
  | concatNone name hname =>
      cases p' with
      | apply f' name' hname' argument' =>
          obtain ⟨hsame, -⟩ := List.cons.inj h
          cases hsame
          exact absurd hname (Function.not_isCalled_concat hname')
      | concatNone name' hname' => simpa [Primary.tokens] using h
      | concat name' hname' arguments' =>
          simp only [Primary.tokens, List.cons_append, List.append_assoc, List.nil_append,
            List.cons.injEq] at h
          exact absurd h.2.2 arguments'.tokens_ne_closing
      | _ => simp [Primary.tokens] at h
  | concat name hname arguments =>
      cases p' with
      | apply f' name' hname' argument' =>
          obtain ⟨hsame, -⟩ := List.cons.inj h
          cases hsame
          exact absurd hname (Function.not_isCalled_concat hname')
      | concatNone name' hname' =>
          simp only [Primary.tokens, List.cons_append, List.append_assoc, List.nil_append,
            List.cons.injEq] at h
          exact absurd h.2.2.symm arguments.tokens_ne_closing
      | concat name' hname' arguments' =>
          simp only [Primary.tokens, List.cons_append, List.append_assoc, List.cons.injEq,
            Token.name.injEq] at h
          obtain ⟨rfl, -, h⟩ := h
          obtain ⟨rfl, hclosing⟩ := arguments.unique_front arguments'
            (stopsAt_cons _ _ (by decide)) (stopsAt_cons _ _ (by decide)) h
          exact ⟨rfl, (List.cons.inj hclosing).2⟩
      | _ => simp [Primary.tokens] at h

/-- The same for arguments up to the closing parenthesis. -/
theorem Args.unique_front (args args' : Args) {rest rest' : List Token} (hrest : StopsAt 1 rest)
    (hrest' : StopsAt 1 rest') (h : args.tokens ++ rest = args'.tokens ++ rest') :
    args = args' ∧ rest = rest' := by
  match args, args' with
  | .last e, .last e' =>
      obtain ⟨rfl, rfl⟩ :=
        e.unique_front e' (hrest.mono (by decide)) (hrest'.mono (by decide)) h
      exact ⟨rfl, rfl⟩
  -- A comma behind the first argument stands in one of the lists only, so the other one goes on.
  | .last e, .cons e' more' =>
      rw [Args.tokens, Args.tokens, List.append_assoc] at h
      obtain ⟨rfl, rfl⟩ :=
        e.unique_front e' (hrest.mono (by decide)) (stopsAt_cons _ _ (by decide)) h
      exact absurd hrest (not_stopsAt_cons (by decide))
  | .cons e more, .last e' =>
      rw [Args.tokens, Args.tokens, List.append_assoc] at h
      obtain ⟨rfl, rfl⟩ :=
        e.unique_front e' (stopsAt_cons _ _ (by decide)) (hrest'.mono (by decide)) h
      exact absurd hrest' (not_stopsAt_cons (by decide))
  | .cons e more, .cons e' more' =>
      rw [Args.tokens, Args.tokens, List.append_assoc, List.append_assoc] at h
      obtain ⟨rfl, hmore⟩ :=
        e.unique_front e' (stopsAt_cons _ _ (by decide)) (stopsAt_cons _ _ (by decide)) h
      obtain ⟨rfl, rfl⟩ := more.unique_front more' hrest hrest' (List.cons.inj hmore).2
      exact ⟨rfl, rfl⟩

end

/-- No tokens are derived in two ways. -/
theorem Expr.tokens_injective {e e' : Expr} (h : e.tokens = e'.tokens) : e = e' := by
  have hsame : e.tokens ++ [] = e'.tokens ++ [] := by rw [h]
  exact (e.unique_front e' (stopsAt_nil 2) (stopsAt_nil 2) hsame).1

end Derivation
end MacroReplay.Expression
