import MacroReplay.Proofs.Expression.Derivation

/-!
# What the rules of the parser read

For each rule of the parser, what it reads from the front of a list of tokens and what it leaves, as an
equivalence over what the rules below it read.

* `Reads`, `Continues`, `ReadsAll` — a rule, a chain of operators and a list of arguments read trees;
* `reads_operand_sign_iff`, `reads_operand_primary_iff` — operands, and so on down to `call_eq_ok_iff`;
* `parse_eq_ok_iff` — a whole list of tokens.
-/

namespace MacroReplay.Expression

/-! ## What the rules read -/

/-- The rule reads a tree from the front of the tokens, and leaves the rest. -/
def Reads (rule : Rule) (ts : List Token) (e : Tree) (rest : List Token) : Prop :=
  ∃ h, rule ts = .ok ⟨e, rest, h⟩

/-- A chain continues a tree with the front of the tokens, and leaves the rest. -/
def Continues (operator? : Token → Option Binary) (operand : Rule) (left : Tree)
    (ts : List Token) (e : Tree) (rest : List Token) : Prop :=
  ∃ h, chain operator? operand left ts = .ok ⟨e, rest, h⟩

def ReadsAll (argument : Rule) (ts : List Token) (es : List Tree) (rest : List Token) : Prop :=
  ∃ h, arguments argument ts = .ok ⟨es, rest, h⟩

section Rules

variable {operator? : Token → Option Binary} {rule : Rule} {left e : Tree}
  {ts rest : List Token}

/-- A chain ends with the tokens. -/
theorem continues_nil_iff :
    Continues operator? rule left [] e rest ↔ e = left ∧ rest = [] := by
  unfold Continues
  rw [chain]
  constructor
  · rintro ⟨_, h⟩
    cases h
    exact ⟨rfl, rfl⟩
  · rintro ⟨rfl, rfl⟩
    exact ⟨Nat.le_refl _, rfl⟩

/-- A chain ends before a token that is none of its operators, and else goes on with an operand. -/
theorem continues_cons_iff {t : Token} :
    Continues operator? rule left (t :: ts) e rest ↔
      operator? t = none ∧ e = left ∧ rest = t :: ts ∨
      ∃ op right behind, operator? t = some op ∧ Reads rule ts right behind ∧
        Continues operator? rule (.binary op left right) behind e rest := by
  unfold Continues
  rw [chain]
  cases hop : operator? t with
  | none =>
      constructor
      · rintro ⟨_, h⟩
        cases h
        exact .inl ⟨rfl, rfl, rfl⟩
      · rintro (⟨-, rfl, rfl⟩ | ⟨op, _, _, hop', _⟩)
        · exact ⟨Nat.le_refl _, rfl⟩
        · cases hop'
  | some op =>
      constructor
      · rintro ⟨_, h⟩
        cases hright : rule ts with
        | error err => simp [hright] at h
        | ok right =>
            -- The chain goes on with a tree whose left operand is all that was read so far.
            cases hmore : chain operator? rule (.binary op left right.tree) right.rest with
            | error err => simp [hright, hmore] at h
            | ok more =>
                simp only [hright, hmore] at h
                cases h
                exact .inr ⟨op, right.tree, right.rest, rfl, ⟨right.shorter, hright⟩,
                  more.notLonger, hmore⟩
      · rintro (⟨hop', -⟩ | ⟨op', right, behind, hop', ⟨_, hright⟩, ⟨_, hmore⟩⟩)
        · cases hop'
        · cases hop'
          rw [hright]
          dsimp only
          rw [hmore]
          exact ⟨_, rfl⟩

/-- A chain is an operand and what continues it. -/
theorem reads_chained_iff :
    Reads (chained operator? rule) ts e rest ↔
      ∃ first behind, Reads rule ts first behind ∧
        Continues operator? rule first behind e rest := by
  unfold Reads chained
  cases hfirst : rule ts with
  | error err => simp
  | ok first =>
      constructor
      · rintro ⟨_, h⟩
        cases hmore : chain operator? rule first.tree first.rest with
        | error err => simp [hmore] at h
        | ok more =>
            simp only [hmore] at h
            cases h
            exact ⟨first.tree, first.rest, ⟨first.shorter, rfl⟩, more.notLonger, hmore⟩
      · rintro ⟨tree, behind, ⟨_, hfirst'⟩, ⟨_, hmore⟩⟩
        cases hfirst'
        dsimp only
        rw [hmore]
        exact ⟨_, rfl⟩

/-- Arguments go on behind a comma, and end before any other token. -/
theorem readsAll_iff {es : List Tree} :
    ReadsAll rule ts es rest ↔
      ∃ first behind, Reads rule ts first behind ∧
        ((∃ ts' es', behind = .comma :: ts' ∧ ReadsAll rule ts' es' rest ∧ es = first :: es') ∨
          (∀ ts', behind ≠ .comma :: ts') ∧ es = [first] ∧ rest = behind) := by
  constructor
  · rintro ⟨_, h⟩
    rw [arguments] at h
    cases hfirst : rule ts with
    | error err => simp [hfirst] at h
    | ok first =>
        rcases first with ⟨tree, behind, hlt⟩
        refine ⟨tree, behind, ⟨hlt, hfirst⟩, ?_⟩
        simp only [hfirst] at h
        split at h
        · next ts' =>
          cases hmore : arguments rule ts' with
          | error err => simp [hmore] at h
          | ok more =>
              simp only [hmore] at h
              cases h
              exact .inl ⟨ts', more.trees, rfl, ⟨more.shorter, hmore⟩, rfl⟩
        · next hother =>
          cases h
          exact .inr ⟨hother, rfl, rfl⟩
  · -- Both shapes are read back, by the equation of `arguments`.
    rintro ⟨first, behind, ⟨hlt, hfirst⟩,
      ⟨ts', es', rfl, ⟨_, hmore⟩, rfl⟩ | ⟨hother, rfl, rfl⟩⟩
    · unfold ReadsAll
      rw [arguments, hfirst]
      dsimp only
      rw [hmore]
      exact ⟨_, rfl⟩
    · refine ⟨hlt, ?_⟩
      rw [arguments, hfirst]
      dsimp only
      split
      · exact absurd rfl (hother _)
      · rfl

/-- What is closed is closed by a parenthesis. -/
theorem eq_closing_of_closed {r : { rest : List Token // rest.length < ts.length }}
    (h : closed ts = .ok r) : ts = .closing :: r.val := by
  unfold closed at h
  split at h
  · cases h
    rfl
  · nomatch h

/-- A call has no arguments, or some that another token than a closing parenthesis begins. -/
theorem reads_callBody_iff {name : String} :
    Reads (callBody rule name) ts e rest ↔
      (ts = .closing :: rest ∧ call name [] = .ok e) ∨
      (∀ ts', ts ≠ .closing :: ts') ∧ ∃ es, ReadsAll (expression rule) ts es (.closing :: rest) ∧
        call name es = .ok e := by
  constructor
  · rintro ⟨_, h⟩
    unfold callBody at h
    split at h
    · next behind =>
      cases hcall : call name [] with
      | error err => simp [hcall, Except.map] at h
      | ok tree =>
          rw [hcall] at h
          cases h
          exact .inl ⟨rfl, rfl⟩
    · next hother =>
      refine .inr ⟨hother, ?_⟩
      cases hargs : arguments (expression rule) ts with
      | error err => simp [hargs] at h
      | ok args =>
          cases hclosed : closed args.rest with
          | error err => simp [hargs, hclosed] at h
          | ok behind =>
              cases hcall : call name args.trees with
              | error err => simp [hargs, hclosed, hcall, Except.map] at h
              | ok tree =>
                  simp only [hargs, hclosed, hcall] at h
                  cases h
                  -- What is left behind the arguments begins with the parenthesis that was checked
                  -- for.
                  have hreads : ReadsAll (expression rule) ts args.trees args.rest :=
                    ⟨args.shorter, hargs⟩
                  rw [eq_closing_of_closed hclosed] at hreads
                  exact ⟨args.trees, hreads, hcall⟩
  · rintro (⟨rfl, hcall⟩ | ⟨hother, es, ⟨hlt, hargs⟩, hcall⟩)
    · unfold Reads callBody
      dsimp only
      rw [hcall]
      exact ⟨_, rfl⟩
    · refine ⟨Nat.lt_trans (Nat.lt_succ_self _) hlt, ?_⟩
      unfold callBody
      split
      · exact absurd rfl (hother _)
      · rw [hargs]
        dsimp only [closed]
        rw [hcall]
        rfl

/-- The arguments of a call, its closing parenthesis and the function, one after the other. -/
theorem callBody_eq_bind {name : String} (hother : ∀ ts', ts = .closing :: ts' → False) :
    (callBody rule name ts).map (fun r => (r.tree, r.rest)) =
      (arguments (expression rule) ts).bind fun args => (closed args.rest).bind fun behind =>
        (call name args.trees).map fun e => (e, behind.val) := by
  rw [callBody.eq_2 _ _ _ hother]
  cases arguments (expression rule) ts with
  | error err => rfl
  | ok args =>
      dsimp only [Except.bind]
      cases closed args.rest with
      | error err => rfl
      | ok behind => cases call name args.trees <;> rfl

/-- The four kinds of primaries. -/
theorem reads_primary_iff :
    Reads (primary rule) ts e rest ↔
      (∃ n, ts = .number n :: rest ∧ e = .number n) ∨
      (∃ s, ts = .text s :: rest ∧ e = .text s) ∨
      (∃ ts', ts = .opening :: ts' ∧ Reads (expression rule) ts' e (.closing :: rest)) ∨
      ∃ name ts', ts = .name name :: .opening :: ts' ∧ Reads (callBody rule name) ts' e rest := by
  constructor
  · rintro ⟨hlt, h⟩
    unfold primary at h
    split at h
    · nomatch h
    · next n ts =>
      cases h
      exact .inl ⟨n, rfl, rfl⟩
    · next s ts =>
      cases h
      exact .inr (.inl ⟨s, rfl, rfl⟩)
    · next ts =>
      cases hinner : expression rule ts with
      | error err => simp [hinner] at h
      | ok inner =>
          cases hclosed : closed inner.rest with
          | error err => simp [hinner, hclosed, Except.map] at h
          | ok behind =>
              simp only [hinner, hclosed] at h
              cases h
              -- What is left behind the group begins with the parenthesis that was checked for.
              have hreads : Reads (expression rule) ts inner.tree inner.rest :=
                ⟨inner.shorter, hinner⟩
              rw [eq_closing_of_closed hclosed] at hreads
              exact .inr (.inr (.inl ⟨ts, rfl, hreads⟩))
    · next name ts =>
      cases hbody : callBody rule name ts with
      | error err => simp [hbody, Except.map] at h
      | ok body =>
          rw [hbody] at h
          cases h
          exact .inr (.inr (.inr ⟨name, ts, rfl, body.shorter, hbody⟩))
    · nomatch h
    · nomatch h
  · rintro (⟨n, rfl, rfl⟩ | ⟨s, rfl, rfl⟩ | ⟨ts, rfl, ⟨_, hinner⟩⟩ |
      ⟨name, ts, rfl, ⟨_, hbody⟩⟩)
    · exact ⟨_, rfl⟩
    · exact ⟨_, rfl⟩
    · unfold Reads primary
      dsimp only
      rw [hinner]
      exact ⟨_, rfl⟩
    · unfold Reads primary
      dsimp only
      rw [hbody]
      exact ⟨_, rfl⟩

/-- A power stands behind its base, or the base stands alone. -/
theorem raised_eq_ok_iff {base : Tree} {behind : List Token} (hlt : behind.length < ts.length) :
    (∃ h, raised rule (⟨base, behind, hlt⟩ : Parsed ts) = .ok ⟨e, rest, h⟩) ↔
      (∃ ts' exponent, behind = .operator .power :: ts' ∧ Reads rule ts' exponent rest ∧
        e = .binary .pow base exponent) ∨
      (∀ ts', behind ≠ .operator .power :: ts') ∧ e = base ∧ rest = behind := by
  constructor
  · rintro ⟨hrest, h⟩
    unfold raised at h
    dsimp only at h
    split at h
    · next ts' =>
      cases hexponent : rule ts' with
      | error err => simp [hexponent, Except.map] at h
      | ok exponent =>
          rw [hexponent] at h
          cases h
          exact .inl ⟨ts', exponent.tree, rfl, ⟨exponent.shorter, hexponent⟩, rfl⟩
    · next hother =>
      cases h
      exact .inr ⟨hother, rfl, rfl⟩
  · rintro (⟨ts', exponent, rfl, ⟨_, hexponent⟩, rfl⟩ | ⟨hother, rfl, rfl⟩)
    · unfold raised
      dsimp only
      rw [hexponent]
      exact ⟨_, rfl⟩
    · refine ⟨hlt, ?_⟩
      unfold raised
      dsimp only
      split
      · exact absurd rfl (hother _)
      · rfl

end Rules

namespace Derivation

def Additive.signedTree (e : Tree) : Additive → Tree
  | .plus => .positive e
  | .minus => .negative e

end Derivation

section Operands

variable {levels : Nat} {ts rest : List Token} {e : Tree}

/-- Without a level left nothing is read. -/
theorem not_reads_operand_zero : ¬ Reads (operand 0) ts e rest := by
  rintro ⟨_, h⟩
  nomatch h

/-- A rule whose tree is put into another one, behind more tokens. -/
theorem map_eq_ok_iff {ts' : List Token} {x : Except Error (Parsed ts)} (g : Tree → Tree)
    (hlt : ∀ r : Parsed ts, r.rest.length < ts'.length) :
    (∃ h, x.map (fun r => (⟨g r.tree, r.rest, hlt r⟩ : Parsed ts')) = .ok ⟨e, rest, h⟩) ↔
      ∃ e', (∃ h, x = .ok ⟨e', rest, h⟩) ∧ e = g e' := by
  constructor
  · rintro ⟨_, h⟩
    cases x with
    | error err => nomatch h
    | ok r =>
        cases h
        exact ⟨r.tree, ⟨r.shorter, rfl⟩, rfl⟩
  · rintro ⟨e', ⟨_, rfl⟩, rfl⟩
    exact ⟨_, rfl⟩

/-- A sign takes one level, and the operand behind it has the others. -/
theorem reads_operand_sign_iff (sign : Derivation.Additive) :
    Reads (operand (levels + 1)) (sign.token :: ts) e rest ↔
      ∃ e', Reads (operand levels) ts e' rest ∧ e = sign.signedTree e' := by
  cases sign with
  | plus => exact map_eq_ok_iff .positive _
  | minus => exact map_eq_ok_iff .negative _

/-- Without a sign an operand is a primary, with its power if one follows; the exponent is an operand
again. -/
theorem reads_operand_primary_iff (hsign : ∀ (sign : Derivation.Additive) ts', ts ≠ sign.token :: ts') :
    Reads (operand (levels + 1)) ts e rest ↔
      ∃ base behind, Reads (primary (operand levels)) ts base behind ∧
        ((∃ ts' exponent, behind = .operator .power :: ts' ∧
          Reads (operand levels) ts' exponent rest ∧ e = .binary .pow base exponent) ∨
        (∀ ts', behind ≠ .operator .power :: ts') ∧ e = base ∧ rest = behind) := by
  have hoperand : operand (levels + 1) ts =
      (primary (operand levels) ts).bind fun base => raised (operand levels) base := by
    have hminus : ∀ ts', ts = .operator .minus :: ts' → False := hsign .minus
    have hplus : ∀ ts', ts = .operator .plus :: ts' → False := hsign .plus
    refine (operand.eq_4 ts levels hminus hplus).trans ?_
    cases primary (operand levels) ts <;> rfl
  constructor
  · rintro ⟨_, h⟩
    rw [hoperand] at h
    cases hbase : primary (operand levels) ts with
    | error err => simp [hbase, Except.bind] at h
    | ok base =>
        rw [hbase] at h
        exact ⟨base.tree, base.rest, ⟨base.shorter, hbase⟩, (raised_eq_ok_iff _).1 ⟨_, h⟩⟩
  · rintro ⟨base, behind, ⟨hlt, hbase⟩, hraised⟩
    rcases (raised_eq_ok_iff hlt).2 hraised with ⟨hrest, h⟩
    refine ⟨hrest, ?_⟩
    rw [hoperand, hbase]
    exact h

end Operands

/-- The whole of the tokens has to be one expression. -/
theorem parse_eq_ok_iff {ts : List Token} {e : Tree} :
    parse ts = .ok e ↔ Reads (expression (operand levelLimit)) ts e [] := by
  unfold parse Reads
  cases hread : expression (operand levelLimit) ts with
  | error err => simp
  | ok r =>
      rcases r with ⟨tree, rest, hlt⟩
      cases rest with
      | nil =>
          constructor
          · intro h
            cases h
            exact ⟨hlt, rfl⟩
          · rintro ⟨_, h⟩
            cases h
            rfl
      | cons t rest => simp

/-! ## Operators and functions by their tokens -/

/-- A function is known by its word and by no other. -/
theorem Function.ofName?_eq_some_iff {word : String} {f : Function} :
    Function.ofName? word = some f ↔ word = f.word := by
  constructor
  · intro h
    unfold Function.ofName? at h
    split at h <;> cases h <;> rfl
  · rintro rfl
    cases f <;> rfl

/-- A call is one of a function with its argument, or one that joins its arguments. -/
theorem call_eq_ok_iff {name : String} {es : List Tree} {e : Tree} :
    call name es = .ok e ↔
      (∃ f argument, IsCalled f.word name ∧ es = [argument] ∧ e = .apply f argument) ∨
      IsCalled "concat" name ∧ e = Tree.joinAll es := by
  have hconcat_iff : IsCalled "concat" name ↔ bareName name = "concat" := isCalled_iff (by decide)
  unfold call
  by_cases hconcat : bareName name = "concat"
  · have hnone (f : Function) : ¬ IsCalled f.word name :=
      fun hf => Function.not_isCalled_concat hf (hconcat_iff.2 hconcat)
    simp [hconcat, hnone, hconcat_iff, eq_comm]
  · have hcalled (f : Function) : IsCalled f.word name ↔ Function.ofName? (bareName name) = some f := by
      rw [isCalled_iff f.dot_notMem_word, Function.ofName?_eq_some_iff]
    simp only [hconcat, if_false, hcalled, hconcat_iff, false_and, or_false]
    cases Function.ofName? (bareName name) with
    | none => simp
    | some f =>
        match es with
        | [] => simp
        | [argument] => simp [eq_comm]
        | _ :: _ :: _ => simp

namespace Derivation

def Additive.binary : Additive → Binary
  | .plus => .add
  | .minus => .sub

def Multiplicative.binary : Multiplicative → Binary
  | .times => .mul
  | .over => .div
  | .modulo => .rem

theorem Additive.value_binary (arith : Arithmetic) (op : Additive) (x y : Value) :
    op.binary.value arith x y = op.value arith x y := by
  cases op <;> cases x <;> cases y <;> rfl

theorem Multiplicative.value_binary (arith : Arithmetic) (op : Multiplicative) (x y : Value) :
    op.binary.value arith x y = op.value arith x y := by
  cases op <;> rfl

end Derivation

theorem sumOperator?_token (op : Derivation.Additive) : sumOperator? op.token = some op.binary := by
  cases op <;> rfl

theorem productOperator?_token (op : Derivation.Multiplicative) :
    productOperator? op.token = some op.binary := by
  cases op <;> rfl

/-- The operators of sums are the two signs. -/
theorem eq_token_of_sumOperator? {t : Token} {op : Binary} (h : sumOperator? t = some op) :
    ∃ op' : Derivation.Additive, t = op'.token ∧ op = op'.binary := by
  unfold sumOperator? at h
  split at h
  · exact ⟨.plus, rfl, (Option.some.inj h).symm⟩
  · exact ⟨.minus, rfl, (Option.some.inj h).symm⟩
  · nomatch h

/-- The operators of products are the three others. -/
theorem eq_token_of_productOperator? {t : Token} {op : Binary}
    (h : productOperator? t = some op) :
    ∃ op' : Derivation.Multiplicative, t = op'.token ∧ op = op'.binary := by
  unfold productOperator? at h
  split at h
  · exact ⟨.times, rfl, (Option.some.inj h).symm⟩
  · exact ⟨.over, rfl, (Option.some.inj h).symm⟩
  · exact ⟨.modulo, rfl, (Option.some.inj h).symm⟩
  · nomatch h

end MacroReplay.Expression
