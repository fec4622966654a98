import MacroReplay.Proofs.Expression.Rules

/-!
# The parser and the grammar

The parser accepts exactly the tokens that the grammar derives at most 256 operands deep, and what it
returns has the value of their derivation.

* `operand_sound` and the statements before it — what is read is derived, with its value;
* `Unary.reads` and the statements around it — what is derived is read, up to the tokens behind it;
* `parse_value_eq_ok_iff` — whole expressions.
-/

namespace MacroReplay.Expression

open MacroReplay.Expression.Derivation

variable {arith : Arithmetic} {levels : Nat} {rule : Rule} {ts rest : List Token} {e : Tree}

/-! ## What is read is derived -/

/-- A derivation with these tokens, depth and value stands for a tree that was read from the front of
some tokens. -/
structure Explains (arith : Arithmetic) (levels : Nat) (tokens : List Token) (depth : Nat)
    (value : Value) (ts : List Token) (e : Tree) (rest : List Token) : Prop where
  tokens_eq : ts = tokens ++ rest
  depth_le : depth ≤ levels
  value_eq : e.value arith = value

/-- All that a rule reads are operands, nested so deep at most. -/
def ReadsOperands (arith : Arithmetic) (levels : Nat) (rule : Rule) : Prop :=
  ∀ {ts rest : List Token} {e : Tree}, Reads rule ts e rest →
    ∃ u : Unary, Explains arith levels u.tokens u.depth (u.value arith) ts e rest

/-- A chain that was read is derived, if each of its links is. The induction is on the tokens: an operand
takes at least one of them. -/
theorem continues_sound {operator? : Token → Option Binary} {τ : Type} {tokens : τ → List Token}
    {depth : τ → Nat} {value : Value → τ → Value} (none : τ)
    (hnone : tokens none = [] ∧ depth none ≤ levels ∧ ∀ left, value left none = left)
    (hlink : ∀ {t op ts right behind}, operator? t = some op → Reads rule ts right behind →
      ∃ (operand : List Token) (link : τ → τ), ts = operand ++ behind ∧
        ∀ more, tokens (link more) = t :: (operand ++ tokens more) ∧
          (depth more ≤ levels → depth (link more) ≤ levels) ∧
          ∀ left, value left (link more) =
            value (op.value arith left (right.value arith)) more)
    {left : Tree} (h : Continues operator? rule left ts e rest) :
    ∃ more, Explains arith levels (tokens more) (depth more) (value (left.value arith) more)
      ts e rest := by
  rcases hnone with ⟨htokens, hdepth, hvalue⟩
  induction hlength : ts.length using Nat.strongRecOn generalizing ts left with
  | ind n ih =>
      cases ts with
      | nil =>
          obtain ⟨rfl, rfl⟩ := continues_nil_iff.1 h
          exact ⟨none, by rw [htokens]; rfl, hdepth, (hvalue _).symm⟩
      | cons t ts =>
          rcases continues_cons_iff.1 h with ⟨-, rfl, rfl⟩ | ⟨op, right, behind, hop, hright, hmore⟩
          · exact ⟨none, by rw [htokens]; rfl, hdepth, (hvalue _).symm⟩
          · -- An operator and its right operand make one more link of the chain, and shorten what
            -- is left to read.
            rcases hlink hop hright with ⟨operand, link, rfl, hlinked⟩
            have hless : behind.length < n := by
              simp only [List.length_cons, List.length_append] at hlength
              omega
            rcases ih _ hless hmore rfl with ⟨more, hexplains⟩
            rcases hlinked more with ⟨htokens', hdepth', hvalue'⟩
            refine ⟨link more, ?_, hdepth' hexplains.depth_le, ?_⟩
            · rw [htokens', hexplains.tokens_eq]
              simp
            · rw [hvalue']
              exact hexplains.value_eq

/-- What is read as a product is a term. -/
theorem product_sound (hrule : ReadsOperands arith levels rule)
    (h : Reads (product rule) ts e rest) :
    ∃ t : Term, Explains arith levels t.tokens t.depth (t.value arith) ts e rest := by
  rcases reads_chained_iff.1 h with ⟨first, behind, hfirst, hchain⟩
  rcases hrule hfirst with ⟨u, hu⟩
  have hmore : ∃ more : MoreUnaries, Explains arith levels more.tokens more.depth
      (more.value arith (first.value arith)) behind e rest := by
    refine continues_sound .none ⟨rfl, Nat.zero_le _, fun _ => rfl⟩ ?_ hchain
    intro t op ts right behind hop hright
    rcases eq_token_of_productOperator? hop with ⟨op, rfl, rfl⟩
    rcases hrule hright with ⟨u, hu⟩
    refine ⟨u.tokens, .link op u, hu.tokens_eq, fun more => ⟨rfl, ?_, fun left => ?_⟩⟩
    · exact fun hle => Nat.max_le.2 ⟨hu.depth_le, hle⟩
    · rw [MoreUnaries.value, ← hu.value_eq, op.value_binary]
  rcases hmore with ⟨more, hmore⟩
  refine ⟨.of u more, ?_, Nat.max_le.2 ⟨hu.depth_le, hmore.depth_le⟩, ?_⟩
  · rw [Term.tokens, List.append_assoc, ← hmore.tokens_eq]
    exact hu.tokens_eq
  · rw [Term.value, ← hu.value_eq]
    exact hmore.value_eq

/-- What is read as an expression is one. -/
theorem expression_sound (hrule : ReadsOperands arith levels rule)
    (h : Reads (expression rule) ts e rest) :
    ∃ d : Expr, Explains arith levels d.tokens d.depth (d.value arith) ts e rest := by
  rcases reads_chained_iff.1 h with ⟨first, behind, hfirst, hchain⟩
  rcases product_sound hrule hfirst with ⟨t, ht⟩
  have hmore : ∃ more : MoreTerms, Explains arith levels more.tokens more.depth
      (more.value arith (first.value arith)) behind e rest := by
    refine continues_sound .none ⟨rfl, Nat.zero_le _, fun _ => rfl⟩ ?_ hchain
    intro s op ts right behind hop hright
    rcases eq_token_of_sumOperator? hop with ⟨op, rfl, rfl⟩
    rcases product_sound hrule hright with ⟨t, ht⟩
    refine ⟨t.tokens, .link op t, ht.tokens_eq, fun more => ⟨rfl, ?_, fun left => ?_⟩⟩
    · exact fun hle => Nat.max_le.2 ⟨ht.depth_le, hle⟩
    · rw [MoreTerms.value, ← ht.value_eq, op.value_binary]
  rcases hmore with ⟨more, hmore⟩
  refine ⟨.of t more, ?_, Nat.max_le.2 ⟨ht.depth_le, hmore.depth_le⟩, ?_⟩
  · rw [Expr.tokens, List.append_assoc, ← hmore.tokens_eq]
    exact ht.tokens_eq
  · rw [Expr.value, ← ht.value_eq]
    exact hmore.value_eq

/-- Arguments that are read are at least one. -/
theorem ReadsAll.ne_nil {es : List Tree} (h : ReadsAll rule ts es rest) : es ≠ [] := by
  rcases readsAll_iff.1 h with ⟨_, _, _, ⟨_, _, _, _, rfl⟩ | ⟨_, rfl, _⟩⟩ <;> simp

/-- A single argument is read by its rule. -/
theorem ReadsAll.single (h : ReadsAll rule ts [e] rest) : Reads rule ts e rest := by
  rcases readsAll_iff.1 h with
    ⟨first, behind, hfirst, ⟨ts', es', rfl, hmore, hes⟩ | ⟨_, hes, rfl⟩⟩
  · exact absurd (List.cons.inj hes).2.symm hmore.ne_nil
  · cases hes
    exact hfirst

/-- What is read as arguments are expressions with commas between them. -/
theorem arguments_sound (hrule : ReadsOperands arith levels rule) {es : List Tree}
    (h : ReadsAll (expression rule) ts es rest) :
    ∃ args : Args, Explains arith levels args.tokens args.depth (.text (args.joined arith)) ts
      (Tree.joinAll es) rest := by
  induction es generalizing ts with
  | nil => exact absurd rfl h.ne_nil
  | cons first es ih =>
      rcases readsAll_iff.1 h with
        ⟨e, behind, hfirst, ⟨ts', es', rfl, hmore, hes⟩ | ⟨_, hes, rfl⟩⟩
      · cases hes
        rcases expression_sound hrule hfirst with ⟨d, hd⟩
        rcases ih hmore with ⟨args, hargs⟩
        refine ⟨.cons d args, ?_, Nat.max_le.2 ⟨hd.depth_le, hargs.depth_le⟩, ?_⟩
        · rw [Args.tokens, List.append_assoc, List.cons_append, ← hargs.tokens_eq]
          exact hd.tokens_eq
        · rw [Tree.joinAll, Tree.value, hargs.value_eq, hd.value_eq, Args.joined]
          rfl
      · cases hes
        rcases expression_sound hrule hfirst with ⟨d, hd⟩
        refine ⟨.last d, hd.tokens_eq, hd.depth_le, ?_⟩
        simp [Tree.joinAll, Tree.value, hd.value_eq, Args.joined, Value.renderWith]

/-- What is read as a call is one, with a number of arguments that its function takes. -/
theorem call_sound (hrule : ReadsOperands arith levels rule) {name : String}
    (h : Reads (callBody rule name) ts e rest) :
    ∃ p : Primary, Explains arith levels p.tokens p.depth (p.value arith)
      (.name name :: .opening :: ts) e rest := by
  rcases reads_callBody_iff.1 h with ⟨rfl, hcall⟩ | ⟨-, es, hargs, hcall⟩
  · rcases call_eq_ok_iff.1 hcall with ⟨f, argument, _, hes, _⟩ | ⟨hname, rfl⟩
    · nomatch hes
    · exact ⟨.concatNone name hname, rfl, Nat.zero_le _, rfl⟩
  · rcases call_eq_ok_iff.1 hcall with ⟨f, argument, hname, rfl, rfl⟩ | ⟨hname, rfl⟩
    · rcases expression_sound hrule hargs.single with ⟨d, hd⟩
      refine ⟨.apply f name hname d, ?_, hd.depth_le, ?_⟩
      · simp [Primary.tokens, hd.tokens_eq]
      · rw [Tree.value, hd.value_eq, Primary.value]
        cases f <;> rfl
    · rcases arguments_sound hrule hargs with ⟨args, hexplains⟩
      refine ⟨.concat name hname args, ?_, hexplains.depth_le, hexplains.value_eq⟩
      simp [Primary.tokens, hexplains.tokens_eq]

/-- What is read as a primary is one. -/
theorem primary_sound (hrule : ReadsOperands arith levels rule)
    (h : Reads (primary rule) ts e rest) :
    ∃ p : Primary, Explains arith levels p.tokens p.depth (p.value arith) ts e rest := by
  rcases reads_primary_iff.1 h with
    ⟨n, rfl, rfl⟩ | ⟨s, rfl, rfl⟩ | ⟨ts', rfl, hinner⟩ | ⟨name, ts', rfl, hbody⟩
  · exact ⟨.number n, rfl, Nat.zero_le _, rfl⟩
  · exact ⟨.text s, rfl, Nat.zero_le _, rfl⟩
  · rcases expression_sound hrule hinner with ⟨d, hd⟩
    refine ⟨.group d, ?_, hd.depth_le, hd.value_eq⟩
    simp [Primary.tokens, hd.tokens_eq]
  · exact call_sound hrule hbody

/-- What the parser reads as an operand is derived as one. The induction is on the levels: all that
stands inside an operand is read with one level less. -/
theorem operand_sound (arith : Arithmetic) (levels : Nat) :
    ReadsOperands arith levels (operand levels) := by
  induction levels with
  | zero =>
      intro ts rest e h
      exact absurd h not_reads_operand_zero
  | succ levels ih =>
      intro ts rest e h
      by_cases hsign : ∃ (sign : Additive) (ts' : List Token), ts = sign.token :: ts'
      · rcases hsign with ⟨sign, ts', rfl⟩
        rcases (reads_operand_sign_iff sign).1 h with ⟨e', hinner, rfl⟩
        rcases ih hinner with ⟨u, hu⟩
        refine ⟨.signed sign u, ?_, Nat.succ_le_succ hu.depth_le, ?_⟩
        · rw [hu.tokens_eq]
          rfl
        · rw [Unary.value, ← hu.value_eq]
          cases sign <;> rfl
      · have hplain : ∀ (sign : Additive) ts', ts ≠ sign.token :: ts' :=
          fun sign ts' hts => hsign ⟨sign, ts', hts⟩
        rcases (reads_operand_primary_iff hplain).1 h with ⟨base, behind, hbase, hraised⟩
        rcases primary_sound ih hbase with ⟨p, hp⟩
        -- The exponent is an operand again, so it is read with one level less, as the base is.
        rcases hraised with ⟨ts', exponent, rfl, hexponent, rfl⟩ | ⟨-, rfl, rfl⟩
        · rcases ih hexponent with ⟨u, hu⟩
          refine ⟨.power p u, ?_,
            Nat.succ_le_succ (Nat.max_le.2 ⟨hp.depth_le, hu.depth_le⟩), ?_⟩
          · rw [Unary.tokens, List.append_assoc, List.cons_append, ← hu.tokens_eq]
            exact hp.tokens_eq
          · rw [Unary.value, ← hp.value_eq, ← hu.value_eq]
            rfl
        · exact ⟨.plain p, hp.tokens_eq, Nat.succ_le_succ hp.depth_le, hp.value_eq⟩

/-! ## What is derived is read -/

/-- A chain ends before a token that is none of its operators. -/
theorem continues_stop {operator? : Token → Option Binary} {left : Tree}
    (h : ∀ t ∈ rest.head?, operator? t = none) : Continues operator? rule left rest left rest := by
  cases rest with
  | nil => exact continues_nil_iff.2 ⟨rfl, rfl⟩
  | cons t rest => exact continues_cons_iff.2 (.inl ⟨h t rfl, rfl, rfl⟩)

/-- What stops a sum is no sign. -/
theorem StopsAt.sumOperator? (h : StopsAt 2 rest) :
    ∀ t ∈ rest.head?, Expression.sumOperator? t = none := by
  intro t ht
  cases hop : Expression.sumOperator? t with
  | none => rfl
  | some op =>
      rcases eq_token_of_sumOperator? hop with ⟨op, rfl, -⟩
      exact absurd (h _ ht) (by rw [op.rank_token]; decide)

/-- What stops a product is no operator of products. -/
theorem StopsAt.productOperator? (h : StopsAt 3 rest) :
    ∀ t ∈ rest.head?, Expression.productOperator? t = none := by
  intro t ht
  cases hop : Expression.productOperator? t with
  | none => rfl
  | some op =>
      rcases eq_token_of_productOperator? hop with ⟨op, rfl, -⟩
      exact absurd (h _ ht) (by rw [op.rank_token]; decide)

mutual

/-- An expression within the levels is read, up to what stops it. -/
theorem Derivation.Expr.reads (d : Expr) {levels : Nat} {rest : List Token}
    (hdepth : d.depth ≤ levels) (hrest : StopsAt 2 rest) :
    ∃ e, Reads (expression (operand levels)) (d.tokens ++ rest) e rest := by
  match d with
  | .of first more =>
      obtain ⟨hfirst, hmore⟩ := Nat.max_le.1 hdepth
      rw [Expr.tokens, List.append_assoc]
      rcases first.reads hfirst (more.stopsAt hrest) with ⟨left, hleft⟩
      rcases more.continues hmore hrest left with ⟨e, he⟩
      exact ⟨e, reads_chained_iff.2 ⟨left, _, hleft, he⟩⟩

/-- The rest of a sum is read behind any tree. -/
theorem Derivation.MoreTerms.continues (more : MoreTerms) {levels : Nat} {rest : List Token}
    (hdepth : more.depth ≤ levels) (hrest : StopsAt 2 rest) (left : Tree) :
    ∃ e, Continues sumOperator? (product (operand levels)) left (more.tokens ++ rest) e rest := by
  match more with
  | .none => exact ⟨left, continues_stop (StopsAt.sumOperator? hrest)⟩
  | .link op t more =>
      obtain ⟨ht, hmore⟩ := Nat.max_le.1 hdepth
      rw [MoreTerms.tokens, List.cons_append, List.append_assoc]
      rcases t.reads ht (more.stopsAt hrest) with ⟨right, hright⟩
      rcases more.continues hmore hrest (.binary op.binary left right) with ⟨e, he⟩
      exact ⟨e, continues_cons_iff.2 (.inr ⟨_, right, _, sumOperator?_token op, hright, he⟩)⟩

/-- A term is read up to what stops it. -/
theorem Derivation.Term.reads (t : Term) {levels : Nat} {rest : List Token}
    (hdepth : t.depth ≤ levels) (hrest : StopsAt 3 rest) :
    ∃ e, Reads (product (operand levels)) (t.tokens ++ rest) e rest := by
  match t with
  | .of first more =>
      obtain ⟨hfirst, hmore⟩ := Nat.max_le.1 hdepth
      rw [Term.tokens, List.append_assoc]
      rcases first.reads hfirst (more.stopsAt hrest) with ⟨left, hleft⟩
      rcases more.continues hmore hrest left with ⟨e, he⟩
      exact ⟨e, reads_chained_iff.2 ⟨left, _, hleft, he⟩⟩

/-- The rest of a product is read behind any tree. -/
theorem Derivation.MoreUnaries.continues (more : MoreUnaries) {levels : Nat} {rest : List Token}
    (hdepth : more.depth ≤ levels) (hrest : StopsAt 3 rest) (left : Tree) :
    ∃ e, Continues productOperator? (operand levels) left (more.tokens ++ rest) e rest := by
  match more with
  | .none => exact ⟨left, continues_stop (StopsAt.productOperator? hrest)⟩
  | .link op u more =>
      obtain ⟨hu, hmore⟩ := Nat.max_le.1 hdepth
      rw [MoreUnaries.tokens, List.cons_append, List.append_assoc]
      rcases u.reads hu (more.stopsAt hrest) with ⟨right, hright⟩
      rcases more.continues hmore hrest (.binary op.binary left right) with ⟨e, he⟩
      exact ⟨e, continues_cons_iff.2 (.inr ⟨_, right, _, productOperator?_token op, hright, he⟩)⟩

/-- A signed operand takes a level for each sign. -/
theorem Derivation.Unary.reads (u : Unary) {levels : Nat} {rest : List Token}
    (hdepth : u.depth ≤ levels) (hrest : StopsAt 4 rest) :
    ∃ e, Reads (operand levels) (u.tokens ++ rest) e rest := by
  -- An operand is a level of its own, so there is one left for it.
  obtain ⟨left, rfl⟩ : ∃ left, levels = left + 1 :=
    ⟨levels - 1, by cases u <;> simp only [Unary.depth] at hdepth <;> omega⟩
  match u with
  | .signed sign u =>
      rcases u.reads (Nat.le_of_succ_le_succ hdepth) hrest with ⟨e, he⟩
      exact ⟨_, (reads_operand_sign_iff sign).2 ⟨e, he, rfl⟩⟩
  | .plain p =>
      rcases p.reads (Nat.le_of_succ_le_succ hdepth) with ⟨base, hbase⟩
      -- Without this the parser would take the primary for a base.
      have hpower : ∀ ts', rest ≠ .operator .power :: ts' := by
        rintro ts' rfl
        exact not_stopsAt_cons (by decide) hrest
      refine ⟨base, (reads_operand_primary_iff ?_).2 ⟨base, rest, hbase, .inr ⟨hpower, rfl, rfl⟩⟩⟩
      exact fun sign ts' h => p.tokens_ne_sign sign h.symm
  | .power p exponent =>
      obtain ⟨hp, hexponent⟩ := Nat.max_le.1 (Nat.le_of_succ_le_succ hdepth)
      rw [Unary.tokens, List.append_assoc, List.cons_append]
      rcases p.reads hp with ⟨base, hbase⟩
      rcases exponent.reads hexponent hrest with ⟨e, he⟩
      refine ⟨_, (reads_operand_primary_iff ?_).2 ⟨base, _, hbase, .inl ⟨_, e, rfl, he, rfl⟩⟩⟩
      exact fun sign ts' h => p.tokens_ne_sign sign h.symm

/-- A primary is read whatever follows. -/
theorem Derivation.Primary.reads (p : Primary) {levels : Nat} {rest : List Token}
    (hdepth : p.depth ≤ levels) :
    ∃ e, Reads (primary (operand levels)) (p.tokens ++ rest) e rest := by
  match p with
  | .number n => exact ⟨_, reads_primary_iff.2 (.inl ⟨n, rfl, rfl⟩)⟩
  | .text s => exact ⟨_, reads_primary_iff.2 (.inr (.inl ⟨s, rfl, rfl⟩))⟩
  | .group d =>
      rcases d.reads hdepth (stopsAt_cons .closing rest (by decide)) with ⟨e, he⟩
      refine ⟨e, reads_primary_iff.2 (.inr (.inr (.inl ⟨_, ?_, he⟩)))⟩
      simp [Primary.tokens]
  | .apply f name hname argument =>
      rcases argument.reads hdepth (stopsAt_cons .closing rest (by decide)) with ⟨e, he⟩
      have hbody : Reads (callBody (operand levels) name) (argument.tokens ++ .closing :: rest)
          (.apply f e) rest := by
        refine reads_callBody_iff.2 (.inr ⟨?_, [e], ?_, ?_⟩)
        · -- The argument does not begin with the parenthesis that would end an empty list.
          exact fun ts' h => (Args.last argument).tokens_ne_closing h.symm
        · exact readsAll_iff.2 ⟨e, _, he, .inr ⟨nofun, rfl, rfl⟩⟩
        · exact call_eq_ok_iff.2 (.inl ⟨f, e, hname, rfl, rfl⟩)
      refine ⟨_, reads_primary_iff.2 (.inr (.inr (.inr ⟨name, _, ?_, hbody⟩)))⟩
      simp [Primary.tokens]
  | .concatNone name hname =>
      have hbody : Reads (callBody (operand levels) name) (.closing :: rest) (Tree.joinAll [])
          rest :=
        reads_callBody_iff.2 (.inl ⟨rfl, call_eq_ok_iff.2 (.inr ⟨hname, rfl⟩)⟩)
      exact ⟨_, reads_primary_iff.2 (.inr (.inr (.inr ⟨name, _, rfl, hbody⟩)))⟩
  | .concat name hname args =>
      rcases args.readsAll hdepth (stopsAt_cons .closing rest (by decide)) with ⟨es, hes⟩
      have hbody : Reads (callBody (operand levels) name) (args.tokens ++ .closing :: rest)
          (Tree.joinAll es) rest := by
        refine reads_callBody_iff.2 (.inr ⟨?_, es, hes, ?_⟩)
        · exact fun ts' h => args.tokens_ne_closing h.symm
        · exact call_eq_ok_iff.2 (.inr ⟨hname, rfl⟩)
      refine ⟨_, reads_primary_iff.2 (.inr (.inr (.inr ⟨name, _, ?_, hbody⟩)))⟩
      simp [Primary.tokens]

/-- Arguments are read up to what stops them. -/
theorem Derivation.Args.readsAll (args : Args) {levels : Nat} {rest : List Token}
    (hdepth : args.depth ≤ levels) (hrest : StopsAt 1 rest) :
    ∃ es, ReadsAll (expression (operand levels)) (args.tokens ++ rest) es rest := by
  match args with
  | .last d =>
      rcases d.reads hdepth (hrest.mono (by decide)) with ⟨e, he⟩
      refine ⟨[e], readsAll_iff.2 ⟨e, rest, he, .inr ⟨?_, rfl, rfl⟩⟩⟩
      rintro ts' rfl
      exact not_stopsAt_cons (by decide) hrest
  | .cons d more =>
      obtain ⟨hd, hmore⟩ := Nat.max_le.1 hdepth
      rw [Args.tokens, List.append_assoc, List.cons_append]
      rcases d.reads hd (stopsAt_cons .comma _ (by decide)) with ⟨e, he⟩
      rcases more.readsAll hmore hrest with ⟨es, hes⟩
      exact ⟨e :: es, readsAll_iff.2 ⟨e, _, he, .inl ⟨_, es, rfl, hes, rfl⟩⟩⟩

end

/-! ## Whole expressions -/

/-- Tokens with a derivation have its value. -/
theorem parse_tokens (arith : Arithmetic) {d : Expr} (hdepth : d.depth ≤ 256) :
    (parse d.tokens).map (Tree.value arith) = .ok (d.value arith) := by
  have hreads : ∃ e, Reads (expression (operand levelLimit)) (d.tokens ++ []) e [] :=
    d.reads hdepth (stopsAt_nil 2)
  obtain ⟨e, he⟩ := hreads
  rw [List.append_nil] at he
  obtain ⟨d', hd'⟩ := expression_sound (operand_sound arith levelLimit) he
  have hsame : d' = d := Expr.tokens_injective (by rw [hd'.tokens_eq, List.append_nil])
  rw [parse_eq_ok_iff.2 he, ← hsame]
  exact congrArg Except.ok hd'.value_eq

/-- The parser finds a value for a list of tokens exactly if they have a derivation that nests operands
at most 256 deep, and it is the value of that derivation, of which there is one at most. -/
theorem parse_value_eq_ok_iff (arith : Arithmetic) (ts : List Token) :
    (∀ d d' : Expr, d.tokens = ts → d'.tokens = ts → d = d') ∧
      ∀ v, (parse ts).map (Tree.value arith) = .ok v ↔
        ∃ d : Expr, d.tokens = ts ∧ d.depth ≤ 256 ∧ d.value arith = v := by
  refine ⟨fun d d' h h' => Expr.tokens_injective (h.trans h'.symm), fun v => ?_⟩
  have hsound {e : Tree} (he : parse ts = .ok e) :
      ∃ d : Expr, d.tokens = ts ∧ d.depth ≤ 256 ∧ d.value arith = e.value arith := by
    rcases expression_sound (operand_sound arith levelLimit) (parse_eq_ok_iff.1 he) with ⟨d, hd⟩
    exact ⟨d, by rw [hd.tokens_eq, List.append_nil], hd.depth_le, hd.value_eq.symm⟩
  constructor
  · intro h
    cases he : parse ts with
    | error err => simp [he, Except.map] at h
    | ok e =>
        rcases hsound he with ⟨d, htokens, hdepth, hvalue⟩
        rw [he] at h
        cases h
        exact ⟨d, htokens, hdepth, hvalue⟩
  · rintro ⟨d, rfl, hdepth, rfl⟩
    -- The parser accepts the tokens; what it then returns has a derivation, and that is this one.
    have hreads : ∃ e, Reads (expression (operand levelLimit)) (d.tokens ++ []) e [] :=
      d.reads hdepth (stopsAt_nil 2)
    rcases hreads with ⟨e, he⟩
    rw [List.append_nil] at he
    have hparse := parse_eq_ok_iff.2 he
    rcases hsound hparse with ⟨d', htokens, -, hvalue⟩
    obtain rfl := Expr.tokens_injective htokens
    rw [hparse, hvalue]
    rfl

end MacroReplay.Expression
