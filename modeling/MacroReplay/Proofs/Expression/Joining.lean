import Mathlib.Data.List.Infix
import MacroReplay.Proofs.Expression.Parsing

/-!
# Joining expressions

Operands nest; chains of operators and lists of arguments do not. So what is within the limit of levels
stays there, however much of it is joined.

* `accepted_linked` — expressions with operators between them are an expression;
* `parse_callOf` — a function is called with any number of arguments.
-/

namespace MacroReplay.Expression

open MacroReplay.Expression.Derivation

variable {ts : List Token} {levels : Nat}

/-- The tokens are those of an expression within the limit of levels. -/
def Accepted (ts : List Token) : Prop :=
  ∃ e, parse ts = .ok e

/-- Tokens are accepted if they have a derivation within the limit. -/
theorem accepted_iff : Accepted ts ↔ ∃ d : Expr, d.tokens = ts ∧ d.depth ≤ levelLimit := by
  constructor
  · rintro ⟨e, he⟩
    obtain ⟨d, hd⟩ :=
      expression_sound (operand_sound Number.binary64 levelLimit) (parse_eq_ok_iff.1 he)
    exact ⟨d, by rw [hd.tokens_eq, List.append_nil], hd.depth_le⟩
  · rintro ⟨d, rfl, hdepth⟩
    obtain ⟨e, he⟩ := d.reads hdepth (stopsAt_nil 2)
    rw [List.append_nil] at he
    exact ⟨e, parse_eq_ok_iff.2 he⟩

/-! ## Operators -/

namespace Derivation

def MoreUnaries.append : MoreUnaries → MoreUnaries → MoreUnaries
  | .none, more => more
  | .link op u us, more => .link op u (us.append more)

def MoreTerms.append : MoreTerms → MoreTerms → MoreTerms
  | .none, more => more
  | .link op t terms, more => .link op t (terms.append more)

/-- A longer chain has the tokens of both parts, in a product as in a sum. -/
theorem MoreUnaries.tokens_append (us more : MoreUnaries) :
    (us.append more).tokens = us.tokens ++ more.tokens := by
  match us with
  | .none => rfl
  | .link op u us => simp [append, tokens, us.tokens_append more]

theorem MoreTerms.tokens_append (terms more : MoreTerms) :
    (terms.append more).tokens = terms.tokens ++ more.tokens := by
  match terms with
  | .none => rfl
  | .link op t terms => simp [append, tokens, terms.tokens_append more]

/-- A product is as deep as its deepest operand. -/
theorem MoreUnaries.depth_append (us more : MoreUnaries) :
    (us.append more).depth = max us.depth more.depth := by
  match us with
  | .none => simp [append, depth]
  | .link op u us => simp [append, depth, us.depth_append more, Nat.max_assoc]

/-- So a sum is as deep as its deepest term, however long it is. -/
theorem MoreTerms.depth_append (terms more : MoreTerms) :
    (terms.append more).depth = max terms.depth more.depth := by
  match terms with
  | .none => simp [append, depth]
  | .link op t terms => simp [append, depth, terms.depth_append more, Nat.max_assoc]

/-- The last term of one expression and the first one of another become one term. -/
theorem exists_multiplied (op : Multiplicative) {d : Expr} (hd : d.depth ≤ levels) (t : Term)
    (ht : t.depth ≤ levels) (terms : MoreTerms) (hterms : terms.depth ≤ levels) :
    ∃ all : Expr, all.tokens = t.tokens ++ terms.tokens ++ op.token :: d.tokens ∧
      all.depth ≤ levels := by
  cases terms with
  | none =>
      obtain ⟨u, us⟩ := t
      obtain ⟨⟨u', us'⟩, more⟩ := d
      refine ⟨.of (.of u (us.append (.link op u' us'))) more, ?_, ?_⟩
      · simp [Expr.tokens, Term.tokens, MoreTerms.tokens, MoreUnaries.tokens_append,
          MoreUnaries.tokens]
      · simp only [Expr.depth, Term.depth, MoreUnaries.depth_append, MoreUnaries.depth] at *
        omega
  | link op' t' terms =>
      obtain ⟨ht', hterms⟩ := Nat.max_le.1 hterms
      obtain ⟨⟨t'', more⟩, htokens, hdepth⟩ := exists_multiplied op hd t' ht' terms hterms
      refine ⟨.of t (.link op' t'' more), ?_, ?_⟩
      · simp only [Expr.tokens] at htokens
        simp [Expr.tokens, MoreTerms.tokens, htokens]
      · exact Nat.max_le.2 ⟨ht, hdepth⟩

end Derivation

/-- Two expressions with an operator between them are one, and no deeper, unless the operator is the
power. -/
theorem accepted_link {ts' : List Token} (op : Operator) (hop : op ≠ .power) (h : Accepted ts)
    (h' : Accepted ts') : Accepted (ts ++ .operator op :: ts') := by
  obtain ⟨⟨t, terms⟩, rfl, hdepth⟩ := accepted_iff.1 h
  obtain ⟨d, rfl, hd⟩ := accepted_iff.1 h'
  obtain ⟨ht, hterms⟩ := Nat.max_le.1 hdepth
  have hadded (op : Additive) :
      Accepted ((Expr.of t terms).tokens ++ op.token :: d.tokens) := by
    obtain ⟨t', terms'⟩ := d
    refine accepted_iff.2 ⟨.of t (terms.append (.link op t' terms')), ?_, ?_⟩
    · simp [Expr.tokens, MoreTerms.tokens_append, MoreTerms.tokens]
    · rw [Expr.depth, MoreTerms.depth_append]
      exact Nat.max_le.2 ⟨ht, Nat.max_le.2 ⟨hterms, hd⟩⟩
  have hmultiplied (op : Multiplicative) :
      Accepted ((Expr.of t terms).tokens ++ op.token :: d.tokens) :=
    accepted_iff.2 (exists_multiplied op hd t ht terms hterms)
  cases op
  · exact hadded .plus
  · exact hadded .minus
  · exact hmultiplied .times
  · exact hmultiplied .over
  · exact hmultiplied .modulo
  · exact absurd rfl hop

def linked (first : List Token) : List (Operator × List Token) → List Token
  | [] => first
  | (op, part) :: more => first ++ .operator op :: linked part more

/-- Expressions with any number of `+`, `-`, `*`, `/` and `%` between them are an expression. -/
theorem accepted_linked {first : List Token} {more : List (Operator × List Token)}
    (hfirst : Accepted first) (hmore : ∀ link ∈ more, link.1 ≠ .power ∧ Accepted link.2) :
    Accepted (linked first more) := by
  induction more generalizing first with
  | nil => exact hfirst
  | cons link more ih =>
      obtain ⟨op, part⟩ := link
      obtain ⟨⟨hop, hpart⟩, hmore⟩ := List.forall_mem_cons.1 hmore
      exact accepted_link op hop hfirst (ih hpart hmore)

/-! ## Arguments -/

def callOf (name : String) (args : List (List Token)) : List Token :=
  .name name :: .opening :: ([.comma].intercalate args ++ [.closing])

/-- Parentheses take a level, and there is one derivation only. -/
theorem exists_derivation_of_group (h : Accepted ts)
    (hgroup : Accepted (.opening :: (ts ++ [.closing]))) :
    ∃ d : Expr, d.tokens = ts ∧ d.depth + 1 ≤ levelLimit := by
  obtain ⟨d, rfl, -⟩ := accepted_iff.1 h
  obtain ⟨d', htokens, hdepth⟩ := accepted_iff.1 hgroup
  have hsame : d' = .of (.of (.plain (.group d)) .none) .none := by
    apply Expr.tokens_injective
    rw [htokens]
    simp [Expr.tokens, Term.tokens, Unary.tokens, Primary.tokens, MoreTerms.tokens,
      MoreUnaries.tokens]
  refine ⟨d, rfl, ?_⟩
  simpa [hsame, Expr.depth, Term.depth, Unary.depth, Primary.depth, MoreTerms.depth,
    MoreUnaries.depth] using hdepth

/-- A list of arguments is read to its end, each of them within the limit. -/
theorem readsAll_intercalate {rest : List Token} (hrest : StopsAt 1 rest) (first : List Token)
    (more : List (List Token))
    (h : ∀ arg ∈ first :: more, ∃ d : Expr, d.tokens = arg ∧ d.depth ≤ levels) :
    ∃ es, es.length = more.length + 1 ∧
      ReadsAll (expression (operand levels)) ([.comma].intercalate (first :: more) ++ rest) es
        rest := by
  induction more generalizing first with
  | nil =>
      obtain ⟨d, rfl, hd⟩ := h _ List.mem_cons_self
      obtain ⟨e, he⟩ := d.reads hd (hrest.mono (by decide))
      refine ⟨[e], rfl, ?_⟩
      rw [List.intercalate_singleton]
      refine readsAll_iff.2 ⟨e, rest, he, .inr ⟨?_, rfl, rfl⟩⟩
      rintro ts' rfl
      exact not_stopsAt_cons (by decide) hrest
  | cons second more ih =>
      obtain ⟨⟨d, rfl, hd⟩, hmore⟩ := List.forall_mem_cons.1 h
      obtain ⟨es, hlength, hes⟩ := ih second hmore
      rw [List.intercalate_cons_cons, List.append_assoc, List.append_assoc]
      obtain ⟨e, he⟩ := d.reads hd (stopsAt_cons .comma _ (by decide))
      exact ⟨e :: es, congrArg Nat.succ hlength,
        readsAll_iff.2 ⟨e, _, he, .inl ⟨_, es, rfl, hes, rfl⟩⟩⟩

/-- A primary that is all of the tokens is the whole expression. -/
theorem parse_eq_of_primary {result : Except Error Tree}
    (hsign : ∀ (sign : Additive) ts', ts ≠ sign.token :: ts')
    (h : (primary (operand 255) ts).map (fun r => (r.tree, r.rest)) =
      result.map fun e => (e, [])) :
    parse ts = result := by
  cases hprimary : primary (operand 255) ts with
  | error err =>
      rw [hprimary] at h
      have hoperand : operand levelLimit ts = .error err := by
        refine (operand.eq_4 ts 255 (hsign .minus) (hsign .plus)).trans ?_
        rw [hprimary]
      have hparse : parse ts = .error err := by
        simp [parse, expression, product, chained, hoperand]
      cases result with
      | error err' => cases h; exact hparse
      | ok e => cases h
  | ok r =>
      rw [hprimary] at h
      cases result with
      | error err => cases h
      | ok e =>
          -- Nothing is left behind the primary, so it is the whole operand, product and sum.
          obtain ⟨tree, rest, hlt⟩ := r
          obtain ⟨rfl, rfl⟩ : tree = e ∧ rest = [] := by simpa [Except.map] using h
          have hoperand : Reads (operand levelLimit) ts tree [] :=
            (reads_operand_primary_iff hsign).2
              ⟨tree, [], ⟨hlt, hprimary⟩, .inr ⟨by simp, rfl, rfl⟩⟩
          have hproduct : Reads (product (operand levelLimit)) ts tree [] :=
            reads_chained_iff.2 ⟨tree, [], hoperand, continues_nil_iff.2 ⟨rfl, rfl⟩⟩
          exact parse_eq_ok_iff.2
            (reads_chained_iff.2 ⟨tree, [], hproduct, continues_nil_iff.2 ⟨rfl, rfl⟩⟩)

/-- A function is called with all of its arguments, if each of them is an expression with a level to
spare, as it needs for parentheses. -/
theorem parse_callOf (name : String) {args : List (List Token)}
    (h : ∀ arg ∈ args, Accepted arg ∧ Accepted (.opening :: (arg ++ [.closing]))) :
    ∃ es, es.length = args.length ∧ parse (callOf name args) = call name es := by
  have hsign : ∀ (sign : Additive) ts', callOf name args ≠ sign.token :: ts' := by
    intro sign ts'
    cases sign <;> simp [callOf, Additive.token]
  cases args with
  | nil =>
      refine ⟨[], rfl, parse_eq_of_primary hsign ?_⟩
      rw [callOf, List.intercalate_nil, List.nil_append, primary, callBody]
      cases call name [] <;> rfl
  | cons first more =>
      -- An argument that is accepted between parentheses leaves one level for the call.
      have hargs : ∀ arg ∈ first :: more, ∃ d : Expr, d.tokens = arg ∧ d.depth ≤ 255 := by
        intro arg harg
        obtain ⟨d, htokens, hdepth⟩ := exists_derivation_of_group (h arg harg).1 (h arg harg).2
        exact ⟨d, htokens, Nat.le_of_succ_le_succ hdepth⟩
      obtain ⟨es, hlength, hshorter, hes⟩ :=
        readsAll_intercalate (stopsAt_cons .closing [] (by decide)) first more hargs
      -- No argument begins with a closing parenthesis, so the list is not empty.
      have hother : ∀ ts', [.comma].intercalate (first :: more) ++ [.closing] =
          .closing :: ts' → False := by
        intro ts' hts
        obtain ⟨d, rfl, -⟩ := hargs first List.mem_cons_self
        obtain ⟨behind, hbehind⟩ : ∃ behind,
            [.comma].intercalate (d.tokens :: more) ++ [.closing] = d.tokens ++ behind := by
          cases more <;> simp [List.intercalate_cons_cons]
        exact (Args.last d).tokens_ne_closing (hts.symm.trans hbehind)
      refine ⟨es, hlength, parse_eq_of_primary hsign ?_⟩
      have hbody : (callBody (operand 255) name _).map (fun r => (r.tree, r.rest)) = _ :=
        callBody_eq_bind hother
      rw [hes] at hbody
      rw [callOf, primary]
      cases hcall : callBody (operand 255) name _ <;> rwa [hcall] at hbody

end MacroReplay.Expression
