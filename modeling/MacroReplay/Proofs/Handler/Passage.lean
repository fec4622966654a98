import MacroReplay.Proofs.Handler.Assign
import MacroReplay.Proofs.Variable.Placeholder

/-!
# Texts that pass through placeholders

A placeholder is replaced after the line was cut into tokens and the quotes were taken off. What it is
replaced by is not read again, so a handler sees the text that the variable holds, whatever characters it
has.

* `Variable.writings` — how a variable is written as a value;
* `Invocation.param?_of_token`, `Invocation.arg?_of_token` — the arguments of a line by its tokens;
* `passes_held` — what becomes of a text that a user variable holds.
-/

namespace MacroReplay

open Calendar (DateTime)
open Expansion (placeholder)

/-! ## Variables as values -/

namespace Variable

/-- The placeholder of a user variable as it is written for a value, bare or between quotes. -/
def writings (i : Fin 10) : List String :=
  [placeholder (user i), "\"" ++ placeholder (user i) ++ "\""]

/-- Between quotes or bare, the parameter is the placeholder. -/
theorem unquote_writing : ∀ i, ∀ value ∈ writings i, unquote value = placeholder (user i) := by
  decide +kernel

/-- No way of writing the placeholder is taken for a parameter with a key. -/
theorem cutAtEquals_writing :
    ∀ i, ∀ value ∈ writings i, cutAtEquals .outside value.toList = none := by
  decide +kernel

theorem isToken_placeholder (i : Fin 10) : IsToken (placeholder (user i)).toList := by
  refine isToken_of_isBare (by simp [placeholder]) ?_
  revert i
  decide

end Variable

open Variable (user writings)

/-- The placeholder of a user variable is replaced by the text that it holds. -/
theorem Store.expand_writing {s : Store} {now : DateTime} {i : Fin 10} {text : String}
    (hheld : s.get now (user i) = some (.text text)) {value : String} (hvalue : value ∈ writings i) :
    s.expand now (unquote value) = text := by
  have hname : has (user i) = true := by
    rw [has, Variable.canonical_eq_self (Variable.rule?_user i), Variable.rule?_user]
    rfl
  rw [Variable.unquote_writing i value hvalue, expand_variable hname, getText, hheld]
  rfl

/-! ## Arguments by their tokens -/

namespace Invocation

variable {name : CommandName} {ts : List (List Char)} {raw : List Char} {line k : Nat} {t : List Char}

/-- The first parameter with a key is the one that is asked for by it. -/
theorem param?_of_token (s : Store) (now : DateTime) (ht : ts[k]? = some t) {key : String}
    (hkey : (Parameter.ofToken t).hasKey key = true)
    (hfirst : ∀ u ∈ ts.take k, (Parameter.ofToken u).hasKey key = false) :
    (ofCommand s now (name.command ts raw line)).param? key =
      some (s.expand now (Parameter.ofToken t).value) := by
  have hsplit : ts = ts.take k ++ t :: ts.drop (k + 1) := by
    obtain ⟨hk, rfl⟩ := List.getElem?_eq_some_iff.1 ht
    simp
  have hfound : ts.find? (fun u => (Parameter.ofToken u).hasKey key) = some t := by
    rw [List.find?_eq_some_iff_append]
    exact ⟨hkey, _, _, hsplit, by simpa using hfirst⟩
  rw [param?_ofCommand, Command.param?, CommandName.command, List.find?_map]
  simp only [Function.comp_def, hfound, Option.map_some]

/-- A positional parameter is asked for by its place among all of them. -/
theorem arg?_of_token (s : Store) (now : DateTime) (ht : ts[k]? = some t)
    (hcut : cutAtEquals .outside t = none) :
    (ofCommand s now (name.command ts raw line)).arg? k =
      some (s.expand now (String.ofList (unquoteChars t))) := by
  simp [arg?, ofCommand, CommandName.command, ht, Parameter.ofToken_of_no_cut hcut,
    Argument.ofParameter, Argument.text, Parameter.isPositional]

end Invocation

/-! ## Texts that are held -/

section Passage

variable {ι : Interface} {μ : Type}

/-- What becomes of a text where a user variable is mentioned. -/
structure Passes (e : Engine ι μ) (m : Memory μ) (now : Reading) (i : Fin 10) (text : String) :
    Prop where
  /-- As the value of a key and as a positional value, in any line that is laid out from tokens. -/
  arguments : ∀ {name : CommandName} {ts : List (List Char)} {line : List Char},
    Laid (name.text.toList :: ts) line → Closed line → ∀ number, ∃ c,
      Command.ofLine? line number = some c ∧ c.flaw = none ∧
        ∀ value ∈ writings i, ∀ k,
          (∀ (key : ParameterKey) (asked : String), Text.sameLetters key.text asked = true →
            ts[k]? = some (key.text.toList ++ '=' :: value.toList) →
            (∀ t ∈ ts.take k, (Parameter.ofToken t).hasKey asked = false) →
            (e.contextAt c m now).invocation.param? asked = some text) ∧
          (ts[k]? = some value.toList → (e.contextAt c m now).invocation.arg? k = some text)
  /-- As the value of an assignment. -/
  assigned : e.registry.find? "SET" = some Assign.setHandler → Expression.argument? text = none →
    (∀ mark ∈ Assign.marks, ¬mark.toList <:+: text.toList) → ∀ j, ∃ c m',
      (∀ title, Script.parse title ("SET " ++ user j ++ " " ++ placeholder (user i)) = ⟨title, [c]⟩) ∧
        e.registry.dispatch (e.contextAt c m now) = .done (.ok, m') ∧ m.Gives (user j) (.text text) m'

/-- A text that a user variable holds reaches the handlers as it is. -/
theorem passes_held {e : Engine ι μ} {m : Memory μ} {now : Reading} {i : Fin 10} {text : String}
    (hheld : m.vars.get now.date (user i) = some (.text text)) : Passes e m now i text where
  arguments := by
    intro name ts line hlaid hclosed number
    refine ⟨_, hlaid.ofLine?_eq hclosed number, rfl, ?_⟩
    intro value hvalue k
    have hexpand := Store.expand_writing hheld hvalue
    rw [unquote] at hexpand
    constructor
    · -- With a key: the parameter is found under it, and its value is the placeholder, expanded.
      intro key asked hletters htoken hfirst
      have hkeyed := Parameter.ofToken_key key value.toList
      have hkey : (Parameter.ofToken (key.text.toList ++ '=' :: value.toList)).hasKey asked = true := by
        rw [hkeyed]
        exact hletters
      show (Invocation.ofCommand m.vars now.date (name.command ts line number)).param? asked = some text
      rw [Invocation.param?_of_token m.vars now.date htoken hkey hfirst, hkeyed, hexpand]
    · intro htoken
      have hcut := Variable.cutAtEquals_writing i value hvalue
      show (Invocation.ofCommand m.vars now.date (name.command ts line number)).arg? k = some text
      rw [Invocation.arg?_of_token m.vars now.date htoken hcut, hexpand]
  assigned := by
    intro hset hargument hmarks j
    have hvalue : placeholder (user i) ∈ writings i := by simp [writings]
    have hfeed : ∀ i, '\n' ∉ (placeholder (user i)).toList := by decide
    obtain ⟨m', hdone, hgives⟩ := Assign.exists_dispatch hset j
      (Variable.cutAtEquals_writing i _ hvalue) m now
    -- The text is expanded before it is looked at for `EVAL` and for marks, and has neither.
    have hliteral : Assign.literalValue (m.vars.expand now.date (unquote (placeholder (user i)))) =
        .text text := by
      rw [Store.expand_writing hheld hvalue]
      simp only [Assign.literalValue, hargument, Assign.unescape_of_unmarked hmarks]
    rw [hliteral] at hgives
    exact ⟨_, m', Assign.parse_line j (Variable.isToken_placeholder i) (hfeed i), hdone, hgives⟩

/-- The text has double and single quotes, a backslash, an equals sign, a placeholder of another
variable and a line break. -/
theorem passes_held_braces :
    let text := "a \"b\\ = \x7b\x7b!VAR2\x7d\x7d\n\x27"
    let e : Engine .empty Unit := ⟨{}, .builtin, .empty, none, none⟩
    let vars := { Store.initial with values := Store.initial.values.put "!VAR1" (.text text) }
    let m : Memory Unit := ⟨vars, ()⟩
    let now : Reading := ⟨.zero, 0, ⟨2026, 1, 2, 3, 4, 5⟩⟩
    m.vars.get now.date "!VAR1" = some (.text text) ∧
      (∃ c, Command.ofLine? "TAG Content=\"\x7b\x7b!VAR1\x7d\x7d\" \x7b\x7b!VAR1\x7d\x7d".toList 1 =
          some c ∧
        (e.contextAt c m now).invocation.param? "CONTENT" = some text ∧
        (e.contextAt c m now).invocation.arg? 1 = some text) ∧
      ∃ c m', Script.parse "copy" "SET !VAR2 \x7b\x7b!VAR1\x7d\x7d" = ⟨"copy", [c]⟩ ∧
        e.registry.dispatch (e.contextAt c m now) = .done (.ok, m') ∧
        m'.vars.get now.date "!VAR2" = some (.text text) := by
  intro text e vars m now
  have hheld : m.vars.get now.date "!VAR1" = some (.text text) :=
    (Memory.gives_put ⟨.initial, ()⟩ 1 (.text text)).current now.date "!VAR1" (by decide)
  have hpasses : Passes e m now 1 text := passes_held hheld
  -- The line has two parameters, and the variable is mentioned once between quotes and once bare.
  let name : CommandName := ⟨"TAG", by decide, List.all_eq_true.1 (by decide)⟩
  let key : ParameterKey := ⟨"Content", by decide, List.all_iff_forall_prop.1 (by decide), by decide⟩
  let bare := placeholder (user 1)
  let quoted := "\"" ++ placeholder (user 1) ++ "\""
  have hquoted : IsToken (key.text.toList ++ '=' :: quoted.toList) := by
    have hwritten : key.text.toList ++ '=' :: quoted.toList =
        "Content=".toList ++ '"' :: (Expression.guarded '"' bare.toList ++ ['"']) := by decide
    rw [hwritten]
    exact (isToken_of_isBare (by decide) (by decide)).append
      (isToken_of_quotable (Expression.quotable_guarded (by decide)))
  have htokens : ∀ t ∈ [name.text.toList, key.text.toList ++ '=' :: quoted.toList, bare.toList],
      IsToken t := by
    simp only [List.forall_mem_cons]
    exact ⟨isToken_of_isBare (by decide) (by decide), hquoted, Variable.isToken_placeholder 1, by simp⟩
  have hspaced : spaced [name.text.toList, key.text.toList ++ '=' :: quoted.toList, bare.toList] =
      "TAG Content=\"\x7b\x7b!VAR1\x7d\x7d\" \x7b\x7b!VAR1\x7d\x7d".toList := by decide
  have hlaid := laid_spaced (by simp) htokens
  have hclosed := hlaid.closed_of_forall fun t ht => (htokens t ht).closed
  obtain ⟨c, hline, -, harguments⟩ := hpasses.arguments hlaid hclosed 1
  have hkeyed := (harguments quoted (by simp [writings, quoted]) 0).1 key "CONTENT" (by decide) rfl
    (by simp)
  have hplaced := (harguments bare (by simp [writings, bare]) 1).2 rfl
  obtain ⟨copy, m', hparse, hdone, hgives⟩ := hpasses.assigned Assign.find?_builtin (by decide)
    (by decide) 2
  exact ⟨hheld, ⟨c, hspaced ▸ hline, hkeyed, hplaced⟩, copy, m', hparse "copy", hdone,
    hgives.current now.date "!VAR2" (by decide)⟩

end Passage
end MacroReplay
