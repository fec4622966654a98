import MacroReplay.Proofs.Expression.Argument
import MacroReplay.Proofs.Handler.Dispatch
import MacroReplay.Proofs.Variable.Assignment
import MacroReplay.Proofs.Variable.Expansion

/-!
# Lines that assign user variables

* `Memory.Gives` — a memory in which one variable was given a value;
* `Assign.exists_dispatch` — a line `SET` with a user variable and one more token succeeds, and gives it
  the value that the token stands for;
* `Assign.evaluates_invoked` — a quoted expression passes through the line, the parameter and `EVAL(…)`
  without a change.
-/

namespace MacroReplay

open Calendar (DateTime)

/-! ## User variables -/

namespace Variable

/-- The variables that are left to the scripts, `!VAR0` to `!VAR9`. -/
def user (i : Fin 10) : String :=
  "!VAR".push i.val.digitChar

/-- A user variable takes any value. -/
theorem rule?_user : ∀ i, rule? (user i) = some .free := by
  decide +kernel

/-- The name of a user variable is one token of a line. -/
theorem isToken_user (i : Fin 10) : IsToken (user i).toList := by
  refine isToken_of_isBare (by simp [user]) ?_
  revert i
  decide

theorem notMem_user : ∀ i, '=' ∉ (user i).toList ∧ '\n' ∉ (user i).toList := by
  decide

end Variable

open Variable (user rule?_user SameName)

/-- A memory in which a variable was given a value, and nothing else was changed. -/
structure Memory.Gives {μ : Type} (m : Memory μ) (name : String) (v : Value) (m' : Memory μ) :
    Prop where
  current : ∀ now spelling, SameName spelling name → m'.vars.get now spelling = some v
  others : ∀ now other, ¬SameName other name → m'.vars.get now other = m.vars.get now other
  extracted : m'.vars.extracted = m.vars.extracted
  loopAssigned : m'.vars.loopAssigned = m.vars.loopAssigned
  shared : m'.shared = m.shared

/-- Setting a user variable cannot fail: the value is put under its name and nothing else changes. -/
theorem Store.set_user (s : Store) (i : Fin 10) (v : Value) :
    s.set (user i) v =
      .ok (⟨user i, (s.lookup (user i)).getD Value.empty, v⟩,
        { s with values := s.values.put (user i) v }) := by
  have hordinary : ∀ i, user i ≠ "!EXTRACT" ∧ user i ≠ "!TIMEOUT" ∧ user i ≠ "!LOOP" := by decide
  obtain ⟨hextract, htimeout, hloop⟩ := hordinary i
  rw [set_of_free (rule?_user i)]
  simp [keep, hextract, htimeout, hloop]

theorem Memory.gives_put {μ : Type} (m : Memory μ) (i : Fin 10) (v : Value) :
    m.Gives (user i) v { m with vars := { m.vars with values := m.vars.values.put (user i) v } } := by
  have hassigns := Store.assigns_of_set (m.vars.set_user i v)
  have hordinary : ∀ i, ¬SameName (user i) "!EXTRACT" ∧ ¬SameName (user i) "!TIMEOUT" := by
    decide +kernel
  obtain ⟨hextract, htimeout⟩ := hordinary i
  refine ⟨hassigns.current, ?_, rfl, rfl, rfl⟩
  intro now other hother
  exact hassigns.others now other hother (fun h => htimeout h.1) fun h => hextract h.1

/-! ## Lines -/

/-- A name, a user variable and one more token make a line. -/
theorem laid_userTokens (name : CommandName) (i : Fin 10) {value : List Char} (hvalue : IsToken value) :
    Laid [name.text.toList, (user i).toList, value] (spaced [name.text.toList, (user i).toList, value]) ∧
      Closed (spaced [name.text.toList, (user i).toList, value]) := by
  have htokens : ∀ t ∈ [name.text.toList, (user i).toList, value], IsToken t := by
    simp only [List.mem_cons, List.not_mem_nil, or_false, forall_eq_or_imp, forall_eq]
    exact ⟨name.isToken, Variable.isToken_user i, hvalue⟩
  have hlaid := laid_spaced (by simp) htokens
  exact ⟨hlaid, hlaid.closed_of_forall fun t ht => (htokens t ht).closed⟩

/-- The two parameters of such a line. -/
theorem parameters_userTokens (name : CommandName) (i : Fin 10) {value : String}
    (hcut : cutAtEquals .outside value.toList = none) (raw : List Char) (n : Nat) :
    (name.command [(user i).toList, value.toList] raw n).parameters =
      [⟨none, user i, user i⟩, ⟨none, unquote value, value⟩] := by
  have hname : cutAtEquals .outside (user i).toList = none :=
    cutAtEquals_of_notMem ((Variable.notMem_user i).1)
  have hbare : unquoteChars (user i).toList = (user i).toList := by simp [user, unquoteChars]
  simp [CommandName.command, Parameter.ofToken_of_no_cut, hname, hcut, hbare, unquote]

namespace Assign

variable {ι : Interface} {μ : Type}

def line (i : Fin 10) (value : String) : String :=
  "SET " ++ user i ++ " " ++ value

def name : CommandName :=
  ⟨"SET", by decide, List.all_eq_true.1 (by decide)⟩

def command (i : Fin 10) (value : String) : Command :=
  name.command [(user i).toList, value.toList] (line i value).toList 1

/-- The line is laid out as three tokens, and no quote is open at its end. -/
theorem laid_line (i : Fin 10) {value : String} (hvalue : IsToken value.toList) :
    Laid [name.text.toList, (user i).toList, value.toList] (line i value).toList ∧
      Closed (line i value).toList := by
  have hline : (line i value).toList =
      spaced [name.text.toList, (user i).toList, value.toList] := by
    simp [line, spaced, name]
  rw [hline]
  exact laid_userTokens name i hvalue

/-- A script of this one line has this one command. -/
theorem parse_line (i : Fin 10) {value : String} (hvalue : IsToken value.toList)
    (hfeed : '\n' ∉ value.toList) (title : String) :
    Script.parse title (line i value) = ⟨title, [command i value]⟩ := by
  obtain ⟨hlaid, hclosed⟩ := laid_line i hvalue
  have hsingle : '\n' ∉ (line i value).toList := by
    have hname := (Variable.notMem_user i).2
    simp [line, hname, hfeed]
  have hparse := hlaid.parse_eq hclosed hsingle title
  rwa [String.ofList_toList] at hparse

/-- Neither of the two parameters has a key. -/
theorem parameters_command (i : Fin 10) {value : String}
    (hcut : cutAtEquals .outside value.toList = none) :
    (command i value).parameters = [⟨none, user i, user i⟩, ⟨none, unquote value, value⟩] :=
  parameters_userTokens name i hcut _ 1

/-- The handler finds the variable and the value with its placeholders replaced. -/
theorem operands_command (i : Fin 10) {value : String}
    (hcut : cutAtEquals .outside value.toList = none) (s : Store) (now : DateTime) :
    operands (.ofCommand s now (command i value)) = .ok (user i, s.expand now (unquote value)) := by
  have hplain : ∀ i, ¬Expansion.opening <:+: (user i).toList := by decide
  have hname : s.expand now (user i) = user i := (Store.verbatim_of_plain (hplain i) s now).1
  -- The name has no braces, and a positional argument is its value.
  simp [operands, Invocation.ofCommand, parameters_command i hcut, Invocation.arg?,
    Argument.ofParameter, Argument.text, Parameter.isPositional, hname]

/-- The line succeeds and gives the variable what its value stands for after replacement. -/
theorem exists_dispatch {e : Engine ι μ} (hset : e.registry.find? "SET" = some setHandler) (i : Fin 10)
    {value : String} (hcut : cutAtEquals .outside value.toList = none) (m : Memory μ) (now : Reading) :
    ∃ m', e.registry.dispatch (e.contextAt (command i value) m now) = .done (.ok, m') ∧
      m.Gives (user i) (literalValue (m.vars.expand now.date (unquote value))) m' := by
  refine ⟨_, ?_, m.gives_put i _⟩
  have hoperands := operands_command i hcut m.vars now.date
  have hwritten := m.vars.set_user i (literalValue (m.vars.expand now.date (unquote value)))
  have hstored : set m.vars (.ofCommand m.vars now.date (command i value)) =
      .ok { m.vars with
        values := m.vars.values.put (user i)
          (literalValue (m.vars.expand now.date (unquote value))) } := by
    simp only [set, hoperands, bind, Except.bind, hwritten]
  have hname : (command i value).name = "SET" := by
    show Text.upper "SET" = "SET"
    decide
  rw [← hname] at hset
  rw [Registry.dispatch_of_found (e.contextAt (command i value) m now) rfl hset]
  simp only [setHandler, Engine.contextAt, hstored, Context.withValue]
  rfl

/-- The built-in commands have this one among them. -/
theorem find?_builtin : (Registry.builtin : Registry ι μ).find? "SET" = some setHandler := by
  simp only [Registry.builtin, Registry.find?_register]
  rfl

/-! ## Marks -/

def marks : List String :=
  ["<SP>", "<sp>", "<BR>", "<br>"]

/-- A text without escape marks is its own unescaped form. -/
theorem unescape_of_unmarked {text : String} (h : ∀ mark ∈ marks, ¬mark.toList <:+: text.toList) :
    unescape text = text := by
  simp only [marks, List.forall_mem_cons] at h
  obtain ⟨hSP, hsp, hBR, hbr, -⟩ := h
  rw [unescape, Text.replace_of_absent (by decide) hSP, Text.replace_of_absent (by decide) hsp,
    Text.replace_of_absent (by decide) hBR, Text.replace_of_absent (by decide) hbr]

/-! ## Quoted expressions -/

/-- A quoted expression is read back as it is. On a line that assigns a user variable it is the second of
two parameters, and what the variable holds afterwards is its value. -/
theorem evaluates_invoked (expression : String) :
    (∀ quote, quote = '"' ∨ quote = '\x27' →
      Expression.argument? (Expression.invoked quote expression) = some expression) ∧
    ('\\' ∉ expression.toList → '\n' ∉ expression.toList →
      ¬Expansion.opening <:+: expression.toList → ∀ i : Fin 10, ∃ c : Command,
        (∀ title, Script.parse title ("SET " ++ user i ++ " " ++ Expression.invoked '"' expression) =
          ⟨title, [c]⟩) ∧
        c.flaw = none ∧
        (∃ first second : Parameter, c.parameters = [first, second] ∧
          first.isPositional = true ∧ second.isPositional = true ∧
          Expression.argument? second.value = some expression) ∧
        ∀ (e : Engine ι μ), e.registry.find? "SET" = some setHandler →
          ∀ (m : Memory μ) (now : Reading), ∃ m',
            e.registry.dispatch (e.contextAt c m now) = .done (.ok, m') ∧
              m.Gives (user i) (Expression.evaluate expression) m') := by
  refine ⟨fun quote hquote => Expression.argument?_invoked hquote expression, ?_⟩
  intro hslash hfeed hbraces i
  have hargument : Expression.argument? (Expression.invoked '"' expression) = some expression :=
    Expression.argument?_invoked (.inl rfl) expression
  have htoken := Expression.isToken_invoked hslash
  have hcut := Expression.cutAtEquals_invoked hslash
  -- Neither a line feed nor a pair of braces comes from what is written around the expression.
  have hsingle : '\n' ∉ (Expression.invoked '"' expression).toList := by
    rw [← List.singleton_infix_iff] at hfeed ⊢
    exact fun hpart => hfeed (Expression.infix_before_invoked (by decide) hpart)
  have hplain : ¬Expansion.opening <:+: (Expression.invoked '"' expression).toList :=
    fun hpart => hbraces (Expression.infix_before_invoked (by decide) hpart)
  refine ⟨command i (Expression.invoked '"' expression), parse_line i htoken hsingle, rfl,
    ⟨_, _, parameters_command i hcut, rfl, rfl, ?_⟩, ?_⟩
  · rw [Expression.unquote_invoked, hargument]
  · intro e hset m now
    obtain ⟨m', hdone, hgives⟩ := exists_dispatch hset i hcut m now
    have hvalue : literalValue (m.vars.expand now.date (unquote (Expression.invoked '"' expression))) =
        Expression.evaluate expression := by
      rw [Expression.unquote_invoked, (Store.verbatim_of_plain hplain m.vars now.date).1]
      simp only [literalValue, hargument]
    rw [hvalue] at hgives
    exact ⟨m', hdone, hgives⟩

/-- The expression has blanks around it, both kinds of quotes, an equals sign and brackets; inside
double quotes its own double quotes are escaped. -/
theorem evaluates_invoked_quotes :
    let expression := "  \"x = (\" + \x27a\"b)\x27 "
    let e : Engine .empty Unit := ⟨{}, .builtin, .empty, none, none⟩
    let m : Memory Unit := ⟨.initial, ()⟩
    let now : Reading := ⟨.zero, 0, ⟨2000, 1, 1, 0, 0, 0⟩⟩
    Expression.argument? "EVAL(\"  \\\"x = (\\\" + \x27a\\\"b)\x27 \")" = some expression ∧
      ∃ c m', Script.parse "quotes" "SET !VAR1 EVAL(\"  \\\"x = (\\\" + \x27a\\\"b)\x27 \")" =
          ⟨"quotes", [c]⟩ ∧
        e.registry.dispatch (e.contextAt c m now) = .done (.ok, m') ∧
        m'.vars.get now.date "!VAR1" = some (.text "x = (a\"b)") := by
  intro expression e m now
  have hwritten : Expression.invoked '"' expression =
      "EVAL(\"  \\\"x = (\\\" + \x27a\\\"b)\x27 \")" := by decide
  have hvalue : Expression.evaluate expression = .text "x = (a\"b)" := by decide +kernel
  obtain ⟨hargument, hline⟩ := evaluates_invoked (ι := .empty) (μ := Unit) expression
  obtain ⟨c, hparse, -, -, hdispatch⟩ := hline (by decide) (by decide) (by decide) 1
  obtain ⟨m', hdone, hgives⟩ := hdispatch e find?_builtin m now
  refine ⟨hwritten ▸ hargument '"' (.inl rfl), c, m', ?_, hdone, ?_⟩
  · have htext := hparse "quotes"
    rw [hwritten] at htext
    exact htext
  · rw [← hvalue]
    exact hgives.current now.date "!VAR1" (by decide)

end Assign
end MacroReplay
