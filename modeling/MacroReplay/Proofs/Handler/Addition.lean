import MacroReplay.Proofs.Command.Lines
import MacroReplay.Proofs.Handler.Assign
import MacroReplay.Proofs.Number.Sum

/-!
# Lines that add to user variables

* `Store.held` — what a user variable holds;
* `Addition.sum_total` — one more integer added to a sum;
* `Command.Adds` — a command that adds an integer to a user variable;
* `Command.AddsText.of_runs` — it succeeds and adds whenever it is carried out;
* `Addition.adds_script` — a script of lines that do so.
-/

namespace MacroReplay

open Calendar (DateTime)
open Number (Spells IsExact ofInt isNotation)
open Variable (user rule?_user SameName sameName_iff_of_rule? canonical)

/-! ## What a user variable holds -/

/-- A user variable is none of those that the store treats in a way of their own. -/
theorem Variable.user_ne : ∀ i,
    user i ≠ "!EXTRACT" ∧ user i ≠ "!EXTRACTADD" ∧ user i ≠ "!LOOP" ∧ user i ≠ "!NOW" := by
  decide

namespace Store

def held (s : Store) (i : Fin 10) : Value :=
  (s.values.find? (user i)).getD Value.empty

/-- A user variable always has a value: the empty one, if none was written. -/
theorem lookup_user (s : Store) (i : Fin 10) : s.lookup (user i) = some (s.held i) := by
  have hrule : (Variable.rule? (user i)).isSome = true := by rw [rule?_user]; rfl
  cases hfind : s.values.find? (user i) <;>
    simp [lookup, held, (Variable.user_ne i).2.1, hfind, hrule]

/-- It can be read at any moment, in any spelling. -/
theorem get_user (s : Store) (now : DateTime) {i : Fin 10} {spelling : String}
    (hname : SameName spelling (user i)) : s.get now spelling = some (s.held i) := by
  rw [sameName_iff_of_rule? (rule?_user i)] at hname
  simp only [get, hname, if_neg (Variable.user_ne i).2.2.2, lookup_user]

/-- The loop counter is kept apart from the user variables. -/
theorem held_setLoopCounter (s : Store) (n : Nat) (i : Fin 10) :
    (s.setLoopCounter n).held i = s.held i := by
  simp only [held, setLoopCounter, Bindings.find?_put_of_ne _ _ (Variable.user_ne i).2.2.1]

theorem held_beginRun (s : Store) (i : Fin 10) : s.beginRun.held i = s.held i := by
  rw [beginRun, held_setLoopCounter]
  simp only [held, Bindings.find?_put_of_ne _ _ (Variable.user_ne i).1]

/-- The step from one loop to the next leaves the user variables alone. -/
theorem held_advanceLoop (n : Nat) (s : Store) (i : Fin 10) :
    (Run.advanceLoop n s).held i = s.held i := by
  unfold Run.advanceLoop
  split <;> exact held_setLoopCounter ..

/-- The store after a text was added to a user variable. -/
def addText (s : Store) (i : Fin 10) (text : String) : Store :=
  { s with values := s.values.put (user i) (Assign.sum (s.held i) (.text text)) }

theorem held_addText (s : Store) (i : Fin 10) (text : String) :
    (s.addText i text).held i = Assign.sum (s.held i) (.text text) := by
  simp [held, addText]

end Store

/-! ## Spelled integers -/

namespace Number.Spells

variable {cs : List Char} {text : String} {k : ℤ}

theorem ne_nil (hspells : Spells cs k) : cs ≠ [] := by
  cases hspells with
  | plain hsome _ => exact hsome
  | plus | minus => nofun

/-- No character outside the notation of numbers stands in the spelling. -/
theorem notMem (hspells : Spells cs k) {c : Char} (hc : isNotation c = false) : c ∉ cs := by
  intro hmem
  rw [List.all_eq_true.1 hspells.all_isNotation c hmem] at hc
  nomatch hc

/-- The spelling of an integer is one token of a line, without quotes. -/
theorem isToken (hspells : Spells cs k) : IsToken cs := by
  refine isToken_of_isBare hspells.ne_nil (List.all_iff_forall_prop.2 fun c hc => ⟨?_, ?_⟩)
  · exact isBlank_of_isNotation (List.all_eq_true.1 hspells.all_isNotation c hc)
  · rintro rfl
    exact hspells.notMem (by decide) hc

/-- There is no placeholder in a spelled integer. -/
theorem expand_eq (hspells : Spells text.toList k) (s : Store) (now : DateTime) :
    s.expand now text = text := by
  refine (Store.verbatim_of_plain (fun hpart => ?_) s now).1
  exact hspells.notMem (by decide) (hpart.subset List.mem_cons_self)

/-- A spelled integer is no call of `EVAL`, so it is taken as it stands. -/
theorem literalValue_eq (hspells : Spells text.toList k) : Assign.literalValue text = .text text := by
  have hargument : Expression.argument? text = none := by
    have htrim : Text.trimChars text.toList = text.toList :=
      Text.trimChars_of_visible fun c hc =>
        isBlank_of_isNotation (List.all_eq_true.1 hspells.all_isNotation c hc)
    have hlast : text.toList.getLast? ≠ some ')' := fun hlast =>
      hspells.notMem (by decide) (List.mem_of_getLast? hlast)
    simp only [Expression.argument?, htrim, hlast, and_false, if_false]
  have hmarks : ∀ mark ∈ Assign.marks, ¬mark.toList <:+: text.toList := by
    intro mark hmark hpart
    have hopens : ∀ mark ∈ Assign.marks, '<' ∈ mark.toList := by decide
    exact hspells.notMem (by decide) (hpart.subset (hopens mark hmark))
  simp only [Assign.literalValue, hargument, Assign.unescape_of_unmarked hmarks]

end Number.Spells

/-! ## Sums -/

namespace Addition

/-- What an empty variable holds after these integers were added to it. -/
def total (ks : List ℤ) : Value :=
  if ks = [] then Value.empty else .number (ofInt ks.sum)

theorem total_of_ne_nil {ks : List ℤ} (hks : ks ≠ []) : total ks = .number (ofInt ks.sum) :=
  if_neg hks

/-- The order of the integers does not count. -/
theorem total_perm {ks ks' : List ℤ} (hperm : ks.Perm ks') : total ks = total ks' := by
  have hnil : ks = [] ↔ ks' = [] := by
    rw [← List.length_eq_zero_iff, ← List.length_eq_zero_iff, hperm.length_eq]
  simp only [total, hnil, hperm.sum_eq]

/-- One more integer is added. -/
theorem sum_total {text : String} {k : ℤ} (hspells : Spells text.toList k) (hexact : IsExact k)
    {ks : List ℤ} (hks : ks.sum.natAbs ≤ 2 ^ 53) :
    Assign.sum (total ks) (.text text) = total (ks ++ [k]) := by
  obtain ⟨y, hread, hy⟩ := hspells.exists_read hexact
  -- The empty variable counts as zero, which is the sum of no integers.
  have hleft : (if (total ks).isEmpty then some (Number.zero false) else (total ks).toNumber?) =
      some (ofInt ks.sum) := by
    by_cases hnone : ks = []
    · rw [hnone]
      rfl
    · rw [total_of_ne_nil hnone]
      rfl
  have hright : (Value.text text).toNumber? = some y := hread
  have hsum : total (ks ++ [k]) = .number (ofInt (ks.sum + k)) := by
    rw [total_of_ne_nil (by simp), List.sum_append, List.sum_singleton]
  simp only [Assign.sum, hleft, hright, hsum, Number.ofInt_add hks hy]

end Addition

/-! ## Commands -/

/-- The command adds a text to a user variable: its name is `ADD`, and its first two parameters are the
variable and the text. -/
structure Command.AddsText (c : Command) (i : Fin 10) (text : String) : Prop where
  flawless : c.flaw = none
  name : Text.upper c.name = "ADD"
  operands : ∃ (spelling first second : String) (rest : List Parameter),
    c.parameters = ⟨none, spelling, first⟩ :: ⟨none, text, second⟩ :: rest ∧
      SameName spelling (user i)

/-- The command adds an integer in decimal to a user variable. -/
def Command.Adds (c : Command) (i : Fin 10) (k : ℤ) : Prop :=
  ∃ text : String, c.AddsText i text ∧ Spells text.toList k

/-- However a user variable is spelled, there is no placeholder in its name. -/
theorem Variable.expand_spelling {i : Fin 10} {spelling : String} (hname : SameName spelling (user i))
    (s : Store) (now : DateTime) : s.expand now spelling = spelling := by
  rw [sameName_iff_of_rule? (rule?_user i)] at hname
  have hbrace : ∀ i, '\x7b' ∉ (user i).toList := by decide
  refine (Store.verbatim_of_plain (fun hpart => hbrace i ?_) s now).1
  -- A brace is no blank and has no upper case, so it would stand in the name.
  have hmem : '\x7b' ∈ spelling.toList := hpart.subset List.mem_cons_self
  obtain ⟨front, back, hcut, hfront, hback⟩ := (Text.trimmed_trimChars spelling.toList).cut
  have htrimmed : '\x7b' ∈ Text.trimChars spelling.toList := by
    rw [hcut, List.mem_append, List.mem_append] at hmem
    rcases hmem with hmem | hmem | hmem
    · exact absurd (hfront _ hmem) (by decide)
    · exact hmem
    · exact absurd (hback _ hmem) (by decide)
  rw [← hname, canonical, Text.upper, Text.trim, String.toList_ofList, String.toList_ofList]
  exact List.mem_map.2 ⟨_, htrimmed, by decide⟩

namespace Command.AddsText

variable {ι : Interface} {μ : Type} {e : Engine ι μ} {c : Command} {i : Fin 10} {text : String} {k : ℤ}
  (hc : c.AddsText i text) (hspells : Spells text.toList k)
include hc hspells

/-- The variables after the command. -/
theorem add_eq (s : Store) (now : DateTime) :
    Assign.add s now (.ofCommand s now c) = .ok (s.addText i text) := by
  obtain ⟨spelling, first, second, rest, hparameters, hname⟩ := hc.operands
  have hoperands : Assign.operands (.ofCommand s now c) = .ok (spelling, text) := by
    simp [Assign.operands, Invocation.ofCommand, hparameters, Invocation.arg?, Argument.ofParameter,
      Argument.text, Parameter.isPositional, Variable.expand_spelling hname, hspells.expand_eq]
  have hcanonical : canonical spelling = user i := (sameName_iff_of_rule? (rule?_user i)).1 hname
  have hset (v : Value) : s.set spelling v = s.set (user i) v := by
    simp only [Store.set, hcanonical, Variable.canonical_eq_self (rule?_user i)]
  simp only [Assign.add, hoperands, bind, Except.bind, hspells.literalValue_eq, hcanonical,
    if_neg (Variable.user_ne i).1, s.get_user now hname, Option.map_some, hset, s.set_user]
  rfl

variable (hadd : e.registry.find? "ADD" = some Assign.addHandler)
include hadd

/-- The command succeeds and adds the text to what the variable holds. -/
theorem dispatch_eq (m : Memory μ) (now : Reading) :
    e.registry.dispatch (e.contextAt c m now) =
      .done (.ok, { m with vars := m.vars.addText i text }) := by
  have hfind : e.registry.find? c.name = some Assign.addHandler := by
    rw [← hadd, Registry.find?, Registry.find?, hc.name]
    rfl
  rw [Registry.dispatch_of_found (e.contextAt c m now) hc.flawless hfind]
  simp only [Assign.addHandler, Engine.contextAt, hc.add_eq hspells, Context.withValue]
  rfl

/-- The engine reads the clock before and after, and in between the text is added. -/
theorem runs_dispatch (m : Memory μ) (now : Reading) :
    (e.dispatch c m).Runs [⟨.clock, now⟩, ⟨.clock, now⟩]
      ⟨.ok, { m with vars := m.vars.addText i text }, now.epochMs, now.elapsed - now.elapsed⟩ := by
  refine Engine.runs_dispatch_iff.2 ⟨now, now, [], rfl, ?_, rfl, rfl⟩
  rw [hc.dispatch_eq hspells hadd]
  exact .done _

/-- It does so whenever it is carried out. -/
theorem of_runs {m : Memory μ} {h : History (Timed ι)} {d : Dispatched μ}
    (hrun : (e.dispatch c m).Runs h d) :
    d.result = .ok ∧ d.memory = { m with vars := m.vars.addText i text } := by
  obtain ⟨before, after, h', -, hhandled, -, -⟩ := Engine.runs_dispatch_iff.1 hrun
  rw [hc.dispatch_eq hspells hadd] at hhandled
  exact Prod.mk.inj (Proc.runs_done_iff.1 hhandled).2

end Command.AddsText

/-- The built-in commands have this one among them. -/
theorem Assign.find?_builtin_add {ι : Interface} {μ : Type} :
    (Registry.builtin : Registry ι μ).find? "ADD" = some addHandler := by
  simp only [Registry.builtin, Registry.find?_register]
  rfl

/-! ## Lines -/

/-- The integers that commands add to a user variable, in order. -/
inductive Tallies (i : Fin 10) : List Command → List ℤ → Prop where
  | nil : Tallies i [] []
  | addition {c : Command} {k : ℤ} {cs : List Command} {ks : List ℤ} :
      c.Adds i k → Tallies i cs ks → Tallies i (c :: cs) (k :: ks)
  | other {c : Command} {cs : List Command} {ks : List ℤ} :
      (∀ k, ¬c.Adds i k) → Tallies i cs ks → Tallies i (c :: cs) ks

theorem exists_rel_of_mem {α β : Type} {R : α → β → Prop} {as : List α} {bs : List β}
    (hall : List.Forall₂ R as bs) {a : α} (ha : a ∈ as) : ∃ b, R a b := by
  induction hall with
  | nil => nomatch ha
  | cons hab _ ih =>
      rcases List.mem_cons.1 ha with rfl | ha
      · exact ⟨_, hab⟩
      · exact ih ha

/-- Where every command is an addition, the tally leaves none out. -/
theorem Tallies.of_forall₂ {i : Fin 10} {cs : List Command} {ks : List ℤ}
    (hall : List.Forall₂ (fun c k => c.Adds i k) cs ks) : Tallies i cs ks := by
  induction hall with
  | nil => exact .nil
  | cons hadds _ ih => exact .addition hadds ih

namespace Addition

def name : CommandName :=
  ⟨"ADD", by decide, List.all_eq_true.1 (by decide)⟩

def line (i : Fin 10) (text : String) : String :=
  "ADD " ++ user i ++ " " ++ text

def script (i : Fin 10) (texts : List String) : String :=
  "\n".intercalate (texts.map (line i))

section Line

variable {text : String} {k : ℤ} (hspells : Spells text.toList k) (i : Fin 10)
include hspells

/-- A command with the name `ADD`, the variable and the integer adds the text of the integer. -/
theorem addsText_command (raw : List Char) (n : Nat) :
    (name.command [(user i).toList, text.toList] raw n).AddsText i text := by
  have hcut : cutAtEquals .outside text.toList = none :=
    cutAtEquals_of_notMem (hspells.notMem (by decide))
  have hunquoted : unquote text = text := by
    unfold unquote unquoteChars
    split
    · rename_i hcs
      exact absurd (hcs ▸ List.mem_cons_self) (hspells.notMem (by decide))
    · exact String.ofList_toList
  have hparameters := parameters_userTokens name i hcut raw n
  rw [hunquoted] at hparameters
  have hupper : Text.upper (Text.upper "ADD") = "ADD" := by decide
  exact ⟨rfl, hupper, user i, user i, text, [], hparameters, Variable.sameName_iff.2 rfl⟩

/-- The line is read as a command that adds the integer. -/
theorem exists_ofLine?_line (n : Nat) :
    ∃ c, Command.ofLine? (line i text).toList n = some c ∧ c.Adds i k := by
  have hline : (line i text).toList = spaced [name.text.toList, (user i).toList, text.toList] := by
    simp [line, spaced, name]
  obtain ⟨hlaid, hclosed⟩ := laid_userTokens name i hspells.isToken
  rw [hline]
  exact ⟨_, hlaid.ofLine?_eq hclosed n, text, addsText_command hspells i _ n, hspells⟩

/-- The line stands in a script as it is. -/
theorem line_isLine :
    (line i text).toList ≠ [] ∧ '\n' ∉ (line i text).toList ∧
      (line i text).toList.getLast? ≠ some '\r' := by
  have hfeed : '\n' ∉ text.toList := hspells.notMem (by decide)
  have hname := (Variable.notMem_user i).2
  refine ⟨by simp [line], by simp [line, hname, hfeed], fun hlast => ?_⟩
  rw [line, String.toList_append, List.getLast?_append, Option.or_of_isSome] at hlast
  · exact hspells.notMem (by decide) (List.mem_of_getLast? hlast)
  · simpa using hspells.ne_nil

end Line

/-- A script of such lines is read as commands that add these integers, one for each line. -/
theorem adds_script (i : Fin 10) {texts : List String} {ks : List ℤ}
    (hspells : List.Forall₂ (fun text k => Spells text.toList k) texts ks) (title : String) :
    List.Forall₂ (fun c k => c.Adds i k) (Script.parse title (script i texts)).commands ks := by
  have hfrom (n : Nat) : List.Forall₂ (fun c k => c.Adds i k)
      (Script.commandsFrom n (texts.map fun text => (line i text).toList)) ks := by
    induction hspells generalizing n with
    | nil => exact .nil
    | cons htext _ ih =>
        obtain ⟨c, hline, hadds⟩ := exists_ofLine?_line htext i n
        simp only [List.map_cons, Script.commandsFrom, hline]
        exact .cons hadds (ih (n + 1))
  have hlines : Text.lines (script i texts).toList = texts.map fun text => (line i text).toList := by
    rw [script, String.toList_intercalate, List.map_map]
    refine Text.lines_intercalate (List.forall_mem_map.2 fun text htext => ?_)
    obtain ⟨k, hk⟩ := exists_rel_of_mem hspells htext
    exact line_isLine hk i
  rw [Script.parse, hlines]
  exact hfrom 1

end Addition
end MacroReplay
