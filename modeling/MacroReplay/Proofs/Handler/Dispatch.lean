import MacroReplay.Browser.Module
import MacroReplay.Proofs.Proc.History
import MacroReplay.Proofs.Variable.Rule

/-!
# What is dispatched to which handler

* `Registry.find?_register` — the handler registered last under a name is the one that is found;
* `Browser.find?_install` — the browser commands stand before those of the engine they are added to;
* `Registry.runs_dispatch`, `Engine.runs_dispatch_iff` — the histories of a dispatched command.
-/

namespace MacroReplay

/-! ## Arguments -/

/-- What a key asks for is the value of the parameter with this key, after replacement. -/
theorem Invocation.param?_ofCommand (s : Store) (now : Calendar.DateTime) (c : Command) (key : String) :
    (ofCommand s now c).param? key = (c.param? key).map fun p => s.expand now p.value := by
  simp [ofCommand, param?, Command.param?, List.find?_map, Function.comp_def, Argument.ofParameter]

namespace Registry

variable {ι : Interface} {μ α : Type}

/-! ## Registered handlers -/

/-- Looking up a name where the values of a key are replaced. -/
theorem find?_replaced (entries : List (String × α)) (key wanted : String) (h : α) :
    ((entries.map fun entry => if entry.1 == key then (key, h) else entry).find?
        (·.1 == wanted)).map (·.2) =
      if wanted = key ∧ entries.any (·.1 == key) then some h
      else (entries.find? (·.1 == wanted)).map (·.2) := by
  induction entries with
  | nil => simp
  | cons entry entries ih =>
      by_cases hkey : entry.1 = key
      · by_cases hwanted : key = wanted
        · simp [hkey, hwanted]
        · have hother : ¬wanted = key := fun h => hwanted h.symm
          rw [List.map_cons, List.find?_cons_of_neg (by simp [hkey, hwanted]),
            List.find?_cons_of_neg (by simp [hkey, hwanted]), ih]
          simp [hother]
      · have hkey' : (entry.1 == key) = false := by simpa using hkey
        by_cases hfound : entry.1 = wanted
        · subst hfound
          simp [hkey]
        · rw [List.map_cons, List.find?_cons_of_neg (by simp [hkey, hfound]),
            List.find?_cons_of_neg (by simp [hfound]), ih, List.any_cons, hkey', Bool.false_or]

/-- The handler that was registered last under a name is the one that is found. -/
theorem find?_register (r : Registry ι μ) (name command : String) (h : Handler ι μ) :
    (r.register name h).find? command =
      if Text.upper command = Variable.canonical name then some h else r.find? command := by
  simp only [register]
  by_cases hany : r.entries.any (·.1 == Variable.canonical name) = true
  · -- The handler takes the place of one of the same name.
    rw [if_pos hany, find?, find?_replaced, hany]
    simp [find?]
  · -- The handler stands behind all others, and none of them has its name.
    rw [if_neg hany, find?, List.find?_append]
    by_cases hname : Text.upper command = Variable.canonical name
    · have hnone : r.entries.find? (·.1 == Variable.canonical name) = none := by
        rw [List.find?_eq_none]
        intro entry hentry hkey
        exact hany (List.any_eq_true.2 ⟨entry, hentry, hkey⟩)
      simp [hname, hnone]
    · have hother : ¬Variable.canonical name = Text.upper command := fun h => hname h.symm
      simp [find?, hname, hother]

/-- Handlers with different names stand before those that were registered earlier. -/
theorem find?_foldl_register {added : List (String × Handler ι μ)}
    (hnames : ∀ entry ∈ added, Variable.canonical entry.1 = entry.1)
    (hdistinct : (added.map (·.1)).Nodup) (r : Registry ι μ) (command : String) :
    (added.foldl (fun r (name, h) => r.register name h) r).find? command =
      ((added.find? (·.1 == Text.upper command)).map (·.2)).or (r.find? command) := by
  induction added generalizing r with
  | nil => rfl
  | cons entry added ih =>
      obtain ⟨name, h⟩ := entry
      have hname : Variable.canonical name = name := hnames (name, h) (by simp)
      rw [List.map_cons, List.nodup_cons] at hdistinct
      rw [List.foldl_cons, ih (fun e he => hnames e (by simp [he])) hdistinct.2, find?_register, hname]
      by_cases hfound : Text.upper command = name
      · -- The names behind this one are different from it.
        have hnone : added.find? (·.1 == name) = none := by
          rw [List.find?_eq_none]
          intro entry hentry hkey
          exact hdistinct.1 (List.mem_map.2 ⟨entry, hentry, by simpa using hkey⟩)
        simp [hfound, hnone]
      · have hother : ¬name = Text.upper command := fun h => hfound h.symm
        rw [if_neg hfound, List.find?_cons_of_neg (by simp [hother])]

/-- The built-in handlers are those of `SET`, `ADD` and `WAIT`. -/
theorem cases_of_find?_builtin {name : String} {h : Handler ι μ}
    (hfind : (builtin : Registry ι μ).find? name = some h) :
    h = Assign.setHandler ∨ h = Assign.addHandler ∨ h = Wait.handler := by
  simp only [builtin, find?_register] at hfind
  split at hfind
  · exact .inr (.inr (Option.some.inj hfind).symm)
  · split at hfind
    · exact .inr (.inl (Option.some.inj hfind).symm)
    · split at hfind
      · exact .inl (Option.some.inj hfind).symm
      · nomatch hfind

/-! ## Dispatched commands -/

/-- A flawless command with a known name is given to its handler, and the report is cut down to the
result. -/
theorem dispatch_of_found {r : Registry ι μ} {handler : Handler ι μ} (ctx : Context μ)
    (hflaw : ctx.invocation.command.flaw = none)
    (hfind : r.find? ctx.invocation.command.name = some handler) :
    r.dispatch ctx = (handler ctx).bind fun (report, memory) => .done (report.result, memory) := by
  simp only [dispatch, hflaw, hfind]

/-- A line with a flaw and a command without a handler make no calls and change nothing; all else is what
the handler does. -/
theorem runs_dispatch {r : Registry ι μ} {ctx : Context μ}
    {h : History (Timed ι)} {result : CommandResult} {m : Memory μ}
    (hrun : (r.dispatch ctx).Runs h (result, m)) :
    h = [] ∧ m = ctx.memory ∨
      ∃ handler report, ctx.invocation.command.flaw = none ∧
        r.find? ctx.invocation.command.name = some handler ∧
        (handler ctx).Runs h (report, m) ∧ result = report.result := by
  cases hflaw : ctx.invocation.command.flaw with
  -- A flawed line and an unknown command are answered without a handler.
  | some flaw =>
      simp only [dispatch, hflaw] at hrun
      obtain ⟨rfl, hend⟩ := Proc.runs_done_iff.1 hrun
      cases hend
      exact .inl ⟨rfl, rfl⟩
  | none =>
      cases hfind : r.find? ctx.invocation.command.name with
      | none =>
          simp only [dispatch, hflaw, hfind] at hrun
          obtain ⟨rfl, hend⟩ := Proc.runs_done_iff.1 hrun
          cases hend
          exact .inl ⟨rfl, rfl⟩
      | some handler =>
          rw [dispatch_of_found ctx hflaw hfind] at hrun
          rcases Proc.runs_bind_iff.1 hrun with ⟨h₁, h₂, ⟨report, m'⟩, rfl, hhandled, hdone⟩
          obtain ⟨rfl, hend⟩ := Proc.runs_done_iff.1 hdone
          cases hend
          rw [List.append_nil]
          exact .inr ⟨handler, report, rfl, rfl, hhandled, rfl⟩

end Registry

namespace Engine

variable {ι : Interface} {μ : Type}

/-- What the handler of a command is given when the clock shows `now`. -/
def contextAt (e : Engine ι μ) (c : Command) (m : Memory μ) (now : Reading) : Context μ :=
  { invocation := .ofCommand m.vars now.date c, pacing := e.settings.pacing, date := now.date,
    memory := m }

/-- A dispatched command reads the clock, is carried out and reads the clock again. -/
theorem runs_dispatch_iff {e : Engine ι μ} {c : Command} {m : Memory μ} {h : History (Timed ι)}
    {d : Dispatched μ} :
    (e.dispatch c m).Runs h d ↔
      ∃ (before after : Reading) (h' : History (Timed ι)),
        h = ⟨.clock, before⟩ :: (h' ++ [⟨.clock, after⟩]) ∧
          (e.registry.dispatch (e.contextAt c m before)).Runs h' (d.result, d.memory) ∧
          d.startedMs = before.epochMs ∧ d.took = after.elapsed - before.elapsed := by
  constructor
  · intro hrun
    rcases Proc.runs_call_iff.1 hrun with ⟨before, h₁, rfl, hrest⟩
    rw [Proc.done_bind] at hrest
    rcases Proc.runs_bind_iff.1 hrest with ⟨h', h₂, ⟨result, m'⟩, rfl, hhandled, hend⟩
    rcases Proc.runs_call_iff.1 hend with ⟨after, h₃, rfl, hdone⟩
    obtain ⟨rfl, rfl⟩ := Proc.runs_done_iff.1 hdone
    exact ⟨before, after, h', rfl, hhandled, rfl, rfl⟩
  · rintro ⟨before, after, h', rfl, hhandled, hstarted, htook⟩
    obtain ⟨result, m', startedMs, took⟩ := d
    obtain ⟨rfl, rfl⟩ : startedMs = before.epochMs ∧ took = after.elapsed - before.elapsed :=
      ⟨hstarted, htook⟩
    refine Proc.runs_call_iff.2 ⟨before, _, rfl, ?_⟩
    rw [Proc.done_bind]
    refine Proc.runs_bind_iff.2 ⟨h', _, _, rfl, hhandled, ?_⟩
    exact Proc.runs_call_iff.2 ⟨after, [], rfl, .done _⟩

/-- A handler that makes no calls takes no time. -/
theorem runs_dispatch_of_done {e : Engine ι μ} {c : Command} {m m' : Memory μ} {handler : Handler ι μ}
    {report : Report} (hflaw : c.flaw = none) (hfind : e.registry.find? c.name = some handler)
    (now : Reading) (hdone : handler (e.contextAt c m now) = .done (report, m')) :
    (e.dispatch c m).Runs [⟨.clock, now⟩, ⟨.clock, now⟩]
      ⟨report.result, m', now.epochMs, now.elapsed - now.elapsed⟩ := by
  refine runs_dispatch_iff.2 ⟨now, now, [], rfl, ?_, rfl, rfl⟩
  rw [Registry.dispatch_of_found (e.contextAt c m now) hflaw hfind, hdone]
  exact .done _

end Engine

namespace Browser

variable {χ : Interface}

/-- The browser commands stand before the commands of the engine that they are added to. -/
theorem find?_install (e : Engine (Host χ) Backup) (name : String) :
    (install e).registry.find? name =
      ((handlers.find? (·.1 == Text.upper name)).map (·.2)).or (e.registry.find? name) := by
  apply Registry.find?_foldl_register
  · intro entry hentry
    simp only [handlers, List.mem_cons, List.not_mem_nil, or_false] at hentry
    apply Variable.canonical_of_plain
    rcases hentry with rfl | rfl | rfl | rfl | rfl | rfl | rfl <;> dsimp only <;> decide
  · simp [handlers]

/-- All commands by name, built in and of the browser. -/
def commands : List (String × BrowserHandler χ) :=
  [("SET", Assign.setHandler), ("ADD", Assign.addHandler), ("WAIT", Wait.handler)] ++ handlers

def commandHandlers : List (BrowserHandler χ) :=
  commands.map (·.2)

/-- The names of the browser commands, which do not depend on what else there is to call. -/
def commandNames : List String :=
  (handlers : List (String × BrowserHandler .empty)).map (·.1)

/-- The names of the commands do not depend on the channel to the browser. -/
theorem commandNames_eq : commandNames = (handlers : List (String × BrowserHandler χ)).map (·.1) :=
  rfl

end Browser
end MacroReplay
