import MacroReplay.Cli.Program
import MacroReplay.Proofs.Handler.Atomicity
import MacroReplay.Proofs.Run.Accumulation

/-!
# The check of a script agrees with its runs

A script is checked without being played: the report lists the lines with a flaw. A line without one may
fail in many ways when it is played, but it is never blamed for how it is written; a line with one is
always blamed, before anything else is done.

* `AcceptsLine` — a handler may end like this for a line without a flaw;
* `Browser.acceptsLine_of_mem` — every command does, whatever it is replied;
* `Command.IsRefused`, `Command.isRefused_of_flaw` — what becomes of a line with a flaw, in any engine;
* `Run.Tally.Blames` — a run that blames the writing of a line has dispatched that line;
* `Cli.reports_iff` — the lines that a report lists are those of the commands with a flaw;
* `Cli.check_agrees` — the check of every text, against every dispatch and every run.
-/

namespace MacroReplay

/-- No failure of a handler blames the line. -/
theorem CommandError.code_ne_syntaxError (e : CommandError) : e.code ≠ .syntaxError := by
  cases e <;> nofun

/-! ## Handlers -/

section Handlers

variable {ι : Interface} {μ : Type}

/-- What a handler ended with does not blame the line for how it is written. -/
def AcceptsLine (left : Report × Memory μ) : Prop :=
  left.1.result.code ≠ .syntaxError

/-- Whatever it is replied, the process does not blame the line. -/
abbrev Accepting (p : Proc (Timed ι) (Report × Memory μ)) : Prop :=
  p.Obeys (fun _ => True) AcceptsLine

/-- A handler that fails does not blame the line. -/
theorem acceptsLine_failed (e : CommandError) (m : Memory μ) : AcceptsLine (.failed e, m) :=
  e.code_ne_syntaxError

/-- Nor does one that ends in a fault. -/
theorem acceptsLine_faulted (f : Fault) (m : Memory μ) : AcceptsLine (.faulted f, m) :=
  nofun

theorem acceptsLine_ok (m : Memory μ) : AcceptsLine (.finished .ok, m) :=
  nofun

/-- A request that makes no sense is a failure like any other. -/
theorem accepting_withValue {α : Type} {ctx : Context μ} {v : Except CommandError α}
    {next : α → Proc (Timed ι) (Report × Memory μ)} (hnext : ∀ a, Accepting (next a)) :
    Accepting (ctx.withValue v next) := by
  cases v with
  | ok a => exact hnext a
  | error e => exact acceptsLine_failed e ctx.memory

theorem accepting_setHandler (ctx : Context μ) :
    Accepting (Assign.setHandler ctx : Proc (Timed ι) _) :=
  accepting_withValue fun _ => acceptsLine_ok _

theorem accepting_addHandler (ctx : Context μ) :
    Accepting (Assign.addHandler ctx : Proc (Timed ι) _) :=
  accepting_withValue fun _ => acceptsLine_ok _

theorem accepting_waitHandler (ctx : Context μ) :
    Accepting (Wait.handler ctx : Proc (Timed ι) _) := by
  apply accepting_withValue
  intro d
  refine ⟨trivial, ?_⟩
  rintro ⟨took, stopped⟩
  cases stopped with
  | true => exact acceptsLine_failed .stopped ctx.memory
  | false => exact acceptsLine_ok ctx.memory

end Handlers

namespace Browser

variable {χ : Interface}

/-- However a call goes wrong, the line is not to blame. -/
theorem allowsMishaps_acceptsLine (ctx : Context Backup) : AllowsMishaps ctx AcceptsLine where
  failed e := acceptsLine_failed e.toCommandError ctx.memory
  expired _ := acceptsLine_failed _ ctx.memory
  stopped := acceptsLine_failed .stopped ctx.memory
  faulted f := acceptsLine_faulted f ctx.memory

/-- Nor is it after a navigation. -/
theorem accepting_recordUrl (ctx : Context Backup) (fallback : String) :
    Accepting (recordUrl ctx fallback : Doing χ) := by
  refine obeys_awaited (allowsMishaps_acceptsLine ctx) trivial ?_
  intro reply
  dsimp only
  cases ctx.memory.vars.set "!URLCURRENT" _ with
  | ok written => exact acceptsLine_ok _
  | error e => exact acceptsLine_failed _ ctx.memory

theorem accepting_urlHandler (ctx : Context Backup) : Accepting (urlHandler ctx : Doing χ) := by
  apply accepting_withValue
  intro url
  exact obeys_bounded (allowsMishaps_acceptsLine ctx) trivial fun _ => accepting_recordUrl ctx url

theorem accepting_backHandler (ctx : Context Backup) : Accepting (backHandler ctx : Doing χ) :=
  obeys_bounded (allowsMishaps_acceptsLine ctx) trivial fun _ => accepting_recordUrl ctx ""

theorem accepting_refreshHandler (ctx : Context Backup) : Accepting (refreshHandler ctx : Doing χ) :=
  obeys_bounded (allowsMishaps_acceptsLine ctx) trivial fun _ => acceptsLine_ok ctx.memory

theorem accepting_tabHandler (ctx : Context Backup) : Accepting (tabHandler ctx : Doing χ) := by
  apply accepting_withValue
  intro action
  exact obeys_bounded (allowsMishaps_acceptsLine ctx) trivial fun _ => acceptsLine_ok ctx.memory

/-- A lookup ends as its replies are judged, or because its time is used up, or because it is stopped. -/
theorem judges_acceptsLine {c : Call} {judge : Except BridgeError c.Value → CommandResult}
    (hjudge : ∀ reply, (judge reply).code ≠ .syntaxError) :
    @Retry.Judges (Host χ) (.inl c) judge fun r => r.code ≠ .syntaxError where
  replied := hjudge
  timedOut _ := nofun
  stopped := nofun

/-- Whatever the browser says about a frame. -/
theorem code_frameResult_ne (reply : Except BridgeError Unit) :
    (frameResult reply).code ≠ .syntaxError := by
  cases reply with
  | error e => exact CommandError.code_ne_syntaxError _
  | ok v => nofun

theorem accepting_frameHandler (ctx : Context Backup) : Accepting (frameHandler ctx : Doing χ) := by
  apply accepting_withValue
  intro target
  exact obeys_lookedUp (allowsMishaps_acceptsLine ctx) (fun _ => trivial) (fun _ => trivial)
    (judges_acceptsLine (c := .selectFrame target) code_frameResult_ne) fun _ hr => hr

/-- Whatever the browser says about an element. -/
theorem code_tagResult_ne (reply : Except BridgeError (Option String)) :
    (tagResult reply).code ≠ .syntaxError := by
  rcases reply with e | _ | text
  · exact CommandError.code_ne_syntaxError _
  · nofun
  · nofun

theorem accepting_tagHandler (ctx : Context Backup) : Accepting (tagHandler ctx : Doing χ) := by
  apply accepting_withValue
  rintro ⟨locator, action⟩
  refine obeys_lookedUp (allowsMishaps_acceptsLine ctx) (fun _ => trivial) (fun _ => trivial)
    (judges_acceptsLine (c := .tag locator action) code_tagResult_ne) ?_
  intro result hresult
  cases extractedText? action result with
  | none => exact hresult
  | some text =>
      dsimp only
      cases ctx.memory.vars.set "!EXTRACT" (.text text) with
      | ok written => exact hresult
      | error e => exact acceptsLine_failed _ ctx.memory

theorem accepting_changeProxy (ctx : Context Backup) (settings : ProxySettings) :
    Accepting (changeProxy ctx settings : Doing χ) := by
  refine obeys_awaited (allowsMishaps_acceptsLine ctx) trivial ?_
  rintro (e | v)
  · exact acceptsLine_failed _ ctx.memory
  · exact acceptsLine_ok ctx.memory

theorem accepting_proxyHandler (ctx : Context Backup) : Accepting (proxyHandler ctx : Doing χ) := by
  apply accepting_withValue
  intro settings
  dsimp only
  split
  · exact accepting_changeProxy ctx settings
  · refine obeys_awaited (allowsMishaps_acceptsLine ctx) trivial ?_
    rintro (e | current)
    · exact acceptsLine_failed _ ctx.memory
    · exact accepting_changeProxy _ settings

/-- No command blames its line, whatever the browser and the clock reply. -/
theorem acceptsLine_of_mem {handler : BrowserHandler χ} (hmem : handler ∈ commandHandlers)
    (ctx : Context Backup) : Accepting (handler ctx) := by
  simp only [commandHandlers, commands, handlers, List.map_cons, List.map_nil, List.cons_append,
    List.nil_append, List.mem_cons, List.not_mem_nil, or_false] at hmem
  rcases hmem with rfl | rfl | rfl | rfl | rfl | rfl | rfl | rfl | rfl | rfl
  · exact accepting_setHandler ctx
  · exact accepting_addHandler ctx
  · exact accepting_waitHandler ctx
  · exact accepting_urlHandler ctx
  · exact accepting_backHandler ctx
  · exact accepting_refreshHandler ctx
  · exact accepting_tabHandler ctx
  · exact accepting_frameHandler ctx
  · exact accepting_tagHandler ctx
  · exact accepting_proxyHandler ctx

end Browser

/-! ## Dispatched lines -/

namespace Command

def malformedResult (line : Nat) (reason : String) : CommandResult :=
  .failure .syntaxError ("Line " ++ toString line ++ ": " ++ reason)

/-- Whatever the handlers, their memory and the collaborators: a dispatch reads the clock before and
after it and does nothing else, ends with the line's own failure, and leaves the memory as it was. -/
def IsRefused (c : Command) (reason : String) : Prop :=
  ∀ {ι : Interface} {μ : Type} (e : Engine ι μ) (m : Memory μ) (h : History (Timed ι))
    (d : Dispatched μ),
    (e.dispatch c m).Runs h d ↔
      ∃ before after : Reading, h = [⟨.clock, before⟩, ⟨.clock, after⟩] ∧
        d = ⟨malformedResult c.line reason, m, before.epochMs, after.elapsed - before.elapsed⟩

/-- A line with a flaw is refused for it. -/
theorem isRefused_of_flaw {c : Command} {flaw : Flaw} (hflaw : c.flaw = some flaw) :
    c.IsRefused flaw.message := by
  intro ι μ e m h d
  have hdispatch : ∀ now, e.registry.dispatch (e.contextAt c m now) =
      .done (malformedResult c.line flaw.message, m) := by
    intro now
    have hflaw' : (e.contextAt c m now).invocation.command.flaw = some flaw := hflaw
    simp only [Registry.dispatch, hflaw']
    rfl
  rw [Engine.runs_dispatch_iff]
  constructor
  · rintro ⟨before, after, h', rfl, hdone, hstarted, htook⟩
    rw [hdispatch before] at hdone
    obtain ⟨rfl, hend⟩ := Proc.runs_done_iff.1 hdone
    obtain ⟨result, memory, startedMs, took⟩ := d
    obtain ⟨rfl, rfl⟩ := Prod.mk.inj hend
    exact ⟨before, after, rfl, congrArg₂ _ hstarted htook⟩
  · rintro ⟨before, after, rfl, rfl⟩
    refine ⟨before, after, [], rfl, ?_, rfl, rfl⟩
    rw [hdispatch before]
    exact .done _

end Command

namespace Browser

variable {χ : Interface}

/-- Every handler of the engine is that of a command, built in or of the browser. -/
def Stock (e : Engine (Host χ) Backup) : Prop :=
  ∀ name handler, e.registry.find? name = some handler → handler ∈ commandHandlers

/-- An engine with the built-in commands has no others. -/
theorem stock_builtin (settings : EngineSettings) (cleanup : Cleanup (Hook (Host χ) Backup))
    (datasource : Option (Datasource (Host χ))) (sink : Option (Sink (Host χ))) :
    Stock ⟨settings, .builtin, cleanup, datasource, sink⟩ := by
  intro name handler hfind
  rcases Registry.cases_of_find?_builtin hfind with rfl | rfl | rfl <;>
    simp [commandHandlers, commands]

/-- The browser commands are added to it. -/
theorem Stock.install {e : Engine (Host χ) Backup} (he : Stock e) : Stock (install e) := by
  intro name handler hfind
  rw [find?_install] at hfind
  cases hbrowser : (handlers.find? (·.1 == Text.upper name) : Option (String × BrowserHandler χ)) with
  | none =>
      rw [hbrowser] at hfind
      exact he name handler hfind
  | some entry =>
      rw [hbrowser] at hfind
      cases hfind
      exact List.mem_map_of_mem (List.mem_append_right _ (List.mem_of_find?_eq_some hbrowser))

/-- A line without a flaw is not blamed, whatever its command and whatever comes of it. -/
theorem Stock.code_ne_syntaxError {e : Engine (Host χ) Backup} (he : Stock e) {c : Command}
    (hflaw : c.flaw = none) {m : Memory Backup} {h : History (Timed (Host χ))}
    {d : Dispatched Backup} (hrun : (e.dispatch c m).Runs h d) : d.result.code ≠ .syntaxError := by
  rcases Engine.runs_dispatch_iff.1 hrun with ⟨before, after, h', -, hdispatched, -, -⟩
  cases hfind : e.registry.find? c.name with
  | none =>
      simp only [Registry.dispatch, Engine.contextAt, Invocation.ofCommand, hflaw, hfind] at hdispatched
      have hend : d.result = .ok := congrArg Prod.fst (Proc.runs_done_iff.1 hdispatched).2
      rw [hend]
      decide
  | some handler =>
      rw [Registry.dispatch_of_found (e.contextAt c m before) hflaw hfind] at hdispatched
      obtain ⟨h₁, h₂, ⟨report, m'⟩, -, hhandled, hdone⟩ := Proc.runs_bind_iff.1 hdispatched
      have hend : d.result = report.result := congrArg Prod.fst (Proc.runs_done_iff.1 hdone).2
      rw [hend]
      exact ((acceptsLine_of_mem (he _ _ hfind) _).of_runs hhandled).2

end Browser

/-! ## Runs -/

namespace Run

variable {μ : Type}

/-- If the tally blames a line for how it is written, then the line is that of a command that
failed so. -/
def Tally.Blames (t : Tally) (steps : List (Step μ)) : Prop :=
  t.code = .syntaxError →
    ∃ s ∈ steps, s.result.code = .syntaxError ∧ t.failedLine = some s.command.line

theorem Tally.blames_of_ne {t : Tally} (hcode : t.code ≠ .syntaxError) (steps : List (Step μ)) :
    t.Blames steps :=
  fun h => absurd h hcode

/-- As long as nothing has ended the run, nothing is blamed. -/
theorem Tally.Ongoing.blames {t : Tally} {n : Nat} (ht : t.Ongoing n) (steps : List (Step μ)) :
    t.Blames steps :=
  Tally.blames_of_ne (by simp [ht.code_eq]) steps

/-- The failed command is among more steps too. -/
theorem Tally.Blames.mono {t : Tally} {steps more : List (Step μ)} (ht : t.Blames steps)
    (hsub : steps ⊆ more) : t.Blames more := by
  intro hcode
  obtain ⟨s, hs, hblamed⟩ := ht hcode
  exact ⟨s, hsub hs, hblamed⟩

/-- A run that is over blames a line only if the command that ended it did. -/
theorem Exit.blames {i n : Nat} {rest : List Command} {t t' : Tally} {m m' : Memory μ}
    {stage : Stage μ} {h : History (Run μ)} (hexit : Exit i rest t m h stage)
    (hstage : stage = .over t' m') (ht : t.Ongoing n) : t'.Blames (dispatched h) := by
  cases hexit with
  | halted =>
      obtain ⟨rfl, rfl⟩ := Stage.over.inj hstage
      exact Tally.blames_of_ne (by simp [Tally.stop]) _
  | stopped | haltedAfter =>
      obtain ⟨rfl, rfl⟩ := Stage.over.inj hstage
      exact Tally.blames_of_ne (by simp [Tally.stop]) _
  | @dataEnd s =>
      obtain ⟨rfl, rfl⟩ := Stage.over.inj hstage
      exact (ht.noted s).blames _
  | @aborted s =>
      -- The run has the code and the line of the command that ended it.
      obtain ⟨rfl, rfl⟩ := Stage.over.inj hstage
      intro hcode
      exact ⟨s, by simp, hcode, rfl⟩
  | finished | skipped => cases hstage

/-- The same for a whole iteration. -/
theorem blames_playIteration {commands : List Command} {hasDatasource : Bool} {i n : Nat}
    {t t' : Tally} {m m' : Memory μ} {h : History (Run μ)}
    (hrun : (playIteration commands hasDatasource i t m).Runs h (.over t' m')) (ht : t.Ongoing n) :
    t'.Blames (dispatched h) := by
  rcases runs_playIteration hrun with hrefusal | ⟨h₁, h₂, m₁, hopening, rfl, hplayed⟩
  · cases hrefusal with
    | halted => exact Tally.blames_of_ne (by simp [Tally.stop]) _
    | exhausted => exact ht.blames _
    | @failed e => exact Tally.blames_of_ne e.code_ne_syntaxError _
    | faulted => exact Tally.blames_of_ne (by simp [Tally.abort]) _
  · rcases runs_playCommands hplayed with ⟨passed, rest, m₂, h₃, -, -, -, rfl, hexit⟩
    refine (hexit.blames rfl (ht.foldl_after passed)).mono ?_
    rw [dispatched_append, dispatched_append]
    exact fun s hs => List.mem_append_right _ (List.mem_append_right _ hs)

/-- The same for as many iterations as there are. -/
theorem blames_playIterations {commands : List Command} {hasDatasource : Bool} {left n : Nat}
    {t t' : Tally} {m m' : Memory μ} {h : History (Run μ)}
    (hrun : (playIterations commands hasDatasource left (n + 1) t m).Runs h (t', m'))
    (ht : t.Ongoing n) : t'.Blames (dispatched h) := by
  induction left generalizing n t m h with
  | zero =>
      obtain ⟨-, hend⟩ := Proc.runs_done_iff.1 hrun
      cases hend
      exact ht.blames _
  | succ left ih =>
      rcases runs_playIterations_succ hrun with hover | ⟨h₁, h₂, t₁, m₁, rfl, hfirst, hrest⟩
      · exact blames_playIteration hover ht
      · refine (ih hrest (counted_playIteration hfirst ht).1).mono ?_
        rw [dispatched_append]
        exact List.subset_append_right _ _

end Run

namespace Engine.Execution

variable {ι : Interface} {μ : Type} {e : Engine ι μ}

/-- A run that blames a line for how it is written has dispatched a command of its script that failed
so. -/
theorem exists_of_syntaxError (x : e.Execution) (hcode : x.result.code = .syntaxError) :
    ∃ s ∈ Run.dispatched x.events, s.command ∈ x.script.commands ∧
      s.result.code = .syntaxError ∧ x.result.failedLine = some s.command.line := by
  rcases Run.runs_plan x.plays with ⟨h₁, h₂, t, m, hsplit, hplayed, -, hresult, -⟩
  have hblames := Run.blames_playIterations hplayed Run.Tally.ongoing_start
  simp only [result, hresult] at hcode ⊢
  obtain ⟨s, hs, hfailed, hline⟩ := hblames hcode
  refine ⟨s, ?_, Run.command_mem_playIterations hplayed s hs, hfailed, hline⟩
  rw [events, hsplit, Run.dispatched_append]
  exact List.mem_append_left _ hs

end Engine.Execution

/-! ## The report -/

/-- Every command of a script was read from one of the lines, and has its number. -/
theorem Script.exists_reads_of_mem {c : Command} {n : Nat} {ls : List (List Char)}
    (hc : c ∈ Script.commandsFrom n ls) : ∃ i l, ls[i]? = some l ∧ c.Reads l (n + i) := by
  induction ls generalizing n with
  | nil => cases hc
  | cons l ls ih =>
      have hlater : c ∈ Script.commandsFrom (n + 1) ls →
          ∃ i l', (l :: ls)[i]? = some l' ∧ c.Reads l' (n + i) := by
        intro hmem
        obtain ⟨i, l', hl', hreads⟩ := ih hmem
        exact ⟨i + 1, l', hl', by rwa [Nat.add_right_comm] at hreads⟩
      unfold Script.commandsFrom at hc
      split at hc
      · rename_i first hread
        rcases List.mem_cons.1 hc with rfl | hc
        · exact ⟨0, l, rfl, Command.reads_of_ofLine? hread⟩
        · exact hlater hc
      · exact hlater hc

def Report.Document.field? : Report.Document → String → Option Report.Document
  | .fields entries, name => (entries.find? (·.1 == name)).map (·.2)
  | _, _ => none

namespace Cli

/-- The report on a script lists a line as malformed, with its text and the reason. -/
def Reports (s : Script) (line : Nat) (text reason : String) : Prop :=
  ∃ items, (checkDocument s).field? "malformed" = some (.list items) ∧
    .fields [("line", .nat line), ("text", .text text), ("reason", .text reason)] ∈ items

/-- The report lists the commands with a flaw. -/
theorem reports_iff {s : Script} {line : Nat} {text reason : String} :
    Reports s line text reason ↔
      ∃ c ∈ s.commands, c.line = line ∧ c.raw = text ∧ ∃ flaw, c.flaw = some flaw ∧
        flaw.message = reason := by
  simp only [Reports, checkDocument, Report.Document.field?, Script.flawed]
  constructor
  · rintro ⟨items, hitems, hmem⟩
    cases hitems
    obtain ⟨c, hc, hentry⟩ := List.mem_map.1 hmem
    obtain ⟨hc, hflawed⟩ := List.mem_filter.1 hc
    obtain ⟨flaw, hflaw⟩ := Option.isSome_iff_exists.1 hflawed
    simp [Report.Document.nat, hflaw] at hentry
    exact ⟨c, hc, hentry.1, hentry.2.1, flaw, hflaw, hentry.2.2⟩
  · rintro ⟨c, hc, rfl, rfl, flaw, hflaw, rfl⟩
    refine ⟨_, rfl, List.mem_map.2 ⟨c, List.mem_filter.2 ⟨hc, by simp [hflaw]⟩, ?_⟩⟩
    simp [hflaw]

/-- In every format the check succeeds exactly if the report lists nothing. -/
theorem exitCode_check_eq_zero_iff {format : OutputFormat} {s : Script} :
    (check format s).exitCode = 0 ↔ ∀ c ∈ s.commands, c.flaw = none := by
  have hnone : s.flawed.length = 0 ↔ ∀ c ∈ s.commands, c.flaw = none := by
    simp [Script.flawed]
  rw [← hnone]
  by_cases hflaws : s.flawed.length = 0 <;> simp [check, succeed, failWith, hflaws]

/-- The check of a text, against an engine with the commands. -/
structure Agrees {χ : Interface} (e : Engine (Browser.Host χ) Browser.Backup) (format : OutputFormat)
    (name text : String) : Prop where
  succeeds_iff : (check format (.parse name text)).exitCode = 0 ↔
    ∀ line written reason, ¬Reports (.parse name text) line written reason
  dispatched : (check format (.parse name text)).exitCode = 0 →
    ∀ c ∈ (Script.parse name text).commands, ∀ (m : Memory Browser.Backup)
      (h : History (Timed (Browser.Host χ))) (d : Dispatched Browser.Backup),
      (e.dispatch c m).Runs h d → d.result.code ≠ .syntaxError
  played : (check format (.parse name text)).exitCode = 0 →
    ∀ x : e.Execution, x.script = .parse name text → x.result.code ≠ .syntaxError
  /-- A listed line stands in the text, at its number, and its command is refused for that reason. -/
  refused : ∀ line written reason, Reports (.parse name text) line written reason →
    ∃ l c, 0 < line ∧ (Text.lines text.toList)[line - 1]? = some l ∧ c.Reads l line ∧
      c ∈ (Script.parse name text).commands ∧ c.raw = written ∧ c.IsRefused reason

/-- The check of a text agrees with what becomes of it. If it succeeds, then whatever the variables and
whatever is replied, no command of the text and no run of it fails for how a line is written. Each line
that it lists is refused by every engine, with its number and the reason, before anything is called or
changed. -/
theorem check_agrees {χ : Interface} {e : Engine (Browser.Host χ) Browser.Backup}
    (he : Browser.Stock e) (format : OutputFormat) (name text : String) :
    Agrees e format name text where
  succeeds_iff := by
    rw [exitCode_check_eq_zero_iff]
    constructor
    · intro hclean line written reason hreports
      obtain ⟨c, hc, -, -, flaw, hflaw, -⟩ := reports_iff.1 hreports
      rw [hclean c hc] at hflaw
      cases hflaw
    · intro hnone c hc
      by_contra hflawed
      obtain ⟨flaw, hflaw⟩ := Option.ne_none_iff_exists'.1 hflawed
      exact hnone _ _ _ (reports_iff.2 ⟨c, hc, rfl, rfl, flaw, hflaw, rfl⟩)
  dispatched := by
    intro hclean c hc m h d hrun
    exact he.code_ne_syntaxError (exitCode_check_eq_zero_iff.1 hclean c hc) hrun
  played := by
    intro hclean x hscript hcode
    -- A run with this code has a command that failed with it, and none of a clean script does.
    obtain ⟨s, hs, hmem, hfailed, -⟩ := x.exists_of_syntaxError hcode
    obtain ⟨h, hrun⟩ := x.exists_runs_dispatch hs
    rw [hscript] at hmem
    exact he.code_ne_syntaxError (exitCode_check_eq_zero_iff.1 hclean _ hmem) hrun hfailed
  refused := by
    intro line written reason hreports
    obtain ⟨c, hc, rfl, rfl, flaw, hflaw, rfl⟩ := reports_iff.1 hreports
    -- The line number of the command leads back to the line of the text.
    obtain ⟨i, l, hl, hreads⟩ := Script.exists_reads_of_mem hc
    have hline : c.line = 1 + i := hreads.line_eq
    refine ⟨l, c, by omega, ?_, ?_, hc, rfl, Command.isRefused_of_flaw hflaw⟩
    · rwa [hline, Nat.add_sub_cancel_left]
    · rwa [hline]

/-- The engine of the program has the built-in commands and those of the browser. -/
theorem stock_engine (c : Config) (rows : Option (List (List String))) :
    Browser.Stock (engine c rows) :=
  (Browser.stock_builtin _ _ _ _).install

/-- One text is accepted, and the second line of another is not. -/
theorem check_agrees_engine :
    Browser.Stock (engine {} none) ∧
      (check .json (.parse "clean" "SET !VAR1 1\nWAIT SECONDS=2")).exitCode = 0 ∧
      (∀ x : (engine {} none).Execution, x.script = .parse "clean" "SET !VAR1 1\nWAIT SECONDS=2" →
        x.result.code ≠ .syntaxError) ∧
      Reports (.parse "open" "SET !VAR1 1\n WAIT \"2") 2 "WAIT \"2" "Unterminated quoted value" ∧
      ∃ c ∈ (Script.parse "open" "SET !VAR1 1\n WAIT \"2").commands,
        c.IsRefused "Unterminated quoted value" := by
  have hclean : (check .json (.parse "clean" "SET !VAR1 1\nWAIT SECONDS=2")).exitCode = 0 :=
    exitCode_check_eq_zero_iff.2 (by decide)
  have hopen : Reports (.parse "open" "SET !VAR1 1\n WAIT \"2") 2 "WAIT \"2"
      "Unterminated quoted value" :=
    reports_iff.2 (by decide)
  refine ⟨stock_engine _ _, hclean, (check_agrees (stock_engine _ _) _ _ _).played hclean, hopen, ?_⟩
  obtain ⟨l, c, -, -, -, hc, -, hrefused⟩ :=
    (check_agrees (stock_engine {} none) .json _ _).refused _ _ _ hopen
  exact ⟨c, hc, hrefused⟩

end Cli
end MacroReplay
