import MacroReplay.Proofs.Engine.Execution
import MacroReplay.Proofs.Handler.Dispatch
import MacroReplay.Proofs.Proc.Suspension
import MacroReplay.Proofs.Run.Padding

/-!
# Commands without a handler

A command that no handler is registered for succeeds and does nothing. So it makes no difference to a run
how many of them a script has, or where: the run has the same end, with the same variables, and calls the
same handlers in the same order.

* `Engine.SelfContained` — the handler of a command looks at the command and the variables only;
* `Engine.exists_behaviour` — what the commands of an engine do, as a function;
* `Engine.Execution.endsAlike_of_padded` — a script with and without such commands.
-/

namespace MacroReplay
namespace Engine

variable {ι : Interface} {μ : Type}

/-! ## What a command does -/

/-- The command has no flaw, and there is no handler for it. -/
def Unhandled (e : Engine ι μ) (c : Command) : Prop :=
  c.flaw = none ∧ e.registry.find? c.name = none

def handles (e : Engine ι μ) (c : Command) : Bool :=
  c.flaw.isNone && (e.registry.find? c.name).isSome

/-- The handler of the command looks at nothing outside the command and the variables: unless it is told
to stop, they decide what it reports and which variables it leaves. Its clock, the replies to its calls
and what it shares with other handlers are of no account. -/
def SelfContained (e : Engine ι μ) (c : Command) : Prop :=
  ∀ handler, e.registry.find? c.name = some handler →
    ∃ f : Store → Report × Store, ∀ m now h report m',
      (handler (e.contextAt c m now)).Runs h (report, m') →
        (∀ event ∈ h, ¬ Timeline.tellsStop event) → (report, m'.vars) = f m.vars

/-- A command without a handler looks at nothing at all. -/
theorem Unhandled.selfContained {e : Engine ι μ} {c : Command} (hc : e.Unhandled c) :
    e.SelfContained c := by
  intro handler hfind
  rw [hc.2] at hfind
  cases hfind

theorem Unhandled.not_handles {e : Engine ι μ} {c : Command} (hc : e.Unhandled c) :
    e.handles c = false := by
  simp [handles, hc.2]

/-- What a command does to the variables, as a function: a flaw is an error, without a handler nothing
happens, and all else is what the handler does. -/
theorem exists_act (e : Engine ι μ) {c : Command} (hc : e.SelfContained c) :
    ∃ f : Store → CommandResult × Store,
      (e.Unhandled c → ∀ vars, f vars = (.ok, vars)) ∧
      ∀ m h d, (e.dispatch c m).Runs h d → (∀ event ∈ h, ¬ Timeline.tellsStop event) →
        (d.result, d.memory.vars) = f m.vars := by
  -- All cases are about the call of the registry between two readings of the clock.
  suffices hinner : ∃ f : Store → CommandResult × Store,
      (e.Unhandled c → ∀ vars, f vars = (.ok, vars)) ∧
      ∀ m now h result m', (e.registry.dispatch (e.contextAt c m now)).Runs h (result, m') →
        (∀ event ∈ h, ¬ Timeline.tellsStop event) → (result, m'.vars) = f m.vars by
    obtain ⟨f, hidle, hf⟩ := hinner
    refine ⟨f, hidle, ?_⟩
    intro m h d hrun hcalm
    obtain ⟨before, after, h', rfl, hdispatched, -, -⟩ := runs_dispatch_iff.1 hrun
    exact hf m before h' _ _ hdispatched fun event hmem => hcalm event (by simp [hmem])
  cases hflaw : c.flaw with
  | some flaw =>
      refine ⟨fun vars => (.failure .syntaxError
        ("Line " ++ toString c.line ++ ": " ++ flaw.message), vars), ?_, ?_⟩
      · intro hidle
        rw [hidle.1] at hflaw
        cases hflaw
      · intro m now h result m' hrun _
        simp only [Registry.dispatch, contextAt, Invocation.ofCommand, hflaw] at hrun
        obtain ⟨-, hend⟩ := Proc.runs_done_iff.1 hrun
        cases hend
        rfl
  | none =>
      cases hfind : e.registry.find? c.name with
      | none =>
          refine ⟨fun vars => (.ok, vars), fun _ _ => rfl, ?_⟩
          intro m now h result m' hrun _
          simp only [Registry.dispatch, contextAt, Invocation.ofCommand, hflaw, hfind] at hrun
          obtain ⟨-, hend⟩ := Proc.runs_done_iff.1 hrun
          cases hend
          rfl
      | some handler =>
          obtain ⟨f, hf⟩ := hc handler hfind
          refine ⟨fun vars => ((f vars).1.result, (f vars).2), ?_, ?_⟩
          · intro hidle
            rw [hidle.2] at hfind
            cases hfind
          · intro m now h result m' hrun hcalm
            rw [Registry.dispatch_of_found (e.contextAt c m now) hflaw hfind] at hrun
            rcases Proc.runs_bind_iff.1 hrun with ⟨h₁, h₂, ⟨report, m₁⟩, rfl, hhandled, hdone⟩
            obtain ⟨rfl, hend⟩ := Proc.runs_done_iff.1 hdone
            cases hend
            rw [List.append_nil] at hcalm
            show _ = ((f m.vars).1.result, (f m.vars).2)
            rw [← hf m now h₁ report m' hhandled hcalm]

/-- The commands of an engine whose handlers are self-contained, as one function. -/
theorem exists_behaviour (e : Engine ι μ) :
    ∃ f : Run.Behaviour, (∀ c, e.Unhandled c → f.Idle c) ∧
      ∀ c, e.SelfContained c → ∀ m h d, (e.dispatch c m).Runs h d →
        (∀ event ∈ h, ¬ Timeline.tellsStop event) → (d.result, d.memory.vars) = f c m.vars := by
  have hacts : ∀ c, ∃ f : Store → CommandResult × Store, e.SelfContained c →
      (e.Unhandled c → ∀ vars, f vars = (.ok, vars)) ∧
      ∀ m h d, (e.dispatch c m).Runs h d → (∀ event ∈ h, ¬ Timeline.tellsStop event) →
        (d.result, d.memory.vars) = f m.vars := by
    intro c
    by_cases hc : e.SelfContained c
    · obtain ⟨f, hf⟩ := e.exists_act hc
      exact ⟨f, fun _ => hf⟩
    · exact ⟨fun vars => (.ok, vars), fun hc' => absurd hc' hc⟩
  choose f hf using hacts
  refine ⟨f, ?_, fun c hc => (hf c hc).2⟩
  intro c hc vars
  rw [(hf c hc.selfContained).1 hc vars]
  exact ⟨rfl, rfl⟩

/-! ## Whole runs -/

namespace Execution

variable {e : Engine ι μ}

def Unstopped (x : e.Execution) : Prop :=
  ∀ event ∈ x.history, ¬ Timeline.tellsStop event

/-- No call of a run that is never told to stop tells of one. -/
theorem Unstopped.job {x : e.Execution} (hcalm : x.Unstopped) {job : e.Job} (hjob : job ∈ x.jobs) :
    ∀ event ∈ job.calls, ¬ Timeline.tellsStop event := by
  intro event hevent
  apply hcalm
  have hmem : event ∈ x.jobs.flatMap Proc.Job.calls := List.mem_flatMap.2 ⟨job, hjob, hevent⟩
  simp [history, hmem]

/-- A run that is not told to stop does as its commands and its source of rows do. -/
theorem Unstopped.steady {x : e.Execution} (hcalm : x.Unstopped) {f : Run.Behaviour}
    (hf : ∀ c, e.SelfContained c → ∀ m h d, (e.dispatch c m).Runs h d →
      (∀ event ∈ h, ¬ Timeline.tellsStop event) → (d.result, d.memory.vars) = f c m.vars)
    {source : Run.Source} (hrows : Run.GivenBy source [] (Run.loads x.events)) :
    Run.Steady f e.SelfContained source [] x.events where
  goesOn := by
    intro hmem
    obtain ⟨⟨event, calls, hserved⟩, hjob, rfl⟩ := List.mem_map.1 hmem
    rcases Proc.runs_call_iff.1 hserved with ⟨answer, h', rfl, hdone⟩
    obtain ⟨-, rfl⟩ := Proc.runs_done_iff.1 hdone
    exact hcalm.job hjob ⟨.stopRequested, true⟩ List.mem_cons_self rfl
  acts := by
    intro s hs hknown
    obtain ⟨event, hmem, hstep⟩ := List.mem_filterMap.1 hs
    obtain ⟨⟨⟨c, reply⟩, calls, hserved⟩, hjob, rfl⟩ := List.mem_map.1 hmem
    cases c with
    | dispatch c m =>
        cases hstep
        exact hf c hknown m calls reply hserved (hcalm.job hjob)
    | stopRequested | load | cleanUp | append => cases hstep
  rows := hrows

/-- The second run ends as the first one does, and calls the same handlers in the same order. -/
structure EndsAlike (x y : e.Execution) : Prop where
  state_eq : y.result.state = x.result.state
  code_eq : y.result.code = x.result.code
  message_eq : y.result.message = x.result.message
  failedLine_eq : y.result.failedLine = x.result.failedLine
  loops_eq : y.result.loops = x.result.loops
  bindings_eq : y.result.bindings = x.result.bindings
  extracted_eq : y.result.extracted = x.result.extracted
  vars_eq : y.left.vars = x.left.vars
  /-- The commands of the first run are dispatched in the second one too, with the same variables and to
  the same effect; between them there are only commands without a handler. -/
  acts : Padded (fun a => e.Unhandled a.command) (Run.acts x.events) (Run.acts y.events)
  handled : (Run.acts y.events).filter (fun a => e.handles a.command) =
    (Run.acts x.events).filter fun a => e.handles a.command

/-- **Commands without a handler make no difference.** They may be put into a script anywhere and in any
number: if the other handlers are self-contained, the rows come from the same source and nobody requests
a stop, the run ends with the same state, code, message, failed line, loops, variables and extracted
texts, and all other commands are carried out in the same order with the same variables. -/
theorem endsAlike_of_padded {x y : e.Execution} {source : Run.Source}
    (hscript : Padded e.Unhandled x.script.commands y.script.commands) (hloops : y.loops = x.loops)
    (hvars : y.memory.vars = x.memory.vars)
    (hhandlers : ∀ c ∈ x.script.commands, e.SelfContained c)
    (hrows : Run.GivenBy source [] (Run.loads x.events))
    (hrows' : Run.GivenBy source [] (Run.loads y.events))
    (hcalm : x.Unstopped) (hcalm' : y.Unstopped) : x.EndsAlike y := by
  -- The handlers look at nothing but the variables, so that one function says what they do in both
  -- runs.
  obtain ⟨f, hidle, hf⟩ := e.exists_behaviour
  have hknown : ∀ c ∈ y.script.commands, e.SelfContained c :=
    hscript.forall_mem hhandlers fun c hc => hc.selfContained
  have hpadded : Padded e.Unhandled (e.setup x.script x.loops).script.commands
      (e.setup y.script y.loops).script.commands := hscript
  have hcount : (e.setup y.script y.loops).loops = (e.setup x.script x.loops).loops := by
    rw [hloops]
    rfl
  obtain ⟨t, t', ht, hx, hy, hleft, hacts⟩ := Run.agrees_plan hidle hpadded hknown hcount rfl hvars
    x.plays y.plays (hcalm.steady hf hrows) (hcalm'.steady hf hrows')
  obtain ⟨hstate, hcode, hmessage, hline, hplayed, -⟩ := Run.Tally.mk.inj ht
  refine ⟨?_, ?_, ?_, ?_, ?_, ?_, ?_, hleft, hacts, hacts.filter_eq fun a ha => ha.not_handles⟩ <;>
    simp only [result, hx, hy, Run.Tally.result]
  · exact hstate.symm
  · exact hcode.symm
  · exact hmessage.symm
  · exact hline.symm
  · exact hplayed.symm

def failingEngine : Engine .empty Unit :=
  ⟨{}, Registry.empty.register "FAIL" fun ctx => ctx.fail (.bridge "no page"), .empty, none, none⟩

def failLine : Command := ⟨"FAIL", [], "FAIL", 5, none⟩

def noteLine (line : Nat) : Command := ⟨"NOTE", [], "NOTE", line, none⟩

/-- The engine knows no `NOTE`. -/
theorem unhandled_noteLine (line : Nat) : failingEngine.Unhandled (noteLine line) := by
  refine ⟨rfl, ?_⟩
  rw [failingEngine, Registry.find?_register]
  exact if_neg (by simp [noteLine]; decide)

theorem find?_failLine : failingEngine.registry.find? failLine.name =
    some fun ctx => ctx.fail (.bridge "no page") := by
  rw [failingEngine, Registry.find?_register]
  exact if_pos (by decide)

/-- The command fails whatever the variables are. -/
theorem selfContained_failLine : failingEngine.SelfContained failLine := by
  intro handler hfind
  rw [find?_failLine] at hfind
  cases hfind
  refine ⟨fun vars => (.failed (.bridge "no page"), vars), ?_⟩
  intro m now h report m' hrun _
  obtain ⟨-, hend⟩ := Proc.runs_done_iff.1 hrun
  cases hend
  rfl

theorem runs_dispatch_failLine (m : Memory Unit) :
    (failingEngine.dispatch failLine m).Runs [⟨.clock, midnight⟩, ⟨.clock, midnight⟩]
      ⟨.ofError (.bridge "no page"), m, 0, .zero⟩ := by
  have hdone :
      Context.fail (ι := .empty) (failingEngine.contextAt failLine m midnight) (.bridge "no page") =
      .done (.failed (.bridge "no page"), m) := rfl
  exact Engine.runs_dispatch_of_done rfl find?_failLine midnight hdone

theorem runs_dispatch_noteLine (line : Nat) (m : Memory Unit) :
    (failingEngine.dispatch (noteLine line) m).Runs [⟨.clock, midnight⟩, ⟨.clock, midnight⟩]
      ⟨.ok, m, 0, .zero⟩ := by
  refine Engine.runs_dispatch_iff.2 ⟨midnight, midnight, [], rfl, ?_, rfl, rfl⟩
  have hfind := (unhandled_noteLine line).2
  simp only [Registry.dispatch, contextAt, Invocation.ofCommand, hfind]
  exact .done _

def failedAtLine : failingEngine.Job :=
  ⟨⟨.dispatch failLine blankMemory, _⟩, _, runs_dispatch_failLine blankMemory⟩

def noted (line : Nat) : failingEngine.Job :=
  ⟨⟨.dispatch (noteLine line) blankMemory, _⟩, _, runs_dispatch_noteLine line blankMemory⟩

def failedResult : RunResult :=
  Run.Tally.result ⟨.aborted, .scriptError, some "no page", some 5, 0, []⟩ "fails" blankMemory.vars

def failingRun : failingEngine.Execution where
  script := ⟨"fails", [failLine]⟩
  loops := none
  memory := ⟨⟨[], [], false⟩, ()⟩
  began := midnight
  ended := midnight
  jobs := [asked _, asked _, failedAtLine, asked _]
  played := failedResult
  left := blankMemory
  plays := .call _ (.call _ (.call _ (.call _ (.done _))))

/-- The run with lines around it that the engine has no command for. -/
def paddedRun : failingEngine.Execution where
  script := ⟨"fails", [noteLine 4, failLine, noteLine 6]⟩
  loops := none
  memory := ⟨⟨[], [], false⟩, ()⟩
  began := midnight
  ended := midnight
  jobs := [asked _, asked _, noted 4, asked _, failedAtLine, asked _]
  played := failedResult
  left := blankMemory
  plays := .call _ (.call _ (.call _ (.call _ (.call _ (.call _ (.done _))))))

/-- The padding moves neither the failure nor the line that it is reported for. -/
theorem endsAlike_of_padded_failingRun :
    paddedRun.result.failedLine = some 5 ∧ failingRun.EndsAlike paddedRun := by
  refine ⟨rfl, ?_⟩
  have hscript : Padded failingEngine.Unhandled failingRun.script.commands paddedRun.script.commands :=
    .insert (unhandled_noteLine 4) (.keep failLine (.insert (unhandled_noteLine 6) .nil))
  have hhandlers : ∀ c ∈ failingRun.script.commands, failingEngine.SelfContained c := by
    intro c hc
    cases List.mem_singleton.1 hc
    exact selfContained_failLine
  have hcalm : failingRun.Unstopped := by
    simp [Unstopped, history, failingRun, asked, failedAtLine, Timeline.tellsStop]
  have hcalm' : paddedRun.Unstopped := by
    simp [Unstopped, history, paddedRun, asked, failedAtLine, noted, Timeline.tellsStop]
  -- Without a datasource no row is asked for, so any source will do.
  let source : Run.Source := fun _ _ vars => (.loaded, vars)
  have hrows : Run.GivenBy source [] (Run.loads failingRun.events) := trivial
  have hrows' : Run.GivenBy source [] (Run.loads paddedRun.events) := trivial
  exact endsAlike_of_padded hscript rfl rfl hhandlers hrows hrows' hcalm hcalm'

end Execution
end Engine
end MacroReplay
