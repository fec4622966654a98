import MacroReplay.Proofs.Engine.Closing
import MacroReplay.Proofs.Run.Bookkeeping

/-!
# The profile of a run

A script may switch the recording of its commands on and off at any command. Whether a command is
recorded is settled by the variables that it begins with, before anybody knows how it turns out; whether
the records are written is settled by the variables at the end of the run. This module relates both to
the commands that were dispatched, however the run ends.

* `Profile.Recording` — what `!FILE_PROFILER` has to hold for commands to be recorded;
* `Run.recorded` — the records that a list of dispatched commands ought to leave;
* `Run.records_playIterations` — the tally has these records, by induction on the iterations;
* `Engine.Execution.profiled` — the result of every run, and the one call of the sink.
-/

namespace MacroReplay

/-! ## What is recorded -/

namespace Profile

/-- `!FILE_PROFILER` holds a text that is neither blank nor the word `NO`. -/
def Recording (vars : Store) : Prop :=
  Text.trim (vars.textOf "!FILE_PROFILER") ≠ "" ∧
    Text.sameLetters (Text.trim (vars.textOf "!FILE_PROFILER")) "NO" = false

instance (vars : Store) : Decidable (Recording vars) :=
  inferInstanceAs (Decidable (_ ∧ _))

/-- The switch that a run reads, as a property of its variables. -/
theorem isEnabled_iff {vars : Store} : isEnabled vars = true ↔ Recording vars := by
  simp [isEnabled, setting, Recording]

/-- The target that the variables ask for while commands are recorded. -/
def targetIn (vars : Store) (macroName : String) : String :=
  let written := Text.trim (vars.textOf "!FILE_PROFILER")
  if Text.sameLetters written "YES" then macroName ++ ".profile.csv" else written

theorem target?_eq (vars : Store) (macroName : String) :
    target? vars macroName = if Recording vars then some (targetIn vars macroName) else none := by
  by_cases hon : Recording vars
  · have hsetting : Text.trim (vars.textOf "!FILE_PROFILER") = setting vars := rfl
    have henabled : ¬(!isEnabled vars) = true := by simp [isEnabled_iff.2 hon]
    rw [if_pos hon, targetIn, hsetting, target?, if_neg henabled, apply_ite some]
  · have hoff : isEnabled vars = false := Bool.eq_false_iff.2 fun h => hon (isEnabled_iff.1 h)
    rw [target?, hoff, if_neg hon]
    rfl

end Profile

namespace Run

variable {μ : Type}

def Step.record (s : Step μ) : Profile.Record :=
  ⟨s.command.line, s.command.name, s.command.raw, s.outcome.took.toMillis, s.outcome.startedMs⟩

/-- The records of the commands that began while commands were recorded, in order. -/
def recorded (steps : List (Step μ)) : List Profile.Record :=
  (steps.filter fun s => Profile.Recording s.before.vars).map Step.record

@[simp]
theorem recorded_nil : recorded ([] : List (Step μ)) = [] := rfl

theorem recorded_append (steps more : List (Step μ)) :
    recorded (steps ++ more) = recorded steps ++ recorded more := by
  simp [recorded]

/-- Nothing is recorded if profiling was off before every command. -/
theorem recorded_eq_nil_iff {steps : List (Step μ)} :
    recorded steps = [] ↔ ∀ s ∈ steps, ¬Profile.Recording s.before.vars := by
  simp [recorded]

/-! ## The records of the tally -/

/-- A command is recorded before the run looks at its result. -/
@[simp]
theorem records_noted (t : Tally) (s : Step μ) :
    (t.noted s).records = t.records ++ recorded [s] := by
  unfold Tally.noted Tally.record
  by_cases hon : Profile.Recording s.before.vars <;>
    simp [Profile.isEnabled_iff, recorded, hon, Step.record]

/-- A command that passes is recorded if profiling was on before it. -/
@[simp]
theorem records_after (t : Tally) (s : Step μ) :
    (t.after s).records = t.records ++ recorded [s] := by
  unfold Tally.after
  split <;> simp only [records_noted]

def Stage.tally : Stage μ → Tally
  | .goesOn t _ => t
  | .over t _ => t

/-- The command that ends an iteration is recorded like any other. -/
theorem Exit.records {i : Nat} {rest : List Command} {t : Tally} {m : Memory μ}
    {h : History (Run μ)} {stage : Stage μ} (hexit : Exit i rest t m h stage) :
    stage.tally.records = t.records ++ recorded (dispatched h) := by
  -- However the run leaves the iteration, the last command has its record already.
  cases hexit <;> simp [Stage.tally, Tally.stop, Tally.abort]

theorem records_playCommands {i : Nat} {commands : List Command} {t : Tally} {m : Memory μ}
    {h : History (Run μ)} {stage : Stage μ} (hrun : (playCommands i commands t m).Runs h stage) :
    stage.tally.records = t.records ++ recorded (dispatched h) := by
  induction commands generalizing t m h with
  | nil =>
      obtain ⟨rfl, rfl⟩ := Proc.runs_done_iff.1 hrun
      simp [Stage.tally]
  | cons c commands ih =>
      rcases runs_playCommands_cons hrun with hexit | ⟨s, h', -, -, -, rfl, hrest⟩
      · exact hexit.records
      · rw [ih hrest, records_after, dispatched_append, dispatched_stepCalls, recorded_append,
          List.append_assoc]

/-- Opening an iteration records nothing. -/
theorem records_playIteration {commands : List Command} {hasDatasource : Bool} {i : Nat} {t : Tally}
    {m : Memory μ} {h : History (Run μ)} {stage : Stage μ}
    (hrun : (playIteration commands hasDatasource i t m).Runs h stage) :
    stage.tally.records = t.records ++ recorded (dispatched h) := by
  rcases runs_playIteration hrun with hrefusal | ⟨h₁, h₂, m', hopening, rfl, hplayed⟩
  · cases hrefusal <;> simp [Stage.tally, Tally.stop, Tally.abort]
  · rw [records_playCommands hplayed, dispatched_append, dispatched_opening hopening, List.nil_append]

theorem records_playIterations {commands : List Command} {hasDatasource : Bool} {left i : Nat}
    {t t' : Tally} {m m' : Memory μ} {h : History (Run μ)}
    (hrun : (playIterations commands hasDatasource left i t m).Runs h (t', m')) :
    t'.records = t.records ++ recorded (dispatched h) := by
  induction left generalizing i t m h with
  | zero =>
      obtain ⟨rfl, hend⟩ := Proc.runs_done_iff.1 hrun
      cases hend
      simp
  | succ left ih =>
      rcases runs_playIterations_succ hrun with hlast | ⟨h₁, h₂, t₁, m₁, rfl, hfirst, hrest⟩
      · exact records_playIteration hlast
      · have hrecords : t₁.records = t.records ++ recorded (dispatched h₁) :=
          records_playIteration hfirst
        rw [ih hrest, hrecords, dispatched_append, recorded_append, List.append_assoc]

/-! ## The profile that is written -/

/-- What a call hands out for the sink: a target and what to append there. -/
def appended? : Event (Run μ) → Option (String × String)
  | ⟨.append target contents, _⟩ => some (target, contents)
  | _ => none

/-- Nothing is appended to the profile before the closing. -/
theorem appended?_of_work {event : Event (Run μ)} (hwork : event.1.isClosing = false) :
    appended? event = none := by
  obtain ⟨c, reply⟩ := event
  cases c <;> first | rfl | cases hwork

/-- The hooks do not append to the profile. -/
theorem appended_of_runs_invokeAll {η : Type} {hooks : List (String × η)} {shared : μ} {failures : Nat}
    {h : History (Run μ)} {end' : Nat × μ}
    (hrun : (Cleanup.invokeAll invokeHook hooks shared failures).Runs h end') :
    h.filterMap appended? = [] := by
  have hinvoked := forall₂_of_runs_invokeAll hrun
  clear hrun
  induction hinvoked with
  | nil => rfl
  | cons hevent _ ih =>
      obtain ⟨shared', reply, rfl⟩ := hevent
      exact ih

/-- The profile is handed out once, or not at all. -/
theorem appended_of_runs_writeProfile {hasSink : Bool} {name : String} {t : Tally} {vars : Store}
    {h : History (Run μ)} (hrun : (writeProfile hasSink name t vars).Runs h ()) :
    h.filterMap appended? =
      if hasSink = true ∧ t.records ≠ [] ∧ Profile.Recording vars then
        [(Profile.targetIn vars name, Profile.render name t.code.describe t.records)]
      else [] := by
  unfold writeProfile at hrun
  rw [Profile.target?_eq] at hrun
  by_cases hon : Profile.Recording vars
  · rw [if_pos hon] at hrun
    dsimp only at hrun
    split at hrun
    next hwrites =>
      rcases Proc.runs_call_iff.1 hrun with ⟨reply, h', rfl, hdone⟩
      obtain ⟨rfl, -⟩ := Proc.runs_done_iff.1 hdone
      have hcond : hasSink = true ∧ t.records ≠ [] ∧ Profile.Recording vars := by
        simpa [hon] using hwrites
      rw [if_pos hcond]
      rfl
    next hsilent =>
      obtain ⟨rfl, -⟩ := Proc.runs_done_iff.1 hrun
      have hcond : ¬(hasSink = true ∧ t.records ≠ [] ∧ Profile.Recording vars) := by
        simpa [hon] using hsilent
      rw [if_neg hcond]
      rfl
  · rw [if_neg hon] at hrun
    obtain ⟨rfl, -⟩ := Proc.runs_done_iff.1 hrun
    simp [hon]

end Run

/-! ## Whole runs -/

namespace Engine
namespace Execution

variable {ι : Interface} {μ : Type} {e : Engine ι μ}

def appended (x : e.Execution) : List (String × String) :=
  x.events.filterMap Run.appended?

def Recorded (x : e.Execution) : Prop :=
  ∃ s ∈ Run.dispatched x.events, Profile.Recording s.before.vars

/-- The profile of a run is that of its commands. -/
structure Profiled (x : e.Execution) : Prop where
  /-- There is one record for each command that began while commands were recorded, in order and whatever
  became of the command. -/
  records : x.result.profile.getD [] = Run.recorded (Run.dispatched x.events)
  absent_iff : x.result.profile = none ↔ ¬x.Recorded
  /-- The records are written once, if they still are asked for at the end of the run, -/
  written : e.sink.isSome = true → x.Recorded → Profile.Recording x.left.vars →
    x.appended = [(Profile.targetIn x.left.vars x.script.name,
      Profile.render x.script.name x.result.code.describe (Run.recorded (Run.dispatched x.events)))]
  /-- and never otherwise. -/
  unwritten : ¬(e.sink.isSome = true ∧ x.Recorded ∧ Profile.Recording x.left.vars) → x.appended = []
  /-- What is handed out goes to the sink as it is. -/
  served : ∀ job ∈ x.jobs, ∀ target contents, job.event.1 = .append target contents →
    ∃ sink, e.sink = some sink ∧ (sink target contents).Runs job.calls ()

/-- What is appended goes to the sink of the engine. -/
theorem exists_sink {job : e.Job} {target contents : String} (hsink : e.sink.isSome = true)
    (hevent : job.event.1 = .append target contents) :
    ∃ sink, e.sink = some sink ∧ (sink target contents).Runs job.calls () := by
  obtain ⟨⟨c, reply⟩, calls, hserved⟩ := job
  obtain ⟨sink, hsink⟩ := Option.isSome_iff_exists.1 hsink
  have hcall : c = .append target contents := hevent
  subst hcall
  exact ⟨sink, hsink, by simpa only [Engine.serve, hsink] using hserved⟩

/-- Every run is profiled: its records are those of the commands that began while commands were
recorded, and they go to the sink once, if they are still asked for when the run is over. -/
theorem profiled (x : e.Execution) : x.Profiled := by
  rcases Run.runs_plan_parts x.plays with
    ⟨work, hooks, profile, t, m, failures, hsplit, hplayed, hinvoked, hwritten, hresult, hvars⟩
  have hworks := (Run.carries_playIterations hplayed).works
  have hhooks := Run.runs_invokeAll hinvoked
  have hprofile := Run.runs_writeProfile hwritten
  -- Only the iterations dispatch commands, and only what follows them may call the sink.
  have hdispatched : Run.dispatched x.events = Run.dispatched work := by
    rw [events, hsplit, Run.dispatched_append, Run.dispatched_append, Run.dispatched_closing hhooks,
      Run.dispatched_closing hprofile, List.append_nil, List.append_nil]
  have happended : x.appended = profile.filterMap Run.appended? := by
    have hnone : work.filterMap Run.appended? = [] :=
      List.filterMap_eq_nil_iff.2 fun event hevent => Run.appended?_of_work (hworks event hevent)
    rw [appended, events, hsplit, List.filterMap_append, List.filterMap_append, hnone,
      Run.appended_of_runs_invokeAll hinvoked, List.append_nil, List.nil_append]
  have hrecords : t.records = Run.recorded (Run.dispatched x.events) := by
    rw [hdispatched, Run.records_playIterations hplayed]
    rfl
  have hrecorded : t.records ≠ [] ↔ x.Recorded := by
    rw [hrecords, Ne, Run.recorded_eq_nil_iff]
    simp [Recorded]
  have hcode : x.result.code = t.code := by simp only [result, hresult, Run.Tally.result]
  have hfield : x.result.profile = if t.records.isEmpty then none else some t.records := by
    simp only [result, hresult, Run.Tally.result]
  rw [Run.appended_of_runs_writeProfile hwritten, ← hvars, ← hcode, hrecords] at happended
  rw [hrecords] at hrecorded
  refine ⟨?_, ?_, ?_, ?_, ?_⟩
  · rw [hfield, hrecords]
    cases Run.recorded (Run.dispatched x.events) <;> rfl
  · rw [hfield, hrecords, ← hrecorded]
    cases Run.recorded (Run.dispatched x.events) <;> simp
  · intro hsink hsome hon
    rw [happended]
    exact if_pos ⟨hsink, hrecorded.2 hsome, hon⟩
  · intro hnot
    rw [happended]
    refine if_neg ?_
    rintro ⟨hsink, hsome, hon⟩
    exact hnot ⟨hsink, hrecorded.1 hsome, hon⟩
  · intro job hjob target contents hevent
    refine exists_sink ?_ hevent
    -- Without a sink the run hands nothing out, and this job is one that does.
    have hmem : (target, contents) ∈ x.appended := by
      refine List.mem_filterMap.2 ⟨job.event, List.mem_map_of_mem hjob, ?_⟩
      obtain ⟨⟨c, reply⟩, calls, hserved⟩ := job
      cases hevent
      rfl
    rw [happended] at hmem
    split at hmem
    next hcond => exact hcond.1
    next => cases hmem

end Execution
end Engine
end MacroReplay
