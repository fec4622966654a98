import MacroReplay.Proofs.Proc.History
import MacroReplay.Run.Plan

/-!
# What the iterations of a run do

The histories of a run in a normal form, one statement for each part of the run:

* `runs_playCommands` — the commands of an iteration are played up to one of its exits;
* `runs_playIteration` — an iteration is opened, or the run ends before its commands;
* `runs_playIterations_succ` — an iteration is followed by the next one, or the run is over;
* `runs_plan` — behind the iterations only hooks and the profile are left.

Nothing is assumed about the replies: a stop may be requested at any question, a command may turn out in
any way and leave any memory behind.
-/

namespace MacroReplay
namespace Run

variable {μ η : Type}

/-! ## Steps -/

/-- The question whether a stop was requested, with its answer. -/
def poll (stop : Bool) : Event (Run μ) := ⟨.stopRequested, stop⟩

structure Step (μ : Type) where
  command : Command
  /-- The memory that the command began with. -/
  before : Memory μ
  /-- How it turned out. -/
  outcome : Dispatched μ

namespace Step

def event (s : Step μ) : Event (Run μ) := ⟨.dispatch s.command s.before, s.outcome⟩

def result (s : Step μ) : CommandResult := s.outcome.result

def left (s : Step μ) : Store := s.outcome.memory.vars

/-- The run goes on with the command behind this one: it succeeded, or its failure is ignored. -/
def Passes (s : Step μ) : Prop :=
  s.result.success = true ∨
    s.result.code ≠ .stopped ∧ s.result.code ≠ .datasourceEnd ∧ policy s.left = .nextCommand

/-- The calls of a command that the run goes on after: the question before it, the dispatch, and the
question after a failure. -/
def calls (s : Step μ) : History (Run μ) :=
  poll false :: s.event :: if s.result.success then [] else [poll false]

theorem calls_of_success {s : Step μ} (hok : s.result.success = true) :
    s.calls = [poll false, s.event] := by
  simp [calls, hok]

/-- After a failure the stop is asked for once more, before the policy is. -/
theorem calls_of_failure {s : Step μ} (hfailed : s.result.success = false) :
    s.calls = [poll false, s.event, poll false] := by
  simp [calls, hfailed]

end Step

def Tally.noted (t : Tally) (s : Step μ) : Tally :=
  t.record s.before.vars s.command s.outcome

/-- Records do not count iterations, and do not end a run. -/
theorem Tally.noted_keeps (t : Tally) (s : Step μ) :
    (t.noted s).loops = t.loops ∧ (t.noted s).state = t.state := by
  unfold Tally.noted Tally.record
  split <;> exact ⟨rfl, rfl⟩

/-- The tally after a command that the run goes on after. -/
def Tally.after (t : Tally) (s : Step μ) : Tally :=
  if s.result.success then t.noted s
  else { t.noted s with message := some (failureMessage s.result) }

theorem Tally.after_of_success {t : Tally} {s : Step μ} (hok : s.result.success = true) :
    t.after s = t.noted s := by
  simp [Tally.after, hok]

theorem Tally.after_of_failure {t : Tally} {s : Step μ} (hfailed : s.result.success = false) :
    t.after s = { t.noted s with message := some (failureMessage s.result) } := by
  simp [Tally.after, hfailed]

/-- Steps that follow each other: each begins with the memory that the one before left. -/
def Follow (m : Memory μ) : List (Step μ) → Memory μ → Prop
  | [], m' => m' = m
  | s :: steps, m' => s.before = m ∧ Follow s.outcome.memory steps m'

def Stage.memory : Stage μ → Memory μ
  | .goesOn _ m => m
  | .over _ m => m

/-! ## The commands of an iteration -/

/-- How an iteration ends, with the commands that are left: the calls of its end and where the run
stands then. -/
inductive Exit (iteration : Nat) :
    List Command → Tally → Memory μ → History (Run μ) → Stage μ → Prop where
  /-- No command is left. -/
  | finished {t : Tally} {m : Memory μ} :
      Exit iteration [] t m [] (.goesOn { t with loops := iteration } m)
  /-- A stop was requested before a command. -/
  | halted {c : Command} {rest : List Command} {t : Tally} {m : Memory μ} :
      Exit iteration (c :: rest) t m [poll true] (.over t.stop m)
  /-- A command reports that it was stopped. -/
  | stopped {s : Step μ} {rest : List Command} {t : Tally} :
      s.result.success = false → s.result.code = .stopped →
      Exit iteration (s.command :: rest) t s.before [poll false, s.event]
        (.over (t.noted s).stop s.outcome.memory)
  /-- A stop was requested before a command failed. -/
  | haltedAfter {s : Step μ} {rest : List Command} {t : Tally} :
      s.result.success = false →
      Exit iteration (s.command :: rest) t s.before [poll false, s.event, poll true]
        (.over (t.noted s).stop s.outcome.memory)
  /-- A command reports the end of the data. -/
  | dataEnd {s : Step μ} {rest : List Command} {t : Tally} :
      s.result.success = false → s.result.code = .datasourceEnd →
      Exit iteration (s.command :: rest) t s.before [poll false, s.event, poll false]
        (.over (t.noted s) s.outcome.memory)
  /-- A failure ends the iteration. -/
  | skipped {s : Step μ} {rest : List Command} {t : Tally} :
      s.result.success = false → policy s.left = .nextIteration →
      Exit iteration (s.command :: rest) t s.before [poll false, s.event, poll false]
        (.goesOn { t.after s with loops := iteration } s.outcome.memory)
  /-- A failure ends the run. -/
  | aborted {s : Step μ} {rest : List Command} {t : Tally} :
      s.result.success = false → policy s.left = .abort →
      Exit iteration (s.command :: rest) t s.before [poll false, s.event, poll false]
        (.over ((t.noted s).abort s.result.code (failureMessage s.result) (some s.command.line))
          s.outcome.memory)

/-- What a run does after a failed command. -/
def afterFailure (iteration : Nat) (rest : List Command) (t : Tally) (s : Step μ) :
    Proc (Run μ) (Stage μ) :=
  if s.result.code = .stopped then .done (.over (t.noted s).stop s.outcome.memory)
  else .call .stopRequested fun (stop : Bool) =>
    if stop then .done (.over (t.noted s).stop s.outcome.memory)
    else if s.result.code = .datasourceEnd then .done (.over (t.noted s) s.outcome.memory)
    else
      let noticed := { t.noted s with message := some (failureMessage s.result) }
      match policy s.left with
      | .nextCommand => playCommands iteration rest noticed s.outcome.memory
      | .nextIteration => .done (.goesOn { noticed with loops := iteration } s.outcome.memory)
      | .abort =>
          .done (.over ((t.noted s).abort s.result.code (failureMessage s.result)
            (some s.command.line)) s.outcome.memory)

/-- One command, from the stop that is asked for to what its failure leads to. -/
theorem playCommands_cons (i : Nat) (c : Command) (rest : List Command) (t : Tally)
    (m : Memory μ) :
    playCommands i (c :: rest) t m =
      .call .stopRequested fun (stop : Bool) =>
        if stop then .done (.over t.stop m)
        else .call (.dispatch c m) fun (d : Dispatched μ) =>
          if d.result.success then playCommands i rest (t.noted ⟨c, m, d⟩) d.memory
          else afterFailure i rest t ⟨c, m, d⟩ := by
  -- Unfolding both sides by name first; unification alone would search through the nested replies.
  simp only [playCommands, afterFailure, Tally.noted, Step.result, Step.left]
  rfl

/-- After a failed command the run takes an exit, or goes on with the next command. -/
theorem runs_afterFailure {i : Nat} {rest : List Command} {t : Tally} {s : Step μ}
    {h : History (Run μ)} {stage : Stage μ} (hfailed : s.result.success = false)
    (hrun : (afterFailure i rest t s).Runs h stage) :
    Exit i (s.command :: rest) t s.before (poll false :: s.event :: h) stage ∨
      s.Passes ∧ ∃ h', h = poll false :: h' ∧
        (playCommands i rest (t.after s) s.outcome.memory).Runs h' stage := by
  have hafter := Tally.after_of_failure (t := t) hfailed
  unfold afterFailure at hrun
  by_cases hstopped : s.result.code = .stopped
  · rw [if_pos hstopped] at hrun
    obtain ⟨rfl, rfl⟩ := Proc.runs_done_iff.1 hrun
    exact .inl (.stopped hfailed hstopped)
  · rw [if_neg hstopped] at hrun
    rcases Proc.runs_call_iff.1 hrun with ⟨stop, h', rfl, hasked⟩
    cases stop with
    | true =>
        obtain ⟨rfl, rfl⟩ := Proc.runs_done_iff.1 hasked
        exact .inl (.haltedAfter hfailed)
    | false =>
        by_cases hend : s.result.code = .datasourceEnd
        · rw [if_neg Bool.false_ne_true, if_pos hend] at hasked
          obtain ⟨rfl, rfl⟩ := Proc.runs_done_iff.1 hasked
          exact .inl (.dataEnd hfailed hend)
        · rw [if_neg Bool.false_ne_true, if_neg hend] at hasked
          -- Neither a stop nor the end of the data: the policy decides.
          cases hpolicy : policy s.left with
          | nextCommand =>
              rw [hpolicy] at hasked
              refine .inr ⟨.inr ⟨hstopped, hend, hpolicy⟩, h', rfl, ?_⟩
              rw [hafter]
              exact hasked
          | nextIteration =>
              rw [hpolicy] at hasked
              obtain ⟨rfl, rfl⟩ := Proc.runs_done_iff.1 hasked
              rw [← hafter]
              exact .inl (.skipped hfailed hpolicy)
          | abort =>
              rw [hpolicy] at hasked
              obtain ⟨rfl, rfl⟩ := Proc.runs_done_iff.1 hasked
              exact .inl (.aborted hfailed hpolicy)

/-- One command of an iteration: the run takes an exit at it, or goes on after it. -/
theorem runs_playCommands_cons {i : Nat} {c : Command} {rest : List Command} {t : Tally}
    {m : Memory μ} {h : History (Run μ)} {stage : Stage μ}
    (hrun : (playCommands i (c :: rest) t m).Runs h stage) :
    Exit i (c :: rest) t m h stage ∨
      ∃ (s : Step μ) (h' : History (Run μ)), s.command = c ∧ s.before = m ∧ s.Passes ∧
        h = s.calls ++ h' ∧ (playCommands i rest (t.after s) s.outcome.memory).Runs h' stage := by
  rw [playCommands_cons] at hrun
  rcases Proc.runs_call_iff.1 hrun with ⟨stop, h₁, rfl, hasked⟩
  cases stop with
  | true =>
      obtain ⟨rfl, rfl⟩ := Proc.runs_done_iff.1 hasked
      exact .inl .halted
  | false =>
      rcases Proc.runs_call_iff.1 hasked with ⟨d, h₂, rfl, hdispatched⟩
      -- The dispatch and its reply make the step that is passed or exited at.
      let s : Step μ := ⟨c, m, d⟩
      by_cases hok : d.result.success = true
      · rw [if_pos hok] at hdispatched
        refine .inr ⟨s, h₂, rfl, rfl, .inl hok, ?_, ?_⟩
        · rw [Step.calls_of_success (s := s) hok]
          rfl
        · rw [Tally.after_of_success (s := s) hok]
          exact hdispatched
      · have hfailed : s.result.success = false := Bool.eq_false_iff.2 hok
        rw [if_neg hok] at hdispatched
        rcases runs_afterFailure hfailed hdispatched with hexit | ⟨hpass, h', rfl, hrest⟩
        · exact .inl hexit
        · refine .inr ⟨s, h', rfl, rfl, hpass, ?_, hrest⟩
          rw [Step.calls_of_failure hfailed]
          rfl

/-- An iteration plays commands that the run goes on after, and then takes one of its exits. -/
theorem runs_playCommands {i : Nat} {commands : List Command} {t : Tally} {m : Memory μ}
    {h : History (Run μ)} {stage : Stage μ} (hrun : (playCommands i commands t m).Runs h stage) :
    ∃ (passed : List (Step μ)) (rest : List Command) (m' : Memory μ) (h' : History (Run μ)),
      commands = passed.map Step.command ++ rest ∧ (∀ s ∈ passed, s.Passes) ∧
        Follow m passed m' ∧ h = passed.flatMap Step.calls ++ h' ∧
        Exit i rest (passed.foldl Tally.after t) m' h' stage := by
  induction commands generalizing t m h with
  | nil =>
      obtain ⟨rfl, rfl⟩ := Proc.runs_done_iff.1 hrun
      exact ⟨[], [], m, [], rfl, by simp, rfl, rfl, .finished⟩
  | cons c commands ih =>
      rcases runs_playCommands_cons hrun with hexit | ⟨s, h', rfl, rfl, hpass, rfl, hrest⟩
      · exact ⟨[], c :: commands, m, h, rfl, by simp, rfl, rfl, hexit⟩
      · rcases ih hrest with ⟨passed, rest, m', h'', rfl, hpassed, hfollow, rfl, hexit⟩
        refine ⟨s :: passed, rest, m', h'', by simp, ?_, ⟨rfl, hfollow⟩, by simp, hexit⟩
        intro s' hs'
        rcases List.mem_cons.1 hs' with rfl | hs'
        · exact hpass
        · exact hpassed s' hs'

/-! ## Iterations -/

def counted (iteration : Nat) (m : Memory μ) : Memory μ :=
  if 1 < iteration then { m with vars := advanceLoop iteration m.vars } else m

def loading (iteration : Nat) (m : Memory μ) (report : LoadReport) (vars : Store) :
    Event (Run μ) :=
  ⟨.load iteration m.vars, (report, vars)⟩

/-- How an iteration begins: the calls before its first command, and the memory then. -/
inductive Opening (hasDatasource : Bool) (iteration : Nat) (m : Memory μ) :
    History (Run μ) → Memory μ → Prop where
  | plain : hasDatasource = false →
      Opening hasDatasource iteration m [poll false] (counted iteration m)
  | row {vars : Store} : hasDatasource = true →
      Opening hasDatasource iteration m
        [poll false, loading iteration (counted iteration m) .loaded vars]
        { counted iteration m with vars := vars }

/-- How a run ends before the commands of an iteration. -/
inductive Refusal (hasDatasource : Bool) (iteration : Nat) (t : Tally) (m : Memory μ) :
    History (Run μ) → Stage μ → Prop where
  /-- A stop was requested. -/
  | halted : Refusal hasDatasource iteration t m [poll true] (.over t.stop m)
  /-- There are no more rows. -/
  | exhausted {report : LoadReport} {vars : Store} : hasDatasource = true →
      report = .exhausted ∨ report = .failed .datasourceEnd →
      Refusal hasDatasource iteration t m
        [poll false, loading iteration (counted iteration m) report vars]
        (.over t { counted iteration m with vars := vars })
  /-- The row could not be loaded. -/
  | failed {e : CommandError} {vars : Store} : hasDatasource = true → e ≠ .datasourceEnd →
      Refusal hasDatasource iteration t m
        [poll false, loading iteration (counted iteration m) (.failed e) vars]
        (.over (t.abort e.code e.message none) { counted iteration m with vars := vars })
  /-- The datasource had a fault. -/
  | faulted {f : Fault} {vars : Store} : hasDatasource = true →
      Refusal hasDatasource iteration t m
        [poll false, loading iteration (counted iteration m) (.faulted f) vars]
        (.over (t.abort .scriptError "Internal engine fault" none)
          { counted iteration m with vars := vars })

/-- An iteration is opened and its commands are played, or the run ends before them. -/
theorem runs_playIteration {commands : List Command} {hasDatasource : Bool} {i : Nat} {t : Tally}
    {m : Memory μ} {h : History (Run μ)} {stage : Stage μ}
    (hrun : (playIteration commands hasDatasource i t m).Runs h stage) :
    Refusal hasDatasource i t m h stage ∨
      ∃ h₁ h₂ m', Opening hasDatasource i m h₁ m' ∧ h = h₁ ++ h₂ ∧
        (playCommands i commands t m').Runs h₂ stage := by
  rcases Proc.runs_call_iff.1 hrun with ⟨stop, h', rfl, hasked⟩
  cases stop with
  | true =>
      obtain ⟨rfl, rfl⟩ := Proc.runs_done_iff.1 hasked
      exact .inl .halted
  | false =>
      cases hasDatasource with
      | false => exact .inr ⟨[poll false], h', counted i m, .plain rfl, rfl, hasked⟩
      | true =>
          rcases Proc.runs_call_iff.1 hasked with ⟨⟨report, vars⟩, h'', rfl, hloaded⟩
          cases report with
          | loaded => exact .inr ⟨_, h'', _, .row rfl, rfl, hloaded⟩
          | exhausted =>
              obtain ⟨rfl, rfl⟩ := Proc.runs_done_iff.1 hloaded
              exact .inl (.exhausted rfl (.inl rfl))
          | failed e =>
              -- An error may say that there are no more rows, and then the run is over without a
              -- failure.
              by_cases he : e = .datasourceEnd
              · subst he
                obtain ⟨rfl, rfl⟩ := Proc.runs_done_iff.1 hloaded
                exact .inl (.exhausted rfl (.inr rfl))
              · have hfailed : stage = .over (t.abort e.code e.message none)
                    { counted i m with vars := vars } ∧ h'' = [] := by
                  cases e <;> first | exact absurd rfl he | exact (Proc.runs_done_iff.1 hloaded).symm
                obtain ⟨rfl, rfl⟩ := hfailed
                exact .inl (.failed rfl he)
          | faulted f =>
              obtain ⟨rfl, rfl⟩ := Proc.runs_done_iff.1 hloaded
              exact .inl (.faulted rfl)

/-- As many iterations as are left: one, and then the others if the run is not over. -/
theorem runs_playIterations_succ {commands : List Command} {hasDatasource : Bool} {left i : Nat}
    {t t' : Tally} {m m' : Memory μ} {h : History (Run μ)}
    (hrun : (playIterations commands hasDatasource (left + 1) i t m).Runs h (t', m')) :
    (playIteration commands hasDatasource i t m).Runs h (.over t' m') ∨
      ∃ h₁ h₂ t₁ m₁, h = h₁ ++ h₂ ∧
        (playIteration commands hasDatasource i t m).Runs h₁ (.goesOn t₁ m₁) ∧
        (playIterations commands hasDatasource left (i + 1) t₁ m₁).Runs h₂ (t', m') := by
  rw [playIterations] at hrun
  rcases Proc.runs_bind_iff.1 hrun with ⟨h₁, h₂, stage, rfl, hiteration, hrest⟩
  rcases stage with ⟨t₁, m₁⟩ | ⟨t₁, m₁⟩
  · exact .inr ⟨h₁, h₂, t₁, m₁, rfl, hiteration, hrest⟩
  · rcases Proc.runs_done_iff.1 hrest with ⟨rfl, hend⟩
    cases hend
    rw [List.append_nil]
    exact .inl hiteration

/-! ## The end of a run -/

/-- The calls that a run makes when its iterations are over. -/
def Call.isClosing : Call μ → Bool
  | .cleanUp _ _ => true
  | .append _ _ => true
  | _ => false

/-- The hooks belong to the closing of a run. -/
theorem runs_invokeAll {hooks : List (String × η)} {shared : μ} {failures : Nat}
    {h : History (Run μ)} {end' : Nat × μ}
    (hrun : (Cleanup.invokeAll invokeHook hooks shared failures).Runs h end') :
    ∀ e ∈ h, e.1.isClosing = true := by
  induction hooks generalizing shared failures h with
  | nil =>
      obtain ⟨rfl, -⟩ := Proc.runs_done_iff.1 hrun
      simp
  | cons hook hooks ih =>
      rcases Proc.runs_call_iff.1 hrun with ⟨⟨report, shared'⟩, h', rfl, hrest⟩
      intro e he
      rcases List.mem_cons.1 he with rfl | he
      · rfl
      · exact ih hrest e he

/-- The profile belongs to the closing of a run. -/
theorem runs_writeProfile {hasSink : Bool} {name : String} {t : Tally} {vars : Store}
    {h : History (Run μ)} {end' : Unit}
    (hrun : (writeProfile hasSink name t vars).Runs h end') : ∀ e ∈ h, e.1.isClosing = true := by
  unfold writeProfile at hrun
  split at hrun
  · split at hrun
    · rcases Proc.runs_call_iff.1 hrun with ⟨reply, h', rfl, hdone⟩
      obtain ⟨rfl, -⟩ := Proc.runs_done_iff.1 hdone
      simp [Call.isClosing]
    · obtain ⟨rfl, -⟩ := Proc.runs_done_iff.1 hrun
      simp
  · obtain ⟨rfl, -⟩ := Proc.runs_done_iff.1 hrun
    simp

/-- A run plays its iterations, then runs all hooks, then writes the profile. -/
theorem runs_plan_parts {setup : Setup η} {m m' : Memory μ} {h : History (Run μ)} {r : RunResult}
    (hrun : (plan setup m).Runs h (r, m')) :
    ∃ work hooks profile t m₁ failures, h = work ++ hooks ++ profile ∧
      (playIterations setup.script.commands setup.hasDatasource (max 1 setup.loops) 1 .start
        { m with vars := m.vars.beginRun }).Runs work (t, m₁) ∧
      (Cleanup.invokeAll invokeHook setup.cleanup.hooks m₁.shared 0).Runs hooks
        (failures, m'.shared) ∧
      (writeProfile setup.hasSink setup.script.name t m₁.vars).Runs profile () ∧
      r = t.result setup.script.name m₁.vars ∧ m'.vars = m₁.vars := by
  unfold plan at hrun
  rcases Proc.runs_bind_iff.1 hrun with ⟨h₁, h₂, ⟨t, m₁⟩, rfl, hplayed, hended⟩
  rcases Proc.runs_bind_iff.1 hended with
    ⟨h₃, h₄, ⟨failures, shared, ran⟩, rfl, hhooks, hprofiled⟩
  rcases Proc.runs_bind_iff.1 hprofiled with ⟨h₅, h₆, _, rfl, hprofile, hdone⟩
  obtain ⟨rfl, hresult⟩ := Proc.runs_done_iff.1 hdone
  cases hresult
  -- The hooks were reset before, so all of them run.
  rcases Proc.runs_bind_iff.1 hhooks with ⟨h₇, h₈, ⟨_, _⟩, rfl, hinvoked, hreset⟩
  obtain ⟨rfl, hran⟩ := Proc.runs_done_iff.1 hreset
  cases hran
  exact ⟨h₁, h₇, h₅, t, m₁, failures, by simp, hplayed, hinvoked, hprofile, rfl, rfl⟩

/-- A run plays its iterations; hooks and profile change neither its result nor its variables. -/
theorem runs_plan {setup : Setup η} {m m' : Memory μ} {h : History (Run μ)} {r : RunResult}
    (hrun : (plan setup m).Runs h (r, m')) :
    ∃ h₁ h₂ t m₁, h = h₁ ++ h₂ ∧
      (playIterations setup.script.commands setup.hasDatasource (max 1 setup.loops) 1 .start
        { m with vars := m.vars.beginRun }).Runs h₁ (t, m₁) ∧
      (∀ e ∈ h₂, e.1.isClosing = true) ∧
      r = t.result setup.script.name m₁.vars ∧ m'.vars = m₁.vars := by
  rcases runs_plan_parts hrun with
    ⟨work, hooks, profile, t, m₁, failures, hsplit, hplayed, hinvoked, hprofile, hresult, hvars⟩
  refine ⟨work, hooks ++ profile, t, m₁, by rw [hsplit, List.append_assoc], hplayed, ?_, hresult, hvars⟩
  intro e he
  rcases List.mem_append.1 he with he | he
  · exact runs_invokeAll hinvoked e he
  · exact runs_writeProfile hprofile e he

end Run
end MacroReplay
