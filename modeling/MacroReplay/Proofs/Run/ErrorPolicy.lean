import MacroReplay.Proofs.Run.Iteration

/-!
# The error policy over whole runs

A failed command is ignored under `!ERRORIGNORE`, ends its iteration under `!ERRORLOOP`, and ends the run
under neither, as the variables stand when the command has failed. This module says what that makes of a
run that has no datasource and is not asked to stop, whatever its commands do and leave in the
variables.

* `Counts`, `BrokenBy` — the steps of an iteration that the run goes on after, or ends with;
* `runs_playIterations_quiet` — the iterations of such a run, by induction on their number;
* `obeysPolicy_of_runs_plan` — the policy, for the whole run.
-/

namespace MacroReplay
namespace Run

variable {μ η : Type}

/-! ## Failures -/

namespace Step

/-- The command failed, and `!ERRORIGNORE` does not hold in the variables that it left. -/
def Unignored (s : Step μ) : Prop :=
  s.result.success = false ∧ s.left.isYes "!ERRORIGNORE" = false

/-- The command failed, and neither flag holds in the variables that it left. -/
def Fatal (s : Step μ) : Prop :=
  s.Unignored ∧ s.left.isYes "!ERRORLOOP" = false

def ofEvent? : Event (Run μ) → Option (Step μ)
  | ⟨.dispatch c m, d⟩ => some ⟨c, m, d⟩
  | _ => none

end Step

def dispatched (h : History (Run μ)) : List (Step μ) :=
  h.filterMap Step.ofEvent?

def lastFailure (steps : List (Step μ)) : Option String :=
  (steps.filter fun s => !s.result.success).getLast?.map fun s => failureMessage s.result

def iterationCalls (steps : List (Step μ)) : History (Run μ) :=
  poll false :: steps.flatMap Step.calls

/-- Errors are passed over while `!ERRORIGNORE` says so, whatever `!ERRORLOOP` says. -/
theorem policy_eq_nextCommand_iff {vars : Store} :
    policy vars = .nextCommand ↔ vars.isYes "!ERRORIGNORE" = true := by
  cases hignore : vars.isYes "!ERRORIGNORE" <;> cases hloop : vars.isYes "!ERRORLOOP" <;>
    simp [policy, hignore, hloop]

theorem policy_eq_nextIteration_iff {vars : Store} :
    policy vars = .nextIteration ↔
      vars.isYes "!ERRORIGNORE" = false ∧ vars.isYes "!ERRORLOOP" = true := by
  cases hignore : vars.isYes "!ERRORIGNORE" <;> cases hloop : vars.isYes "!ERRORLOOP" <;>
    simp [policy, hignore, hloop]

theorem policy_eq_abort_iff {vars : Store} :
    policy vars = .abort ↔
      vars.isYes "!ERRORIGNORE" = false ∧ vars.isYes "!ERRORLOOP" = false := by
  cases hignore : vars.isYes "!ERRORIGNORE" <;> cases hloop : vars.isYes "!ERRORLOOP" <;>
    simp [policy, hignore, hloop]

/-- A command that passes is none whose failure counts. -/
theorem Step.Passes.not_unignored {s : Step μ} (hpass : s.Passes) : ¬ s.Unignored := by
  rintro ⟨hfailed, hunset⟩
  rcases hpass with hok | ⟨-, -, hpolicy⟩
  · simp [hok] at hfailed
  · rw [policy_eq_nextCommand_iff, hunset] at hpolicy
    cases hpolicy

/-! ## The tally of the steps -/

@[simp]
theorem lastFailure_nil : lastFailure ([] : List (Step μ)) = none := rfl

theorem lastFailure_append (steps more : List (Step μ)) :
    lastFailure (steps ++ more) = (lastFailure more).or (lastFailure steps) := by
  unfold lastFailure
  rw [List.filter_append, List.getLast?_append]
  cases (more.filter fun s => !s.result.success).getLast? <;> simp

theorem lastFailure_cons (s : Step μ) (steps : List (Step μ)) :
    lastFailure (s :: steps) = (lastFailure steps).or (lastFailure [s]) :=
  lastFailure_append [s] steps

/-- Noting a command adds to the records and to nothing else. -/
theorem noted_eq (t : Tally) (s : Step μ) :
    ∃ records, t.noted s = { t with records := records } := by
  unfold Tally.noted Tally.record
  split
  · exact ⟨_, rfl⟩
  · exact ⟨t.records, rfl⟩

/-- A command that passes leaves a message, if it failed, and a record, if one is kept. -/
theorem after_eq (t : Tally) (s : Step μ) :
    ∃ records, t.after s =
      { t with message := (lastFailure [s]).or t.message, records := records } := by
  rcases noted_eq t s with ⟨records, hnoted⟩
  refine ⟨records, ?_⟩
  cases hok : s.result.success with
  | true => simp [Tally.after_of_success hok, hnoted, lastFailure, hok]
  | false => simp [Tally.after_of_failure hok, hnoted, lastFailure, hok]

/-- Steps that a run goes on after change nothing of its tally but the message and the records. -/
theorem foldl_after_eq (t : Tally) (steps : List (Step μ)) :
    ∃ records, steps.foldl Tally.after t =
      { t with message := (lastFailure steps).or t.message, records := records } := by
  induction steps generalizing t with
  | nil => exact ⟨t.records, rfl⟩
  | cons s steps ih =>
      rcases after_eq t s with ⟨records, hafter⟩
      rcases ih (t.after s) with ⟨records', hfold⟩
      refine ⟨records', ?_⟩
      rw [List.foldl_cons, hfold, hafter, lastFailure_cons s steps, Option.or_assoc]

/-! ## Iterations -/

/-- The steps of an iteration that counts, and that the run goes on after: it came to the end of the
script, or a failure cut it short under `!ERRORLOOP`. -/
inductive Counts (commands : List Command) : List (Step μ) → Prop where
  | finished {steps : List (Step μ)} :
      steps.map Step.command = commands → (∀ s ∈ steps, s.Passes) → Counts commands steps
  | skipped {passed : List (Step μ)} {s : Step μ} :
      (passed ++ [s]).map Step.command <+: commands → (∀ s' ∈ passed, s'.Passes) →
      s.result.success = false → s.result.code ≠ .stopped → s.result.code ≠ .datasourceEnd →
      policy s.left = .nextIteration → Counts commands (passed ++ [s])

/-- The steps of an iteration that a failure of the last one ended, and with it the run. -/
inductive BrokenBy (commands : List Command) : List (Step μ) → Step μ → Prop where
  | aborted {passed : List (Step μ)} {s : Step μ} :
      (passed ++ [s]).map Step.command <+: commands → (∀ s' ∈ passed, s'.Passes) →
      s.result.success = false → policy s.left = .abort →
      BrokenBy commands (passed ++ [s]) s

/-- No stop is requested, and no command reports a stop or the end of the data. -/
def Quiet (h : History (Run μ)) : Prop :=
  poll true ∉ h ∧
    ∀ s ∈ dispatched h, s.result.code ≠ .stopped ∧ s.result.code ≠ .datasourceEnd

theorem mem_dispatched_of_event_mem {s : Step μ} {h : History (Run μ)} (hs : s.event ∈ h) :
    s ∈ dispatched h :=
  List.mem_filterMap.2 ⟨s.event, hs, rfl⟩

/-- A history is quiet if both of its parts are. -/
theorem quiet_append_iff {h₁ h₂ : History (Run μ)} :
    Quiet (h₁ ++ h₂) ↔ Quiet h₁ ∧ Quiet h₂ := by
  unfold Quiet dispatched
  simp only [List.mem_append, List.filterMap_append, not_or]
  constructor
  · rintro ⟨⟨hpoll₁, hpoll₂⟩, hcodes⟩
    exact ⟨⟨hpoll₁, fun s hs => hcodes s (.inl hs)⟩, ⟨hpoll₂, fun s hs => hcodes s (.inr hs)⟩⟩
  · rintro ⟨⟨hpoll₁, hcodes₁⟩, ⟨hpoll₂, hcodes₂⟩⟩
    exact ⟨⟨hpoll₁, hpoll₂⟩, fun s hs => hs.elim (hcodes₁ s) (hcodes₂ s)⟩

/-- In a quiet history only three exits are left. -/
theorem Exit.of_quiet {i : Nat} {rest : List Command} {t : Tally} {m : Memory μ}
    {h : History (Run μ)} {stage : Stage μ} (hexit : Exit i rest t m h stage) (hquiet : Quiet h) :
    (rest = [] ∧ h = [] ∧ stage = .goesOn { t with loops := i } m) ∨
      ∃ (s : Step μ) (rest' : List Command), rest = s.command :: rest' ∧ h = s.calls ∧
        s.result.success = false ∧
        (s.result.code ≠ .stopped ∧ s.result.code ≠ .datasourceEnd ∧
            policy s.left = .nextIteration ∧
            stage = .goesOn { t.after s with loops := i } s.outcome.memory ∨
          policy s.left = .abort ∧
            stage = .over ((t.noted s).abort s.result.code (failureMessage s.result)
              (some s.command.line)) s.outcome.memory) := by
  cases hexit with
  | finished => exact .inl ⟨rfl, rfl, rfl⟩
  | halted => exact absurd (by simp) hquiet.1
  | stopped hfailed hcode =>
      exact absurd hcode (hquiet.2 _ (mem_dispatched_of_event_mem (by simp))).1
  | haltedAfter hfailed => exact absurd (by simp) hquiet.1
  | dataEnd hfailed hcode =>
      exact absurd hcode (hquiet.2 _ (mem_dispatched_of_event_mem (by simp))).2
  | skipped hfailed hpolicy =>
      exact .inr ⟨_, _, rfl, (Step.calls_of_failure hfailed).symm, hfailed,
        .inl ⟨(hquiet.2 _ (mem_dispatched_of_event_mem (by simp))).1,
          (hquiet.2 _ (mem_dispatched_of_event_mem (by simp))).2, hpolicy, rfl⟩⟩
  | aborted hfailed hpolicy =>
      exact .inr ⟨_, _, rfl, (Step.calls_of_failure hfailed).symm, hfailed, .inr ⟨hpolicy, rfl⟩⟩

def Tally.brokenBy (t : Tally) (s : Step μ) (records : List Profile.Record) : Tally :=
  { t with
    state := .aborted, code := s.result.code, message := some (failureMessage s.result),
    failedLine := some s.command.line, records := records }

/-- One iteration of a quiet run: the run goes on after it, or one of its commands ends the run. -/
theorem runs_playIteration_quiet {commands : List Command} {i : Nat} {t : Tally} {m : Memory μ}
    {h : History (Run μ)} {stage : Stage μ}
    (hrun : (playIteration commands false i t m).Runs h stage) (hquiet : Quiet h) :
    ∃ steps records, h = iterationCalls steps ∧
      ((Counts commands steps ∧ ∃ m', stage =
          .goesOn { t with message := (lastFailure steps).or t.message, loops := i,
                           records := records } m') ∨
        ∃ s, BrokenBy commands steps s ∧ stage = .over (t.brokenBy s records) s.outcome.memory) := by
  rcases runs_playIteration hrun with hrefusal | ⟨h₁, h₂, m₁, hopening, rfl, hplayed⟩
  · cases hrefusal with
    | halted => exact absurd (by simp) hquiet.1
    | exhausted hds => cases hds
    | failed hds => cases hds
    | faulted hds => cases hds
  · cases hopening with
    | row hds => cases hds
    | plain =>
        rcases runs_playCommands hplayed with
          ⟨passed, rest, m', h', hcommands, hpassed, -, rfl, hexit⟩
        -- The commands that pass, then an end which is quiet too: of the script, or at a failure.
        have hquiet' : Quiet h' := (quiet_append_iff.1 (quiet_append_iff.1 hquiet).2).2
        rcases foldl_after_eq t passed with ⟨records, hfold⟩
        rw [hfold] at hexit
        rcases hexit.of_quiet hquiet' with ⟨rfl, rfl, rfl⟩ | ⟨s, rest', rfl, rfl, hfailed, hend⟩
        · refine ⟨passed, records, by simp [iterationCalls], .inl ⟨.finished ?_ hpassed, m', rfl⟩⟩
          simpa using hcommands.symm
        · have hsteps : (passed ++ [s]).map Step.command <+: commands :=
            ⟨rest', by simpa using hcommands.symm⟩
          have hcalls : [poll false] ++ (passed.flatMap Step.calls ++ s.calls) =
              iterationCalls (passed ++ [s]) := by
            simp [iterationCalls]
          rcases hend with ⟨hstopped, hend, hpolicy, rfl⟩ | ⟨hpolicy, rfl⟩
          · rcases after_eq (t := { t with message := (lastFailure passed).or t.message,
                                           records := records }) s with ⟨records', hafter⟩
            refine ⟨passed ++ [s], records', hcalls,
              .inl ⟨.skipped hsteps hpassed hfailed hstopped hend hpolicy, s.outcome.memory, ?_⟩⟩
            rw [hafter, lastFailure_append, Option.or_assoc]
          · rcases noted_eq (t := { t with message := (lastFailure passed).or t.message,
                                           records := records }) s with ⟨records', hnoted⟩
            refine ⟨passed ++ [s], records', hcalls,
              .inr ⟨s, .aborted hsteps hpassed hfailed hpolicy, ?_⟩⟩
            rw [hnoted]
            rfl

/-- The iterations of a quiet run: the run goes on after each of them, or after all but the last. -/
theorem runs_playIterations_quiet {commands : List Command} {left i : Nat} {t t' : Tally}
    {m m' : Memory μ} {h : History (Run μ)}
    (hrun : (playIterations commands false left i t m).Runs h (t', m')) (hquiet : Quiet h)
    (hi : i = t.loops + 1) :
    ∃ iterations records, h = iterations.flatMap iterationCalls ∧
      (((∀ steps ∈ iterations, Counts commands steps) ∧ iterations.length = left ∧
          t' = { t with message := (lastFailure iterations.flatten).or t.message,
                        loops := t.loops + left, records := records }) ∨
        ∃ closed steps s, iterations = closed ++ [steps] ∧
          (∀ steps ∈ closed, Counts commands steps) ∧ BrokenBy commands steps s ∧
          iterations.length ≤ left ∧ m' = s.outcome.memory ∧
          t' = { t with loops := t.loops + closed.length }.brokenBy s records) := by
  induction left generalizing i t m h with
  | zero =>
      rcases Proc.runs_done_iff.1 hrun with ⟨rfl, hend⟩
      cases hend
      exact ⟨[], t'.records, rfl, .inl ⟨by simp, rfl, rfl⟩⟩
  | succ left ih =>
      subst hi
      rcases runs_playIterations_succ hrun with hover | ⟨h₁, h₂, t₁, m₁, rfl, hfirst, hrest⟩
      · rcases runs_playIteration_quiet hover hquiet with
          ⟨steps, records, rfl, ⟨-, m'', hstage⟩ | ⟨s, hbroken, hstage⟩⟩
        · cases hstage
        · cases hstage
          exact ⟨[steps], records, by simp,
            .inr ⟨[], steps, s, rfl, by simp, hbroken, by simp, rfl, rfl⟩⟩
      · -- This iteration counts, and the others are those of the induction.
        obtain ⟨hquiet₁, hquiet₂⟩ := quiet_append_iff.1 hquiet
        rcases runs_playIteration_quiet hfirst hquiet₁ with
          ⟨steps, records, rfl, ⟨hclosed, m'', hstage⟩ | ⟨s, hbroken, hstage⟩⟩
        · cases hstage
          rcases ih hrest hquiet₂ rfl with ⟨iterations, records', rfl, hothers⟩
          refine ⟨steps :: iterations, records', by simp, ?_⟩
          rcases hothers with
            ⟨hall, hlength, rfl⟩ | ⟨closed, last, s, rfl, hall, hbroken, hle, rfl, rfl⟩
          · refine .inl ⟨List.forall_mem_cons.2 ⟨hclosed, hall⟩, by simp [hlength], ?_⟩
            simp [lastFailure_append, Option.or_assoc, Nat.add_comm left, Nat.add_assoc]
          · refine .inr ⟨steps :: closed, last, s, rfl, List.forall_mem_cons.2 ⟨hclosed, hall⟩, hbroken,
              ?_, rfl, ?_⟩
            · simpa using hle
            · simp [Tally.brokenBy, Nat.add_comm closed.length, Nat.add_assoc]
        · cases hstage

/-! ## The policy -/

/-- The steps of an iteration of a script: its commands in order, up to a failure that is not ignored. -/
structure FollowsScript (commands : List Command) (steps : List (Step μ)) : Prop where
  inOrder : steps.map Step.command <+: commands
  /-- Commands are left out only behind a failure that is not ignored. -/
  cutShort : steps.map Step.command ≠ commands → ∃ s, steps.getLast? = some s ∧ s.Unignored
  /-- Behind a failure that is not ignored no command is played. -/
  endsAtFailure : ∀ s ∈ steps.dropLast, ¬ s.Unignored

/-- The commands are played in order up to the first failure that is not ignored. -/
theorem followsScript_of_last {commands : List Command} {passed : List (Step μ)} {s : Step μ}
    (hcommands : (passed ++ [s]).map Step.command <+: commands)
    (hpassed : ∀ s' ∈ passed, s'.Passes) (hlast : s.Unignored) :
    FollowsScript commands (passed ++ [s]) where
  inOrder := hcommands
  cutShort := fun _ => ⟨s, by simp, hlast⟩
  endsAtFailure := by
    intro s' hs'
    rw [List.dropLast_concat] at hs'
    exact (hpassed s' hs').not_unignored

/-- An iteration that counts plays the script in order. -/
theorem Counts.followsScript {commands : List Command} {steps : List (Step μ)}
    (hcounts : Counts commands steps) : FollowsScript commands steps := by
  cases hcounts with
  | finished hcommands hpassed =>
      refine ⟨hcommands ▸ List.prefix_refl _, fun hne => absurd hcommands hne, ?_⟩
      intro s hs
      exact (hpassed s (List.dropLast_subset _ hs)).not_unignored
  | skipped hcommands hpassed hfailed _ _ hpolicy =>
      exact followsScript_of_last hcommands hpassed
        ⟨hfailed, (policy_eq_nextIteration_iff.1 hpolicy).1⟩

theorem Counts.not_fatal {commands : List Command} {steps : List (Step μ)}
    (hcounts : Counts commands steps) : ∀ s ∈ steps, ¬ s.Fatal := by
  cases hcounts with
  | finished _ hpassed => exact fun s hs hfatal => (hpassed s hs).not_unignored hfatal.1
  | skipped _ hpassed _ _ _ hpolicy =>
      intro s hs hfatal
      rcases List.mem_append.1 hs with hs | hs
      · exact (hpassed s hs).not_unignored hfatal.1
      · cases List.mem_singleton.1 hs
        rw [policy_eq_nextIteration_iff, hfatal.2] at hpolicy
        cases hpolicy.2

/-- An iteration that breaks the run plays the script in order, up to where it breaks. -/
theorem BrokenBy.followsScript {commands : List Command} {steps : List (Step μ)} {s : Step μ}
    (hbroken : BrokenBy commands steps s) : FollowsScript commands steps := by
  cases hbroken with
  | aborted hcommands hpassed hfailed hpolicy =>
      exact followsScript_of_last hcommands hpassed
        ⟨hfailed, (policy_eq_abort_iff.1 hpolicy).1⟩

theorem dispatched_append (h₁ h₂ : History (Run μ)) :
    dispatched (h₁ ++ h₂) = dispatched h₁ ++ dispatched h₂ :=
  List.filterMap_append

theorem dispatched_stepCalls (s : Step μ) : dispatched s.calls = [s] := by
  unfold Step.calls dispatched
  split <;> rfl

/-- The calls of some commands dispatch these commands. -/
theorem dispatched_flatMap_calls (steps : List (Step μ)) :
    dispatched (steps.flatMap Step.calls) = steps := by
  induction steps with
  | nil => rfl
  | cons s steps ih =>
      rw [List.flatMap_cons, dispatched_append, dispatched_stepCalls, ih]
      rfl

theorem dispatched_iterationCalls (steps : List (Step μ)) :
    dispatched (iterationCalls steps) = steps :=
  dispatched_flatMap_calls steps

theorem dispatched_iterations (iterations : List (List (Step μ))) :
    dispatched (iterations.flatMap iterationCalls) = iterations.flatten := by
  induction iterations with
  | nil => rfl
  | cons steps iterations ih =>
      rw [List.flatMap_cons, dispatched_append, dispatched_iterationCalls, ih, List.flatten_cons]

/-- No command is dispatched after the iterations. -/
theorem dispatched_closing {h : History (Run μ)} (hclosing : ∀ e ∈ h, e.1.isClosing = true) :
    dispatched h = [] := by
  refine List.filterMap_eq_nil_iff.2 ?_
  rintro ⟨c, reply⟩ he
  have hc := hclosing _ he
  cases c <;> first | rfl | cases hc

/-- What the error policy makes of a run: of its iterations, its result and the variables it leaves. -/
structure ObeysPolicy (setup : Setup η) (iterations : List (List (Step μ))) (r : RunResult)
    (vars : Store) : Prop where
  followsScript : ∀ steps ∈ iterations, FollowsScript setup.script.commands steps
  /-- A failure under neither flag is the last command of the run and ends it. -/
  fatal : ∀ earlier s later, iterations.flatten = earlier ++ s :: later → s.Fatal →
    later = [] ∧ r.state = .aborted ∧ r.code = s.result.code ∧
      r.failedLine = some s.command.line ∧
      r.message = some (if s.result.text = "" then s.result.code.name else s.result.text) ∧
      r.loops + 1 = iterations.length ∧
      r.bindings = s.left.snapshot ∧ r.extracted = s.left.extracted ∧ vars = s.left
  /-- Behind an iteration that `!ERRORLOOP` ended, the next one begins. -/
  goesOn : ∀ k steps s, iterations[k]? = some steps → steps.getLast? = some s → s.Unignored →
    s.left.isYes "!ERRORLOOP" = true → k + 1 < max 1 setup.loops → k + 1 < iterations.length
  /-- Without such a failure all iterations are played and the run completes. -/
  completed : (∀ s ∈ iterations.flatten, ¬ s.Fatal) →
    iterations.length = max 1 setup.loops ∧ r.state = .completed ∧ r.code = .ok ∧
      r.loops = max 1 setup.loops ∧ r.failedLine = none ∧
      r.message = lastFailure iterations.flatten

/-- A run of as many iterations as were asked for, all of which count. -/
theorem obeysPolicy_of_closed {setup : Setup η} {iterations : List (List (Step μ))}
    (records : List Profile.Record) (vars : Store)
    (hclosed : ∀ steps ∈ iterations, Counts setup.script.commands steps)
    (hlength : iterations.length = max 1 setup.loops) :
    ObeysPolicy setup iterations
      (Tally.result ⟨.completed, .ok, lastFailure iterations.flatten, none, max 1 setup.loops,
        records⟩ setup.script.name vars) vars where
  followsScript := fun steps hsteps => (hclosed steps hsteps).followsScript
  fatal := by
    intro earlier s later hflat hfatal
    have hs : s ∈ iterations.flatten := by simp [hflat]
    rcases List.mem_flatten.1 hs with ⟨steps, hsteps, hs⟩
    exact absurd hfatal ((hclosed steps hsteps).not_fatal s hs)
  goesOn := by
    intro k steps s _ _ _ _ hk
    omega
  completed := fun _ => ⟨hlength, rfl, rfl, rfl, rfl, rfl⟩

/-- Only the last command of an iteration that breaks the run is fatal. -/
theorem BrokenBy.fatal {commands : List Command} {steps : List (Step μ)} {s : Step μ}
    (hbroken : BrokenBy commands steps s) :
    s.Fatal ∧ ∃ passed, steps = passed ++ [s] ∧ ∀ s' ∈ passed, ¬ s'.Fatal := by
  cases hbroken with
  | aborted hcommands hpassed hfailed hpolicy =>
      obtain ⟨hignore, hloop⟩ := policy_eq_abort_iff.1 hpolicy
      exact ⟨⟨⟨hfailed, hignore⟩, hloop⟩, _, rfl,
        fun s' hs' hfatal => (hpassed s' hs').not_unignored hfatal.1⟩

/-- A run whose last iteration is broken by a command, after some that count. -/
theorem obeysPolicy_of_broken {setup : Setup η} {closed : List (List (Step μ))}
    {steps : List (Step μ)} {s : Step μ} {t : Tally} {records : List Profile.Record}
    (hclosed : ∀ steps ∈ closed, Counts setup.script.commands steps)
    (hbroken : BrokenBy setup.script.commands steps s) (hloops : t.loops = closed.length) :
    ObeysPolicy setup (closed ++ [steps])
      ((t.brokenBy s records).result setup.script.name s.left) s.left := by
  obtain ⟨hfatal, passed, rfl, hpassed⟩ := hbroken.fatal
  have hflat : (closed ++ [passed ++ [s]]).flatten = (closed.flatten ++ passed) ++ [s] := by simp
  have hbefore : ∀ s' ∈ closed.flatten ++ passed, ¬ s'.Fatal := by
    intro s' hs'
    rcases List.mem_append.1 hs' with hs' | hs'
    · rcases List.mem_flatten.1 hs' with ⟨steps, hsteps, hs'⟩
      exact (hclosed steps hsteps).not_fatal s' hs'
    · exact hpassed s' hs'
  refine ⟨?_, ?_, ?_, ?_⟩
  · intro steps hsteps
    rcases List.mem_append.1 hsteps with hsteps | hsteps
    · exact (hclosed steps hsteps).followsScript
    · cases List.mem_singleton.1 hsteps
      exact hbroken.followsScript
  · intro earlier s' later hsplit hfatal'
    rw [hflat] at hsplit
    -- A fatal step is none of the front, so it is the last one.
    rcases List.eq_nil_or_concat later with rfl | ⟨later', last, rfl⟩
    · obtain ⟨-, hs⟩ := List.append_inj' hsplit rfl
      cases hs
      have hmessage : failureMessage s.result =
          if s.result.text = "" then s.result.code.name else s.result.text := by
        simp [failureMessage, String.isEmpty_iff]
      refine ⟨rfl, rfl, rfl, rfl, congrArg some hmessage, ?_, rfl, rfl, rfl⟩
      simp [Tally.result, Tally.brokenBy, hloops]
    · have hfront : closed.flatten ++ passed = earlier ++ s' :: later' := by
        rw [List.concat_eq_append, ← List.cons_append, ← List.append_assoc] at hsplit
        exact (List.append_inj' hsplit rfl).1
      exact absurd hfatal' (hbefore s' (by simp [hfront]))
  · intro k steps s' hk hlast _ hloop _
    have hle : k < (closed ++ [passed ++ [s]]).length := (List.getElem?_eq_some_iff.1 hk).1
    rw [List.length_append, List.length_singleton] at hle ⊢
    rcases Nat.lt_succ_iff_lt_or_eq.1 hle with hlt | rfl
    · omega
    · -- The last iteration ends with the fatal step, and `!ERRORLOOP` does not hold there.
      rw [List.getElem?_concat_length] at hk
      cases hk
      rw [List.getLast?_concat] at hlast
      cases hlast
      rw [hfatal.2] at hloop
      cases hloop
  · intro hnone
    exact absurd hfatal (hnone s (by simp))

/-- **The error policy.** Without a datasource and without a request to stop, whatever the commands do:
each iteration dispatches a front of the script that is cut short only by a failure that is not ignored;
a failure under neither flag ends the run with its code, line and message; and without one, all
iterations are played and the run completes. -/
theorem obeysPolicy_of_runs_plan {setup : Setup η} {m m' : Memory μ} {h : History (Run μ)}
    {r : RunResult} (hrun : (plan setup m).Runs h (r, m')) (hsource : setup.hasDatasource = false)
    (hquiet : Quiet h) :
    ∃ iterations closing, h = iterations.flatMap iterationCalls ++ closing ∧
      (∀ e ∈ closing, e.1.isClosing = true) ∧ dispatched h = iterations.flatten ∧
      ObeysPolicy setup iterations r m'.vars := by
  rcases runs_plan hrun with ⟨h₁, h₂, t, m₁, rfl, hplayed, hclosing, rfl, hvars⟩
  rw [hsource] at hplayed
  rcases runs_playIterations_quiet hplayed (quiet_append_iff.1 hquiet).1 rfl with
    ⟨iterations, records, rfl, hend⟩
  have hdispatched : dispatched (iterations.flatMap iterationCalls ++ h₂) = iterations.flatten := by
    rw [dispatched_append, dispatched_iterations, dispatched_closing hclosing, List.append_nil]
  refine ⟨iterations, h₂, rfl, hclosing, hdispatched, ?_⟩
  rw [hvars]
  rcases hend with ⟨hclosed, hlength, rfl⟩ | ⟨closed, steps, s, rfl, hclosed, hbroken, -, rfl, rfl⟩
  · have hpolicy := obeysPolicy_of_closed records m₁.vars hclosed hlength
    simpa [Tally.start] using hpolicy
  · exact obeysPolicy_of_broken hclosed hbroken (by simp [Tally.start])

def pairSetup : Setup Unit where
  script := ⟨"pair", [⟨"FIRST", [], "FIRST", 1, none⟩, ⟨"SECOND", [], "SECOND", 2, none⟩]⟩
  loops := 3
  hasDatasource := false
  hasSink := false
  cleanup := Cleanup.empty

def loopFlag (word : String) : Store := ⟨[("!ERRORLOOP", .text word)], [], false⟩

/-- The first command fails while `!ERRORLOOP` holds; in the next iteration the second one fails after it
has taken the flag back. -/
def pairSteps : List (List (Step Unit)) :=
  [[⟨⟨"FIRST", [], "FIRST", 1, none⟩, ⟨(loopFlag "NO").beginRun, ()⟩,
      ⟨.failure .timeout "late", ⟨loopFlag "YES", ()⟩, 0, .zero⟩⟩],
    [⟨⟨"FIRST", [], "FIRST", 1, none⟩, ⟨advanceLoop 2 (loopFlag "YES"), ()⟩,
      ⟨.ok, ⟨loopFlag "YES", ()⟩, 0, .zero⟩⟩,
     ⟨⟨"SECOND", [], "SECOND", 2, none⟩, ⟨loopFlag "YES", ()⟩,
      ⟨.failure .scriptError "", ⟨loopFlag "NO", ()⟩, 0, .zero⟩⟩]]

/-- The result of that run: aborted by the second command after one whole iteration. -/
def pairResult : RunResult :=
  Tally.result ⟨.aborted, .scriptError, some "SCRIPT_ERROR", some 2, 1, []⟩ "pair" (loopFlag "NO")

theorem obeysPolicy_pair :
    (plan pairSetup ⟨loopFlag "NO", ()⟩).Runs (pairSteps.flatMap iterationCalls)
        (pairResult, ⟨loopFlag "NO", ()⟩) ∧
      Quiet (pairSteps.flatMap iterationCalls) ∧
      ∃ iterations closing, pairSteps.flatMap iterationCalls =
          iterations.flatMap iterationCalls ++ closing ∧
        (∀ e ∈ closing, e.1.isClosing = true) ∧
        dispatched (pairSteps.flatMap iterationCalls) = iterations.flatten ∧
        ObeysPolicy pairSetup iterations pairResult (loopFlag "NO") := by
  have hrun : (plan pairSetup ⟨loopFlag "NO", ()⟩).Runs (pairSteps.flatMap iterationCalls)
      (pairResult, ⟨loopFlag "NO", ()⟩) :=
    .call _ (.call _ (.call _ (.call _ (.call _ (.call _ (.call _ (.call _ (.call _ (.call _
      (.done _))))))))))
  have hquiet : Quiet (pairSteps.flatMap iterationCalls) := by
    refine ⟨by simp [pairSteps, iterationCalls, Step.calls, Step.result, Step.event, poll,
      CommandResult.failure, CommandResult.ok], ?_⟩
    rw [dispatched_iterations]
    simp [pairSteps, Step.result, CommandResult.failure, CommandResult.ok]
  exact ⟨hrun, hquiet, obeysPolicy_of_runs_plan hrun rfl hquiet⟩

end Run
end MacroReplay
