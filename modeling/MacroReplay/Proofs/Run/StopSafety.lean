import MacroReplay.Proofs.Run.Iteration

/-!
# A run that is asked to stop

A stop is requested while a call of the run is under way: from then on every question whether to stop is
answered with yes, and before with no. This module follows that moment through a run.

* `Position` — where a run stands when it dispatches a command: the iterations before, the commands
  passed in this one, and those left in it;
* `playCommands_inFlight`, `playIteration_inFlight`, `playIterations_inFlight` — what becomes of the call
  that is under way, for each part of a run;
* `heedsStop_of_runs_plan` — nothing more is dispatched or loaded, and how the run ends.
-/

namespace MacroReplay
namespace Run

variable {μ η : Type}

/-- The calls that hand out work of the script: a row to load, a command to carry out. -/
def Call.isWork : Call μ → Bool
  | .load _ _ => true
  | .dispatch _ _ => true
  | _ => false

def IsStopped (r : RunResult) : Prop :=
  r.state = .stopped ∧ r.code = .stopped ∧ r.message = some "Macro stopped"

/-! ## Positions -/

/-- An iteration: the calls before its first command, and the steps that the run went on after. -/
structure Round (μ : Type) where
  opening : History (Run μ)
  steps : List (Step μ)

namespace Round

def calls (r : Round μ) : History (Run μ) :=
  r.opening ++ r.steps.flatMap Step.calls

/-- The iteration began as iterations do, and its steps are commands of the script, in order and from
the first one on. -/
structure Plays (r : Round μ) (commands : List Command) (hasDatasource : Bool) : Prop where
  opened : ∃ i m m', Opening hasDatasource i m r.opening m'
  inOrder : r.steps.map Step.command <+: commands

end Round

/-- Where a run stands when it dispatches a command. -/
structure Position (μ : Type) where
  /-- The iterations before this one. -/
  rounds : List (Round μ)
  /-- This iteration, up to the command. -/
  current : Round μ
  /-- The commands of the script behind this one. -/
  rest : List Command

/-- Behind these calls, the command of the step is dispatched at the position. -/
structure Position.Dispatches (p : Position μ) (commands : List Command) (hasDatasource : Bool)
    (before : History (Run μ)) (s : Step μ) : Prop where
  arrives : before = p.rounds.flatMap Round.calls ++ p.current.calls ++ [poll false]
  played : ∀ r ∈ p.rounds, r.Plays commands hasDatasource
  current : p.current.Plays commands hasDatasource
  commands_eq : commands = p.current.steps.map Step.command ++ s.command :: p.rest

/-! ## Once every question is answered with yes -/

/-- An entry of two lists in a row stands in the first of them or in the second. -/
theorem append_split {α : Type} {h₁ h₂ before after : List α} {e : α}
    (h : h₁ ++ h₂ = before ++ e :: after) :
    (∃ after₁, h₁ = before ++ e :: after₁ ∧ after = after₁ ++ h₂) ∨
      ∃ before₂, before = h₁ ++ before₂ ∧ h₂ = before₂ ++ e :: after := by
  rcases List.append_eq_append_iff.1 h with ⟨before₂, hbefore, hh₂⟩ | ⟨middle, hh₁, hmiddle⟩
  · exact .inr ⟨before₂, hbefore, hh₂⟩
  · rcases List.cons_eq_append_iff.1 hmiddle with ⟨rfl, hh₂⟩ | ⟨after₁, rfl, hafter⟩
    · exact .inr ⟨[], by simpa using hh₁.symm, hh₂⟩
    · exact .inl ⟨after₁, hh₁, hafter⟩

/-- If a stop is requested, no further command of an iteration is played. -/
theorem playCommands_halts {i : Nat} {c : Command} {rest : List Command} {t : Tally}
    {m : Memory μ} {h : History (Run μ)} {stage : Stage μ}
    (hrun : (playCommands i (c :: rest) t m).Runs h stage) (hasked : poll false ∉ h) :
    h = [poll true] ∧ stage = .over t.stop m := by
  rw [playCommands_cons] at hrun
  rcases Proc.runs_call_iff.1 hrun with ⟨stop, h', rfl, hnext⟩
  cases stop with
  | true =>
      obtain ⟨rfl, rfl⟩ := Proc.runs_done_iff.1 hnext
      exact ⟨rfl, rfl⟩
  | false => exact absurd (List.mem_cons_self ..) hasked

/-- If a stop is requested, no further iteration begins. -/
theorem playIterations_halts {commands : List Command} {hasDatasource : Bool} {left i : Nat}
    {t t' : Tally} {m m' : Memory μ} {h : History (Run μ)}
    (hrun : (playIterations commands hasDatasource (left + 1) i t m).Runs h (t', m'))
    (hasked : poll false ∉ h) : h = [poll true] ∧ t' = t.stop := by
  rcases Proc.runs_call_iff.1 hrun with ⟨stop, h', rfl, hnext⟩
  cases stop with
  | true =>
      rcases Proc.runs_done_iff.1 hnext with ⟨rfl, hend⟩
      cases hend
      exact ⟨rfl, rfl⟩
  | false => exact absurd (List.mem_cons_self ..) hasked

/-! ## The call under way -/

/-- Behind the call under way the run only asks whether to stop, and then it is stopped. -/
structure Halts (after : History (Run μ)) (stage : Stage μ) : Prop where
  onlyAsks : ∀ x ∈ after, x.1 = .stopRequested
  isStop : ∃ t m, stage = .over (Tally.stop t) m

/-- The command under way succeeds as the last one of its iteration. -/
structure Finishes (s : Step μ) (rest : List Command) (after : History (Run μ)) (stage : Stage μ) :
    Prop where
  succeeds : s.result.success = true
  isLast : rest = []
  quiet : after = []
  goesOn : ∃ t m, stage = .goesOn t m

theorem poll_ne_split {a : Bool} {e : Event (Run μ)} {before after : History (Run μ)}
    (he : e.1 ≠ .stopRequested) : [poll a] ≠ before ++ e :: after := by
  intro h
  have hmem : e ∈ [poll a] := by simp [h]
  rw [List.mem_singleton.1 hmem] at he
  exact he rfl

/-- The only call among these that is no question. -/
theorem split_between_polls {a : Bool} {x e : Event (Run μ)} {polls before after : History (Run μ)}
    (he : e.1 ≠ .stopRequested) (hpolls : ∀ y ∈ polls, y.1 = .stopRequested)
    (h : poll a :: x :: polls = before ++ e :: after) :
    before = [poll a] ∧ e = x ∧ after = polls := by
  cases before with
  | nil =>
      have hpoll : poll a = e := (List.cons.inj h).1
      exact absurd (hpoll ▸ rfl) he
  | cons first before =>
      obtain ⟨rfl, htail⟩ := List.cons.inj h
      cases before with
      | nil =>
          obtain ⟨rfl, rfl⟩ := List.cons.inj htail
          exact ⟨rfl, rfl, rfl⟩
      | cons second before =>
          have hpoll : e ∈ polls := by
            rw [(List.cons.inj htail).2]
            exact List.mem_append_right before (List.mem_cons_self ..)
          exact absurd (hpolls e hpoll) he

/-- If a stop is requested while the command at an exit is under way, the exit is one of a stop. -/
theorem Exit.inFlight {i : Nat} {commands : List Command} {t : Tally} {m : Memory μ}
    {h before after : History (Run μ)} {e : Event (Run μ)} {stage : Stage μ}
    (hexit : Exit i commands t m h stage) (hh : h = before ++ e :: after)
    (he : e.1 ≠ .stopRequested) (hasked : poll false ∉ after) :
    ∃ (s : Step μ) (rest : List Command), commands = s.command :: rest ∧
      before = [poll false] ∧ e = s.event ∧ Halts after stage := by
  cases hexit with
  | finished => simp at hh
  | halted => exact absurd hh (poll_ne_split he)
  | @stopped s rest =>
      obtain ⟨rfl, rfl, rfl⟩ := split_between_polls he (by simp) hh
      exact ⟨s, rest, rfl, rfl, rfl, by simp, _, _, rfl⟩
  | @haltedAfter s rest =>
      obtain ⟨rfl, rfl, rfl⟩ := split_between_polls he (by simp [poll]) hh
      exact ⟨s, rest, rfl, rfl, rfl, by simp [poll], _, _, rfl⟩
  | dataEnd | skipped | aborted =>
      -- These exits are behind a question that was answered with no.
      obtain ⟨-, -, rfl⟩ := split_between_polls he (by simp [poll]) hh
      exact absurd (List.mem_cons_self ..) hasked

/-- If a stop is requested while a command of an iteration is under way, the run is stopped behind it,
or the command is the last one of the iteration and succeeds. -/
theorem playCommands_inFlight {i : Nat} {commands : List Command} {t : Tally} {m : Memory μ}
    {before after : History (Run μ)} {e : Event (Run μ)} {stage : Stage μ}
    (hrun : (playCommands i commands t m).Runs (before ++ e :: after) stage)
    (he : e.1 ≠ .stopRequested) (hasked : poll false ∉ after) :
    ∃ (passed : List (Step μ)) (s : Step μ) (rest : List Command),
      commands = passed.map Step.command ++ s.command :: rest ∧
      before = passed.flatMap Step.calls ++ [poll false] ∧ e = s.event ∧
      (Halts after stage ∨ Finishes s rest after stage) := by
  induction commands generalizing t m before with
  | nil =>
      have hnone := (Proc.runs_done_iff.1 hrun).1
      simp at hnone
  | cons c commands ih =>
      -- The call under way is at an exit, in the calls of this command, or behind them.
      rcases runs_playCommands_cons hrun with hexit | ⟨s, h', rfl, rfl, hpass, hsplit, hrest⟩
      · rcases hexit.inFlight rfl he hasked with ⟨s, rest, hcommands, rfl, rfl, hhalts⟩
        exact ⟨[], s, rest, hcommands, rfl, rfl, .inl hhalts⟩
      · rcases append_split hsplit.symm with ⟨after₁, hcalls, rfl⟩ | ⟨before₂, rfl, rfl⟩
        · -- The command under way is this one, and the run goes on behind it: it succeeded.
          have hok : s.result.success = true := by
            rw [← Bool.not_eq_false]
            intro hfailed
            rw [Step.calls_of_failure hfailed] at hcalls
            obtain ⟨-, -, rfl⟩ := split_between_polls he (by simp [poll]) hcalls
            exact hasked (by simp)
          rw [Step.calls_of_success hok] at hcalls
          obtain ⟨rfl, rfl, rfl⟩ := split_between_polls he (by simp) hcalls
          refine ⟨[], s, commands, rfl, rfl, rfl, ?_⟩
          cases commands with
          | nil =>
              obtain ⟨rfl, rfl⟩ := Proc.runs_done_iff.1 hrest
              exact .inr ⟨hok, rfl, rfl, _, _, rfl⟩
          | cons next commands =>
              obtain ⟨rfl, rfl⟩ := playCommands_halts hrest hasked
              exact .inl ⟨by simp [poll], _, _, rfl⟩
        · rcases ih hrest with ⟨passed, s', rest, hcommands, rfl, rfl, hends⟩
          exact ⟨s :: passed, s', rest, by simp [hcommands], by simp, rfl, hends⟩

def EndOfData (report : LoadReport) : Prop :=
  report = .exhausted ∨ report = .failed .datasourceEnd

/-- A run that ends with this tally, its stop being requested while a row was loaded: it is stopped if
the row was there, and completed only at the end of the data. -/
structure HeedsRow (report : LoadReport) (t : Tally) : Prop where
  loaded : report = .loaded → ∃ t₀, t = Tally.stop t₀
  completed : t.state = .completed → EndOfData report

/-- Behind the row under way the run only asks whether to stop, and then it is over. -/
structure EndsAtRow (report : LoadReport) (after : History (Run μ)) (stage : Stage μ) : Prop where
  onlyAsks : ∀ x ∈ after, x.1 = .stopRequested
  isOver : ∃ t m, stage = .over t m ∧ HeedsRow report t

/-- A run that halts behind a row is stopped, whatever the row was. -/
theorem Halts.endsAtRow {after : History (Run μ)} {stage : Stage μ} (hhalts : Halts after stage)
    (report : LoadReport) : EndsAtRow report after stage := by
  rcases hhalts.isStop with ⟨t, m, rfl⟩
  exact ⟨hhalts.onlyAsks, _, m, rfl, fun _ => ⟨t, rfl⟩, nofun⟩

/-- A run that ends before the commands of an iteration ends while their row is loaded. -/
theorem Refusal.inFlight {hasDatasource : Bool} {i : Nat} {t : Tally} {m : Memory μ}
    {h before after : History (Run μ)} {e : Event (Run μ)} {stage : Stage μ}
    (hrefusal : Refusal hasDatasource i t m h stage) (hh : h = before ++ e :: after)
    (he : e.1 ≠ .stopRequested) :
    ∃ j m' report vars, e = loading j m' report vars ∧ EndsAtRow report after stage := by
  cases hrefusal with
  | halted => exact absurd hh (poll_ne_split he)
  | exhausted _ hreport =>
      obtain ⟨-, rfl, rfl⟩ := split_between_polls he (by simp) hh
      refine ⟨_, _, _, _, rfl, by simp, _, _, rfl, ?_, fun _ => hreport⟩
      rintro rfl
      simp at hreport
  | failed | faulted =>
      obtain ⟨-, rfl, rfl⟩ := split_between_polls he (by simp) hh
      exact ⟨_, _, _, _, rfl, by simp, _, _, rfl, nofun, nofun⟩

/-- If a stop is requested during an iteration, a command of it is under way, or its row is loaded. -/
theorem playIteration_inFlight {commands : List Command} {hasDatasource : Bool} {i : Nat}
    {t : Tally} {m : Memory μ} {before after : History (Run μ)} {e : Event (Run μ)}
    {stage : Stage μ} (hcommands : commands ≠ [])
    (hrun : (playIteration commands hasDatasource i t m).Runs (before ++ e :: after) stage)
    (he : e.1 ≠ .stopRequested) (hasked : poll false ∉ after) :
    (∃ (round : Round μ) (rest : List Command) (s : Step μ), e = s.event ∧
      Position.Dispatches ⟨[], round, rest⟩ commands hasDatasource before s ∧
      (Halts after stage ∨ Finishes s rest after stage)) ∨
    ∃ j m' report vars, e = loading j m' report vars ∧ EndsAtRow report after stage := by
  rcases runs_playIteration hrun with hrefusal | ⟨h₁, h₂, m₁, hopening, hsplit, hplay⟩
  · exact .inr (hrefusal.inFlight rfl he)
  · rcases append_split hsplit.symm with ⟨after₁, hh₁, rfl⟩ | ⟨before₂, rfl, rfl⟩
    · -- The row was loaded, and the first command asks whether to stop.
      have hasked₂ : poll false ∉ h₂ := fun hmem => hasked (List.mem_append_right _ hmem)
      have hhalts : Halts h₂ stage := by
        cases commands with
        | nil => exact absurd rfl hcommands
        | cons c rest =>
            obtain ⟨rfl, rfl⟩ := playCommands_halts hplay hasked₂
            exact ⟨by simp [poll], _, _, rfl⟩
      cases hopening with
      | plain => exact absurd hh₁ (poll_ne_split he)
      | row =>
          obtain ⟨-, rfl, rfl⟩ := split_between_polls he (by simp) hh₁
          exact .inr ⟨_, _, _, _, rfl, hhalts.endsAtRow _⟩
    · rcases playCommands_inFlight hplay he hasked with ⟨passed, s, rest, rfl, rfl, rfl, hends⟩
      refine .inl ⟨⟨h₁, passed⟩, rest, s, rfl, ?_, hends⟩
      refine ⟨by simp [Round.calls], by simp, ⟨⟨i, m, m₁, hopening⟩, ?_⟩, rfl⟩
      exact List.prefix_append ..

/-- An iteration that the run goes on after is a round. -/
theorem round_of_goesOn {commands : List Command} {hasDatasource : Bool} {i : Nat} {t t' : Tally}
    {m m' : Memory μ} {h : History (Run μ)}
    (hrun : (playIteration commands hasDatasource i t m).Runs h (.goesOn t' m')) :
    ∃ round : Round μ, h = round.calls ∧ round.Plays commands hasDatasource := by
  rcases runs_playIteration hrun with hrefusal | ⟨h₁, h₂, m₁, hopening, rfl, hplay⟩
  · nomatch hrefusal
  · rcases runs_playCommands hplay with ⟨passed, rest, m₂, h₃, rfl, -, -, rfl, hexit⟩
    cases hexit with
    | finished =>
        exact ⟨⟨h₁, passed⟩, by simp [Round.calls], ⟨i, m, m₁, hopening⟩, by simp⟩
    | @skipped s rest _ hfailed _ =>
        refine ⟨⟨h₁, passed ++ [s]⟩, ?_, ⟨i, m, m₁, hopening⟩, by simp⟩
        simp [Round.calls, Step.calls_of_failure hfailed]

/-- A round that is played before a position is one more of its rounds. -/
theorem Position.Dispatches.later {p : Position μ} {commands : List Command}
    {hasDatasource : Bool} {before : History (Run μ)} {s : Step μ} {round : Round μ}
    (hround : round.Plays commands hasDatasource)
    (hdispatches : p.Dispatches commands hasDatasource before s) :
    Position.Dispatches { p with rounds := round :: p.rounds } commands hasDatasource
      (round.calls ++ before) s where
  arrives := by simp [hdispatches.arrives]
  played := List.forall_mem_cons.2 ⟨hround, hdispatches.played⟩
  current := hdispatches.current
  commands_eq := hdispatches.commands_eq

/-- What becomes of the call under way, over the iterations that are left. -/
def Resolves (commands : List Command) (hasDatasource : Bool) (left : Nat)
    (before : History (Run μ)) (e : Event (Run μ)) (t : Tally) : Prop :=
  (∃ (p : Position μ) (s : Step μ), e = s.event ∧ p.Dispatches commands hasDatasource before s ∧
    ((∃ t₀, t = Tally.stop t₀) ∨
      s.result.success = true ∧ p.rest = [] ∧ p.rounds.length + 1 = left)) ∨
  ∃ j m report vars, e = loading j m report vars ∧ HeedsRow report t

/-- How a run resolves does not depend on the rounds played before. -/
theorem Resolves.later {commands : List Command} {hasDatasource : Bool} {left : Nat}
    {before : History (Run μ)} {e : Event (Run μ)} {t : Tally} {round : Round μ}
    (hround : round.Plays commands hasDatasource)
    (hresolves : Resolves commands hasDatasource left before e t) :
    Resolves commands hasDatasource (left + 1) (round.calls ++ before) e t := by
  rcases hresolves with ⟨p, s, rfl, hdispatches, hends⟩ | hrow
  · refine .inl ⟨_, s, rfl, hdispatches.later hround, ?_⟩
    rcases hends with hstop | ⟨hok, hrest, hlast⟩
    · exact .inl hstop
    · exact .inr ⟨hok, hrest, congrArg (· + 1) hlast⟩
  · exact .inr hrow

/-- If a stop is requested during an iteration, no further one begins. The induction is on the
iterations left: the call under way is in the first one or in a later one. -/
theorem playIterations_inFlight {commands : List Command} {hasDatasource : Bool} {left i : Nat}
    {t t' : Tally} {m m' : Memory μ} {before after : History (Run μ)} {e : Event (Run μ)}
    (hcommands : commands ≠ [])
    (hrun : (playIterations commands hasDatasource left i t m).Runs (before ++ e :: after) (t', m'))
    (he : e.1 ≠ .stopRequested) (hasked : poll false ∉ after) :
    (∀ x ∈ after, x.1 = .stopRequested) ∧
      Resolves commands hasDatasource left before e t' := by
  induction left generalizing i t m before with
  | zero =>
      have hnone := (Proc.runs_done_iff.1 hrun).1
      simp at hnone
  | succ left ih =>
      rcases runs_playIterations_succ hrun with hover | ⟨h₁, h₂, t₁, m₁, hsplit, hfirst, hothers⟩
      · -- The call under way belongs to the iteration that ends the run.
        rcases playIteration_inFlight hcommands hover he hasked with
          ⟨round, rest, s, rfl, hdispatches, hhalts | hfinishes⟩ | ⟨j, m₁, report, vars, rfl, hrow⟩
        · rcases hhalts.isStop with ⟨t₀, m₀, hstage⟩
          cases hstage
          exact ⟨hhalts.onlyAsks, .inl ⟨_, s, rfl, hdispatches, .inl ⟨t₀, rfl⟩⟩⟩
        · rcases hfinishes.goesOn with ⟨_, _, hstage⟩
          nomatch hstage
        · rcases hrow.isOver with ⟨t₁, m₂, hstage, hend⟩
          cases hstage
          exact ⟨hrow.onlyAsks, .inr ⟨j, m₁, report, vars, rfl, hend⟩⟩
      · rcases append_split hsplit.symm with ⟨after₁, rfl, rfl⟩ | ⟨before₂, rfl, rfl⟩
        · rcases playIteration_inFlight hcommands hfirst he
              (fun hmem => hasked (List.mem_append_left _ hmem)) with
            ⟨round, rest, s, rfl, hdispatches, hhalts | hfinishes⟩ |
            ⟨j, m₁, report, vars, rfl, hrow⟩
          · -- A stopped iteration is not one that the run goes on after.
            rcases hhalts.isStop with ⟨_, _, hstage⟩
            nomatch hstage
          · -- The last command of the iteration succeeded: the next one asks before it begins.
            have hasked₂ : poll false ∉ h₂ := fun hmem => hasked (List.mem_append_right _ hmem)
            rw [hfinishes.quiet, List.nil_append]
            cases left with
            | zero =>
                rcases Proc.runs_done_iff.1 hothers with ⟨rfl, -⟩
                refine ⟨by simp, .inl ⟨_, s, rfl, hdispatches, .inr ?_⟩⟩
                exact ⟨hfinishes.succeeds, hfinishes.isLast, rfl⟩
            | succ left =>
                obtain ⟨rfl, rfl⟩ := playIterations_halts hothers hasked₂
                exact ⟨by simp [poll], .inl ⟨_, s, rfl, hdispatches, .inl ⟨t₁, rfl⟩⟩⟩
          · rcases hrow.isOver with ⟨_, _, hstage, -⟩
            nomatch hstage
        · -- The call under way belongs to a later iteration, and this one is a round before it.
          rcases round_of_goesOn hfirst with ⟨round, rfl, hround⟩
          rcases ih hothers with ⟨honly, hresolves⟩
          exact ⟨honly, hresolves.later hround⟩

/-! ## Whole runs -/

/-- A stop is requested between these calls: while the last call before is under way, or before the
first one. The question whether to stop is answered at once, so it is never under way then. -/
structure StopBetween (before after : History (Run μ)) : Prop where
  underWay : ∀ b e, before = b ++ [e] → e.1 ≠ .stopRequested
  asked : poll false ∉ after

/-- The command was the last one of the last iteration, and it succeeded. -/
def FinishesRun (setup : Setup η) (p : Position μ) (s : Step μ) : Prop :=
  s.result.success = true ∧ p.rest = [] ∧ p.rounds.length + 1 = max 1 setup.loops

/-- The run heeds the stop that was requested between these calls. -/
structure HeedsStop (setup : Setup η) (before after : History (Run μ)) (r : RunResult) : Prop where
  /-- No command is dispatched any more, and no row loaded. -/
  noWork : ∀ x ∈ after, x.1.isWork = false
  /-- If a command was under way that then failed, or that was not the last one of the last
  iteration, the run is stopped. -/
  command : ∀ b s, before = b ++ [Step.event s] → ∃ p : Position μ,
    p.Dispatches setup.script.commands setup.hasDatasource b s ∧
      (s.result.success = false ∨ p.rest ≠ [] ∨ p.rounds.length + 1 < max 1 setup.loops →
        IsStopped r)
  /-- If a row was under way that then was there, the run is stopped. -/
  row : ∀ b i m vars, before = b ++ [loading i m .loaded vars] → IsStopped r
  /-- The run is completed only if the last command of the last iteration was under way, or a row was
  loaded that is not there, or the commands were over. -/
  completed : r.state = .completed → ∃ b e, before = b ++ [e] ∧
    ((∃ (p : Position μ) (s : Step μ), e = s.event ∧
      p.Dispatches setup.script.commands setup.hasDatasource b s ∧ FinishesRun setup p s) ∨
    (∃ i m report vars, e = loading i m report vars ∧ EndOfData report) ∨
    e.1.isClosing = true)

/-- A command, its memory and its outcome can be read off the event. -/
theorem Step.event_injective {s s' : Step μ} (h : s.event = s'.event) : s = s' := by
  cases s
  cases s'
  cases h
  rfl

theorem report_eq_of_loading_eq {i i' : Nat} {m m' : Memory μ} {report report' : LoadReport}
    {vars vars' : Store} (h : loading i m report vars = loading i' m' report' vars') :
    report = report' := by
  have hreply : (report, vars) = (report', vars') := eq_of_heq (Sigma.mk.inj h).2
  exact congrArg Prod.fst hreply

/-- A tally that was stopped gives a result that says so. -/
theorem Tally.isStopped_stop_result (t : Tally) (name : String) (vars : Store) :
    IsStopped (t.stop.result name vars) :=
  ⟨rfl, rfl, rfl⟩

theorem Call.isWork_of_isClosing {c : Call μ} (h : c.isClosing = true) : c.isWork = false := by
  cases c with
  | cleanUp | append => rfl
  | stopRequested | load | dispatch => nomatch h

/-- The call under way is resolved as the run has to resolve it. -/
theorem Resolves.heedsStop {setup : Setup η} {b after : History (Run μ)} {e : Event (Run μ)}
    {t : Tally} {vars : Store} (hnoWork : ∀ x ∈ after, x.1.isWork = false)
    (hresolves : Resolves setup.script.commands setup.hasDatasource (max 1 setup.loops) b e t) :
    HeedsStop setup (b ++ [e]) after (t.result setup.script.name vars) := by
  rcases hresolves with ⟨p, s, rfl, hdispatches, hends⟩ | ⟨i, m, report, row, rfl, hheeds⟩
  · refine ⟨hnoWork, ?_, ?_, ?_⟩
    · intro b' s' hbefore
      obtain ⟨rfl, hevent⟩ := List.append_inj' hbefore rfl
      obtain rfl := Step.event_injective (List.cons.inj hevent).1
      refine ⟨p, hdispatches, fun hunfinished => ?_⟩
      rcases hends with ⟨t₀, rfl⟩ | ⟨hok, hrest, hlast⟩
      · exact t₀.isStopped_stop_result ..
      · -- A run that was not stopped has dispatched the last command of its last iteration, and
        -- that succeeded.
        rcases hunfinished with hfailed | hothers | hmore
        · simp [hok] at hfailed
        · exact absurd hrest hothers
        · omega
    · intro b' i m row hbefore
      nomatch (List.append_inj' hbefore rfl).2
    · intro hcompleted
      rcases hends with ⟨t₀, rfl⟩ | hfinishes
      · nomatch hcompleted
      · exact ⟨b, _, rfl, .inl ⟨p, s, rfl, hdispatches, hfinishes⟩⟩
  · refine ⟨hnoWork, ?_, ?_, fun hcompleted => ?_⟩
    · intro b' s' hbefore
      nomatch (List.append_inj' hbefore rfl).2
    · intro b' i' m' row' hbefore
      obtain ⟨-, hevent⟩ := List.append_inj' hbefore rfl
      have hloaded := report_eq_of_loading_eq (List.cons.inj hevent).1
      rcases hheeds.loaded hloaded with ⟨t₀, rfl⟩
      exact t₀.isStopped_stop_result ..
    · exact ⟨b, _, rfl, .inr (.inl ⟨i, m, report, row, rfl, hheeds.completed hcompleted⟩)⟩

/-- A run of a script with commands heeds a stop, whenever it is requested: before the first call of the
run or during any of its calls, whatever the calls then reply. -/
theorem heedsStop_of_runs_plan {setup : Setup η} {m m' : Memory μ}
    {before after : History (Run μ)} {r : RunResult} (hcommands : setup.script.commands ≠ [])
    (hrun : (plan setup m).Runs (before ++ after) (r, m')) (hstop : StopBetween before after) :
    HeedsStop setup before after r := by
  rcases runs_plan hrun with ⟨h₁, h₂, t, m₁, hsplit, hplay, hclosing, rfl, -⟩
  have hclosed : ∀ x ∈ h₂, x.1.isWork = false := fun x hx =>
    Call.isWork_of_isClosing (hclosing x hx)
  have hasks {h : History (Run μ)} (hpolls : ∀ x ∈ h, x.1 = .stopRequested) :
      ∀ x ∈ h, x.1.isWork = false := by
    intro x hx
    rw [hpolls x hx]
    rfl
  rcases List.eq_nil_or_concat before with rfl | ⟨b, e, hbefore⟩
  · -- The stop was requested before the first question: it is answered with yes.
    obtain ⟨left, hleft⟩ := Nat.exists_eq_succ_of_ne_zero (by omega : max 1 setup.loops ≠ 0)
    rw [hleft] at hplay
    rw [List.nil_append] at hsplit
    subst hsplit
    have hasked : poll false ∉ h₁ := fun hmem => hstop.asked (List.mem_append_left _ hmem)
    obtain ⟨rfl, rfl⟩ := playIterations_halts hplay hasked
    refine ⟨List.forall_mem_append.2 ⟨hasks (by simp [poll]), hclosed⟩, ?_, ?_, nofun⟩
    · intro b s hnil
      simp at hnil
    · intro b i m row hnil
      simp at hnil
  · rw [List.concat_eq_append] at hbefore
    subst hbefore
    have he := hstop.underWay b e rfl
    rw [List.append_assoc, List.singleton_append] at hsplit
    rcases append_split hsplit.symm with ⟨after₁, rfl, rfl⟩ | ⟨b₂, rfl, rfl⟩
    · have hasked : poll false ∉ after₁ := fun hmem => hstop.asked (List.mem_append_left _ hmem)
      rcases playIterations_inFlight hcommands hplay he hasked with ⟨honly, hresolves⟩
      exact hresolves.heedsStop (List.forall_mem_append.2 ⟨hasks honly, hclosed⟩)
    · -- The iterations are over.
      have hecloses : e.1.isClosing = true := hclosing e (by simp)
      refine ⟨fun x hx => hclosed x (by simp [hx]), ?_, ?_, fun _ => ?_⟩
      · intro b' s' hbefore
        obtain ⟨-, hevent⟩ := List.append_inj' hbefore rfl
        rw [(List.cons.inj hevent).1] at hecloses
        nomatch hecloses
      · intro b' i' m' row' hbefore
        obtain ⟨-, hevent⟩ := List.append_inj' hbefore rfl
        rw [(List.cons.inj hevent).1] at hecloses
        nomatch hecloses
      · exact ⟨_, e, rfl, .inr (.inr hecloses)⟩

def rowsSetup : Setup Unit where
  script := ⟨"rows", [⟨"FIRST", [], "FIRST", 1, none⟩, ⟨"SECOND", [], "SECOND", 2, none⟩]⟩
  loops := 2
  hasDatasource := true
  hasSink := false
  cleanup := Cleanup.empty

def ignoring : Memory Unit := ⟨⟨[("!ERRORIGNORE", .text "YES")], [], false⟩, ()⟩

/-- The second command of the first iteration is under way when the stop is requested, and then reports
the end of the data. -/
def rowsBefore : History (Run Unit) :=
  [poll false, loading 1 { ignoring with vars := ignoring.vars.beginRun } .loaded ignoring.vars] ++
    Step.calls ⟨⟨"FIRST", [], "FIRST", 1, none⟩, ignoring, ⟨.ok, ignoring, 0, .zero⟩⟩ ++
    [poll false, Step.event ⟨⟨"SECOND", [], "SECOND", 2, none⟩, ignoring,
      ⟨.failure .datasourceEnd "", ignoring, 0, .zero⟩⟩]

theorem heedsStop_rows :
    rowsSetup.script.commands ≠ [] ∧
      (plan rowsSetup ignoring).Runs (rowsBefore ++ [poll true])
        (Tally.start.stop.result "rows" ignoring.vars, ignoring) ∧
      StopBetween rowsBefore [poll true] ∧
      HeedsStop rowsSetup rowsBefore [poll true]
        (Tally.start.stop.result "rows" ignoring.vars) := by
  have hcommands : rowsSetup.script.commands ≠ [] := by simp [rowsSetup]
  have hrun : (plan rowsSetup ignoring).Runs (rowsBefore ++ [poll true])
      (Tally.start.stop.result "rows" ignoring.vars, ignoring) :=
    .call _ (.call _ (.call _ (.call _ (.call _ (.call _ (.call _ (.done _)))))))
  have hstop : StopBetween rowsBefore [poll true] := by
    refine ⟨fun b e hbefore => ?_, by simp [poll]⟩
    rw [rowsBefore, List.append_cons _ (poll false)] at hbefore
    cases (List.append_inj' hbefore rfl).2
    simp [Step.event]
  exact ⟨hcommands, hrun, hstop, heedsStop_of_runs_plan hcommands hrun hstop⟩

end Run
end MacroReplay
