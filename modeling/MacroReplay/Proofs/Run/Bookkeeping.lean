import MacroReplay.Proofs.Engine.Execution
import MacroReplay.Proofs.Handler.Dispatch
import MacroReplay.Proofs.Proc.Contract
import MacroReplay.Proofs.Run.ErrorPolicy
import MacroReplay.Proofs.Run.StopSafety
import MacroReplay.Session

/-!
# The books of a run

A run keeps a tally of what it has come to, and its result is read off the tally at the end. A run may
end in many ways: after its last iteration, at a request to stop, at the end of the data, with a row that
could not be loaded, at a fault, with a failed command. This module shows that the entries of the tally
agree with each other and with the history of the run, whichever of these ends it.

* `CommandResult.Honest`, `Registry.Honest` — success goes with the code `OK` and with no other;
* `Tally.Ongoing` — the tally of a run that goes on, which every command and every iteration keeps;
* `IsCounted` — the iterations that came to the end of the script or were cut short by `!ERRORLOOP`;
* `tallied_playIterations` — what the tally says at the end, by induction on the iterations;
* `Bindings.find?_sortedByName` — what a snapshot says of a name;
* `balanced_of_honest` — the result of a run, its status and what a session keeps of it.
-/

namespace MacroReplay

/-! ## Honest results -/

/-- The result succeeds if and only if its code says so. -/
def CommandResult.Honest (r : CommandResult) : Prop :=
  r.success = true ↔ r.code = .ok

/-- An honest failure has a code of its own. -/
theorem CommandResult.Honest.code_ne_ok {r : CommandResult} (hr : r.Honest)
    (hfailed : r.success = false) : r.code ≠ .ok := by
  intro hcode
  have hok : r.success = true := hr.2 hcode
  rw [hfailed] at hok
  cases hok

/-- No error has the code of a success. -/
theorem CommandError.code_ne_ok (e : CommandError) : e.code ≠ .ok := by
  cases e <;> nofun

theorem CommandResult.honest_failure {c : ErrorCode} (hc : c ≠ .ok) (message : String) :
    (CommandResult.failure c message).Honest := by
  constructor
  · intro hok
    nomatch hok
  · intro hcode
    exact absurd hcode hc

namespace Registry

variable {ι : Interface} {μ : Type}

/-- Every result with which a handler finishes is honest. -/
def Honest (r : Registry ι μ) : Prop :=
  ∀ name handler, r.find? name = some handler → ∀ ctx h result m,
    (handler ctx).Runs h (.finished result, m) → result.Honest

/-- Malformed lines, unknown commands, errors and faults give honest results by themselves. -/
theorem Honest.dispatch {r : Registry ι μ} (hr : r.Honest) {ctx : Context μ}
    {h : History (Timed ι)} {result : CommandResult} {m : Memory μ}
    (hrun : (r.dispatch ctx).Runs h (result, m)) : result.Honest := by
  cases hflaw : ctx.invocation.command.flaw with
  | some flaw =>
      simp only [Registry.dispatch, hflaw] at hrun
      have hend := (Proc.runs_done_iff.1 hrun).2
      cases hend
      exact CommandResult.honest_failure (by decide) _
  | none =>
      cases hfind : r.find? ctx.invocation.command.name with
      | none =>
          simp only [Registry.dispatch, hflaw, hfind] at hrun
          have hend := (Proc.runs_done_iff.1 hrun).2
          cases hend
          exact ⟨fun _ => rfl, fun _ => rfl⟩
      | some handler =>
          rw [dispatch_of_found ctx hflaw hfind] at hrun
          rcases Proc.runs_bind_iff.1 hrun with ⟨h₁, h₂, ⟨report, m'⟩, rfl, hhandled, hdone⟩
          have hend := (Proc.runs_done_iff.1 hdone).2
          cases hend
          cases report with
          | finished result => exact hr _ _ hfind _ _ _ _ hhandled
          | failed e => exact CommandResult.honest_failure e.code_ne_ok _
          | faulted f => exact CommandResult.honest_failure (c := .scriptError) (by decide) _

/-- The report of a handler that finishes with `OK` or not at all. -/
def FinishesOk : Report × Memory μ → Prop
  | (.finished result, _) => result = .ok
  | _ => True

/-- The built-in handlers are honest. -/
theorem honest_builtin : (builtin : Registry ι μ).Honest := by
  -- Each handler reports success wherever it finishes.
  have hset : ∀ ctx : Context μ,
      (Assign.setHandler ctx : Proc (Timed ι) _).Obeys (fun _ => True) FinishesOk := by
    intro ctx
    unfold Assign.setHandler Context.withValue
    split
    · rfl
    · trivial
  have hadd : ∀ ctx : Context μ,
      (Assign.addHandler ctx : Proc (Timed ι) _).Obeys (fun _ => True) FinishesOk := by
    intro ctx
    unfold Assign.addHandler Context.withValue
    split
    · rfl
    · trivial
  have hwait : ∀ ctx : Context μ,
      (Wait.handler ctx : Proc (Timed ι) _).Obeys (fun _ => True) FinishesOk := by
    intro ctx
    unfold Wait.handler Context.withValue
    split
    · refine ⟨trivial, ?_⟩
      rintro ⟨took, stopped⟩
      cases stopped with
      | true => trivial
      | false => rfl
    · trivial
  intro name handler hfind ctx h result m hrun
  have hobeys : (handler ctx).Obeys (fun _ => True) FinishesOk := by
    rcases cases_of_find?_builtin hfind with rfl | rfl | rfl
    · exact hset ctx
    · exact hadd ctx
    · exact hwait ctx
  have hok : result = .ok := (hobeys.of_runs hrun).2
  rw [hok]
  exact ⟨fun _ => rfl, fun _ => rfl⟩

end Registry

namespace Run

variable {μ η : Type}

/-! ## The tally of a run that goes on -/

/-- Nothing has ended the run, and this many iterations are behind it. -/
structure Tally.Ongoing (t : Tally) (loops : Nat) : Prop where
  state_eq : t.state = .completed
  code_eq : t.code = .ok
  failedLine_eq : t.failedLine = none
  loops_eq : t.loops = loops

theorem Tally.ongoing_start : Tally.start.Ongoing 0 :=
  ⟨rfl, rfl, rfl, rfl⟩

theorem Tally.Ongoing.noted {t : Tally} {n : Nat} (ht : t.Ongoing n) (s : Step μ) :
    (t.noted s).Ongoing n := by
  obtain ⟨records, hnoted⟩ := noted_eq t s
  rw [hnoted]
  exact ⟨ht.state_eq, ht.code_eq, ht.failedLine_eq, ht.loops_eq⟩

/-- A command that passes leaves the tally open. -/
theorem Tally.Ongoing.after {t : Tally} {n : Nat} (ht : t.Ongoing n) (s : Step μ) :
    (t.after s).Ongoing n := by
  obtain ⟨records, hafter⟩ := after_eq t s
  rw [hafter]
  exact ⟨ht.state_eq, ht.code_eq, ht.failedLine_eq, ht.loops_eq⟩

theorem Tally.Ongoing.foldl_after {t : Tally} {n : Nat} (ht : t.Ongoing n) (steps : List (Step μ)) :
    (steps.foldl Tally.after t).Ongoing n := by
  induction steps generalizing t with
  | nil => exact ht
  | cons s steps ih => exact ih (ht.after s)

theorem Tally.Ongoing.counted {t : Tally} {n : Nat} (ht : t.Ongoing n) (i : Nat) :
    { t with loops := i }.Ongoing i :=
  ⟨ht.state_eq, ht.code_eq, ht.failedLine_eq, rfl⟩

/-! ## Iterations that count -/

/-- A failure that ends an iteration that counts is one that `!ERRORIGNORE` or `!ERRORLOOP` covers. -/
theorem Counts.of_failed {commands : List Command} {passed : List (Step μ)} {s : Step μ}
    (hcounts : Counts commands (passed ++ [s])) (hfailed : s.result.success = false) :
    s.result.code ≠ .stopped ∧ s.result.code ≠ .datasourceEnd ∧ policy s.left ≠ .abort := by
  generalize hsteps : passed ++ [s] = steps at hcounts
  cases hcounts with
  | finished _ hpassed =>
      rcases hpassed s (by simp [← hsteps]) with hok | ⟨hstopped, hend, hpolicy⟩
      · rw [hfailed] at hok
        cases hok
      · exact ⟨hstopped, hend, by simp [hpolicy]⟩
  | skipped _ _ _ hstopped hend hpolicy =>
      obtain ⟨-, hlast⟩ := List.append_inj' hsteps rfl
      cases hlast
      exact ⟨hstopped, hend, by simp [hpolicy]⟩

/-- The calls of an iteration that counts. -/
def IsCounted (commands : List Command) (hasDatasource : Bool) (h : History (Run μ)) : Prop :=
  ∃ (i : Nat) (m m' : Memory μ) (opening : History (Run μ)) (steps : List (Step μ)),
    Opening hasDatasource i m opening m' ∧ Counts commands steps ∧
      h = opening ++ steps.flatMap Step.calls

/-- The calls of one iteration of a run, however it ended. -/
def IsIteration (commands : List Command) (hasDatasource : Bool) (h : History (Run μ)) : Prop :=
  ∃ (i : Nat) (t : Tally) (m : Memory μ) (stage : Stage μ),
    (playIteration commands hasDatasource i t m).Runs h stage

@[simp]
theorem dispatched_nil : dispatched ([] : History (Run μ)) = [] := rfl

@[simp]
theorem dispatched_poll_cons (stop : Bool) (h : History (Run μ)) :
    dispatched (poll stop :: h) = dispatched h := rfl

@[simp]
theorem dispatched_event_cons (s : Step μ) (h : History (Run μ)) :
    dispatched (s.event :: h) = s :: dispatched h := rfl

@[simp]
theorem dispatched_loading_cons (i : Nat) (m : Memory μ) (report : LoadReport) (vars : Store)
    (h : History (Run μ)) : dispatched (loading i m report vars :: h) = dispatched h := rfl

/-- No command is dispatched while an iteration is opened. -/
theorem dispatched_opening {hasDatasource : Bool} {i : Nat} {m m' : Memory μ}
    {h : History (Run μ)} (hopening : Opening hasDatasource i m h m') : dispatched h = [] := by
  cases hopening <;> simp

/-- The calls of an iteration that counts: no stop is seen, and its row is there. -/
theorem IsCounted.calls {commands : List Command} {hasDatasource : Bool} {h : History (Run μ)}
    (hcounted : IsCounted commands hasDatasource h) :
    Counts commands (dispatched h) ∧ poll true ∉ h ∧
      ∀ i m report vars, loading i m report vars ∈ h → report = .loaded := by
  obtain ⟨i, m, m', opening, steps, hopening, hcounts, rfl⟩ := hcounted
  -- Behind the opening there are only commands, and polls that say no.
  have hsteps : ∀ e ∈ steps.flatMap Step.calls, e = poll false ∨ ∃ s : Step μ, e = s.event := by
    intro e he
    obtain ⟨s, -, hs⟩ := List.mem_flatMap.1 he
    unfold Step.calls at hs
    split at hs
    · simp only [List.mem_cons, List.not_mem_nil, or_false] at hs
      exact hs.imp id fun h => ⟨s, h⟩
    · simp only [List.mem_cons, List.not_mem_nil, or_false] at hs
      rcases hs with rfl | rfl | rfl
      · exact .inl rfl
      · exact .inr ⟨s, rfl⟩
      · exact .inl rfl
  refine ⟨?_, ?_, ?_⟩
  · rw [dispatched_append, dispatched_opening hopening, dispatched_flatMap_calls]
    exact hcounts
  · intro hmem
    rcases List.mem_append.1 hmem with hmem | hmem
    · cases hopening <;> simp [poll, loading] at hmem
    · rcases hsteps _ hmem with h | ⟨s, h⟩
      · simp [poll] at h
      · simp [poll, Step.event] at h
  · intro j m₁ report vars hmem
    rcases List.mem_append.1 hmem with hmem | hmem
    · cases hopening with
      | plain => simp [poll, loading] at hmem
      | row =>
          rcases List.mem_cons.1 hmem with h | h
          · simp [poll, loading] at h
          · exact report_eq_of_loading_eq (List.mem_singleton.1 h)
    · rcases hsteps _ hmem with h | ⟨s, h⟩
      · simp [poll, loading] at h
      · simp [loading, Step.event] at h

/-! ## An iteration that the run goes on after -/

/-- A failure behind which the run goes on was neither a stop nor the end of the data. -/
theorem codes_of_afterFailure {i : Nat} {rest : List Command} {t t' : Tally} {s : Step μ}
    {m' : Memory μ} {h : History (Run μ)}
    (hrun : (afterFailure i rest t s).Runs h (.goesOn t' m')) :
    s.result.code ≠ .stopped ∧ s.result.code ≠ .datasourceEnd := by
  unfold afterFailure at hrun
  constructor
  · intro hstopped
    rw [if_pos hstopped] at hrun
    nomatch (Proc.runs_done_iff.1 hrun).2
  · intro hend
    rw [if_neg (by simp [hend])] at hrun
    rcases Proc.runs_call_iff.1 hrun with ⟨stop, h', rfl, hasked⟩
    cases stop with
    | true => nomatch (Proc.runs_done_iff.1 hasked).2
    | false =>
        rw [if_neg Bool.false_ne_true, if_pos hend] at hasked
        nomatch (Proc.runs_done_iff.1 hasked).2

/-- A run that dispatches a command which fails goes on as it does after a failure. -/
theorem runs_afterFailure_of_calls {i : Nat} {rest : List Command} {t : Tally} {s : Step μ}
    {stage : Stage μ} {h : History (Run μ)} (hfailed : s.result.success = false)
    (hrun : (playCommands i (s.command :: rest) t s.before).Runs (poll false :: s.event :: h) stage) :
    (afterFailure i rest t s).Runs h stage := by
  rw [playCommands_cons] at hrun
  rcases Proc.runs_call_iff.1 hrun with ⟨stop, h₁, hfirst, hasked⟩
  obtain ⟨hstop, rfl⟩ := List.cons.inj hfirst
  cases hstop
  rcases Proc.runs_call_iff.1 hasked with ⟨d, h₂, hsecond, hdispatched⟩
  obtain ⟨hd, rfl⟩ := List.cons.inj hsecond
  cases hd
  have hnot : ¬s.outcome.result.success = true := by
    rw [show s.outcome.result.success = false from hfailed]
    exact Bool.false_ne_true
  rwa [if_neg hnot] at hdispatched

/-- The commands of an iteration that the run goes on after make it one that counts. -/
theorem counts_playCommands {i n : Nat} {commands : List Command} {t t' : Tally} {m m' : Memory μ}
    {h : History (Run μ)} (hrun : (playCommands i commands t m).Runs h (.goesOn t' m'))
    (ht : t.Ongoing n) :
    t'.Ongoing i ∧ ∃ steps, Counts commands steps ∧ h = steps.flatMap Step.calls := by
  induction commands generalizing t m h with
  | nil =>
      obtain ⟨rfl, hend⟩ := Proc.runs_done_iff.1 hrun
      cases hend
      exact ⟨ht.counted i, [], .finished rfl (by simp), rfl⟩
  | cons c commands ih =>
      rcases runs_playCommands_cons hrun with hexit | ⟨s, h', rfl, rfl, hpass, rfl, hrest⟩
      · -- The only way out that does not end the run is `!ERRORLOOP`.
        cases hexit with
        | @skipped s _ _ hfailed hpolicy =>
            obtain ⟨hstopped, hend⟩ :=
              codes_of_afterFailure (runs_afterFailure_of_calls hfailed hrun)
            refine ⟨(ht.after s).counted i, [] ++ [s], ?_, ?_⟩
            · exact .skipped (by simp) (by simp) hfailed hstopped hend hpolicy
            · simp [Step.calls_of_failure hfailed]
      · obtain ⟨hongoing, steps, hcounts, rfl⟩ := ih hrest (ht.after s)
        refine ⟨hongoing, s :: steps, ?_, rfl⟩
        cases hcounts with
        | finished hcommands hothers =>
            exact .finished (by simp [hcommands]) (List.forall_mem_cons.2 ⟨hpass, hothers⟩)
        | @skipped passed last hcommands hothers hfailed hstopped hend hpolicy =>
            have hfront : (s :: passed ++ [last]).map Step.command <+: s.command :: commands := by
              simpa using hcommands
            exact .skipped hfront (List.forall_mem_cons.2 ⟨hpass, hothers⟩) hfailed hstopped hend hpolicy

/-- An iteration that goes on has been counted, and its history shows it. -/
theorem counted_playIteration {commands : List Command} {hasDatasource : Bool} {i n : Nat}
    {t t' : Tally} {m m' : Memory μ} {h : History (Run μ)}
    (hrun : (playIteration commands hasDatasource i t m).Runs h (.goesOn t' m'))
    (ht : t.Ongoing n) : t'.Ongoing i ∧ IsCounted commands hasDatasource h := by
  rcases runs_playIteration hrun with hrefusal | ⟨h₁, h₂, m₁, hopening, rfl, hplayed⟩
  · nomatch hrefusal
  · obtain ⟨hongoing, steps, hcounts, rfl⟩ := counts_playCommands hplayed ht
    exact ⟨hongoing, i, m, m₁, h₁, steps, hopening, hcounts, rfl⟩

/-! ## The iteration that ends a run -/

/-- What a tally says at the end of a run in which these commands were dispatched, with this many
iterations that count. -/
structure Tally.Settled (t : Tally) (steps : List (Step μ)) (loops : Nat) : Prop where
  ok_iff : t.state = .completed ↔ t.code = .ok
  failedLine : ∀ line, t.failedLine = some line →
    t.state = .aborted ∧ ∃ front s, steps = front ++ [s] ∧ s.command.line = line
  loops_eq : t.loops = loops

section Settled

variable {t : Tally} {n : Nat} {steps : List (Step μ)}

/-- A run that nothing has cut short is settled as it stands. -/
theorem Tally.Ongoing.settled (ht : t.Ongoing n) : t.Settled steps n where
  ok_iff := ⟨fun _ => ht.code_eq, fun _ => ht.state_eq⟩
  failedLine line hline := by
    rw [ht.failedLine_eq] at hline
    cases hline
  loops_eq := ht.loops_eq

theorem Tally.Ongoing.settled_stop (ht : t.Ongoing n) : t.stop.Settled steps n where
  ok_iff := ⟨nofun, nofun⟩
  failedLine line hline := by
    have hnone : t.failedLine = some line := hline
    rw [ht.failedLine_eq] at hnone
    cases hnone
  loops_eq := ht.loops_eq

theorem Tally.Ongoing.settled_abort {code : ErrorCode} (ht : t.Ongoing n) (hcode : code ≠ .ok)
    (message : String) : (t.abort code message none).Settled steps n where
  ok_iff := ⟨nofun, fun h => absurd h hcode⟩
  failedLine := nofun
  loops_eq := ht.loops_eq

/-- A run that is aborted at a command tells its line. -/
theorem Tally.Ongoing.settled_abort_at {s : Step μ} (ht : t.Ongoing n) (hcode : s.result.code ≠ .ok)
    (message : String) :
    (t.abort s.result.code message (some s.command.line)).Settled [s] n where
  ok_iff := ⟨nofun, fun h => absurd h hcode⟩
  failedLine line hline := by
    cases hline
    exact ⟨rfl, [], s, rfl, rfl⟩
  loops_eq := ht.loops_eq

/-- What happened before the end does not change how it is settled. -/
theorem Tally.Settled.behind (ht : t.Settled steps n) (earlier : List (Step μ)) :
    t.Settled (earlier ++ steps) n where
  ok_iff := ht.ok_iff
  failedLine line hline := by
    obtain ⟨hstate, front, s, rfl, hs⟩ := ht.failedLine line hline
    exact ⟨hstate, earlier ++ front, s, by simp, hs⟩
  loops_eq := ht.loops_eq

end Settled

/-- What shows in the calls of an iteration that it does not count. -/
inductive Cut (h : History (Run μ)) : Prop where
  | stop : poll true ∈ h → Cut h
  | row (i : Nat) (m : Memory μ) (report : LoadReport) (vars : Store) :
      loading i m report vars ∈ h → report ≠ .loaded → Cut h
  | command (passed : List (Step μ)) (s : Step μ) :
      dispatched h = passed ++ [s] → s.result.success = false →
      s.result.code = .stopped ∨ s.result.code = .datasourceEnd ∨ policy s.left = .abort → Cut h

/-- An iteration that was cut off is not counted. -/
theorem Cut.not_isCounted {commands : List Command} {hasDatasource : Bool} {h : History (Run μ)}
    (hcut : Cut h) : ¬IsCounted commands hasDatasource h := by
  intro hcounted
  obtain ⟨hcounts, hpoll, hrow⟩ := hcounted.calls
  cases hcut with
  | stop hmem => exact hpoll hmem
  | row i m report vars hmem hreport => exact hreport (hrow i m report vars hmem)
  | command passed s hdispatched hfailed hcause =>
      rw [hdispatched] at hcounts
      obtain ⟨hstopped, hend, hpolicy⟩ := hcounts.of_failed hfailed
      rcases hcause with h | h | h
      · exact hstopped h
      · exact hend h
      · exact hpolicy h

theorem Cut.behind {h : History (Run μ)} (hcut : Cut h) (earlier : History (Run μ)) :
    Cut (earlier ++ h) := by
  cases hcut with
  | stop hmem => exact .stop (by simp [hmem])
  | row i m report vars hmem hreport =>
      exact .row i m report vars (List.mem_append_right _ hmem) hreport
  | command passed s hdispatched hfailed hcause =>
      refine .command (dispatched earlier ++ passed) s ?_ hfailed hcause
      rw [dispatched_append, hdispatched, List.append_assoc]

/-- The commands end the run with a settled tally, in an iteration that is cut off. -/
theorem Exit.settled {i n : Nat} {rest : List Command} {t t' : Tally} {m m' : Memory μ}
    {stage : Stage μ} {h : History (Run μ)} (hexit : Exit i rest t m h stage)
    (hstage : stage = .over t' m') (ht : t.Ongoing n)
    (hhonest : ∀ s ∈ dispatched h, s.result.Honest) : t'.Settled (dispatched h) n ∧ Cut h := by
  -- The stage is kept apart from its value: the tally in it is a large term.
  cases hexit with
  | halted =>
      obtain ⟨rfl, rfl⟩ := Stage.over.inj hstage
      exact ⟨ht.settled_stop, .stop (by simp)⟩
  | @stopped s _ _ hfailed hcode =>
      obtain ⟨rfl, rfl⟩ := Stage.over.inj hstage
      exact ⟨(ht.noted s).settled_stop, .command [] s (by simp) hfailed (.inl hcode)⟩
  | @haltedAfter s =>
      obtain ⟨rfl, rfl⟩ := Stage.over.inj hstage
      exact ⟨(ht.noted s).settled_stop, .stop (by simp)⟩
  | @dataEnd s _ _ hfailed hcode =>
      obtain ⟨rfl, rfl⟩ := Stage.over.inj hstage
      exact ⟨(ht.noted s).settled, .command [] s (by simp) hfailed (.inr (.inl hcode))⟩
  | @aborted s _ _ hfailed hpolicy =>
      obtain ⟨rfl, rfl⟩ := Stage.over.inj hstage
      have hcode : s.result.code ≠ .ok := (hhonest s (by simp)).code_ne_ok hfailed
      exact ⟨(ht.noted s).settled_abort_at hcode _,
        .command [] s (by simp) hfailed (.inr (.inr hpolicy))⟩
  | finished | skipped => nomatch hstage

/-- A row that is not loaded ends the run with a settled tally. -/
theorem Refusal.settled {hasDatasource : Bool} {i n : Nat} {t t' : Tally} {m m' : Memory μ}
    {h : History (Run μ)} (hrefusal : Refusal hasDatasource i t m h (.over t' m'))
    (ht : t.Ongoing n) : t'.Settled (dispatched h) n ∧ Cut h := by
  cases hrefusal with
  | halted => exact ⟨ht.settled_stop, .stop (by simp)⟩
  | @exhausted report vars _ hreport =>
      have hreport' : report ≠ .loaded := by
        rintro rfl
        simp at hreport
      exact ⟨ht.settled, .row i (counted i m) report vars (by simp) hreport'⟩
  | @failed e vars =>
      exact ⟨ht.settled_abort e.code_ne_ok _, .row i (counted i m) (.failed e) vars (by simp) nofun⟩
  | @faulted f vars =>
      exact ⟨ht.settled_abort (by decide) _, .row i (counted i m) (.faulted f) vars (by simp) nofun⟩

/-- An iteration that ends the run does not count, and the tally is settled behind it. -/
theorem settled_playIteration {commands : List Command} {hasDatasource : Bool} {i n : Nat}
    {t t' : Tally} {m m' : Memory μ} {h : History (Run μ)}
    (hrun : (playIteration commands hasDatasource i t m).Runs h (.over t' m'))
    (ht : t.Ongoing n) (hhonest : ∀ s ∈ dispatched h, s.result.Honest) :
    t'.Settled (dispatched h) n ∧ ¬IsCounted commands hasDatasource h := by
  rcases runs_playIteration hrun with hrefusal | ⟨h₁, h₂, m₁, hopening, rfl, hplayed⟩
  · obtain ⟨hsettled, hcut⟩ := hrefusal.settled ht
    exact ⟨hsettled, hcut.not_isCounted⟩
  · rcases runs_playCommands hplayed with ⟨passed, rest, m₂, h₃, -, -, -, rfl, hexit⟩
    rw [← List.append_assoc, dispatched_append] at hhonest ⊢
    have hhonest₃ : ∀ s ∈ dispatched h₃, s.result.Honest := by
      intro s hs
      exact hhonest s (List.mem_append_right _ hs)
    obtain ⟨hsettled, hcut⟩ := hexit.settled rfl (ht.foldl_after passed) hhonest₃
    exact ⟨hsettled.behind _, (hcut.behind _).not_isCounted⟩

/-! ## All iterations -/

/-- The calls of a run are those of its iterations, one after another; the first ones of them count, as
many as `loops` says, and no other does. -/
def DividesInto (commands : List Command) (hasDatasource : Bool) (loops : Nat)
    (h : History (Run μ)) : Prop :=
  ∃ counted others : List (History (Run μ)), h = (counted ++ others).flatten ∧
    (∀ it ∈ counted ++ others, IsIteration commands hasDatasource it) ∧
    (∀ it ∈ counted, IsCounted commands hasDatasource it) ∧
    (∀ it ∈ others, ¬IsCounted commands hasDatasource it) ∧ counted.length = loops

/-- The run divides into iterations, and its tally counts those that count. -/
theorem tallied_playIterations {commands : List Command} {hasDatasource : Bool} {left n : Nat}
    {t t' : Tally} {m m' : Memory μ} {h : History (Run μ)}
    (hrun : (playIterations commands hasDatasource left (n + 1) t m).Runs h (t', m'))
    (ht : t.Ongoing n) (hhonest : ∀ s ∈ dispatched h, s.result.Honest) :
    ∃ more, more ≤ left ∧ t'.Settled (dispatched h) (n + more) ∧
      DividesInto commands hasDatasource more h := by
  induction left generalizing n t m h with
  | zero =>
      obtain ⟨rfl, hend⟩ := Proc.runs_done_iff.1 hrun
      cases hend
      refine ⟨0, Nat.le_refl 0, ht.settled, [], [], rfl, ?_, ?_, ?_, rfl⟩ <;> simp
  | succ left ih =>
      rcases runs_playIterations_succ hrun with hover | ⟨h₁, h₂, t₁, m₁, rfl, hfirst, hrest⟩
      · -- The run ends in this iteration, which does not count.
        obtain ⟨hsettled, hnot⟩ := settled_playIteration hover ht hhonest
        have hiteration : IsIteration commands hasDatasource h := ⟨n + 1, t, m, _, hover⟩
        refine ⟨0, Nat.zero_le _, hsettled, [], [h], by simp, ?_, by simp, ?_, rfl⟩
        · simpa using hiteration
        · simpa using hnot
      · -- The run goes on behind this iteration, so it is one more that counts.
        have hhonest₂ : ∀ s ∈ dispatched h₂, s.result.Honest := by
          intro s hs
          exact hhonest s (by simp [dispatched_append, hs])
        obtain ⟨hongoing, hcounted⟩ := counted_playIteration hfirst ht
        have hiteration : IsIteration commands hasDatasource h₁ := ⟨n + 1, t, m, _, hfirst⟩
        obtain ⟨more, hle, hsettled, counted, others, rfl, hall, hcounts, hnot, rfl⟩ :=
          ih hrest hongoing hhonest₂
        refine ⟨counted.length + 1, by omega, ?_, h₁ :: counted, others, by simp, ?_, ?_, hnot, rfl⟩
        · rw [dispatched_append, Nat.add_left_comm, Nat.add_comm _ (n + 1)] at *
          exact hsettled.behind _
        · exact List.forall_mem_cons.2 ⟨hiteration, hall⟩
        · exact List.forall_mem_cons.2 ⟨hcounted, hcounts⟩

end Run

/-! ## Snapshots -/

namespace Bindings

/-- The value of a variable is that of its first binding. -/
theorem find?_eq_head? (b : Bindings) (name : String) :
    b.find? name = (b.filter (·.1 == name)).head?.map (·.2) := by
  induction b with
  | nil => rfl
  | cons entry b ih =>
      by_cases h : entry.1 = name <;> simp [find?, h, ih]

/-- Sorting is stable, so the entries of a name keep their order. -/
theorem find?_sortedByName (b : Bindings) (name : String) :
    (Store.sortedByName b).find? name = b.find? name := by
  have hperm : (Store.sortedByName b).Perm b := List.mergeSort_perm b _
  have hsorted : (b.filter (·.1 == name)).Pairwise fun x y => decide (x.1 ≤ y.1) = true := by
    rw [List.pairwise_filter]
    apply List.pairwise_of_forall
    intro x y hx hy
    rw [beq_iff_eq.1 hx, beq_iff_eq.1 hy]
    simp
  have hkept : (b.filter (·.1 == name)).Sublist (Store.sortedByName b) := by
    apply List.sublist_mergeSort
    · intro x y z hxy hyz
      exact decide_eq_true (String.le_trans (of_decide_eq_true hxy) (of_decide_eq_true hyz))
    · intro x y
      rcases String.le_total x.1 y.1 with h | h <;> simp [h]
    · exact hsorted
    · exact List.filter_sublist
  have hsame : b.filter (·.1 == name) = (Store.sortedByName b).filter (·.1 == name) := by
    apply List.Sublist.eq_of_length
    · have h := hkept.filter (·.1 == name)
      simpa using h
    · exact (hperm.filter _).length_eq.symm
  rw [find?_eq_head?, find?_eq_head?, hsame]

end Bindings

namespace Store

theorem find?_snapshot_extractAdd (s : Store) :
    s.snapshot.find? "!EXTRACTADD" = some (.text s.extractText) := by
  rw [snapshot, Bindings.find?_sortedByName, Bindings.find?_put_self]

end Store

/-! ## Whole runs -/

theorem ErrorCode.value_eq_one_iff {c : ErrorCode} : c.value = 1 ↔ c = .ok := by
  cases c <;> decide

namespace Engine
namespace Execution

variable {ι : Interface} {μ : Type} {e : Engine ι μ}

/-- A dispatched command was carried out by the engine. -/
theorem exists_runs_dispatch (x : e.Execution) {s : Run.Step μ} (hs : s ∈ Run.dispatched x.events) :
    ∃ calls, (e.dispatch s.command s.before).Runs calls s.outcome := by
  obtain ⟨event, hmem, hstep⟩ := List.mem_filterMap.1 hs
  obtain ⟨⟨⟨c, reply⟩, calls, hserved⟩, -, rfl⟩ := List.mem_map.1 hmem
  cases c with
  | dispatch c m =>
      cases hstep
      exact ⟨calls, hserved⟩
  | stopRequested | load | cleanUp | append => nomatch hstep

/-- With honest handlers every command of an execution has an honest result. -/
theorem honest_of_mem_dispatched (hhonest : e.registry.Honest) (x : e.Execution) {s : Run.Step μ}
    (hs : s ∈ Run.dispatched x.events) : s.result.Honest := by
  obtain ⟨calls, hserved⟩ := x.exists_runs_dispatch hs
  obtain ⟨before, after, h, -, hdispatched, -, -⟩ := Engine.runs_dispatch_iff.1 hserved
  exact hhonest.dispatch hdispatched

/-- The entries of a result agree with each other, with the calls of the run and with the status that a
client is given. -/
structure Balanced (x : e.Execution) : Prop where
  success_iff : x.result.success = true ↔ x.result.state = .completed
  ok_iff : x.result.state = .completed ↔ x.result.code = .ok
  status_iff : Session.status x.result = 1 ↔ x.result.success = true
  /-- A failed line is that of the last command that was dispatched. -/
  failedLine : ∀ line, x.result.failedLine = some line → x.result.state = .aborted ∧
    ∃ front s, Run.dispatched x.events = front ++ [s] ∧ s.command.line = line
  loops_le : x.result.loops ≤ max 1 (x.loops.getD e.settings.maxLoops)
  /-- The loops are the iterations that count; behind the iterations there are only hooks and profile. -/
  loops_eq : ∃ played closing, x.events = played ++ closing ∧
    (∀ event ∈ closing, event.1.isClosing = true) ∧
    Run.DividesInto x.script.commands e.datasource.isSome x.result.loops played
  extractAdd : x.result.finalValue? "!EXTRACTADD" =
    some (.text ("[EXTRACT]".intercalate x.result.extracted))

/-- Every execution of an engine with honest handlers is balanced. -/
theorem balanced (hhonest : e.registry.Honest) (x : e.Execution) : x.Balanced := by
  rcases Run.runs_plan x.plays with ⟨h₁, h₂, t, m, hsplit, hplayed, hclosing, hresult, -⟩
  -- Hooks and profile dispatch nothing, so the books are those of the iterations.
  have hhonest₁ : ∀ s ∈ Run.dispatched h₁, s.result.Honest := by
    intro s hs
    apply honest_of_mem_dispatched hhonest x
    rw [events, hsplit, Run.dispatched_append]
    exact List.mem_append_left _ hs
  have hdispatched : Run.dispatched x.events = Run.dispatched h₁ := by
    rw [events, hsplit, Run.dispatched_append, Run.dispatched_closing hclosing, List.append_nil]
  obtain ⟨loops, hle, hsettled, hdivides⟩ :=
    Run.tallied_playIterations hplayed Run.Tally.ongoing_start hhonest₁
  rw [Nat.zero_add] at hsettled
  have hsuccess : x.result.success = true ↔ x.result.state = .completed := by
    simp [RunResult.success]
  have hok : x.result.state = .completed ↔ x.result.code = .ok := by
    simp only [result, hresult]
    exact hsettled.ok_iff
  have hloops : x.result.loops = loops := by
    simp only [result, hresult]
    exact hsettled.loops_eq
  refine ⟨hsuccess, hok, ?_, ?_, ?_, ?_, ?_⟩
  · unfold Session.status
    split
    · simp_all [Session.statusOk]
    · rename_i hfailed
      rw [ErrorCode.value_eq_one_iff, ← hok, ← hsuccess]
  · intro line hline
    simp only [result, hresult] at hline ⊢
    rw [hdispatched]
    exact hsettled.failedLine line hline
  · rw [hloops]
    exact hle
  · rw [hloops]
    exact ⟨h₁, h₂, hsplit, hclosing, hdivides⟩
  · simp only [result, hresult]
    exact m.vars.find?_snapshot_extractAdd

/-- The entries of the result are consistent, and so is what a session keeps of a run that ends with
it. -/
theorem balanced_of_honest (hhonest : e.registry.Honest) (x : e.Execution) :
    x.Balanced ∧
      ∀ {σ : Type} (s : Session ι μ σ) (scene : Scene σ),
        let kept := s.arrive true (.finished (x.result, x.left) scene)
        kept.last.result = some x.result ∧
          (kept.ended.map Session.status = some 1 ↔ x.result.state = .completed) ∧
          kept.lastExtract = "[EXTRACT]".intercalate x.result.extracted := by
  have hbalanced : x.Balanced := balanced hhonest x
  refine ⟨hbalanced, ?_⟩
  intro σ s scene
  refine ⟨rfl, ?_, rfl⟩
  rw [← hbalanced.success_iff, ← hbalanced.status_iff]
  exact Option.some_inj

def bareEngine : Engine .empty Unit := ⟨{}, .builtin, .empty, none, none⟩

def midnight : Reading := ⟨.zero, 0, ⟨2026, 1, 1, 0, 0, 0⟩⟩

def brokenLine : Command := ⟨"", [], "\"", 7, some .unterminatedQuote⟩

def blankMemory : Memory Unit := ⟨Store.beginRun ⟨[], [], false⟩, ()⟩

def asked (e : Engine ι μ) : e.Job :=
  ⟨⟨.stopRequested, false⟩, [⟨.stopRequested, false⟩], .call _ (.done _)⟩

theorem runs_dispatch_brokenLine :
    (bareEngine.dispatch brokenLine blankMemory).Runs [⟨.clock, midnight⟩, ⟨.clock, midnight⟩]
      ⟨.failure .syntaxError "Line 7: Unterminated quoted value", blankMemory, 0, .zero⟩ :=
  Engine.runs_dispatch_iff.2 ⟨midnight, midnight, [], rfl, .done _, rfl, rfl⟩

def brokenRun : bareEngine.Execution where
  script := ⟨"broken", [brokenLine]⟩
  loops := some 3
  memory := ⟨⟨[], [], false⟩, ()⟩
  began := midnight
  ended := midnight
  jobs := [⟨⟨.stopRequested, false⟩, [⟨.stopRequested, false⟩], .call _ (.done _)⟩,
    ⟨⟨.stopRequested, false⟩, [⟨.stopRequested, false⟩], .call _ (.done _)⟩,
    ⟨⟨.dispatch brokenLine blankMemory, _⟩, _, runs_dispatch_brokenLine⟩,
    ⟨⟨.stopRequested, false⟩, [⟨.stopRequested, false⟩], .call _ (.done _)⟩]
  played := Run.Tally.result
    ⟨.aborted, .syntaxError, some "Line 7: Unterminated quoted value", some 7, 0, []⟩ "broken"
      blankMemory.vars
  left := blankMemory
  plays := .call _ (.call _ (.call _ (.call _ (.done _))))

/-- A script with one line, whose quote is never closed: the run names the line. -/
theorem balanced_of_honest_brokenRun :
    bareEngine.registry.Honest ∧ brokenRun.result.failedLine = some 7 ∧ brokenRun.Balanced ∧
      ∀ {σ : Type} (s : Session .empty Unit σ) (scene : Scene σ),
        let kept := s.arrive true (.finished (brokenRun.result, brokenRun.left) scene)
        kept.last.result = some brokenRun.result ∧
          (kept.ended.map Session.status = some 1 ↔ brokenRun.result.state = .completed) ∧
          kept.lastExtract = "[EXTRACT]".intercalate brokenRun.result.extracted :=
  ⟨Registry.honest_builtin, rfl, balanced_of_honest Registry.honest_builtin brokenRun⟩

end Execution
end Engine
end MacroReplay
