import MacroReplay.Proofs.Engine.Closing
import MacroReplay.Proofs.Session.Protocol

/-!
# Cleanup in a session

Every run that a session accepts is an execution of its engine, so it cleans up as executions do: once,
whatever became of it and of the runs before. A run that the session refuses makes no call at all.

* `Session.exists_execution` — a run that ended, as an execution;
* `Session.cleanup_create` — every run of every client, for hooks registered in any order.
-/

namespace MacroReplay
namespace Session

variable {ι : Interface} {μ σ κ : Type} [DecidableEq κ]

/-- The execution is the run of the ticket, and ends so. -/
structure Ticket.Completes {e : Engine ι μ} (run : Ticket ι μ κ) (x : e.Execution) (r : RunResult)
    (left : Memory μ) : Prop where
  script : x.script = run.script
  loops : x.loops = run.loops
  memory : x.memory = run.memory
  calls : x.history = run.calls
  result : x.result = r
  left : x.left = left

omit [DecidableEq κ] in
/-- A run that ended in the transcript is an execution of the engine, for the client that
was playing. -/
theorem exists_execution {session : Session ι μ σ} {t : Transcript ι μ σ κ} (ht : t.Sound session)
    {front back : List (Entry ι μ κ)} {c : κ} {r : RunResult} {left : Memory μ}
    (hlog : t.log = front ++ .ended c r left :: back) :
    ∃ (run : Ticket ι μ κ) (x : session.engine.Execution),
      current front = some run ∧ run.client = c ∧ run.Completes x r left := by
  have horderly := ht.orderly
  rw [hlog] at horderly
  obtain ⟨run, hcurrent, hclient, hruns⟩ := horderly.inOrder
  obtain ⟨x, hscript, hloops, hmemory, hcalls, hresult, hleft⟩ := Engine.runs_run_iff.1 hruns
  exact ⟨run, x, hcurrent, hclient, hscript, hloops, hmemory, hcalls, hresult, hleft⟩

/-- Whatever the hooks and whether they ran before: every run that ended has run the first hook of each
name, once, in the order of registration, behind its work and before its profile, and no hook had a say
in its result. A refused client makes no call, calls are made in runs only, and a run comes to its end
if the collaborators answer. -/
theorem cleanup_create (base : Engine ι μ) (registrations : List (String × Hook ι μ)) (ran : Bool)
    (world : World ι σ) (start : σ) (m : Memory μ) (exitTimeout : Duration)
    (actions : List (Action κ)) :
    let engine := { base with cleanup := { Cleanup.registerAll registrations with ran := ran } }
    let t := Transcript.of (create engine world start m exitTimeout) actions
    (∀ ran' script loops m', Engine.run { engine with cleanup := { engine.cleanup with ran := ran' } }
        script loops m' = engine.run script loops m') ∧
      (∀ front c r left back, t.log = front ++ .ended c r left :: back →
        ∃ (run : Ticket ι μ κ) (x : engine.Execution),
          current front = some run ∧ run.client = c ∧ run.Completes x r left ∧
          x.CleansUp (Cleanup.firstOfEach registrations) ∧ x.Unaffected) ∧
      (∀ f c kept script loops, t.clients.session.phase = .running f → t.clients.activity c = .free →
        t.clients.step (.request c (.run kept script loops)) =
          ([.asked c (.run kept script loops), .told c (refusal kept)], t.clients)) ∧
      (∀ front event back, t.log = front ++ .called event :: back → ∃ run, current front = some run) ∧
      (world.Answers → ∀ run, current t.log = some run → t.Returns run.client run.kept) := by
  intro engine t
  have hsound : t.Sound (create engine world start m exitTimeout) := Transcript.sound_of rfl actions
  have hhooks : engine.cleanup.hooks = Cleanup.firstOfEach registrations :=
    Cleanup.hooks_registerAll registrations
  have hdistinct : engine.cleanup.hooks.Pairwise fun r r' => r.1 ≠ r'.1 := by
    rw [hhooks]
    exact Cleanup.pairwise_firstOfEach registrations
  refine ⟨?_, ?_, ?_, ?_, ?_⟩
  · intro ran' script loops m'
    exact engine.run_of_ran ran' script loops m'
  · intro front c r left back hlog
    obtain ⟨run, x, hcurrent, hclient, hcompletes⟩ := exists_execution hsound hlog
    -- Each run that ended is an execution of the engine, and each execution cleans up.
    have hcleansUp : x.CleansUp engine.cleanup.hooks := x.cleansUp hdistinct
    rw [hhooks] at hcleansUp
    exact ⟨run, x, hcurrent, hclient, hcompletes, hcleansUp, x.unaffected⟩
  · intro f c kept script loops hphase hfree
    exact step_run_of_running hphase hfree kept script loops
  · intro front event back hlog
    have horderly := hsound.orderly
    rw [hlog] at horderly
    -- A call is in order only while a run is in flight.
    obtain ⟨run, hcurrent, -⟩ := horderly.inOrder
    exact ⟨run, hcurrent⟩
  · intro hanswers run hrun
    exact hsound.returns hanswers hrun

end Session
end MacroReplay
