import MacroReplay.Engine
import MacroReplay.Proofs.Proc.History

/-!
# Executions of an engine

A run hands out its work in calls, and the engine serves each of them with calls of its own. An execution
keeps both levels together: it is a list of jobs, each a call of the run with all that was done to serve
it.

* `Proc.runs_bindCalls_iff` — the histories of a process whose calls are served by processes;
* `Engine.runs_run_iff` — the histories of a run are those of the executions.
-/

namespace MacroReplay

/-! ## Jobs -/

namespace Proc

variable {ι κ : Interface} {α : Type}

/-- A call with its reply, and all that was done to serve it. -/
structure Job (f : (c : ι.Call) → Proc κ (ι.Reply c)) where
  event : Event ι
  calls : History κ
  served : (f event.1).Runs calls event.2

/-- A process whose calls are served by processes makes the calls of the jobs, one after another. -/
theorem runs_bindCalls_iff {f : (c : ι.Call) → Proc κ (ι.Reply c)} {p : Proc ι α} {h : History κ}
    {a : α} :
    (p.bindCalls f).Runs h a ↔
      ∃ jobs : List (Job f), p.Runs (jobs.map Job.event) a ∧ h = jobs.flatMap Job.calls := by
  induction p generalizing h with
  | done a' =>
      constructor
      · intro hrun
        obtain ⟨rfl, rfl⟩ := runs_done_iff.1 hrun
        exact ⟨[], .done a, rfl⟩
      · rintro ⟨jobs, hdone, rfl⟩
        obtain ⟨hnil, rfl⟩ := runs_done_iff.1 hdone
        rw [List.map_eq_nil_iff.1 hnil]
        exact .done a
  | call c next ih =>
      constructor
      · intro hrun
        -- What serves `c` is the first job; the process goes on with the reply that it ends with.
        rcases runs_bind_iff.1 hrun with ⟨h₁, h₂, reply, rfl, hserved, hrest⟩
        rcases (ih reply).1 hrest with ⟨jobs, hjobs, rfl⟩
        exact ⟨⟨⟨c, reply⟩, h₁, hserved⟩ :: jobs, .call reply hjobs, rfl⟩
      · rintro ⟨jobs, hjobs, rfl⟩
        rcases runs_call_iff.1 hjobs with ⟨reply, h', hevents, hrest⟩
        cases jobs with
        | nil => nomatch hevents
        | cons job jobs =>
            obtain ⟨event, calls, hserved⟩ := job
            obtain ⟨rfl, rfl⟩ := List.cons.inj hevents
            refine runs_bind_iff.2 ⟨calls, _, reply, List.flatMap_cons, hserved, ?_⟩
            exact (ih reply).2 ⟨jobs, hrest, rfl⟩

end Proc

/-! ## Executions -/

namespace Engine

variable {ι : Interface} {μ : Type}

/-- A call of a run, with what the engine did for it. -/
abbrev Job (e : Engine ι μ) := Proc.Job (ι := Run μ) (κ := Timed ι) e.serve

/-- A run of a script from its beginning to its end. -/
structure Execution (e : Engine ι μ) where
  script : Script
  loops : Option Nat
  /-- The memory that the run began with. -/
  memory : Memory μ
  /-- What the clock showed before the run and after it. -/
  began : Reading
  ended : Reading
  jobs : List e.Job
  /-- The result, but for the time that the run took. -/
  played : RunResult
  /-- The memory that the run left. -/
  left : Memory μ
  plays : (Run.plan (e.setup script loops) memory).Runs (jobs.map Proc.Job.event) (played, left)

namespace Execution

variable {e : Engine ι μ}

def events (x : Execution e) : History (Run μ) :=
  x.jobs.map Proc.Job.event

def history (x : Execution e) : History (Timed ι) :=
  ⟨.clock, x.began⟩ :: (x.jobs.flatMap Proc.Job.calls ++ [⟨.clock, x.ended⟩])

def result (x : Execution e) : RunResult :=
  { x.played with durationMs := (x.ended.elapsed - x.began.elapsed).toMillis }

end Execution

/-- The histories of a run are those of the executions of its script. -/
theorem runs_run_iff {e : Engine ι μ} {script : Script} {loops : Option Nat} {m left : Memory μ}
    {h : History (Timed ι)} {r : RunResult} :
    (e.run script loops m).Runs h (r, left) ↔
      ∃ x : Execution e, x.script = script ∧ x.loops = loops ∧ x.memory = m ∧ x.history = h ∧
        x.result = r ∧ x.left = left := by
  constructor
  · intro hrun
    rcases Proc.runs_call_iff.1 hrun with ⟨began, h₁, rfl, hrest⟩
    rw [Proc.done_bind] at hrest
    rcases Proc.runs_bind_iff.1 hrest with ⟨h₂, h₃, ⟨played, left'⟩, rfl, hplayed, hend⟩
    rcases Proc.runs_call_iff.1 hend with ⟨ended, h₄, rfl, hdone⟩
    obtain ⟨rfl, hresult⟩ := Proc.runs_done_iff.1 hdone
    cases hresult
    rcases Proc.runs_bindCalls_iff.1 hplayed with ⟨jobs, hjobs, rfl⟩
    exact ⟨⟨script, loops, m, began, ended, jobs, played, left, hjobs⟩, rfl, rfl, rfl, rfl, rfl, rfl⟩
  · rintro ⟨x, rfl, rfl, rfl, rfl, rfl, rfl⟩
    refine Proc.runs_call_iff.2 ⟨x.began, _, rfl, ?_⟩
    rw [Proc.done_bind]
    refine Proc.runs_bind_iff.2 ⟨_, _, (x.played, x.left), rfl, ?_, ?_⟩
    · exact Proc.runs_bindCalls_iff.2 ⟨x.jobs, x.plays, rfl⟩
    · exact Proc.runs_call_iff.2 ⟨x.ended, [], rfl, .done _⟩

/-- An execution is a run of the engine with its calls. -/
theorem Execution.runs {e : Engine ι μ} (x : Execution e) :
    (e.run x.script x.loops x.memory).Runs x.history (x.result, x.left) :=
  runs_run_iff.2 ⟨x, rfl, rfl, rfl, rfl, rfl, rfl⟩

end Engine
end MacroReplay
