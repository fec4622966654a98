import Mathlib.Data.List.Forall2
import MacroReplay.Proofs.Engine.Execution
import MacroReplay.Proofs.Run.Handover

/-!
# The close of a run

When the iterations of a run are over, however they ended, its hooks run one after another, and then its
profile is written. Neither has a say in the result.

* `Cleanup.hooks_registerAll` — of registrations under one name, the first one counts;
* `Engine.Execution.CleansUp` — an execution is its work, then each hook once in order, then at most one
  profile;
* `Engine.Execution.Unaffected` — no other hooks and no other outcomes of them give another result.
-/

namespace MacroReplay

/-! ## Registrations -/

namespace Cleanup

variable {η : Type}

def registerAll (registrations : List (String × η)) : Cleanup η :=
  registrations.foldl (fun c r => c.register r.1 r.2) empty

def firstOfEach : List (String × η) → List (String × η)
  | [] => []
  | r :: registrations => r :: (firstOfEach registrations).filter (·.1 != r.1)

/-- A new registration adds its name and no other. -/
theorem contains_register {c : Cleanup η} {r : String × η} (hnew : c.contains r.1 = false)
    (name : String) :
    (c.register r.1 r.2).contains name = (c.contains name || r.1 == name) := by
  unfold register
  rw [if_neg (by simp [hnew])]
  simp [contains]

/-- Registrations are added behind the hooks there are, but for names that are taken. -/
theorem hooks_foldl_register (registrations : List (String × η)) (c : Cleanup η) :
    (registrations.foldl (fun c r => c.register r.1 r.2) c).hooks =
      c.hooks ++ (firstOfEach registrations).filter fun r => !c.contains r.1 := by
  induction registrations generalizing c with
  | nil => simp [firstOfEach]
  | cons r registrations ih =>
      rw [List.foldl_cons, ih, firstOfEach]
      cases hr : c.contains r.1 with
      | true =>
          -- A second registration changes nothing, and later ones of its name are second ones, too.
          have hsame : c.register r.1 r.2 = c := by simp [register, hr]
          have hlater : ∀ x ∈ firstOfEach registrations,
              (!c.contains x.1) = (!c.contains x.1 && x.1 != r.1) := by
            intro x _
            by_cases hx : x.1 = r.1
            · simp [hx, hr]
            · simp [hx]
          rw [hsame, List.filter_cons_of_neg (by simp [hr]), List.filter_filter,
            List.filter_congr hlater]
      | false =>
          have hhooks : (c.register r.1 r.2).hooks = c.hooks ++ [r] := by simp [register, hr]
          have hlater : ∀ x ∈ firstOfEach registrations,
              (!(c.register r.1 r.2).contains x.1) = (!c.contains x.1 && x.1 != r.1) := by
            intro x _
            rw [contains_register hr, Bool.not_or, Bool.beq_comm]
            rfl
          rw [hhooks, List.filter_cons_of_pos (by simp [hr]), List.filter_filter,
            List.filter_congr hlater, List.append_assoc]
          rfl

/-- Of the registrations of a name the first one counts, and they keep their order. -/
theorem hooks_registerAll (registrations : List (String × η)) :
    (registerAll registrations).hooks = firstOfEach registrations := by
  simp [registerAll, hooks_foldl_register, empty, contains]

example : (registerAll [("proxy", 1), ("tabs", 2), ("proxy", 3)]).hooks =
    [("proxy", 1), ("tabs", 2)] := by
  decide

/-- No name stands twice. -/
theorem pairwise_firstOfEach (registrations : List (String × η)) :
    (firstOfEach registrations).Pairwise fun r r' => r.1 ≠ r'.1 := by
  induction registrations with
  | nil => exact .nil
  | cons r registrations ih =>
      refine .cons ?_ (ih.filter _)
      intro x hx
      have hne : x.1 ≠ r.1 := by simpa using (List.mem_filter.1 hx).2
      exact hne.symm

/-- Hooks whose names are distinct are found by them. -/
theorem find?_of_mem {c : Cleanup η} (hdistinct : c.hooks.Pairwise fun r r' => r.1 ≠ r'.1)
    {hook : String × η} (hmem : hook ∈ c.hooks) : c.find? hook.1 = some hook.2 := by
  unfold find?
  generalize c.hooks = hooks at hdistinct hmem
  induction hooks with
  | nil => nomatch hmem
  | cons first hooks ih =>
      obtain ⟨hfirst, hrest⟩ := List.pairwise_cons.1 hdistinct
      rcases List.mem_cons.1 hmem with rfl | hmem
      · simp
      · have hne : (first.1 == hook.1) = false := by simpa using hfirst hook hmem
        rw [List.find?_cons_of_neg (by simp [hne])]
        exact ih hrest hmem

end Cleanup

/-! ## Hooks and profile -/

namespace Run

variable {μ η : Type}

/-- The hooks are handed out each once and in order, whatever they come to. -/
theorem forall₂_of_runs_invokeAll {hooks : List (String × η)} {shared : μ} {failures : Nat}
    {h : History (Run μ)} {end' : Nat × μ}
    (hrun : (Cleanup.invokeAll invokeHook hooks shared failures).Runs h end') :
    List.Forall₂ (fun event hook => ∃ shared reply, event = ⟨.cleanUp hook.1 shared, reply⟩)
      h hooks := by
  induction hooks generalizing shared failures h with
  | nil =>
      obtain ⟨rfl, -⟩ := Proc.runs_done_iff.1 hrun
      exact .nil
  | cons hook hooks ih =>
      rcases Proc.runs_call_iff.1 hrun with ⟨⟨report, shared'⟩, h', rfl, hrest⟩
      exact .cons ⟨shared, (report, shared'), rfl⟩ (ih hrest)

/-- Behind the hooks there is one call at most, and it appends to the sink. -/
theorem append_of_runs_writeProfile {hasSink : Bool} {name : String} {t : Tally} {vars : Store}
    {h : History (Run μ)} (hrun : (writeProfile hasSink name t vars).Runs h ()) :
    h.length ≤ 1 ∧ ∀ event ∈ h, ∃ target contents, event.1 = .append target contents := by
  unfold writeProfile at hrun
  split at hrun
  · split at hrun
    · rcases Proc.runs_call_iff.1 hrun with ⟨reply, h', rfl, hdone⟩
      obtain ⟨rfl, -⟩ := Proc.runs_done_iff.1 hdone
      simp
    · obtain ⟨rfl, -⟩ := Proc.runs_done_iff.1 hrun
      simp
  · obtain ⟨rfl, -⟩ := Proc.runs_done_iff.1 hrun
    simp

end Run

/-! ## Executions -/

namespace Engine

variable {ι : Interface} {μ : Type} {e : Engine ι μ}

/-- The job is that of the hook: it hands out its name, and the hook is what ran. -/
def Invokes (job : e.Job) (hook : String × Hook ι μ) : Prop :=
  ∃ shared reply, job.event = ⟨.cleanUp hook.1 shared, reply⟩ ∧
    (hook.2 shared).Runs job.calls reply

/-- Whether the hooks ran before makes no difference to a run. -/
theorem run_of_ran (e : Engine ι μ) (ran : Bool) (script : Script) (loops : Option Nat) (m : Memory μ) :
    run { e with cleanup := { e.cleanup with ran := ran } } script loops m = e.run script loops m :=
  rfl

namespace Execution

/-- The work of the execution comes first, then the hooks, each once and in this order, and last the
profile, if there is one. -/
def CleansUp (x : e.Execution) (hooks : List (String × Hook ι μ)) : Prop :=
  ∃ work closing profile : List e.Job, x.jobs = work ++ closing ++ profile ∧
    (∀ job ∈ work, job.event.1.isClosing = false) ∧ List.Forall₂ Invokes closing hooks ∧
    profile.length ≤ 1 ∧ ∀ job ∈ profile, ∃ target contents, job.event.1 = .append target contents

/-- What is handed out under a name is the hook of that name. -/
theorem invokes_of_event {job : e.Job} {hook : String × Hook ι μ}
    (hfound : e.cleanup.find? hook.1 = some hook.2)
    (hevent : ∃ shared reply, job.event = ⟨.cleanUp hook.1 shared, reply⟩) : Invokes job hook := by
  obtain ⟨event, calls, hserved⟩ := job
  obtain ⟨shared, reply, rfl⟩ := hevent
  refine ⟨shared, reply, rfl, ?_⟩
  simpa only [Engine.serve, hfound] using hserved

/-- The same for all hooks of an engine. -/
theorem forall₂_invokes {closing : List e.Job} {hooks : List (String × Hook ι μ)}
    (hfound : ∀ hook ∈ hooks, e.cleanup.find? hook.1 = some hook.2)
    (hevents : List.Forall₂ (fun event hook => ∃ shared reply,
      event = ⟨Run.Call.cleanUp hook.1 shared, reply⟩) (closing.map Proc.Job.event) hooks) :
    List.Forall₂ Invokes closing hooks := by
  rw [List.forall₂_map_left_iff] at hevents
  induction hevents with
  | nil => exact .nil
  | cons hevent _ ih =>
      obtain ⟨hfirst, hrest⟩ := List.forall_mem_cons.1 hfound
      exact .cons (invokes_of_event hfirst hevent) (ih hrest)

/-- Every execution runs the hooks of its engine after its work, each once and in order. -/
theorem cleansUp (hdistinct : e.cleanup.hooks.Pairwise fun r r' => r.1 ≠ r'.1) (x : e.Execution) :
    x.CleansUp e.cleanup.hooks := by
  rcases Run.runs_plan_parts x.plays with
    ⟨h₁, h₂, h₃, t, m, failures, hsplit, hplayed, hinvoked, hprofile, -, -⟩
  -- The jobs are cut where their events are.
  obtain ⟨front, profile, hjobs, hfront, rfl⟩ := List.map_eq_append_iff.1 hsplit
  obtain ⟨work, closing, rfl, rfl, rfl⟩ := List.map_eq_append_iff.1 hfront
  have hworks := (Run.carries_playIterations hplayed).works
  have hinvokes : List.Forall₂ Invokes closing e.cleanup.hooks :=
    forall₂_invokes (fun _ hmem => Cleanup.find?_of_mem hdistinct hmem)
      (Run.forall₂_of_runs_invokeAll hinvoked)
  obtain ⟨hlength, happend⟩ := Run.append_of_runs_writeProfile hprofile
  refine ⟨work, closing, profile, hjobs, ?_, hinvokes, ?_, ?_⟩
  · intro job hjob
    exact hworks job.event (List.mem_map_of_mem hjob)
  · rwa [List.length_map] at hlength
  · intro job hjob
    exact happend job.event (List.mem_map_of_mem hjob)

def work (x : e.Execution) : History (Run μ) :=
  x.events.filter fun event => !event.1.isClosing

/-- Under other hooks or other outcomes of them, a run that does the same work has the same result, but
for the time that it took. -/
def Unaffected (x : e.Execution) : Prop :=
  ∀ (c : Cleanup (Hook ι μ)) (y : Execution { e with cleanup := c }),
    y.script = x.script → y.loops = x.loops → y.memory = x.memory → y.work = x.work →
    y.played = x.played ∧ y.left.vars = x.left.vars

/-- The iterations of a run are its work. -/
theorem exists_iterations (x : e.Execution) :
    ∃ t m, (Run.playIterations x.script.commands e.datasource.isSome
        (max 1 (x.loops.getD e.settings.maxLoops)) 1 .start
        { x.memory with vars := x.memory.vars.beginRun }).Runs x.work (t, m) ∧
      x.played = t.result x.script.name m.vars ∧ x.left.vars = m.vars := by
  rcases Run.runs_plan x.plays with ⟨h₁, h₂, t, m, hsplit, hplayed, hclosing, hresult, hvars⟩
  have hworks := (Run.carries_playIterations hplayed).works
  have hwork : x.work = h₁ := by
    rw [work, events, hsplit, List.filter_append, List.filter_eq_self.2, List.filter_eq_nil_iff.2,
      List.append_nil]
    · intro event hevent
      simp [hclosing event hevent]
    · intro event hevent
      simp [hworks event hevent]
  rw [hwork]
  exact ⟨t, m, hplayed, hresult, hvars⟩

/-- The hooks run when the work is done, so they have no part in the result. -/
theorem unaffected (x : e.Execution) : x.Unaffected := by
  intro c y hscript hloops hmemory hwork
  obtain ⟨t, m, hx, hplayed, hvars⟩ := x.exists_iterations
  obtain ⟨t', m', hy, hplayed', hvars'⟩ := y.exists_iterations
  rw [hscript, hloops, hmemory, hwork] at hy
  have hend : (t', m') = (t, m) := hy.unique hx
  cases hend
  rw [hplayed, hplayed', hvars, hvars', hscript]
  exact ⟨rfl, rfl⟩

end Execution
end Engine
end MacroReplay
