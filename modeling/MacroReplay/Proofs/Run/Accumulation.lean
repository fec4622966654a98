import MacroReplay.Proofs.Engine.Execution
import MacroReplay.Proofs.Handler.Addition
import MacroReplay.Proofs.Run.Bookkeeping
import MacroReplay.Proofs.Run.Laps

/-!
# Sums that a run adds up

A user variable to which a run adds integers, and which it does not touch otherwise, holds their sum at
the end, as a number and without an error of rounding.

* `Run.conveys_plan` — a run hands on what the variable holds, from call to call;
* `Run.Accumulates` — calls that add integers to the variable, and leave it as it is otherwise;
* `Run.Accumulates.held_eq` — what it holds at the end, by induction on the calls;
* `Run.accumulates_plan` — scripts that are played in each iteration;
* `Engine.Execution.exists_unstopped` — every script can be played without being stopped;
* `Engine.Execution.additions_accumulate` — whole runs of an engine.
-/

namespace MacroReplay

open Addition (total sum_total)
open Number (Spells IsExact ofInt)
open Variable (user)

namespace Run

variable {μ η : Type} {i : Fin 10}

/-! ## A variable that is handed on -/

/-- The calls hand on what the variable holds, from `v` to `v'`. -/
def Conveys (i : Fin 10) : Value → History (Run μ) → Value → Prop
  | v, [], v' => v' = v
  | v, e :: h, v' =>
      match handedOn? e with
      | some (given, left) => given.held i = v ∧ Conveys i (left.held i) h v'
      | none => Conveys i v h v'

section Conveys

variable {v v' between : Value} {s s' : Store} {h h₁ h₂ : History (Run μ)}

theorem Conveys.append (hfirst : Conveys i v h₁ between) (hsecond : Conveys i between h₂ v') :
    Conveys i v (h₁ ++ h₂) v' := by
  induction h₁ generalizing v with
  | nil =>
      cases hfirst
      exact hsecond
  | cons e h₁ ih =>
      rw [List.cons_append]
      unfold Conveys at hfirst ⊢
      split <;> rename_i hhanded <;> simp only [hhanded] at hfirst
      · exact ⟨hfirst.1, ih hfirst.2⟩
      · exact ih hfirst

/-- What the variables are handed on with, a user variable is handed on with too. -/
theorem Relays.conveys (hrelays : Relays s h s') : Conveys i (s.held i) h (s'.held i) := by
  induction h generalizing s with
  | nil => exact congrArg (Store.held · i) hrelays
  | cons e h ih =>
      unfold Relays at hrelays
      unfold Conveys
      split <;> rename_i hhanded <;> simp only [hhanded] at hrelays
      · exact ⟨congrArg (Store.held · i) hrelays.1, ih hrelays.2⟩
      · exact ih hrelays

/-- Calls of the closing hand no variables on. -/
theorem conveys_of_closing (hclosing : ∀ e ∈ h, e.1.isClosing = true) : Conveys i v h v := by
  induction h with
  | nil => rfl
  | cons e h ih =>
      obtain ⟨hcall, hrest⟩ := List.forall_mem_cons.1 hclosing
      unfold Conveys
      simp only [handedOn?_of_closing hcall]
      exact ih hrest

end Conveys

/-- Counting up leaves the user variables alone. -/
theorem held_countUp (n : Nat) (s : Store) : (countUp n s).held i = s.held i := by
  unfold countUp
  split
  · exact s.held_advanceLoop n i
  · rfl

/-- One iteration. -/
theorem conveys_playIteration {commands : List Command} {hasDatasource : Bool} {n : Nat} {t : Tally}
    {m : Memory μ} {h : History (Run μ)} {stage : Stage μ}
    (hrun : (playIteration commands hasDatasource n t m).Runs h stage) :
    Conveys i (m.vars.held i) h (stage.memory.vars.held i) := by
  rcases relays_playIteration hrun with ⟨rfl, rfl⟩ | hrelays
  · rfl
  · rw [← held_countUp n m.vars]
    exact hrelays.conveys

/-- All iterations, by induction on the number of those that are left. -/
theorem conveys_playIterations {commands : List Command} {hasDatasource : Bool} {left n : Nat}
    {t t' : Tally} {m m' : Memory μ} {h : History (Run μ)}
    (hrun : (playIterations commands hasDatasource left n t m).Runs h (t', m')) :
    Conveys i (m.vars.held i) h (m'.vars.held i) := by
  induction left generalizing n t m h with
  | zero =>
      obtain ⟨rfl, hend⟩ := Proc.runs_done_iff.1 hrun
      cases hend
      rfl
  | succ left ih =>
      rcases runs_playIterations_succ hrun with hlast | ⟨h₁, h₂, t₁, m₁, rfl, hfirst, hrest⟩
      · exact conveys_playIteration hlast
      · exact (conveys_playIteration hfirst).append (ih hrest)

/-- A whole run hands on what the variable holds. -/
theorem conveys_plan {setup : Setup η} {m m' : Memory μ} {h : History (Run μ)} {r : RunResult}
    (hrun : (plan setup m).Runs h (r, m')) : Conveys i (m.vars.held i) h (m'.vars.held i) := by
  rcases runs_plan hrun with ⟨h₁, h₂, t, m₁, rfl, hplayed, hclosing, -, hvars⟩
  have hconveys := conveys_playIterations (i := i) hplayed
  rw [Store.held_beginRun] at hconveys
  rw [hvars]
  exact hconveys.append (conveys_of_closing hclosing)

/-! ## Calls that add -/

/-- The calls add these integers to the variable, in this order, and leave it as it is otherwise. -/
inductive Accumulates (i : Fin 10) : History (Run μ) → List ℤ → Prop where
  | nil : Accumulates i [] []
  | added {s : Step μ} {k : ℤ} {h : History (Run μ)} {ks : List ℤ} :
      s.command.Adds i k → Accumulates i h ks → Accumulates i (s.event :: h) (k :: ks)
  | kept {event : Event (Run μ)} {h : History (Run μ)} {ks : List ℤ} :
      (∀ given left, handedOn? event = some (given, left) → left.held i = given.held i) →
      Accumulates i h ks → Accumulates i (event :: h) ks

def Step.Sums (i : Fin 10) (k : ℤ) (s : Step μ) : Prop :=
  ∃ text : String, Spells text.toList k ∧
    s.left.held i = Assign.sum (s.before.vars.held i) (.text text)

namespace Accumulates

variable {h h₁ h₂ : History (Run μ)} {ks ks₁ ks₂ done : List ℤ} {v : Value}

/-- What the variable holds at the end. The induction takes the integers that were added before along. -/
theorem held_eq (hacc : Accumulates i h ks)
    (hsums : ∀ s ∈ dispatched h, ∀ k, s.command.Adds i k → s.Sums i k)
    (hconveys : Conveys i (total done) h v) (hexact : ∀ k ∈ ks, IsExact k)
    (hrange : ∀ part, part <+: ks → (done ++ part).sum.natAbs ≤ 2 ^ 53) : v = total (done ++ ks) := by
  induction hacc generalizing done with
  | nil =>
      rw [List.append_nil]
      exact hconveys
  | @added s k h ks hadds _ ih =>
      obtain ⟨hgiven, hrest⟩ :
          s.before.vars.held i = total done ∧ Conveys i (s.left.held i) h v := hconveys
      rw [dispatched_event_cons, List.forall_mem_cons] at hsums
      rw [List.forall_mem_cons] at hexact
      obtain ⟨text, hspells, hleft⟩ := hsums.1 k hadds
      -- The sum so far is in range, so that adding the next integer is exact.
      have hdone : done.sum.natAbs ≤ 2 ^ 53 := by simpa using hrange [] (List.nil_prefix)
      rw [hleft, hgiven, sum_total hspells hexact.1 hdone] at hrest
      rw [List.append_cons]
      refine ih hsums.2 hrest hexact.2 fun part hpart => ?_
      rw [← List.append_cons]
      exact hrange (k :: part) (List.cons_prefix_cons.2 ⟨rfl, hpart⟩)
  | @kept event h ks hkept _ ih =>
      -- An event that hands the variable on as it was given.
      have hsums' : ∀ s ∈ dispatched h, ∀ k, s.command.Adds i k → s.Sums i k := by
        intro s hs
        refine hsums s ?_
        rw [← List.singleton_append, dispatched_append]
        exact List.mem_append_right _ hs
      unfold Conveys at hconveys
      cases hhanded : handedOn? event with
      | none =>
          simp only [hhanded] at hconveys
          exact ih hsums' hconveys hexact hrange
      | some stores =>
          simp only [hhanded] at hconveys
          rw [hkept _ _ hhanded, hconveys.1] at hconveys
          exact ih hsums' hconveys.2 hexact hrange

theorem append (hfirst : Accumulates i h₁ ks₁) (hsecond : Accumulates i h₂ ks₂) :
    Accumulates i (h₁ ++ h₂) (ks₁ ++ ks₂) := by
  induction hfirst with
  | nil => exact hsecond
  | added hadds _ ih => exact .added hadds ih
  | kept hkept _ ih => exact .kept hkept ih

theorem poll {stop : Bool} (hacc : Accumulates i h ks) : Accumulates i (Run.poll stop :: h) ks :=
  .kept nofun hacc

theorem of_closing (hclosing : ∀ e ∈ h, e.1.isClosing = true) : Accumulates i h [] := by
  induction h with
  | nil => exact .nil
  | cons e h ih =>
      obtain ⟨hcall, hrest⟩ := List.forall_mem_cons.1 hclosing
      refine .kept (fun given left hhanded => ?_) (ih hrest)
      rw [handedOn?_of_closing hcall] at hhanded
      cases hhanded

end Accumulates

/-! ## Scripts that add -/

/-- A command that succeeded and did not touch the variable. -/
structure Step.Bypasses (i : Fin 10) (s : Step μ) : Prop where
  success : s.result.success = true
  code : s.result.code = .ok
  held_eq : s.left.held i = s.before.vars.held i

/-- One iteration: a command that is no addition is one that does not touch the variable. -/
theorem accumulates_iterationCalls {commands : List Command} {ks : List ℤ}
    (htallies : Tallies i commands ks)
    {steps : List (Step μ)} (hcommands : steps.map Step.command = commands)
    (hok : ∀ s ∈ steps, s.result.success = true)
    (hothers : ∀ s ∈ steps, (∀ k, ¬s.command.Adds i k) → s.Bypasses i) :
    Accumulates i (iterationCalls steps) ks := by
  refine .poll ?_
  induction htallies generalizing steps with
  | nil =>
      rw [List.map_eq_nil_iff.1 hcommands]
      exact .nil
  | addition hadds _ ih =>
      obtain ⟨s, steps, rfl, rfl, hrest⟩ := List.map_eq_cons_iff.1 hcommands
      rw [List.forall_mem_cons] at hok hothers
      rw [List.flatMap_cons, Step.calls_of_success hok.1]
      exact .poll (.added hadds (ih hrest hok.2 hothers.2))
  | other hnone _ ih =>
      obtain ⟨s, steps, rfl, rfl, hrest⟩ := List.map_eq_cons_iff.1 hcommands
      rw [List.forall_mem_cons] at hok hothers
      rw [List.flatMap_cons, Step.calls_of_success hok.1]
      refine .poll (.kept (fun given left hhanded => ?_) (ih hrest hok.2 hothers.2))
      cases hhanded
      exact (hothers.1 hnone).held_eq

/-- Iterations that each accumulate the same integers accumulate them over and over. -/
theorem accumulates_flatMap {ks : List ℤ} {iterations : List (List (Step μ))}
    (hall : ∀ steps ∈ iterations, Accumulates i (iterationCalls steps) ks) :
    Accumulates i (iterations.flatMap iterationCalls) (List.replicate iterations.length ks).flatten := by
  induction iterations with
  | nil => exact .nil
  | cons steps iterations ih =>
      rw [List.forall_mem_cons] at hall
      exact hall.1.append (ih hall.2)

/-- An iteration without a failure plays all commands. -/
theorem Counts.complete {commands : List Command} {steps : List (Step μ)}
    (hcounts : Counts commands steps) (hok : ∀ s ∈ steps, s.result.success = true) :
    steps.map Step.command = commands := by
  cases hcounts with
  | finished hcommands _ => exact hcommands
  | skipped _ _ hfailed =>
      rw [hok _ (by simp)] at hfailed
      cases hfailed

/-! ### Commands of the script -/

section Dispatched

variable {commands : List Command} {n : Nat} {t : Tally} {m : Memory μ} {h : History (Run μ)}
  {stage : Stage μ}

/-- Nothing but the commands of the list is dispatched. -/
theorem command_mem_playCommands (hrun : (playCommands n commands t m).Runs h stage) :
    ∀ s ∈ dispatched h, s.command ∈ commands := by
  intro s hs
  rcases runs_playCommands hrun with ⟨passed, rest, m', h', rfl, -, -, rfl, hexit⟩
  rw [dispatched_append, dispatched_flatMap_calls, List.mem_append] at hs
  rcases hs with hs | hs
  · exact List.mem_append_left _ (List.mem_map_of_mem hs)
  · -- The command that an iteration was left at is the first of those that are not passed.
    refine List.mem_append_right _ ?_
    cases hexit <;> simp_all

theorem command_mem_playIteration {hasDatasource : Bool}
    (hrun : (playIteration commands hasDatasource n t m).Runs h stage) :
    ∀ s ∈ dispatched h, s.command ∈ commands := by
  rcases runs_playIteration hrun with hrefused | ⟨h₁, h₂, m', hopened, rfl, hplayed⟩
  · cases hrefused <;> simp
  · rw [dispatched_append, dispatched_opening hopened]
    exact command_mem_playCommands hplayed

theorem command_mem_playIterations {hasDatasource : Bool} {left : Nat} {t' : Tally} {m' : Memory μ}
    (hrun : (playIterations commands hasDatasource left n t m).Runs h (t', m')) :
    ∀ s ∈ dispatched h, s.command ∈ commands := by
  induction left generalizing n t m h with
  | zero =>
      obtain ⟨rfl, -⟩ := Proc.runs_done_iff.1 hrun
      simp
  | succ left ih =>
      rcases runs_playIterations_succ hrun with hlast | ⟨h₁, h₂, t₁, m₁, rfl, hfirst, hrest⟩
      · exact command_mem_playIteration hlast
      · rw [dispatched_append, List.forall_mem_append]
        exact ⟨command_mem_playIteration hfirst, ih hrest⟩

/-- A run dispatches commands of its script only. -/
theorem command_mem_plan {setup : Setup η} {m' : Memory μ} {r : RunResult}
    (hrun : (plan setup m).Runs h (r, m')) : ∀ s ∈ dispatched h, s.command ∈ setup.script.commands := by
  rcases runs_plan hrun with ⟨h₁, h₂, t, m₁, rfl, hplayed, hclosing, -, -⟩
  rw [dispatched_append, dispatched_closing hclosing, List.append_nil]
  exact command_mem_playIterations hplayed

end Dispatched

/-! ### Whole scripts -/

/-- A run without a datasource and without a failure plays the whole script in each iteration, so that
each of them adds the integers of the script. -/
theorem accumulates_plan {setup : Setup η} {m m' : Memory μ} {h : History (Run μ)} {r : RunResult}
    {ks : List ℤ} (hrun : (plan setup m).Runs h (r, m')) (hsource : setup.hasDatasource = false)
    (htallies : Tallies i setup.script.commands ks) (hquiet : Quiet h)
    (hok : ∀ s ∈ dispatched h, s.result.success = true)
    (hothers : ∀ s ∈ dispatched h, (∀ k, ¬s.command.Adds i k) → s.Bypasses i) :
    r.state = .completed ∧ r.loops = max 1 setup.loops ∧
      Accumulates i h (List.replicate (max 1 setup.loops) ks).flatten := by
  rcases runs_plan hrun with ⟨h₁, h₂, t, m₁, rfl, hplayed, hclosing, rfl, -⟩
  rw [hsource] at hplayed
  rcases runs_playIterations_quiet hplayed (quiet_append_iff.1 hquiet).1 rfl with
    ⟨iterations, records, rfl, hend⟩
  -- Every command of an iteration is dispatched in the run, and so has succeeded.
  have hsteps : ∀ steps ∈ iterations, ∀ s ∈ steps,
      s ∈ dispatched (iterations.flatMap iterationCalls ++ h₂) := by
    intro steps hsteps s hs
    rw [dispatched_append, dispatched_iterations]
    exact List.mem_append_left _ (List.mem_flatten.2 ⟨steps, hsteps, hs⟩)
  rcases hend with ⟨hclosed, hlength, rfl⟩ | ⟨closed, steps, s, rfl, -, hbroken, -⟩
  · refine ⟨rfl, by simp [Tally.result, Tally.start], ?_⟩
    have hiterations : ∀ steps ∈ iterations, Accumulates i (iterationCalls steps) ks := by
      intro steps hmem
      have hsucceeded : ∀ s ∈ steps, s.result.success = true :=
        fun s hs => hok s (hsteps steps hmem s hs)
      exact accumulates_iterationCalls htallies ((hclosed steps hmem).complete hsucceeded) hsucceeded
        fun s hs => hothers s (hsteps steps hmem s hs)
    rw [← hlength, ← List.append_nil (List.flatten _)]
    exact (accumulates_flatMap hiterations).append (.of_closing hclosing)
  · -- An iteration that breaks the run has a failure in it.
    obtain ⟨⟨⟨hfailed, -⟩, -⟩, passed, rfl, -⟩ := hbroken.fatal
    rw [hok s (hsteps (passed ++ [s]) (by simp) s (by simp))] at hfailed
    cases hfailed

end Run

/-! ## Runs of an engine -/

namespace Engine
namespace Execution

variable {ι : Interface} {μ : Type} {e : Engine ι μ} {i : Fin 10} {ks : List ℤ}

section Additions

variable (hadd : e.registry.find? "ADD" = some Assign.addHandler) (x : e.Execution)
include hadd

/-- A command that adds an integer succeeds. -/
theorem result_of_adds {s : Run.Step μ} (hs : s ∈ Run.dispatched x.events) {k : ℤ}
    (hadds : s.command.Adds i k) : s.result = .ok := by
  obtain ⟨calls, hrun⟩ := x.exists_runs_dispatch hs
  obtain ⟨text, htext, hspells⟩ := hadds
  exact (htext.of_runs hspells hadd hrun).1

theorem sums_of_adds {s : Run.Step μ} (hs : s ∈ Run.dispatched x.events) {k : ℤ}
    (hadds : s.command.Adds i k) : s.Sums i k := by
  obtain ⟨calls, hrun⟩ := x.exists_runs_dispatch hs
  obtain ⟨text, htext, hspells⟩ := hadds
  have hmemory := (htext.of_runs hspells hadd hrun).2
  refine ⟨text, hspells, ?_⟩
  rw [Run.Step.left, hmemory, Store.held_addText]

end Additions

/-! ## Runs that are not stopped -/

/-- Replies of surroundings in which time stands still and no stop is requested. -/
def calmReply (reply : (c : ι.Call) → ι.Reply c) : (c : (Timed ι).Call) → (Timed ι).Reply c
  | .clock => midnight
  | .stopRequested => false
  | .pause d => ⟨d, false⟩
  | .ask c _ _ => ⟨.zero, .replied (reply c)⟩

/-- Every script can be played without being stopped. -/
theorem exists_unstopped (e : Engine ι μ) (reply : (c : ι.Call) → ι.Reply c) (script : Script)
    (loops : Option Nat) (m : Memory μ) :
    ∃ x : e.Execution,
      x.script = script ∧ x.loops = loops ∧ x.memory = m ∧ Run.poll true ∉ x.events := by
  obtain ⟨h, ⟨r, left⟩, hrun, hreply⟩ :=
    Proc.exists_runs (fun _ => calmReply reply) (e.run script loops m)
  obtain ⟨x, hscript, hloops, hmemory, rfl, -, -⟩ := runs_run_iff.1 hrun
  refine ⟨x, hscript, hloops, hmemory, fun hpoll => ?_⟩
  obtain ⟨⟨event, calls, hserved⟩, hjob, hevent⟩ := List.mem_map.1 hpoll
  cases hevent
  -- The run was told what the engine was told, and that was never a stop.
  obtain ⟨told, h', rfl, hdone⟩ := Proc.runs_call_iff.1 hserved
  obtain ⟨-, rfl⟩ := Proc.runs_done_iff.1 hdone
  have hmem : (⟨.stopRequested, true⟩ : Event (Timed ι)) ∈ x.history := by
    refine List.mem_cons_of_mem _ (List.mem_append_left _ (List.mem_flatMap.2 ⟨_, hjob, ?_⟩))
    exact List.mem_cons_self
  obtain ⟨h₁, h₂, hsplit⟩ := List.append_of_mem hmem
  cases hreply h₁ _ _ h₂ hsplit

/-! ## Sums -/

/-- The run adds these integers to a variable that was empty. They are numbers, and their sums on the way
do not exceed `2 ^ 53`. -/
structure SumsUp (x : e.Execution) (i : Fin 10) (ks : List ℤ) : Prop where
  handler : e.registry.find? "ADD" = some Assign.addHandler
  empty : x.memory.vars.held i = Value.empty
  calls : Run.Accumulates i x.events ks
  numbers : ∀ k ∈ ks, IsExact k
  range : ∀ part, part <+: ks → part.sum.natAbs ≤ 2 ^ 53

/-- At the end of the run the variable holds the total of all that was added. -/
theorem SumsUp.held_eq {x : e.Execution} (hx : x.SumsUp i ks) : x.left.vars.held i = total ks := by
  have hconveys : Run.Conveys i (total []) x.events (x.left.vars.held i) := by
    have hempty : total [] = x.memory.vars.held i := hx.empty.symm
    rw [hempty]
    exact Run.conveys_plan x.plays
  have hsums : ∀ s ∈ Run.dispatched x.events, ∀ k, s.command.Adds i k → s.Sums i k :=
    fun s hs k => x.sums_of_adds hx.handler hs
  refine hx.calls.held_eq hsums hconveys hx.numbers fun part hpart => ?_
  rw [List.nil_append]
  exact hx.range part hpart

/-- The variable is left with the integer, as a number. -/
structure Leaves (x : e.Execution) (i : Fin 10) (n : ℤ) : Prop where
  integer : (ofInt n).toInt? = some n
  value : ∀ now spelling, Variable.SameName spelling (user i) →
    x.left.vars.get now spelling = some (.number (ofInt n))
  told : x.result.finalValue? (user i) = some (.number (ofInt n))

/-- The result tells what the store holds at the end. -/
theorem finalValue?_user (x : e.Execution) :
    x.result.finalValue? (user i) = x.left.vars.values.find? (user i) := by
  obtain ⟨h₁, h₂, t, m, -, -, -, hresult, hvars⟩ := Run.runs_plan x.plays
  have hupper : ∀ i, Text.upper (user i) = user i := by decide
  have hbindings : x.result.bindings = x.left.vars.snapshot := by
    simp only [result, hresult, hvars]
    rfl
  rw [RunResult.finalValue?, hupper, hbindings, Store.snapshot, Bindings.find?_sortedByName,
    Bindings.find?_put_of_ne _ _ (Variable.user_ne i).2.1]

theorem SumsUp.leaves {x : e.Execution} (hx : x.SumsUp i ks) (hsome : ks ≠ []) : x.Leaves i ks.sum := by
  have hheld : x.left.vars.held i = .number (ofInt ks.sum) := by
    rw [hx.held_eq, Addition.total_of_ne_nil hsome]
  refine ⟨Number.toInt?_ofInt (hx.range ks (List.prefix_refl ks)), fun now spelling hname => ?_, ?_⟩
  · rw [Store.get_user _ _ hname, hheld]
  · rw [finalValue?_user]
    cases hfind : x.left.vars.values.find? (user i) with
    | none =>
        rw [Store.held, hfind] at hheld
        cases hheld
    | some v =>
        rw [Store.held, hfind] at hheld
        exact congrArg some hheld

/-- The run has no datasource, it was not asked to stop, and commands that are no additions succeeded
and did not touch the variable. -/
structure Unhindered (x : e.Execution) (i : Fin 10) : Prop where
  handler : e.registry.find? "ADD" = some Assign.addHandler
  rows : e.datasource = none
  goesOn : Run.poll true ∉ x.events
  others : ∀ s ∈ Run.dispatched x.events, (∀ k, ¬s.command.Adds i k) → s.Bypasses i

def iterations (x : e.Execution) : Nat :=
  max 1 (x.loops.getD e.settings.maxLoops)

/-- The run plays its script to the end, and adds the integers of the script in each iteration. -/
theorem Unhindered.accumulates {x : e.Execution} (hx : x.Unhindered i)
    (htallies : Tallies i x.script.commands ks) :
    x.result.state = .completed ∧ x.result.loops = x.iterations ∧
      Run.Accumulates i x.events (List.replicate x.iterations ks).flatten := by
  have hfine : ∀ s ∈ Run.dispatched x.events, s.result.success = true ∧ s.result.code = .ok := by
    intro s hs
    by_cases hadds : ∃ k, s.command.Adds i k
    · obtain ⟨k, hadds⟩ := hadds
      rw [x.result_of_adds hx.handler hs hadds]
      exact ⟨rfl, rfl⟩
    · have hother := hx.others s hs (not_exists.1 hadds)
      exact ⟨hother.success, hother.code⟩
  have hquiet : Run.Quiet x.events := by
    refine ⟨hx.goesOn, fun s hs => ?_⟩
    rw [(hfine s hs).2]
    decide
  have hsource : (e.setup x.script x.loops).hasDatasource = false := by simp [setup, hx.rows]
  exact Run.accumulates_plan x.plays hsource htallies hquiet (fun s hs => (hfine s hs).1) hx.others

/-- A script of additions has no other commands. -/
theorem unhindered_of_adds {x : e.Execution} (hadd : e.registry.find? "ADD" = some Assign.addHandler)
    (hrows : e.datasource = none) (hgoesOn : Run.poll true ∉ x.events)
    (hscript : List.Forall₂ (fun c k => c.Adds i k) x.script.commands ks) : x.Unhindered i := by
  refine ⟨hadd, hrows, hgoesOn, fun s hs hnone => ?_⟩
  obtain ⟨k, hadds⟩ := exists_rel_of_mem hscript (Run.command_mem_plan x.plays s hs)
  exact absurd hadds (hnone k)

theorem Unhindered.leaves {x : e.Execution} (hx : x.Unhindered i)
    (htallies : Tallies i x.script.commands ks) (hempty : x.memory.vars.held i = Value.empty)
    (hsome : ks ≠ []) (hexact : ∀ k ∈ ks, IsExact k)
    (hrange : ∀ part, part <+: (List.replicate x.iterations ks).flatten → part.sum.natAbs ≤ 2 ^ 53) :
    x.Leaves i (x.iterations * ks.sum) := by
  have hsums : x.SumsUp i (List.replicate x.iterations ks).flatten := by
    refine ⟨hx.handler, hempty, (hx.accumulates htallies).2.2, fun k hk => ?_, hrange⟩
    obtain ⟨l, hl, hk⟩ := List.mem_flatten.1 hk
    rw [List.eq_of_mem_replicate hl] at hk
    exact hexact k hk
  have hpos : 1 ≤ x.iterations := Nat.le_max_left 1 _
  have htotal : (List.replicate x.iterations ks).flatten.sum = x.iterations * ks.sum := by
    rw [List.sum_flatten, List.map_replicate, List.sum_replicate, nsmul_eq_mul]
  rw [← htotal]
  refine hsums.leaves fun hnil => ?_
  exact hsome (List.flatten_eq_nil_iff.1 hnil ks (List.mem_replicate.2 ⟨by omega, rfl⟩))

/-- A count by ones stays in range. -/
theorem sum_le_of_prefix_ones {n : Nat} {part : List ℤ} (hpart : part <+: List.replicate n 1) :
    part.sum.natAbs ≤ n := by
  have hones : part = List.replicate part.length 1 :=
    List.eq_replicate_of_mem fun k hk => List.eq_of_mem_replicate (hpart.subset hk)
  have hsum : part.sum = part.length := by
    rw [hones, List.sum_replicate, List.length_replicate, nsmul_eq_mul, mul_one]
  have hlength : part.length ≤ n := by simpa using hpart.length_le
  omega

/-- **Integers add up exactly.** A user variable that was empty and to which a run adds integers is left
with their sum, as a number, whatever else the run does without touching it; every addition succeeds,
and the order of the integers does not count. A run that nothing comes in the way of adds the integers
of its script in each iteration. Lines with `ADD`, the variable and an integer are commands that add the
integer, so the line `ADD !VAR1 1` counts the iterations. -/
theorem additions_accumulate :
    (∀ {e : Engine ι μ} (x : e.Execution) (i : Fin 10) (ks : List ℤ), x.SumsUp i ks →
      (ks ≠ [] → x.Leaves i ks.sum) ∧
      (∀ s ∈ Run.dispatched x.events, ∀ k, s.command.Adds i k → s.result = .ok) ∧
      ∀ {e' : Engine ι μ} (y : e'.Execution) (ks' : List ℤ), y.SumsUp i ks' → ks'.Perm ks →
        ∀ now, y.left.vars.get now (user i) = x.left.vars.get now (user i)) ∧
    (∀ {e : Engine ι μ} (x : e.Execution) (i : Fin 10) (ks : List ℤ), x.Unhindered i →
      Tallies i x.script.commands ks →
      x.result.state = .completed ∧ x.result.loops = x.iterations ∧
      (x.memory.vars.held i = Value.empty → ks ≠ [] → (∀ k ∈ ks, IsExact k) →
        (∀ part, part <+: (List.replicate x.iterations ks).flatten → part.sum.natAbs ≤ 2 ^ 53) →
        x.Leaves i (x.iterations * ks.sum))) ∧
    (∀ (i : Fin 10) (texts : List String) (ks : List ℤ),
      List.Forall₂ (fun text k => Spells text.toList k) texts ks → ∀ title,
      List.Forall₂ (fun c k => c.Adds i k) (Script.parse title ("\n".intercalate
        (texts.map fun text => "ADD " ++ user i ++ " " ++ text))).commands ks) ∧
    ∀ {e : Engine ι μ} (x : e.Execution) (title : String) (n : Nat),
      e.registry.find? "ADD" = some Assign.addHandler → e.datasource = none →
      x.script = Script.parse title "ADD !VAR1 1" → x.loops = some n → 1 ≤ n → n ≤ 2 ^ 53 →
      x.memory.vars.held 1 = Value.empty → Run.poll true ∉ x.events →
      x.result.state = .completed ∧ x.result.loops = n ∧ x.Leaves 1 n := by
  refine ⟨?sums, ?scripts, fun i texts ks hspells => Addition.adds_script i hspells, ?counting⟩
  case sums =>
    intro e x i ks hx
    refine ⟨hx.leaves, fun s hs k => x.result_of_adds hx.handler hs, ?_⟩
    intro e' y ks' hy hperm now
    have hsame : Variable.SameName (user i) (user i) := Variable.sameName_iff.2 rfl
    rw [Store.get_user _ _ hsame, Store.get_user _ _ hsame, hx.held_eq, hy.held_eq,
      Addition.total_perm hperm]
  case scripts =>
    intro e x i ks hx htallies
    obtain ⟨hstate, hloops, -⟩ := hx.accumulates htallies
    exact ⟨hstate, hloops, hx.leaves htallies⟩
  case counting =>
    intro e x title n hadd hrows hscript hloops hpos hmost hempty hgoesOn
    have hspells : Spells "1".toList 1 := .plain (by decide) (by decide)
    have hline : "ADD !VAR1 1" = Addition.script 1 ["1"] := by decide
    have hadds : List.Forall₂ (fun c k => c.Adds 1 k) x.script.commands [1] := by
      rw [hscript, hline]
      exact Addition.adds_script 1 (.cons hspells .nil) title
    -- All commands are additions, so that nothing comes in the way of the run.
    have hx := unhindered_of_adds hadd hrows hgoesOn hadds
    have htallies := Tallies.of_forall₂ hadds
    have hiterations : x.iterations = n := by simp [iterations, hloops, hpos]
    obtain ⟨hstate, hcount, -⟩ := hx.accumulates htallies
    have hleaves := hx.leaves htallies hempty (by simp)
      (by simpa using IsExact.of_le (k := 1) (by decide))
    rw [hiterations, List.flatten_replicate_singleton, List.sum_singleton, mul_one] at hleaves
    exact ⟨hstate, hcount.trans hiterations,
      hleaves fun part hpart => (sum_le_of_prefix_ones hpart).trans hmost⟩

/-- A script of additions is played once, from the initial variables. -/
theorem exists_sumsUp {texts : List String}
    (hspells : List.Forall₂ (fun text k => Spells text.toList k) texts ks)
    (hexact : ∀ k ∈ ks, IsExact k) (hrange : ∀ part ∈ ks.inits, part.sum.natAbs ≤ 2 ^ 53) :
    ∃ x : bareEngine.Execution, x.script = Script.parse "sum" (Addition.script 1 texts) ∧
      x.memory = ⟨.initial, ()⟩ ∧ x.Unhindered 1 ∧ Tallies 1 x.script.commands ks ∧
      x.SumsUp 1 ks := by
  obtain ⟨x, hscript, hloops, hmemory, hgoesOn⟩ := exists_unstopped bareEngine (·.elim)
    (Script.parse "sum" (Addition.script 1 texts)) (some 1) ⟨.initial, ()⟩
  have hadds : List.Forall₂ (fun c k => c.Adds 1 k) x.script.commands ks := by
    rw [hscript]
    exact Addition.adds_script 1 hspells "sum"
  have hx : x.Unhindered 1 := unhindered_of_adds Assign.find?_builtin_add rfl hgoesOn hadds
  have hiterations : x.iterations = 1 := by simp [iterations, hloops]
  obtain ⟨-, -, hcalls⟩ := hx.accumulates (.of_forall₂ hadds)
  rw [hiterations, List.replicate_one, List.flatten_singleton] at hcalls
  refine ⟨x, hscript, hmemory, hx, .of_forall₂ hadds, hx.handler, ?_, hcalls, hexact,
    fun part hpart => ?_⟩
  · rw [hmemory]
    decide
  · exact hrange part ((List.mem_inits ..).2 hpart)

/-- Three integers up to the bound, in two orders, and a million iterations. -/
theorem additions_accumulate_bound :
    ∃ x y z : bareEngine.Execution,
      (x.script = Script.parse "sum" "ADD !VAR1 -5\nADD !VAR1 9007199254740994\nADD !VAR1 +003" ∧
        x.memory.vars = .initial ∧ x.result.state = .completed ∧ x.Leaves 1 (2 ^ 53)) ∧
      (y.script = Script.parse "sum" "ADD !VAR1 +003\nADD !VAR1 -5\nADD !VAR1 9007199254740994" ∧
        y.memory.vars = .initial ∧
        ∀ now, y.left.vars.get now "!VAR1" = x.left.vars.get now "!VAR1") ∧
      (z.script = Script.parse "count" "ADD !VAR1 1" ∧ z.loops = some 1000000 ∧
        z.memory.vars = .initial ∧ z.result.loops = 1000000 ∧ z.Leaves 1 1000000) := by
  obtain ⟨hsums, hscripts, -, hcounting⟩ := additions_accumulate (ι := .empty) (μ := Unit)
  have hfive : Spells "-5".toList (-5) := .minus (by decide) (by decide)
  have hthree : Spells "+003".toList 3 := .plus (by decide) (by decide)
  have hgreat : Spells "9007199254740994".toList 9007199254740994 := .plain (by decide) (by decide)
  -- The second integer is above 2^53, but it is even, and so it is a number.
  have hexact : ∀ k ∈ [(-5 : ℤ), 9007199254740994, 3], IsExact k := by
    simp only [List.forall_mem_cons]
    exact ⟨.of_le (by decide), ⟨ofInt 9007199254740994, by decide +kernel⟩, .of_le (by decide),
      by simp⟩
  obtain ⟨x, hx, hxmemory, hxfree, hxtallies, hxsums⟩ :=
    exists_sumsUp (.cons hfive (.cons hgreat (.cons hthree .nil))) hexact (by decide +kernel)
  have hperm : [(3 : ℤ), -5, 9007199254740994].Perm [-5, 9007199254740994, 3] := by decide
  obtain ⟨y, hy, hymemory, -, -, hysums⟩ :=
    exists_sumsUp (.cons hthree (.cons hfive (.cons hgreat .nil)))
      (fun k hk => hexact k (hperm.subset hk)) (by decide +kernel)
  obtain ⟨z, hz, hloops, hzmemory, hgoesOn⟩ := exists_unstopped bareEngine (·.elim)
    (Script.parse "count" "ADD !VAR1 1") (some 1000000) ⟨.initial, ()⟩
  have hzempty : z.memory.vars.held 1 = Value.empty := by
    rw [hzmemory]
    decide
  obtain ⟨hleaves, -, horder⟩ := hsums x 1 _ hxsums
  obtain ⟨-, hcount, hz'⟩ :=
    hcounting z "count" 1000000 Assign.find?_builtin_add rfl hz hloops (by decide)
    (by decide) hzempty hgoesOn
  exact ⟨x, y, z,
    ⟨hx, by rw [hxmemory], (hscripts x 1 _ hxfree hxtallies).1, hleaves (by simp)⟩,
    ⟨hy, by rw [hymemory], horder y _ hysums hperm⟩, hz, hloops, by rw [hzmemory], hcount, hz'⟩

def lowering : Command :=
  ⟨"ADD", [⟨none, "!VAR1", "!VAR1"⟩, ⟨none, "-1", "-1"⟩], "ADD !VAR1 -1", 1, none⟩

def raising : Command :=
  ⟨"ADD", [⟨none, "!VAR1", "!VAR1"⟩, ⟨none, "9007199254740993", "9007199254740993"⟩],
    "ADD !VAR1 9007199254740993", 2, none⟩

theorem addsText_lowering : lowering.AddsText 1 "-1" :=
  ⟨rfl, by decide, _, _, _, _, rfl, by decide⟩

theorem addsText_raising : raising.AddsText 1 "9007199254740993" :=
  ⟨rfl, by decide, _, _, _, _, rfl, by decide⟩

theorem spells_lowering : Spells "-1".toList (-1) := .minus (by decide) (by decide)

theorem spells_raising : Spells "9007199254740993".toList 9007199254740993 :=
  .plain (by decide) (by decide)

def loweredVars : Store := blankMemory.vars.addText 1 "-1"

def missingRun : bareEngine.Execution where
  script := ⟨"miss", [lowering, raising]⟩
  loops := some 1
  memory := ⟨⟨[], [], false⟩, ()⟩
  began := midnight
  ended := midnight
  jobs := [asked _, asked _,
    ⟨⟨.dispatch lowering blankMemory, _⟩, _,
      addsText_lowering.runs_dispatch spells_lowering Assign.find?_builtin_add blankMemory midnight⟩,
    asked _,
    ⟨⟨.dispatch raising ⟨loweredVars, ()⟩, _⟩, _,
      addsText_raising.runs_dispatch spells_raising Assign.find?_builtin_add ⟨loweredVars, ()⟩
        midnight⟩]
  played := Run.Tally.result ⟨.completed, .ok, none, none, 1, []⟩ "miss"
    (loweredVars.addText 1 "9007199254740993")
  left := ⟨loweredVars.addText 1 "9007199254740993", ()⟩
  plays := .call _ (.call _ (.call _ (.call _ (.call _ (.done _)))))

/-- Sums on the way are not enough: `2 ^ 53 + 1` is no number, and is read as `2 ^ 53`. The variable is
left with a sum that is one too small, although no sum exceeds `2 ^ 53`. -/
theorem integer_beyond_bound_misses_sum :
    missingRun.script = Script.parse "miss" "ADD !VAR1 -1\nADD !VAR1 9007199254740993" ∧
      missingRun.memory.vars.held 1 = Value.empty ∧
      Run.Accumulates 1 missingRun.events [-1, 9007199254740993] ∧
      (∀ part ∈ [(-1 : ℤ), 9007199254740993].inits, part.sum.natAbs ≤ 2 ^ 53) ∧
      missingRun.left.vars.held 1 = .number (ofInt 9007199254740991) ∧
      ¬missingRun.Leaves 1 9007199254740992 := by
  have hheld : missingRun.left.vars.held 1 = .number (ofInt 9007199254740991) := by decide +kernel
  refine ⟨by decide +kernel, rfl, ?_, by decide +kernel, hheld, fun hleaves => ?_⟩
  · exact .poll (.poll
      (.added (s := ⟨lowering, blankMemory, _⟩) ⟨_, addsText_lowering, spells_lowering⟩
        (.poll
          (.added (s := ⟨raising, ⟨loweredVars, ()⟩, _⟩) ⟨_, addsText_raising, spells_raising⟩
            .nil))))
  · have hvalue := hleaves.value midnight.date "!VAR1" (by decide)
    rw [Store.get_user _ _ (i := 1) (by decide), hheld] at hvalue
    exact absurd hvalue (by decide +kernel)

end Execution
end Engine
end MacroReplay
