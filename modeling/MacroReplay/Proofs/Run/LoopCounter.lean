import MacroReplay.Proofs.Engine.Execution
import MacroReplay.Proofs.Handler.Dispatch
import MacroReplay.Proofs.Run.Bookkeeping
import MacroReplay.Proofs.Run.Indifference
import MacroReplay.Proofs.Run.Laps
import MacroReplay.Proofs.Variable.Expansion

/-!
# The loop counter of a run

`!LOOP` is 1 in the first iteration and goes up by one from each iteration to the next. A script may
assign it, and then it goes on from the assigned value.

* `Run.Linked.opened_after` — iterations after an assignment, by induction on their number;
* `Run.Unrolls.opened_next` — what an iteration is begun with, from the end of the one before;
* `Engine.assignsOnly_of_builtin` — the built-in commands write variables by assignments only;
* `Engine.Execution.countsLoops_of_assignsOnly` — whole runs of an engine.
-/

namespace MacroReplay

open Variable (greatestInteger)

namespace Run

variable {μ : Type}

/-! ## The counter along the iterations -/

namespace Linked

variable {s s' : Store} {laps laps' before between after : List (Lap μ)} {lap next : Lap μ}

/-- Laps are linked if both parts of them are, at the store in between. -/
theorem append_iff :
    Linked s (laps ++ laps') s' ↔ ∃ mid, Linked s laps mid ∧ Linked mid laps' s' := by
  induction laps generalizing s with
  | nil => simp [Linked]
  | cons lap laps ih => simp [Linked, ih, and_assoc]

theorem loopAssigned_countUp (i : Nat) (s : Store) : (countUp i s).loopAssigned = s.loopAssigned := by
  unfold countUp
  split
  · exact Store.loopAssigned_advanceLoop i s
  · rfl

/-- Counting up keeps the counter within its range. -/
theorem loopInRange_countUp (hs : s.LoopInRange) {i : Nat} (hmost : i ≤ greatestInteger) :
    (countUp i s).LoopInRange := by
  unfold countUp
  split
  · exact hs.advanceLoop (by omega) hmost
  · exact hs

/-- `!LOOP` is marked as assigned from the first assignment in any of the iterations on. -/
theorem loopAssigned_eq_true_iff (hlinked : Linked s laps s') (hs : s.loopAssigned = false) :
    s'.loopAssigned = true ↔ ∃ lap ∈ laps, lap.given ≠ [] := by
  -- The mark is never taken back, so the induction has to begin with any mark.
  have hmark : s'.loopAssigned = (s.loopAssigned || laps.any fun lap => !lap.given.isEmpty) := by
    clear hs
    induction laps generalizing s with
    | nil =>
        cases hlinked
        simp
    | cons lap laps ih =>
        have hopened : lap.opened.loopAssigned = s.loopAssigned := by
          rw [hlinked.1, loopAssigned_countUp]
        rw [ih hlinked.2, lap.loopAssigned_closed, hopened, List.any_cons, Bool.or_assoc]
  simp [hmark, hs]

/-- The counter stays in its range. -/
theorem loopInRange (hlinked : Linked s laps s') (hs : s.LoopInRange)
    (hmost : ∀ lap ∈ laps, lap.number ≤ greatestInteger) :
    s'.LoopInRange ∧ ∀ lap ∈ laps, lap.opened.LoopInRange := by
  induction laps generalizing s with
  | nil =>
      cases hlinked
      exact ⟨hs, by simp⟩
  | cons lap laps ih =>
      obtain ⟨hopened, hrest⟩ := hlinked
      rw [List.forall_mem_cons] at hmost
      have hrange : lap.opened.LoopInRange := by
        rw [hopened]
        exact loopInRange_countUp hs hmost.1
      obtain ⟨hend, hothers⟩ := ih hrest (hrange.assignAll lap.wishes) hmost.2
      exact ⟨hend, List.forall_mem_cons.2 ⟨hrange, hothers⟩⟩

/-- Iterations in which `!LOOP` is not assigned count on from the value that it had before them. -/
theorem opened_after (hlinked : Linked s (between ++ next :: after) s') {value : Nat}
    (hvalue : s.integer? "!LOOP" = some (value : Int)) (hpos : 1 ≤ value) (hmark : s.loopAssigned = true)
    (hidle : ∀ l ∈ between, l.given = [])
    (hnumbers : ∀ l ∈ between ++ next :: after, 1 < l.number ∧ l.number ≤ greatestInteger) :
    next.opened.integer? "!LOOP" =
      some ((min greatestInteger (value + (between.length + 1)) : Nat) : Int) := by
  -- Each iteration of `between` adds one, and what has come to the greatest value stays there.
  induction between generalizing s value with
  | nil =>
      obtain ⟨hlater, hmost⟩ := hnumbers next (by simp)
      rw [hlinked.1, countUp, if_pos hlater, Store.integer?_advanceLoop hvalue hpos hmost, hmark]
      rfl
  | cons lap between ih =>
      obtain ⟨hopened, hrest⟩ := hlinked
      rw [List.forall_mem_cons] at hidle
      rw [List.cons_append, List.forall_mem_cons] at hnumbers
      obtain ⟨⟨hlater, hmost⟩, hothers⟩ := hnumbers
      have hone : 1 ≤ greatestInteger := by decide
      have hcounted : lap.opened.integer? "!LOOP" =
          some ((min greatestInteger (value + 1) : Nat) : Int) := by
        rw [hopened, countUp, if_pos hlater, Store.integer?_advanceLoop hvalue hpos hmost, hmark]
        rfl
      have hclosed : lap.closed.integer? "!LOOP" =
          some ((min greatestInteger (value + 1) : Nat) : Int) := by
        rw [lap.integer?_closed, hidle.1]
        exact hcounted
      have hmarked : lap.closed.loopAssigned = true := by
        rw [lap.loopAssigned_closed, hopened, loopAssigned_countUp, hmark, Bool.true_or]
      rw [ih hrest hclosed (by omega) hmarked hidle.2 hothers, List.length_cons]
      congr 2
      omega

end Linked

/-! ## The iterations of one run -/

namespace Unrolls

variable {s s' : Store} {left : Nat} {h : History (Run μ)} {laps before between after : List (Lap μ)}
  {lap next : Lap μ}

/-- The laps are numbered from 1 on. -/
theorem number_eq (hlaps : Unrolls left 1 s h s' laps) (hsplit : laps = before ++ lap :: after) :
    lap.number = 1 + before.length := by
  have hget : (laps.map Lap.number)[before.length]? = some lap.number := by simp [hsplit]
  rw [hlaps.numbers, List.getElem?_range' (by simp [hsplit])] at hget
  simpa using (Option.some.inj hget).symm

/-- There are no more laps than were asked for. -/
theorem number_le (hlaps : Unrolls left 1 s h s' laps) : ∀ lap ∈ laps, lap.number ≤ left := by
  intro lap hlap
  obtain ⟨before, after, hsplit⟩ := List.append_of_mem hlap
  have hnumber := hlaps.number_eq hsplit
  have hlength := congrArg List.length hsplit
  have hle := hlaps.length_le
  simp only [List.length_append, List.length_cons] at hlength
  omega

variable (hlaps : Unrolls left 1 s.beginRun h s' laps) (hleft : left ≤ greatestInteger)
include hlaps

/-- The first lap begins with the counter at 1. -/
theorem integer?_first (hhead : laps.head? = some lap) : lap.opened.integer? "!LOOP" = some 1 := by
  cases laps with
  | nil => nomatch hhead
  | cons lap laps =>
      cases hhead
      have hnumber : lap.number = 1 := hlaps.number_eq (List.nil_append _).symm
      rw [hlaps.linked.1, hnumber]
      exact Store.integer?_beginRun s

include hleft

theorem loopInRange : s'.LoopInRange ∧ ∀ lap ∈ laps, lap.opened.LoopInRange := by
  have hbegun : s.beginRun.LoopInRange := ⟨1, Store.integer?_beginRun s, Nat.le_refl 1, by decide⟩
  exact hlaps.linked.loopInRange hbegun fun lap hlap => (hlaps.number_le lap hlap).trans hleft

/-- What an iteration after the first is begun with. -/
theorem opened_next (hsplit : laps = before ++ lap :: next :: after) :
    ∃ previous : Nat, lap.closed.integer? "!LOOP" = some (previous : Int) ∧
      next.opened = lap.closed.setLoopCounter
        (Store.nextLoop next.number lap.closed.loopAssigned previous) ∧
      next.opened.integer? "!LOOP" =
        some (Store.nextLoop next.number lap.closed.loopAssigned previous : Int) ∧
      (lap.closed.loopAssigned = true ↔ ∃ l ∈ before ++ [lap], l.given ≠ []) := by
  have hnumber : next.number = 1 + (before ++ [lap]).length :=
    hlaps.number_eq (hsplit.trans (List.append_cons ..))
  have hlater : 1 < next.number := by
    rw [hnumber, List.length_append, List.length_singleton]
    omega
  have hmost : next.number ≤ greatestInteger := (hlaps.number_le next (by simp [hsplit])).trans hleft
  have hrange := (hlaps.loopInRange hleft).2 lap (by simp [hsplit])
  have hlinked := hlaps.linked
  rw [hsplit] at hlinked
  obtain ⟨mid, hbefore, hopened, hnext, -⟩ := Linked.append_iff.1 hlinked
  -- Up to the end of `lap` the iterations are linked by themselves.
  have hclosed : Linked s.beginRun (before ++ [lap]) lap.closed :=
    Linked.append_iff.2 ⟨mid, hbefore, hopened, rfl⟩
  -- The counter is found there in its range, so one is added to it.
  obtain ⟨previous, hprevious, hleast, -⟩ := hrange.assignAll lap.wishes
  have hset : next.opened = lap.closed.setLoopCounter
      (Store.nextLoop next.number lap.closed.loopAssigned previous) := by
    rw [hnext, countUp, if_pos hlater]
    exact Store.advanceLoop_eq hprevious hleast
  refine ⟨previous, hprevious, hset, ?_, hclosed.loopAssigned_eq_true_iff rfl⟩
  rw [hset]
  exact Store.integer?_setLoopCounter _ (Store.nextLoop_le hmost _ _)

/-- The counter goes on from the last assignment. -/
theorem integer?_since (hsplit : laps = before ++ lap :: (between ++ next :: after)) {value : Int}
    (hgiven : lap.given.getLast? = some value) (hidle : ∀ l ∈ between, l.given = []) :
    next.opened.integer? "!LOOP" = some (min 4294967295 (value + (between.length + 1))) := by
  have hnumbers : ∀ l ∈ between ++ next :: after, 1 < l.number ∧ l.number ≤ greatestInteger := by
    intro l hl
    obtain ⟨front, back, hthere⟩ := List.append_of_mem hl
    have hfound : laps = (before ++ lap :: front) ++ l :: back := by
      rw [hsplit, hthere, List.append_assoc, List.cons_append]
    have hnumber := hlaps.number_eq hfound
    have hmost := (hlaps.number_le l (by simp [hsplit, hthere])).trans hleft
    rw [List.length_append, List.length_cons] at hnumber
    exact ⟨by omega, hmost⟩
  have hrange := (hlaps.loopInRange hleft).2 lap (by simp [hsplit])
  have hlinked := hlaps.linked
  rw [hsplit] at hlinked
  obtain ⟨mid, -, -, hrest⟩ := Linked.append_iff.1 hlinked
  -- At the end of `lap` the counter is what was assigned last, which is in its range.
  obtain ⟨k, hk, hpos, -⟩ := hrange.assignAll lap.wishes
  have hclosed : lap.closed.integer? "!LOOP" = some value := by
    rw [lap.integer?_closed, hgiven]
    rfl
  have hvalue : value = (k : Int) := Option.some.inj (hclosed.symm.trans hk)
  have hmark : lap.closed.loopAssigned = true := by
    have hsome : lap.given ≠ [] := by
      rintro hnone
      rw [hnone] at hgiven
      nomatch hgiven
    simp [lap.loopAssigned_closed, hsome]
  rw [hrest.opened_after hk hpos hmark hidle hnumbers, hvalue]
  congr 1
  unfold greatestInteger
  omega

end Unrolls
end Run

/-! ## Commands that assign -/

theorem Store.assignAll_of_set {s after : Store} {name : String} {v : Value} {o : Assignment}
    (hset : s.set name v = .ok (o, after)) : s.assignAll [(name, v)] = after := by
  simp [assignAll, serve, hset]

/-- The command left the variables as assignments make them. -/
def Context.Assigned {μ : Type} (ctx : Context μ) (left : Report × Memory μ) : Prop :=
  ∃ wishes, left.2.vars = ctx.memory.vars.assignAll wishes

namespace Assign

/-- `SET` assigns once. -/
theorem exists_wish_of_set {vars left : Store} {i : Invocation} (hset : set vars i = .ok left) :
    ∃ wish, left = vars.assignAll [wish] := by
  unfold set at hset
  cases hoperands : operands i with
  | error e => simp [hoperands, bind, Except.bind] at hset
  | ok operands =>
      cases hassigned : vars.set operands.1 (literalValue operands.2) with
      | error e => simp [hoperands, hassigned, bind, Except.bind] at hset
      | ok assigned =>
          simp only [hoperands, hassigned, bind, Except.bind, Except.ok.injEq] at hset
          exact ⟨_, by rw [Store.assignAll_of_set hassigned, hset]⟩

/-- `ADD` assigns once. -/
theorem exists_wish_of_add {vars left : Store} {date : Calendar.DateTime} {i : Invocation}
    (hadd : add vars date i = .ok left) : ∃ wish, left = vars.assignAll [wish] := by
  unfold add at hadd
  cases hoperands : operands i with
  | error e => simp [hoperands, bind, Except.bind] at hadd
  | ok operands =>
      simp only [hoperands, bind, Except.bind] at hadd
      split at hadd
      · nomatch hadd
      · split at hadd
        · rename_i hassigned
          cases hadd
          exact ⟨_, (Store.assignAll_of_set hassigned).symm⟩
        · nomatch hadd

variable {ι : Interface} {μ : Type}

/-- A command that assigns what it computed, or fails and leaves everything as it was. -/
theorem assigned_withValue {ctx : Context μ} {v : Except CommandError Store}
    (hv : ∀ left, v = .ok left → ∃ wish, left = ctx.memory.vars.assignAll [wish]) :
    (ctx.withValue v fun vars => ctx.finishWith vars .ok : Proc (Timed ι) _).Obeys (fun _ => True)
      ctx.Assigned := by
  cases v with
  | ok left =>
      obtain ⟨wish, hwish⟩ := hv left rfl
      exact ⟨[wish], hwish⟩
  | error e => exact ⟨[], rfl⟩

end Assign

/-! ## Runs of an engine -/

namespace Engine

variable {ι : Interface} {μ : Type} {e : Engine ι μ}

/-- The handlers and the datasource write variables by assignments only. -/
structure AssignsOnly (e : Engine ι μ) : Prop where
  handlers : ∀ name handler, e.registry.find? name = some handler → ∀ ctx h left,
    (handler ctx).Runs h left → ctx.Assigned left
  rows : ∀ load, e.datasource = some load → ∀ i vars h report left,
    (load i vars).Runs h (report, left) → ∃ wishes, left = vars.assignAll wishes

/-- The built-in commands write variables by assignments only. -/
theorem assignsOnly_of_builtin (hregistry : e.registry = .builtin) (hrows : e.datasource = none) :
    e.AssignsOnly where
  handlers name handler hfind ctx h left hrun := by
    have hobeys : (handler ctx).Obeys (fun _ => True) ctx.Assigned := by
      rw [hregistry] at hfind
      rcases Registry.cases_of_find?_builtin hfind with rfl | rfl | rfl
      · exact Assign.assigned_withValue fun _ => Assign.exists_wish_of_set
      · exact Assign.assigned_withValue fun _ => Assign.exists_wish_of_add
      · unfold Wait.handler Context.withValue
        split
        · refine ⟨trivial, ?_⟩
          rintro ⟨took, stopped⟩
          cases stopped <;> exact ⟨[], rfl⟩
        · exact ⟨[], rfl⟩
    exact (hobeys.of_runs hrun).2
  rows load hload := by
    rw [hrows] at hload
    nomatch hload

/-- A command of such an engine changes the variables by assignments only. -/
theorem AssignsOnly.dispatch (he : e.AssignsOnly) {c : Command} {m : Memory μ} {h : History (Timed ι)}
    {d : Dispatched μ} (hrun : (e.dispatch c m).Runs h d) :
    ∃ wishes, d.memory.vars = m.vars.assignAll wishes := by
  obtain ⟨before, _, h', -, hhandled, -⟩ := runs_dispatch_iff.1 hrun
  rcases Registry.runs_dispatch hhandled with ⟨-, hkept⟩ | ⟨handler, report, -, hfind, hrun', -⟩
  · exact ⟨[], by rw [hkept]; rfl⟩
  · exact he.handlers _ handler hfind _ h' _ hrun'

namespace Execution

theorem onlyAssigns_events (he : e.AssignsOnly) (x : e.Execution) : Run.OnlyAssigns x.events := by
  intro event hmem given left hhanded
  obtain ⟨⟨⟨c, reply⟩, calls, hserved⟩, -, rfl⟩ := List.mem_map.1 hmem
  cases c with
  | load i vars =>
      cases hhanded
      cases hsource : e.datasource with
      | none =>
          simp only [serve, hsource] at hserved
          obtain ⟨-, hreply⟩ := Proc.runs_done_iff.1 hserved
          exact ⟨[], by rw [hreply]; rfl⟩
      | some load =>
          simp only [serve, hsource] at hserved
          exact he.rows load hsource i _ calls reply.1 reply.2 hserved
  | dispatch c m =>
      cases hhanded
      exact he.dispatch hserved
  | stopRequested | cleanUp | append => cases hhanded

/-- The run consists of these iterations, and of calls that have no variables. -/
def ConsistsOf (x : e.Execution) (laps : List (Run.Lap μ)) : Prop :=
  Run.Unrolls (max 1 (x.loops.getD e.settings.maxLoops)) 1 x.memory.vars.beginRun x.events
    x.left.vars laps

/-- How the loop counter goes in a run that consists of these iterations. -/
structure CountsLoops (x : e.Execution) (laps : List (Run.Lap μ)) : Prop where
  first : ∀ lap, laps.head? = some lap → lap.opened.integer? "!LOOP" = some 1
  /-- Before the first assignment the counter is the number of the iteration. -/
  unassigned : ∀ before lap next after, laps = before ++ lap :: next :: after →
    (∀ l ∈ before ++ [lap], l.given = []) →
    next.opened = lap.closed.setLoopCounter next.number ∧
      next.opened.integer? "!LOOP" = some (next.number : Int)
  /-- From then on it is one more than at the end of the iteration before, up to the greatest value. The
  value at that end is found, and no other takes its place. -/
  assigned : ∀ before lap next after, laps = before ++ lap :: next :: after →
    (∃ l ∈ before ++ [lap], l.given ≠ []) →
    ∃ previous : Nat, lap.closed.integer? "!LOOP" = some (previous : Int) ∧
      next.opened = lap.closed.setLoopCounter (min 4294967295 (previous + 1)) ∧
      next.opened.integer? "!LOOP" = some ((min 4294967295 (previous + 1) : Nat) : Int)
  /-- So it counts on from the last assignment. -/
  since : ∀ before lap between next after, laps = before ++ lap :: (between ++ next :: after) →
    ∀ value : Int, lap.given.getLast? = some value → (∀ l ∈ between, l.given = []) →
    next.opened.integer? "!LOOP" = some (min 4294967295 (value + (between.length + 1)))
  /-- At no moment is it out of its range. -/
  range : ∀ lap ∈ laps, ∀ wishes, wishes <+: lap.wishes → (lap.opened.assignAll wishes).LoopInRange
  left : x.left.vars.LoopInRange

/-- The counter is read off the iterations. -/
theorem ConsistsOf.countsLoops {x : e.Execution} {laps : List (Run.Lap μ)} (hlaps : x.ConsistsOf laps)
    (hloops : x.loops.getD e.settings.maxLoops ≤ greatestInteger) : x.CountsLoops laps := by
  have hleft : max 1 (x.loops.getD e.settings.maxLoops) ≤ greatestInteger :=
    Nat.max_le.2 ⟨by decide, hloops⟩
  obtain ⟨hend, hopened⟩ := hlaps.loopInRange hleft
  refine ⟨fun lap => hlaps.integer?_first, ?unassigned, ?assigned, ?since, ?range, hend⟩
  case unassigned =>
    intro before lap next after hsplit hnone
    obtain ⟨previous, -, hset, hvalue, hmark⟩ := hlaps.opened_next hleft hsplit
    have hclear : lap.closed.loopAssigned = false := by
      rw [← Bool.not_eq_true, hmark]
      rintro ⟨l, hl, hgiven⟩
      exact hgiven (hnone l hl)
    rw [hclear] at hset hvalue
    exact ⟨hset, hvalue⟩
  case assigned =>
    intro before lap next after hsplit hsome
    obtain ⟨previous, hprevious, hset, hvalue, hmark⟩ := hlaps.opened_next hleft hsplit
    rw [hmark.2 hsome, Store.nextLoop_true] at hset hvalue
    exact ⟨previous, hprevious, hset, hvalue⟩
  case since =>
    intro before lap between next after hsplit value hgiven hidle
    exact hlaps.integer?_since hleft hsplit hgiven hidle
  case range => exact fun lap hlap wishes _ => (hopened lap hlap).assignAll wishes

/-- A run consists of iterations: of those that it counts, and of at most one that it did not play to its
end. -/
theorem exists_consistsOf (he : e.AssignsOnly) (x : e.Execution) :
    ∃ laps, x.ConsistsOf laps ∧
      (laps.length = x.result.loops ∨ laps.length = x.result.loops + 1) := by
  obtain ⟨h, closing, t, m, hevents, hplayed, hclosing, hresult, hleft⟩ := Run.runs_plan x.plays
  have hsplit : x.events = h ++ closing := hevents
  have hassigns : Run.OnlyAssigns h := by
    intro event hmem
    apply onlyAssigns_events he x
    rw [hsplit]
    exact List.mem_append_left closing hmem
  have hidle : ∀ event ∈ closing, Run.handedOn? event = none :=
    fun event hmem => Run.handedOn?_of_closing (hclosing event hmem)
  obtain ⟨laps, hlaps, hlength⟩ := Run.laps_playIterations (t := Run.Tally.start) hassigns hplayed
  have hloops : x.result.loops = t.loops := congrArg RunResult.loops hresult
  have hstart : Run.Tally.start.loops = 0 := rfl
  refine ⟨laps, ?_, by omega⟩
  rw [ConsistsOf, hsplit, hleft]
  exact hlaps.append hidle

/-- A run of an engine and one of another engine, over equally many commands and for the same number of
loops, in which all variables and all replies are the same but for the loop counter. -/
structure Resembles {e' : Engine ι μ} (x : e.Execution) (y : e'.Execution) : Prop where
  commands : y.script.commands.length = x.script.commands.length
  loops : y.loops.getD e'.settings.maxLoops = x.loops.getD e.settings.maxLoops
  rows : e'.datasource.isSome = e.datasource.isSome
  vars : x.memory.vars.SameButLoop y.memory.vars
  replies : ∀ pair ∈ x.events.zip y.events, Run.butLoop.Matches pair.1 pair.2

/-- **The loop counter.** If handlers and datasource write variables by assignments only, `!LOOP` is 1
in the first iteration, then the number of the iteration until it is assigned, and then one more than at
the end of the iteration before, always within its range. It does not decide how many iterations there
are, and a run does not depend on what it was before. -/
theorem countsLoops_of_assignsOnly (he : e.AssignsOnly) (x : e.Execution)
    (hloops : x.loops.getD e.settings.maxLoops ≤ greatestInteger) :
    (∃ laps, x.ConsistsOf laps ∧
        (laps.length = x.result.loops ∨ laps.length = x.result.loops + 1)) ∧
      (∀ laps, x.ConsistsOf laps → x.CountsLoops laps) ∧
      (∀ (e' : Engine ι μ) (y : e'.Execution), x.Resembles y →
        y.result.loops = x.result.loops ∧ y.result.state = x.result.state) ∧
      ((x.memory.vars.values.find? "!LOOP").isSome → ∀ v assigned,
        e.run x.script x.loops { x.memory with vars := x.memory.vars.withLoop v assigned } =
          e.run x.script x.loops x.memory) := by
  refine ⟨exists_consistsOf he x, fun laps hlaps => hlaps.countsLoops hloops, ?_, ?_⟩
  · intro e' y hxy
    have hplayed : y.played.loops = x.played.loops ∧ y.played.state = x.played.state :=
      Run.loops_eq_of_matches x.plays y.plays hxy.commands hxy.loops hxy.rows hxy.vars hxy.replies
    exact hplayed
  · intro hbound v assigned
    simp only [run, Run.plan, Store.beginRun_withLoop hbound]

def topLine : Command :=
  ⟨"SET", [⟨none, "!LOOP", "!LOOP"⟩, ⟨none, "4294967295", "4294967295"⟩], "SET !LOOP 4294967295", 1,
    none⟩

def topped (s : Store) : Store := s.assignAll [("!LOOP", .text "4294967295")]

theorem set_topLine (vars : Store) (now : Calendar.DateTime) :
    Assign.set vars (.ofCommand vars now topLine) = .ok (topped vars) := by
  have hname : vars.expand now "!LOOP" = "!LOOP" := (vars.verbatim_of_plain (by decide) now).1
  have hvalue : vars.expand now "4294967295" = "4294967295" := (vars.verbatim_of_plain (by decide) now).1
  have hoperands : Assign.operands (.ofCommand vars now topLine) = .ok ("!LOOP", "4294967295") := by
    simp [Assign.operands, Invocation.arg?, Invocation.ofCommand, topLine, Argument.ofParameter,
      Argument.text, Parameter.isPositional, hname, hvalue]
  have hliteral : Assign.literalValue "4294967295" = .text "4294967295" := by decide +kernel
  have haccepted : Variable.Rule.accept "!LOOP" (.integer 1) (.text "4294967295") =
      .ok (.number (Number.ofNat 4294967295)) := by decide +kernel
  obtain ⟨o, after, hset⟩ : ∃ o after, vars.set "!LOOP" (.text "4294967295") = .ok (o, after) :=
    ⟨_, _, by
      simp only [Store.set, Variable.canonical_eq_self Variable.rule?_loop, Variable.rule?_loop,
        haccepted]
      rfl⟩
  have hafter : topped vars = after := Store.assignAll_of_set hset
  simp only [Assign.set, hoperands, hliteral, hset, hafter, bind, Except.bind]

theorem runs_dispatch_topLine (m : Memory Unit) :
    (bareEngine.dispatch topLine m).Runs [⟨.clock, midnight⟩, ⟨.clock, midnight⟩]
      ⟨.ok, ⟨topped m.vars, ()⟩, 0, .zero⟩ := by
  have hfind : bareEngine.registry.find? topLine.name = some Assign.setHandler := by
    rw [bareEngine, Registry.builtin, Registry.find?_register, Registry.find?_register,
      Registry.find?_register, if_neg (by decide), if_neg (by decide)]
    exact if_pos (by decide)
  have hdone : Assign.setHandler (bareEngine.contextAt topLine m midnight) =
      (.done (.finished .ok, ⟨topped m.vars, ()⟩) : Proc (Timed .empty) _) := by
    simp only [Assign.setHandler, contextAt, set_topLine]
    rfl
  exact runs_dispatch_of_done rfl hfind midnight hdone

def toppedJob (m : Memory Unit) : bareEngine.Job :=
  ⟨⟨.dispatch topLine m, _⟩, _, runs_dispatch_topLine m⟩

def toppedRun : bareEngine.Execution where
  script := ⟨"top", [topLine]⟩
  loops := some 3
  memory := ⟨⟨[], [], false⟩, ()⟩
  began := midnight
  ended := midnight
  jobs := [asked _, asked _, toppedJob blankMemory,
    asked _, asked _, toppedJob ⟨Run.advanceLoop 2 (topped blankMemory.vars), ()⟩,
    asked _, asked _,
    toppedJob ⟨Run.advanceLoop 3 (topped (Run.advanceLoop 2 (topped blankMemory.vars))), ()⟩]
  played := Run.Tally.result ⟨.completed, .ok, none, none, 3, []⟩ "top"
    (topped (Run.advanceLoop 3 (topped (Run.advanceLoop 2 (topped blankMemory.vars)))))
  left := ⟨topped (Run.advanceLoop 3 (topped (Run.advanceLoop 2 (topped blankMemory.vars)))), ()⟩
  plays :=
    .call _ (.call _ (.call _ (.call _ (.call _ (.call _ (.call _ (.call _ (.call _ (.done _)))))))))

def blankLine : Command := ⟨"NOTE", [], "NOTE", 1, none⟩

theorem runs_dispatch_blankLine (m : Memory Unit) :
    (bareEngine.dispatch blankLine m).Runs [⟨.clock, midnight⟩, ⟨.clock, midnight⟩]
      ⟨.ok, m, 0, .zero⟩ := by
  have hfind : bareEngine.registry.find? blankLine.name = none := by
    rw [bareEngine, Registry.builtin, Registry.find?_register, Registry.find?_register,
      Registry.find?_register, if_neg (by decide), if_neg (by decide), if_neg (by decide)]
    rfl
  refine runs_dispatch_iff.2 ⟨midnight, midnight, [], rfl, ?_, rfl, rfl⟩
  simp only [Registry.dispatch, contextAt, Invocation.ofCommand, hfind]
  exact .done _

def blankJob (m : Memory Unit) : bareEngine.Job :=
  ⟨⟨.dispatch blankLine m, _⟩, _, runs_dispatch_blankLine m⟩

def blankRun : bareEngine.Execution where
  script := ⟨"blank", [blankLine]⟩
  loops := some 3
  memory := ⟨⟨[], [], false⟩, ()⟩
  began := midnight
  ended := midnight
  jobs := [asked _, asked _, blankJob blankMemory,
    asked _, asked _, blankJob ⟨Run.advanceLoop 2 blankMemory.vars, ()⟩,
    asked _, asked _, blankJob ⟨Run.advanceLoop 3 (Run.advanceLoop 2 blankMemory.vars), ()⟩]
  played := Run.Tally.result ⟨.completed, .ok, none, none, 3, []⟩ "blank"
    (Run.advanceLoop 3 (Run.advanceLoop 2 blankMemory.vars))
  left := ⟨Run.advanceLoop 3 (Run.advanceLoop 2 blankMemory.vars), ()⟩
  plays :=
    .call _ (.call _ (.call _ (.call _ (.call _ (.call _ (.call _ (.call _ (.call _ (.done _)))))))))

theorem sameButLoop_topped {s s' : Store} (hs : s.SameButLoop s') : (topped s).SameButLoop s' := by
  have hassigned : (Request.set "!LOOP" (.text "4294967295")).assigned? =
      some ("!LOOP", .number (Number.ofNat 4294967295)) := by decide +kernel
  have htopped : topped s = (s.keep "!LOOP" (.number (Number.ofNat 4294967295))).1 := by
    rw [topped, Store.assignAll, List.foldl_cons, List.foldl_nil, Store.serve_of_assigned hassigned]
  rw [htopped]
  constructor
  · intro name hname
    rw [hs.find?_eq name hname, Store.find?_keep, if_neg hname, if_neg (by simp)]
  · exact hs.extracted_eq

/-- The two runs differ in nothing but the loop counter. -/
theorem resembles_blankRun : toppedRun.Resembles blankRun where
  commands := rfl
  loops := rfl
  rows := rfl
  vars := ⟨fun _ _ => rfl, rfl⟩
  replies := by
    have hasked : Run.butLoop.Matches (Run.poll false : Event (Run Unit)) (Run.poll false) :=
      fun _ => rfl
    have hdispatched : ∀ m m' : Memory Unit,
        Run.butLoop.Matches (toppedJob m).event (blankJob m').event :=
      fun _ _ hm => ⟨rfl, sameButLoop_topped hm⟩
    have hevents : ∀ pair ∈ toppedRun.jobs.zip blankRun.jobs,
        Run.butLoop.Matches pair.1.event pair.2.event := by
      simp only [toppedRun, blankRun, List.zip_cons_cons, List.zip_nil_left, List.forall_mem_cons]
      exact ⟨hasked, hasked, hdispatched _ _, hasked, hasked, hdispatched _ _, hasked, hasked,
        hdispatched _ _, by simp⟩
    intro pair hpair
    rw [events, events, List.zip_map] at hpair
    obtain ⟨jobs, hjobs, rfl⟩ := List.mem_map.1 hpair
    exact hevents jobs hjobs

/-- A run of three loops whose command sets the counter to its greatest value. -/
theorem countsLoops_of_assignsOnly_toppedRun :
    (∃ laps, toppedRun.ConsistsOf laps ∧ (laps.length = 3 ∨ laps.length = 3 + 1)) ∧
      (∀ laps, toppedRun.ConsistsOf laps → toppedRun.CountsLoops laps) ∧
      blankRun.result.loops = toppedRun.result.loops := by
  obtain ⟨hlaps, hcounts, hothers, -⟩ :=
    countsLoops_of_assignsOnly (assignsOnly_of_builtin rfl rfl) toppedRun
    (by decide)
  exact ⟨hlaps, hcounts, (hothers bareEngine blankRun resembles_blankRun).1⟩

end Execution
end Engine
end MacroReplay
