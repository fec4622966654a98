import MacroReplay.Proofs.Datasource.Row
import MacroReplay.Proofs.Engine.Execution
import MacroReplay.Proofs.Run.Bookkeeping

/-!
# Runs over the rows of a list

With a list of rows for a datasource, a run plays one iteration for each row until the rows, or the
loops asked for, are used up. Each iteration begins with its row in the variables, whatever the
iterations before it left there.

* `runs_playIteration_row` — one iteration: its row is loaded and all commands are played, or there is no
  row and the run is over;
* `runs_playIterations_rows` — as many iterations as are left, by induction on their number;
* `Engine.Execution.drivenBy_rows` — whole runs of an engine.
-/

namespace MacroReplay
namespace Run

variable {μ : Type} {rows : List (List String)}

/-! ## Undisturbed histories -/

/-- No stop is requested, every command succeeds, and the rows that are loaded are those of a list. -/
structure Undisturbed (rows : List (List String)) (h : History (Run μ)) : Prop where
  goesOn : poll true ∉ h
  succeeds : ∀ s ∈ dispatched h, s.result.success = true
  loads : ∀ (i : Nat) (vars : Store) (reply : LoadReport × Store),
    (⟨.load i vars, reply⟩ : Event (Run μ)) ∈ h → reply = Datasource.loadRow rows i vars

namespace Undisturbed

/-- What disturbs a part of a history disturbs the whole. -/
theorem mono {h h' : History (Run μ)} (hcalm : Undisturbed rows h) (hsub : h' ⊆ h) :
    Undisturbed rows h' where
  goesOn := fun hmem => hcalm.goesOn (hsub hmem)
  succeeds := by
    intro s hs
    obtain ⟨event, hevent, hstep⟩ := List.mem_filterMap.1 hs
    exact hcalm.succeeds s (List.mem_filterMap.2 ⟨event, hsub hevent, hstep⟩)
  loads := fun i vars reply hmem => hcalm.loads i vars reply (hsub hmem)

theorem left {h₁ h₂ : History (Run μ)} (hcalm : Undisturbed rows (h₁ ++ h₂)) :
    Undisturbed rows h₁ :=
  hcalm.mono (List.subset_append_left h₁ h₂)

theorem right {h₁ h₂ : History (Run μ)} (hcalm : Undisturbed rows (h₁ ++ h₂)) :
    Undisturbed rows h₂ :=
  hcalm.mono (List.subset_append_right h₁ h₂)

/-- The row of an iteration is loaded, or the rows are used up. -/
theorem load_cases {h : History (Run μ)} (hcalm : Undisturbed rows h) {i : Nat} (hpos : 1 ≤ i)
    (hle : i ≤ Variable.greatestInteger) {m : Memory μ} {report : LoadReport} {vars : Store}
    (hmem : loading i m report vars ∈ h) :
    (rows.length < i ∧ report = .exhausted) ∨
      i ≤ rows.length ∧ report = .loaded ∧ ∃ row, rows[i - 1]? = some row ∧ vars.Shows i row := by
  have hreply : (report, vars) = Datasource.loadRow rows i m.vars := hcalm.loads i m.vars _ hmem
  rcases Nat.lt_or_ge rows.length i with hlast | hthere
  · rw [Datasource.loadRow_of_lt hlast] at hreply
    cases hreply
    exact .inl ⟨hlast, rfl⟩
  · obtain ⟨row, s', hget, hload, hshows⟩ := Datasource.loadRow_of_le hpos hthere hle m.vars
    rw [hload] at hreply
    cases hreply
    exact .inr ⟨hthere, rfl, row, hget, hshows⟩

end Undisturbed

/-- Only an iteration whose commands are all played has no stop and no failure at its end. -/
theorem Exit.of_undisturbed {i : Nat} {rest : List Command} {t : Tally} {m : Memory μ}
    {h : History (Run μ)} {stage : Stage μ} (hexit : Exit i rest t m h stage)
    (hcalm : Undisturbed rows h) :
    rest = [] ∧ h = [] ∧ stage = .goesOn { t with loops := i } m := by
  have hnever : ∀ s : Step μ, s.event ∈ h → s.result.success = false → False := by
    intro s hs hfailed
    rw [hcalm.succeeds s (mem_dispatched_of_event_mem hs)] at hfailed
    cases hfailed
  cases hexit with
  | finished => exact ⟨rfl, rfl, rfl⟩
  | halted => exact absurd (by simp) hcalm.goesOn
  | stopped hfailed | haltedAfter hfailed | dataEnd hfailed | skipped hfailed | aborted hfailed =>
      exact (hnever _ (by simp) hfailed).elim

/-- Commands that all succeed leave no message. -/
theorem lastFailure_eq_none {steps : List (Step μ)} (hok : ∀ s ∈ steps, s.result.success = true) :
    lastFailure steps = none := by
  have hfilter : (steps.filter fun s => !s.result.success) = [] := by
    rw [List.filter_eq_nil_iff]
    intro s hs
    simp [hok s hs]
  simp [lastFailure, hfilter]

/-! ## Rounds -/

structure RowRound (μ : Type) where
  number : Nat
  /-- The memory that the row was loaded into. -/
  before : Memory μ
  /-- The variables with the row. -/
  vars : Store
  steps : List (Step μ)

namespace RowRound

/-- The calls of an iteration: the question before it, the loading of its row, and its commands. -/
def calls (r : RowRound μ) : History (Run μ) :=
  poll false :: loading r.number r.before .loaded r.vars :: r.steps.flatMap Step.calls

/-- All commands are played, the first one with the row of the iteration in the variables. -/
structure Plays (rows : List (List String)) (commands : List Command) (r : RowRound μ) : Prop where
  complete : r.steps.map Step.command = commands
  shows : ∃ row, rows[r.number - 1]? = some row ∧ r.vars.Shows r.number row ∧
    ∀ s, r.steps.head? = some s → s.before.vars.Shows r.number row

theorem dispatched_calls (r : RowRound μ) : dispatched r.calls = r.steps :=
  dispatched_flatMap_calls r.steps

/-- The commands of a run are those of its rounds, in order. -/
theorem dispatched_flatMap (rounds : List (RowRound μ)) :
    dispatched (rounds.flatMap calls) = rounds.flatMap steps := by
  induction rounds with
  | nil => rfl
  | cons r rounds ih =>
      rw [List.flatMap_cons, dispatched_append, dispatched_calls, ih, List.flatMap_cons]

end RowRound

/-- Calls that play no iteration: no command is dispatched and no row is loaded. -/
def Idle (h : History (Run μ)) : Prop :=
  dispatched h = [] ∧ ∀ (i : Nat) (vars : Store) (reply : LoadReport × Store),
    (⟨.load i vars, reply⟩ : Event (Run μ)) ∈ h → reply.1 = .exhausted

theorem Idle.append {h₁ h₂ : History (Run μ)} (h₁idle : Idle h₁) (h₂idle : Idle h₂) :
    Idle (h₁ ++ h₂) := by
  refine ⟨?_, ?_⟩
  · rw [dispatched_append, h₁idle.1, h₂idle.1, List.append_nil]
  · intro i vars reply hmem
    rcases List.mem_append.1 hmem with hmem | hmem
    · exact h₁idle.2 i vars reply hmem
    · exact h₂idle.2 i vars reply hmem

/-- The calls at the end of a run play no iteration. -/
theorem idle_of_closing {h : History (Run μ)} (hclosing : ∀ e ∈ h, e.1.isClosing = true) :
    Idle h := by
  refine ⟨dispatched_closing hclosing, ?_⟩
  intro i vars reply hmem
  nomatch hclosing _ hmem

/-- Asking for a row behind the last one plays no iteration. -/
theorem idle_exhausted (i : Nat) (m : Memory μ) (vars : Store) :
    Idle [poll false, loading i m .exhausted vars] := by
  refine ⟨rfl, ?_⟩
  intro i' vars' reply hmem
  rcases List.mem_cons.1 hmem with heq | hmem
  · cases heq
  · cases List.mem_singleton.1 hmem
    rfl

/-- One iteration: its row is loaded and all commands are played, or there is no row for it and the run
is over. -/
theorem runs_playIteration_row {commands : List Command} {i : Nat} {t : Tally} {m : Memory μ}
    {h : History (Run μ)} {stage : Stage μ}
    (hrun : (playIteration commands true i t m).Runs h stage) (hcalm : Undisturbed rows h)
    (hpos : 1 ≤ i) (hle : i ≤ Variable.greatestInteger) :
    (rows.length < i ∧ Idle h ∧ ∃ m', stage = .over t m') ∨
      i ≤ rows.length ∧ ∃ (r : RowRound μ) (records : List Profile.Record) (m' : Memory μ),
        r.number = i ∧ r.Plays rows commands ∧ h = r.calls ∧
        stage = .goesOn { t with loops := i, records := records } m' := by
  rcases runs_playIteration hrun with hrefusal | ⟨h₁, h₂, m₁, hopening, rfl, hplayed⟩
  · -- The run ends here only if the rows are used up.
    cases hrefusal with
    | halted => exact absurd (by simp) hcalm.goesOn
    | exhausted _ hreport =>
        rcases hcalm.load_cases hpos hle (List.mem_cons_of_mem _ List.mem_cons_self) with
          ⟨hlast, rfl⟩ | ⟨-, rfl, -⟩
        · exact .inl ⟨hlast, idle_exhausted i _ _, _, rfl⟩
        · rcases hreport with hreport | hreport <;> cases hreport
    | failed | faulted =>
        rcases hcalm.load_cases hpos hle (List.mem_cons_of_mem _ List.mem_cons_self) with
          ⟨-, hreport⟩ | ⟨-, hreport, -⟩ <;> cases hreport
  · cases hopening with
    | plain hnone => cases hnone
    | row =>
        rename_i vars _
        rcases hcalm.left.load_cases hpos hle (List.mem_cons_of_mem _ List.mem_cons_self) with
          ⟨-, hreport⟩ | ⟨hrow, -, row, hget, hshows⟩
        · cases hreport
        · rcases runs_playCommands hplayed with
            ⟨passed, rest, m', h', hcommands, -, hfollow, rfl, hexit⟩
          -- Nothing cuts the commands short, so that all of them are played.
          obtain ⟨rfl, rfl, rfl⟩ := hexit.of_undisturbed hcalm.right.right
          have hok : ∀ s ∈ passed, s.result.success = true := by
            intro s hs
            apply hcalm.right.left.succeeds
            rwa [dispatched_flatMap_calls]
          rcases foldl_after_eq t passed with ⟨records, hfold⟩
          rw [hfold, lastFailure_eq_none hok, Option.none_or]
          refine .inr ⟨hrow, ⟨i, counted i m, vars, passed⟩, records, m', rfl, ⟨?_, ?_⟩, ?_, rfl⟩
          · simpa using hcommands.symm
          · -- The first command is given the variables that the row was loaded into.
            refine ⟨row, hget, hshows, ?_⟩
            intro s hs
            cases passed with
            | nil => cases hs
            | cons first passed =>
                cases hs
                rw [hfollow.1]
                exact hshows
          · simp [RowRound.calls]

/-- The iterations of an undisturbed run: one for each row, until the rows or the iterations that are
left are used up. -/
theorem runs_playIterations_rows {commands : List Command} {left i : Nat} {t t' : Tally}
    {m m' : Memory μ} {h : History (Run μ)}
    (hrun : (playIterations commands true left i t m).Runs h (t', m')) (hcalm : Undisturbed rows h)
    (hi : i = t.loops + 1) (hle : t.loops + left ≤ Variable.greatestInteger) :
    ∃ (rounds : List (RowRound μ)) (rest : History (Run μ)) (records : List Profile.Record),
      h = rounds.flatMap RowRound.calls ++ rest ∧ Idle rest ∧
      rounds.map RowRound.number = List.range' i (min left (rows.length - t.loops)) ∧
      (∀ r ∈ rounds, r.Plays rows commands) ∧
      t' = { t with loops := t.loops + min left (rows.length - t.loops), records := records } := by
  -- The loops that are counted are the iterations before this one, so `hi` and `hle` carry over to the
  -- next.
  induction left generalizing i t m h with
  | zero =>
      rcases Proc.runs_done_iff.1 hrun with ⟨rfl, hend⟩
      cases hend
      exact ⟨[], [], t'.records, rfl, ⟨rfl, by simp⟩, by simp, by simp, by simp⟩
  | succ left ih =>
      subst hi
      rcases runs_playIterations_succ hrun with hover | ⟨h₁, h₂, t₁, m₁, rfl, hfirst, hrest⟩
      · rcases runs_playIteration_row hover hcalm (by omega) (by omega) with
          ⟨hlast, hidle, m'', hstage⟩ | ⟨-, r, records, m'', -, -, -, hstage⟩
        · cases hstage
          have hnone : min (left + 1) (rows.length - t'.loops) = 0 := by omega
          rw [hnone]
          exact ⟨[], h, t'.records, rfl, hidle, rfl, by simp, rfl⟩
        · cases hstage
      · rcases runs_playIteration_row hfirst hcalm.left (by omega) (by omega) with
          ⟨-, -, m'', hstage⟩ | ⟨hrow, r, records, m'', hnumber, hplays, rfl, hstage⟩
        · cases hstage
        · cases hstage
          obtain ⟨rounds, rest, records', rfl, hidle, hnumbers, hall, rfl⟩ :=
            ih hrest hcalm.right rfl (by simp only; omega)
          -- One row and one iteration are used up.
          have hcount : min (left + 1) (rows.length - t.loops) =
              min left (rows.length - (t.loops + 1)) + 1 := by omega
          refine ⟨r :: rounds, rest, records', by simp, hidle, ?_, ?_, ?_⟩
          · rw [List.map_cons, hnumber, hnumbers, hcount, List.range'_succ]
          · intro r' hr'
            rcases List.mem_cons.1 hr' with rfl | hr'
            · exact hplays
            · exact hall r' hr'
          · simp only [hcount]
            rw [Nat.add_assoc, Nat.add_comm 1]

end Run

/-! ## Whole runs -/

namespace Engine
namespace Execution

variable {ι : Interface} {μ : Type} {e : Engine ι μ} {rows : List (List String)}

/-- Every row of the run comes from the list. -/
theorem loads_of_ofRows (hrows : e.datasource = some (Datasource.ofRows rows)) (x : e.Execution) :
    ∀ (i : Nat) (vars : Store) (reply : LoadReport × Store),
      (⟨.load i vars, reply⟩ : Event (Run μ)) ∈ x.events →
        reply = Datasource.loadRow rows i vars := by
  intro i vars reply hmem
  obtain ⟨⟨event, calls, hserved⟩, -, rfl⟩ := List.mem_map.1 hmem
  have hloaded : (Proc.done (Datasource.loadRow rows i vars)).Runs calls reply := by
    simpa [serve, hrows, Datasource.ofRows] using hserved
  exact (Proc.runs_done_iff.1 hloaded).2

/-- The run plays one iteration for each of the first `n` rows, and completes. -/
structure DrivenBy (rows : List (List String)) (n : Nat) (x : e.Execution) : Prop where
  rounds : ∃ (rounds : List (Run.RowRound μ)) (rest : History (Run μ)),
    x.events = rounds.flatMap Run.RowRound.calls ++ rest ∧ Run.Idle rest ∧
    rounds.map Run.RowRound.number = List.range' 1 n ∧
    (∀ r ∈ rounds, r.Plays rows x.script.commands) ∧
    Run.dispatched x.events = rounds.flatMap Run.RowRound.steps
  state_eq : x.result.state = .completed
  code_eq : x.result.code = .ok
  message_eq : x.result.message = none
  failedLine_eq : x.result.failedLine = none
  loops_eq : x.result.loops = n

/-- **Rows drive the loops.** A run over a list of rows that is not stopped and in which no command fails
plays as many iterations as there are rows, but no more than asked for; each of them begins with its row
in the variables. To load a row never fails: it is there, or the rows are used up. -/
theorem drivenBy_rows (hrows : e.datasource = some (Datasource.ofRows rows)) (x : e.Execution)
    (hloops : x.loops.getD e.settings.maxLoops ≤ Variable.greatestInteger)
    (hgoesOn : Run.poll true ∉ x.events)
    (hsucceeds : ∀ s ∈ Run.dispatched x.events, s.result.success = true) :
    x.DrivenBy rows (min (max 1 (x.loops.getD e.settings.maxLoops)) rows.length) ∧
      ∀ i vars, 1 ≤ i → i ≤ Variable.greatestInteger →
        (Datasource.loadRow rows i vars).1 = if i ≤ rows.length then .loaded else .exhausted := by
  have hcalm : Run.Undisturbed rows x.events :=
    ⟨hgoesOn, hsucceeds, loads_of_ofRows hrows x⟩
  rcases Run.runs_plan x.plays with ⟨h₁, h₂, t, m, hsplit, hplayed, hclosing, hresult, -⟩
  rw [events, hsplit] at hcalm
  have hsome : (e.setup x.script x.loops).hasDatasource = true := by simp [setup, hrows]
  rw [hsome] at hplayed
  have hbound : 0 + max 1 (x.loops.getD e.settings.maxLoops) ≤ Variable.greatestInteger := by
    have hone : 1 ≤ Variable.greatestInteger := by decide
    omega
  -- The calls are the rounds, an end at which no row is left, and the closing.
  obtain ⟨rounds, rest, records, rfl, hidle, hnumbers, hplays, rfl⟩ :=
    Run.runs_playIterations_rows hplayed hcalm.left rfl hbound
  have hevents : x.events = rounds.flatMap Run.RowRound.calls ++ (rest ++ h₂) := by
    rw [events, hsplit, List.append_assoc]
  have hrest : Run.Idle (rest ++ h₂) := hidle.append (Run.idle_of_closing hclosing)
  have hdispatched : Run.dispatched x.events = rounds.flatMap Run.RowRound.steps := by
    rw [hevents, Run.dispatched_append, hrest.1, List.append_nil, Run.RowRound.dispatched_flatMap]
  refine ⟨⟨⟨rounds, rest ++ h₂, hevents, hrest, hnumbers, hplays, hdispatched⟩,
      ?_, ?_, ?_, ?_, ?_⟩,
    fun i vars hpos hle => Datasource.fst_loadRow hpos hle vars⟩
  all_goals
    simp only [result, hresult, Run.Tally.result, Run.Tally.start, Nat.zero_add, Nat.sub_zero, setup]

def twoRows : List (List String) := [["a"], ["b", "c"]]

def spoiled : Store := ⟨[("!COL1", .text ""), ("!DATASOURCE_LINE", .text "")], [], false⟩

def spoil : Handler .empty Unit := fun _ => .done (.finished .ok, ⟨spoiled, ()⟩)

def spoilLine : Command := ⟨"SPOIL", [], "SPOIL", 1, none⟩

def rowsEngine : Engine .empty Unit :=
  ⟨{}, Registry.empty.register "SPOIL" spoil, .empty, some (Datasource.ofRows twoRows), none⟩

def loadedOfRows (i : Nat) (vars : Store)
    (hloaded : (Datasource.loadRow twoRows i vars).1 = .loaded) : rowsEngine.Job where
  event := ⟨.load i vars, (.loaded, (Datasource.loadRow twoRows i vars).2)⟩
  calls := []
  served := Proc.runs_done_iff.2 ⟨rfl, Prod.ext hloaded.symm rfl⟩

theorem runs_dispatch_spoilLine (m : Memory Unit) :
    (rowsEngine.dispatch spoilLine m).Runs [⟨.clock, midnight⟩, ⟨.clock, midnight⟩]
      ⟨.ok, ⟨spoiled, ()⟩, 0, .zero⟩ := by
  have hfind : rowsEngine.registry.find? spoilLine.name = some spoil := by
    rw [rowsEngine, Registry.find?_register]
    exact if_pos (by decide)
  have hdone : spoil (rowsEngine.contextAt spoilLine m midnight) =
      .done (.finished .ok, ⟨spoiled, ()⟩) :=
    rfl
  exact Engine.runs_dispatch_of_done rfl hfind midnight hdone

def spoiledInRows (m : Memory Unit) : rowsEngine.Job where
  event := ⟨.dispatch spoilLine m, ⟨.ok, ⟨spoiled, ()⟩, 0, .zero⟩⟩
  calls := [⟨.clock, midnight⟩, ⟨.clock, midnight⟩]
  served := runs_dispatch_spoilLine m

/-- Both rows are there. -/
theorem loadRow_twoRows {i : Nat} (hpos : 1 ≤ i) (hle : i ≤ 2) (vars : Store) :
    (Datasource.loadRow twoRows i vars).1 = .loaded := by
  have hbound : i ≤ Variable.greatestInteger := Nat.le_trans hle (by decide)
  rw [Datasource.fst_loadRow hpos hbound]
  exact if_pos hle

def rowsRun : rowsEngine.Execution where
  script := ⟨"rows", [spoilLine]⟩
  loops := some 3
  memory := ⟨⟨[], [], false⟩, ()⟩
  began := midnight
  ended := midnight
  jobs := [asked _, loadedOfRows 1 blankMemory.vars (loadRow_twoRows (by decide) (by decide) _),
    asked _, spoiledInRows ⟨(Datasource.loadRow twoRows 1 blankMemory.vars).2, ()⟩,
    asked _, loadedOfRows 2 (Run.advanceLoop 2 spoiled) (loadRow_twoRows (by decide) (by decide) _),
    asked _, spoiledInRows ⟨(Datasource.loadRow twoRows 2 (Run.advanceLoop 2 spoiled)).2, ()⟩,
    asked _, ⟨⟨.load 3 (Run.advanceLoop 3 spoiled), (.exhausted, Run.advanceLoop 3 spoiled)⟩, [],
      .done _⟩]
  played := Run.Tally.result ⟨.completed, .ok, none, none, 2, []⟩ "rows" (Run.advanceLoop 3 spoiled)
  left := ⟨Run.advanceLoop 3 spoiled, ()⟩
  plays := .call _ (.call _ (.call _ (.call _ (.call _ (.call _ (.call _ (.call _ (.call _ (.call _
    (.done _))))))))))

/-- Three loops over two rows: two iterations are played, though the command spoils the variables each
time. -/
theorem drivenBy_rows_rowsRun :
    Run.poll true ∉ rowsRun.events ∧
      (∀ s ∈ Run.dispatched rowsRun.events, s.result.success = true) ∧
      rowsRun.DrivenBy twoRows 2 ∧
      ∀ i vars, 1 ≤ i → i ≤ Variable.greatestInteger →
        (Datasource.loadRow twoRows i vars).1 = if i ≤ 2 then .loaded else .exhausted := by
  have hgoesOn : Run.poll true ∉ rowsRun.events := by
    simp [rowsRun, events, Run.poll, asked, loadedOfRows, spoiledInRows]
  have hsucceeds : ∀ s ∈ Run.dispatched rowsRun.events, s.result.success = true := by
    intro s hs
    simp only [rowsRun, events, List.map_cons, List.map_nil, Run.dispatched, asked, loadedOfRows,
      spoiledInRows, List.filterMap_cons, List.filterMap_nil, Run.Step.ofEvent?, List.mem_cons,
      List.not_mem_nil, or_false] at hs
    rcases hs with rfl | rfl <;> rfl
  exact ⟨hgoesOn, hsucceeds, drivenBy_rows rfl rowsRun (by decide) hgoesOn hsucceeds⟩

end Execution
end Engine
end MacroReplay
