import MacroReplay.Proofs.Run.Iteration
import MacroReplay.Proofs.Variable.Counter

/-!
# The iterations of a run, with what they assign

A run cut into its iterations. Each is begun with the variables that the one before left, but for the
loop counter, and hands them on from call to call. If the commands and the rows write variables by
assignments only, the assignments of an iteration tell what becomes of its variables.

* `Relays` — calls that hand the variables on;
* `Writes` — calls that hand them on and write them by assignments only;
* `lap_playIteration` — one iteration;
* `laps_playIterations` — all iterations, by induction on their number.
-/

namespace MacroReplay

open Store (Wish)

namespace Run

variable {μ : Type}

/-! ## Variables that are handed on -/

/-- The variables that a call is given and those that it leaves. -/
def handedOn? : Event (Run μ) → Option (Store × Store)
  | ⟨.load _ vars, reply⟩ => some (vars, (reply : LoadReport × Store).2)
  | ⟨.dispatch _ m, d⟩ => some (m.vars, (d : Dispatched μ).memory.vars)
  | _ => none

/-- Hooks and the profile are not given the variables. -/
theorem handedOn?_of_closing {e : Event (Run μ)} (hclosing : e.1.isClosing = true) :
    handedOn? e = none := by
  obtain ⟨c, reply⟩ := e
  cases c with
  | cleanUp | append => rfl
  | stopRequested | load | dispatch => nomatch hclosing

/-- The calls hand the variables on, from `s` to `s'`. -/
def Relays : Store → History (Run μ) → Store → Prop
  | s, [], s' => s' = s
  | s, e :: h, s' =>
      match handedOn? e with
      | some (given, left) => given = s ∧ Relays left h s'
      | none => Relays s h s'

section Relays

variable {s s' between : Store} {h h₁ h₂ : History (Run μ)}

@[simp]
theorem relays_nil_iff : Relays s ([] : History (Run μ)) s' ↔ s' = s := Iff.rfl

@[simp]
theorem relays_poll_iff {stop : Bool} : Relays s (poll stop :: h) s' ↔ Relays s h s' := Iff.rfl

@[simp]
theorem relays_loading_iff {i : Nat} {m : Memory μ} {report : LoadReport} {vars : Store} :
    Relays s (loading i m report vars :: h) s' ↔ m.vars = s ∧ Relays vars h s' := Iff.rfl

@[simp]
theorem relays_event_iff {step : Step μ} :
    Relays s (step.event :: h) s' ↔ step.before.vars = s ∧ Relays step.left h s' := Iff.rfl

/-- Variables are handed on through both parts of a history. -/
theorem Relays.append (hfirst : Relays s h₁ between) (hsecond : Relays between h₂ s') :
    Relays s (h₁ ++ h₂) s' := by
  induction h₁ generalizing s with
  | nil =>
      cases relays_nil_iff.1 hfirst
      exact hsecond
  | cons e h₁ ih =>
      rw [List.cons_append]
      unfold Relays at hfirst ⊢
      split <;> rename_i hhanded <;> simp only [hhanded] at hfirst
      · exact ⟨hfirst.1, ih hfirst.2⟩
      · exact ih hfirst

end Relays

theorem relays_calls (s : Step μ) : Relays s.before.vars s.calls s.left := by
  cases hok : s.result.success with
  | true => simp [Step.calls_of_success hok]
  | false => simp [Step.calls_of_failure hok]

/-- However the commands of an iteration end, each was given the variables that the one before
it left. -/
theorem Exit.relays {i : Nat} {rest : List Command} {t : Tally} {m : Memory μ} {h : History (Run μ)}
    {stage : Stage μ} (hexit : Exit i rest t m h stage) : Relays m.vars h stage.memory.vars := by
  cases hexit <;> simp [Stage.memory, Step.left]

theorem relays_playCommands {i : Nat} {commands : List Command} {t : Tally} {m : Memory μ}
    {h : History (Run μ)} {stage : Stage μ} (hrun : (playCommands i commands t m).Runs h stage) :
    Relays m.vars h stage.memory.vars := by
  induction commands generalizing t m h with
  | nil =>
      obtain ⟨rfl, rfl⟩ := Proc.runs_done_iff.1 hrun
      rfl
  | cons c commands ih =>
      rcases runs_playCommands_cons hrun with hexit | ⟨s, h', -, rfl, -, rfl, hrest⟩
      · exact hexit.relays
      · exact (relays_calls s).append (ih hrest)

def countUp (iteration : Nat) (s : Store) : Store :=
  if 1 < iteration then advanceLoop iteration s else s

theorem vars_counted (i : Nat) (m : Memory μ) : (counted i m).vars = countUp i m.vars := by
  unfold counted countUp
  split <;> rfl

/-- An iteration is not begun because a stop was requested, or its calls hand on the variables with the
loop counter set. -/
theorem relays_playIteration {commands : List Command} {hasDatasource : Bool} {i : Nat} {t : Tally}
    {m : Memory μ} {h : History (Run μ)} {stage : Stage μ}
    (hrun : (playIteration commands hasDatasource i t m).Runs h stage) :
    h = [poll true] ∧ stage = .over t.stop m ∨ Relays (countUp i m.vars) h stage.memory.vars := by
  rw [← vars_counted]
  rcases runs_playIteration hrun with hrefused | ⟨h₁, h₂, m', hopened, rfl, hplayed⟩
  · -- Only the row may have been asked for, and it was given the counter of this iteration.
    cases hrefused with
    | halted => exact .inl ⟨rfl, rfl⟩
    | exhausted | failed | faulted => exact .inr (by simp [Stage.memory])
  · have hopening : Relays (counted i m).vars h₁ m'.vars := by
      cases hopened <;> simp
    exact .inr (hopening.append (relays_playCommands hplayed))

/-- What an iteration does to the number of iterations: the run goes on with this one counted, or is over
and leaves it uncounted. -/
def Stage.Counts (iteration loops : Nat) : Stage μ → Prop
  | .goesOn t _ => t.loops = iteration
  | .over t _ => t.loops = loops

theorem Tally.loops_after (t : Tally) (s : Step μ) : (t.after s).loops = t.loops := by
  cases hok : s.result.success <;> simp [Tally.after, hok, Tally.noted_keeps]

/-- The commands leave the iteration counted if the run goes on, and uncounted if it is over. -/
theorem loops_playCommands {i : Nat} {commands : List Command} {t : Tally} {m : Memory μ}
    {h : History (Run μ)} {stage : Stage μ} (hrun : (playCommands i commands t m).Runs h stage) :
    stage.Counts i t.loops := by
  induction commands generalizing t m h with
  | nil =>
      obtain ⟨-, rfl⟩ := Proc.runs_done_iff.1 hrun
      rfl
  | cons c commands ih =>
      rcases runs_playCommands_cons hrun with hexit | ⟨s, h', -, rfl, -, rfl, hrest⟩
      · cases hexit <;> simp [Stage.Counts, Tally.stop, Tally.abort, Tally.noted_keeps]
      · rw [← t.loops_after s]
        exact ih hrest

/-- So does the iteration as a whole. -/
theorem loops_playIteration {commands : List Command} {hasDatasource : Bool} {i : Nat} {t : Tally}
    {m : Memory μ} {h : History (Run μ)} {stage : Stage μ}
    (hrun : (playIteration commands hasDatasource i t m).Runs h stage) : stage.Counts i t.loops := by
  rcases runs_playIteration hrun with hrefused | ⟨h₁, h₂, m', -, -, hplayed⟩
  · cases hrefused <;> rfl
  · exact loops_playCommands hplayed

/-! ## Variables that are assigned -/

/-- The calls write variables by assignments only. -/
def OnlyAssigns (h : History (Run μ)) : Prop :=
  ∀ e ∈ h, ∀ given left, handedOn? e = some (given, left) → ∃ wishes, left = given.assignAll wishes

/-- The calls hand the variables on, beginning with `s`, and these assignments are all that
they write. -/
inductive Writes : Store → History (Run μ) → List Wish → Prop where
  | nil {s : Store} : Writes s [] []
  | idle {s : Store} {e : Event (Run μ)} {h : History (Run μ)} {wishes : List Wish} :
      handedOn? e = none → Writes s h wishes → Writes s (e :: h) wishes
  | work {s : Store} {e : Event (Run μ)} {h : History (Run μ)} {wishes wishes' : List Wish} :
      handedOn? e = some (s, s.assignAll wishes) → Writes (s.assignAll wishes) h wishes' →
      Writes s (e :: h) (wishes ++ wishes')

/-- Where every command only assigns, what is handed on is what their wishes make of it. -/
theorem exists_writes {s s' : Store} {h : History (Run μ)} (hrelays : Relays s h s')
    (hassigns : OnlyAssigns h) : ∃ wishes, Writes s h wishes ∧ s' = s.assignAll wishes := by
  induction h generalizing s with
  | nil => exact ⟨[], .nil, relays_nil_iff.1 hrelays⟩
  | cons e h ih =>
      rw [OnlyAssigns, List.forall_mem_cons] at hassigns
      obtain ⟨hfirst, hrest⟩ := hassigns
      unfold Relays at hrelays
      cases hhanded : handedOn? e with
      | none =>
          simp only [hhanded] at hrelays
          obtain ⟨wishes, hwrites, hend⟩ := ih hrelays hrest
          exact ⟨wishes, .idle hhanded hwrites, hend⟩
      | some stores =>
          -- The call is given what the calls before it left, and assigns to that.
          obtain ⟨given, left⟩ := stores
          simp only [hhanded] at hrelays
          obtain ⟨rfl, hrelayed⟩ := hrelays
          obtain ⟨wishes, rfl⟩ := hfirst given left hhanded
          obtain ⟨wishes', hwrites, hend⟩ := ih hrelayed hrest
          exact ⟨wishes ++ wishes', .work hhanded hwrites, by rw [hend, Store.assignAll_append]⟩

/-! ## Iterations -/

structure Lap (μ : Type) where
  number : Nat
  /-- The variables that it was begun with. -/
  opened : Store
  calls : History (Run μ)
  /-- The assignments that were asked for in it, in order. -/
  wishes : List Wish

namespace Lap

def closed (lap : Lap μ) : Store := lap.opened.assignAll lap.wishes

def given (lap : Lap μ) : List Int := Store.loopsGiven lap.wishes

/-- At the end of a lap the counter has the last value it was given, or the one it had at
the beginning. -/
theorem integer?_closed (lap : Lap μ) :
    lap.closed.integer? "!LOOP" = lap.given.getLast?.or (lap.opened.integer? "!LOOP") :=
  Store.integer?_assignAll lap.opened lap.wishes

theorem loopAssigned_closed (lap : Lap μ) :
    lap.closed.loopAssigned = (lap.opened.loopAssigned || !lap.given.isEmpty) :=
  Store.loopAssigned_assignAll lap.opened lap.wishes

end Lap

/-- Iterations that follow each other, from `s` to `s'`: each is begun with what the one before left,
but for the loop counter. -/
def Linked : Store → List (Lap μ) → Store → Prop
  | s, [], s' => s' = s
  | s, lap :: laps, s' => lap.opened = countUp lap.number s ∧ Linked lap.closed laps s'

/-- A history that consists of iterations, at most `left` of them and with numbers from `i` on. -/
structure Unrolls (left i : Nat) (s : Store) (h : History (Run μ)) (s' : Store) (laps : List (Lap μ)) :
    Prop where
  /-- Behind the iterations there are only calls that have no variables. -/
  calls : ∃ rest, h = laps.flatMap Lap.calls ++ rest ∧ ∀ e ∈ rest, handedOn? e = none
  writes : ∀ lap ∈ laps, Writes lap.opened lap.calls lap.wishes
  numbers : laps.map Lap.number = List.range' i laps.length
  length_le : laps.length ≤ left
  linked : Linked s laps s'

namespace Unrolls

variable {left i : Nat} {s s' : Store} {h : History (Run μ)} {laps : List (Lap μ)}

theorem nil {rest : History (Run μ)} (hrest : ∀ e ∈ rest, handedOn? e = none) :
    Unrolls left i s rest s [] :=
  ⟨⟨rest, rfl, hrest⟩, by simp, rfl, Nat.zero_le left, rfl⟩

/-- One iteration put before others. -/
theorem cons {lap : Lap μ} (hopened : lap.opened = countUp lap.number s)
    (hwrites : Writes lap.opened lap.calls lap.wishes)
    (hlaps : Unrolls left (lap.number + 1) lap.closed h s' laps) :
    Unrolls (left + 1) lap.number s (lap.calls ++ h) s' (lap :: laps) where
  calls := by
    obtain ⟨rest, rfl, hrest⟩ := hlaps.calls
    exact ⟨rest, by simp, hrest⟩
  writes := List.forall_mem_cons.2 ⟨hwrites, hlaps.writes⟩
  numbers := by
    rw [List.map_cons, List.length_cons, List.range'_succ, hlaps.numbers]
  length_le := Nat.succ_le_succ hlaps.length_le
  linked := ⟨hopened, hlaps.linked⟩

/-- Calls put behind the iterations. -/
theorem append (hlaps : Unrolls left i s h s' laps) {closing : History (Run μ)}
    (hclosing : ∀ e ∈ closing, handedOn? e = none) : Unrolls left i s (h ++ closing) s' laps where
  calls := by
    obtain ⟨rest, rfl, hrest⟩ := hlaps.calls
    refine ⟨rest ++ closing, List.append_assoc .., ?_⟩
    intro e he
    exact (List.mem_append.1 he).elim (hrest e) (hclosing e)
  writes := hlaps.writes
  numbers := hlaps.numbers
  length_le := hlaps.length_le
  linked := hlaps.linked

end Unrolls

/-- One iteration. -/
theorem lap_playIteration {commands : List Command} {hasDatasource : Bool} {i : Nat} {t : Tally}
    {m : Memory μ} {h : History (Run μ)} {stage : Stage μ} (hassigns : OnlyAssigns h)
    (hrun : (playIteration commands hasDatasource i t m).Runs h stage) :
    h = [poll true] ∧ stage = .over t.stop m ∨
      ∃ lap : Lap μ, lap.number = i ∧ lap.calls = h ∧ lap.opened = countUp i m.vars ∧
        Writes lap.opened lap.calls lap.wishes ∧ stage.memory.vars = lap.closed := by
  rcases relays_playIteration hrun with hhalted | hrelays
  · exact .inl hhalted
  · obtain ⟨wishes, hwrites, hend⟩ := exists_writes hrelays hassigns
    exact .inr ⟨⟨i, countUp i m.vars, h, wishes⟩, rfl, rfl, rfl, hwrites, hend⟩

/-- All iterations, by induction on the number of those that are left. The last of them need not have
been played to its end. -/
theorem laps_playIterations {commands : List Command} {hasDatasource : Bool} {left : Nat} {t t' : Tally}
    {m m' : Memory μ} {h : History (Run μ)} (hassigns : OnlyAssigns h)
    (hrun : (playIterations commands hasDatasource left (t.loops + 1) t m).Runs h (t', m')) :
    ∃ laps, Unrolls left (t.loops + 1) m.vars h m'.vars laps ∧
      (t'.loops = t.loops + laps.length ∨ t'.loops + 1 = t.loops + laps.length) := by
  induction left generalizing t m h with
  | zero =>
      obtain ⟨rfl, hend⟩ := Proc.runs_done_iff.1 hrun
      cases hend
      exact ⟨[], .nil (by simp), .inl rfl⟩
  | succ left ih =>
      rcases runs_playIterations_succ hrun with hlast | ⟨h₁, h₂, t₁, m₁, rfl, hfirst, hrest⟩
      · -- The run is over with this iteration: it was not begun, or it is not counted.
        have hloops : t'.loops = t.loops := loops_playIteration hlast
        rcases lap_playIteration hassigns hlast with
          ⟨rfl, hstage⟩ | ⟨lap, hnumber, rfl, hopened, hwrites, hend⟩
        · cases hstage
          exact ⟨[], .nil (by simp [poll, handedOn?]), .inl rfl⟩
        · rw [← hnumber] at hopened ⊢
          have hnone : Unrolls left (lap.number + 1) lap.closed ([] : History (Run μ)) lap.closed [] :=
            .nil (by simp)
          have hone := hnone.cons hopened hwrites
          rw [List.append_nil, ← hend] at hone
          exact ⟨[lap], hone, .inr (by rw [hloops]; rfl)⟩
      · -- The run goes on behind this iteration, from the variables at its end.
        have hassigns₁ : OnlyAssigns h₁ := fun e he => hassigns e (List.mem_append_left h₂ he)
        have hassigns₂ : OnlyAssigns h₂ := fun e he => hassigns e (List.mem_append_right h₁ he)
        have hloops : t₁.loops = t.loops + 1 := loops_playIteration hfirst
        rcases lap_playIteration hassigns₁ hfirst with
          ⟨-, hstage⟩ | ⟨lap, hnumber, rfl, hopened, hwrites, hend⟩
        · nomatch hstage
        · rw [← hloops] at hrest
          obtain ⟨laps, hlaps, hlength⟩ := ih hassigns₂ hrest
          have hvars : m₁.vars = lap.closed := hend
          rw [hvars, hloops, ← hnumber] at hlaps
          rw [← hnumber] at hopened ⊢
          refine ⟨lap :: laps, hlaps.cons hopened hwrites, ?_⟩
          rw [List.length_cons]
          omega

end Run
end MacroReplay
