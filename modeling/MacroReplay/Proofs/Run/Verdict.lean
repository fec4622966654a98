import MacroReplay.Proofs.Run.Bookkeeping

/-!
# What a failed run says

A run that fails says why: its code and its message name the stop, the command or the row that ended it.
Commands that fail without a message are given one. A row that fails to load is different: its error is
passed on as it is, so a run that such a row ended may have the code of a stop without having been
stopped.

* `RowFailed` — a row that could not be loaded;
* `Tally.Clear` — the state agrees with the code, and a failure has a message;
* `Tally.Verdict` — the tally at the end of a run: clear, or that of the row that failed;
* `Engine.Execution.verdict` — the result of every run.
-/

namespace MacroReplay

theorem ErrorCode.name_ne_empty (c : ErrorCode) : c.name ≠ "" := by
  cases c <;> decide

theorem CommandError.code_eq_stopped_iff {e : CommandError} : e.code = .stopped ↔ e = .stopped := by
  cases e <;> simp [code]

namespace Run

variable {μ : Type}

/-- Every failure has a message, if only the name of its code. -/
theorem failureMessage_ne_empty (r : CommandResult) : failureMessage r ≠ "" := by
  unfold failureMessage
  split
  · exact r.code.name_ne_empty
  · rename_i htext
    intro hempty
    exact htext (by rw [hempty]; rfl)

/-! ## Rows that fail -/

/-- The row of an iteration could not be loaded, for a cause other than the end of the data. -/
def RowFailed (h : History (Run μ)) (err : CommandError) : Prop :=
  err ≠ .datasourceEnd ∧ ∃ i m vars, loading i m (.failed err) vars ∈ h

/-- A row has failed in one part of a history or in the other. -/
theorem rowFailed_append {h₁ h₂ : History (Run μ)} {err : CommandError} :
    RowFailed (h₁ ++ h₂) err ↔ RowFailed h₁ err ∨ RowFailed h₂ err := by
  simp only [RowFailed, List.mem_append, exists_or, and_or_left]

theorem not_rowFailed_of_loads {h : History (Run μ)}
    (hloads : ∀ i m report vars, loading i m report vars ∈ h → ∀ err, report = .failed err →
      err = .datasourceEnd) (err : CommandError) : ¬RowFailed h err := by
  rintro ⟨herr, i, m, vars, hmem⟩
  exact herr (hloads i m _ vars hmem err rfl)

/-- An iteration that was counted has loaded its row. -/
theorem IsCounted.not_rowFailed {commands : List Command} {hasDatasource : Bool}
    {h : History (Run μ)} (hcounted : IsCounted commands hasDatasource h) (err : CommandError) :
    ¬RowFailed h err := by
  apply not_rowFailed_of_loads
  intro i m report vars hmem err hfailed
  rw [hcounted.calls.2.2 i m report vars hmem] at hfailed
  cases hfailed

def Call.isLoad : Call μ → Bool
  | .load _ _ => true
  | _ => false

theorem not_rowFailed_of_calls {h : History (Run μ)} (hcalls : ∀ e ∈ h, e.1.isLoad = false)
    (err : CommandError) : ¬RowFailed h err := by
  rintro ⟨-, i, m, vars, hmem⟩
  cases hcalls _ hmem

abbrev LoadsNothing {α : Type} (p : Proc (Run μ) α) : Prop :=
  p.Obeys (fun c : Call μ => c.isLoad = false) fun _ => True

theorem loadsNothing_afterFailure {i : Nat} {rest : List Command} (t : Tally) (s : Step μ)
    (hrest : ∀ (t : Tally) (m : Memory μ), LoadsNothing (playCommands i rest t m)) :
    LoadsNothing (afterFailure i rest t s) := by
  unfold afterFailure
  split
  · trivial
  · refine ⟨rfl, ?_⟩
    intro stop
    cases stop with
    | true => trivial
    | false =>
        dsimp only
        rw [if_neg Bool.false_ne_true]
        split
        · trivial
        · cases policy s.left with
          | nextCommand => exact hrest _ _
          | nextIteration => trivial
          | abort => trivial

/-- Commands load no rows. -/
theorem loadsNothing_playCommands (i : Nat) (commands : List Command) (t : Tally) (m : Memory μ) :
    LoadsNothing (playCommands i commands t m) := by
  induction commands generalizing t m with
  | nil => trivial
  | cons c commands ih =>
      rw [playCommands_cons]
      refine ⟨rfl, ?_⟩
      intro stop
      cases stop with
      | true => trivial
      | false =>
          refine ⟨rfl, ?_⟩
          intro d
          dsimp only
          split
          · exact ih _ _
          · exact loadsNothing_afterFailure t _ ih

/-! ## Clear tallies -/

/-- A stopped run has the code of a stop and no other run has it; a run that did not complete has a
message that says something. -/
structure Tally.Clear (t : Tally) : Prop where
  stopped_iff : t.state = .stopped ↔ t.code = .stopped
  message : t.state ≠ .completed → ∃ text, t.message = some text ∧ text ≠ ""

theorem Tally.Ongoing.clear {t : Tally} {n : Nat} (ht : t.Ongoing n) : t.Clear where
  stopped_iff := by simp [ht.state_eq, ht.code_eq]
  message hstate := absurd ht.state_eq hstate

theorem Tally.clear_stop (t : Tally) : t.stop.Clear where
  stopped_iff := ⟨fun _ => rfl, fun _ => rfl⟩
  message _ := ⟨_, rfl, by decide⟩

/-- An abort with a message, and with a code other than that of a stop, is clear. -/
theorem Tally.clear_abort (t : Tally) {code : ErrorCode} (hcode : code ≠ .stopped)
    {message : String} (hmessage : message ≠ "") (line : Option Nat) :
    (t.abort code message line).Clear where
  stopped_iff := ⟨nofun, fun h => absurd h hcode⟩
  message _ := ⟨message, rfl, hmessage⟩

/-- Behind a failure that tells of a stop the run does not ask for anything any more. -/
theorem code_ne_stopped_of_asked {i : Nat} {rest : List Command} {t : Tally} {s : Step μ}
    {stage : Stage μ} {stop : Bool} {h : History (Run μ)}
    (hrun : (afterFailure i rest t s).Runs (poll stop :: h) stage) : s.result.code ≠ .stopped := by
  intro hstopped
  rw [afterFailure, if_pos hstopped] at hrun
  cases (Proc.runs_done_iff.1 hrun).1

/-- However the commands end the run, the verdict is clear. -/
theorem Exit.clear {i n : Nat} {rest : List Command} {t t' : Tally} {m m' : Memory μ}
    {stage : Stage μ} {h : History (Run μ)} (hexit : Exit i rest t m h stage)
    (hrun : (playCommands i rest t m).Runs h stage) (hstage : stage = .over t' m')
    (ht : t.Ongoing n) : t'.Clear := by
  cases hexit with
  | halted =>
      obtain ⟨rfl, rfl⟩ := Stage.over.inj hstage
      exact t.clear_stop
  | @stopped s =>
      obtain ⟨rfl, rfl⟩ := Stage.over.inj hstage
      exact (t.noted s).clear_stop
  | @haltedAfter s =>
      obtain ⟨rfl, rfl⟩ := Stage.over.inj hstage
      exact (t.noted s).clear_stop
  | @dataEnd s =>
      obtain ⟨rfl, rfl⟩ := Stage.over.inj hstage
      exact (ht.noted s).clear
  | @aborted s _ _ hfailed =>
      -- The run asked whether to stop behind the failure, so the failure was not a stop.
      have hcode : s.result.code ≠ .stopped :=
        code_ne_stopped_of_asked (runs_afterFailure_of_calls hfailed hrun)
      clear hrun
      obtain ⟨rfl, rfl⟩ := Stage.over.inj hstage
      exact (t.noted s).clear_abort hcode (failureMessage_ne_empty _) _
  | finished | skipped => cases hstage

theorem clear_playCommands {i n : Nat} {commands : List Command} {t t' : Tally} {m m' : Memory μ}
    {h : History (Run μ)} (hrun : (playCommands i commands t m).Runs h (.over t' m'))
    (ht : t.Ongoing n) : t'.Clear := by
  induction commands generalizing t m h with
  | nil => cases (Proc.runs_done_iff.1 hrun).2
  | cons c commands ih =>
      rcases runs_playCommands_cons hrun with hexit | ⟨s, h', rfl, rfl, -, rfl, hrest⟩
      · exact hexit.clear hrun rfl ht
      · exact ih hrest (ht.after s)

/-! ## Verdicts -/

/-- What a tally says at the end of a run with these calls: it is clear, unless a row failed; then the
run was aborted for the cause that the row gave. -/
structure Tally.Verdict (t : Tally) (h : History (Run μ)) : Prop where
  clear : (∀ err, ¬RowFailed h err) → t.Clear
  row : ∀ err, RowFailed h err →
    t.state = .aborted ∧ t.code = err.code ∧ t.message = some err.message

theorem Tally.Clear.verdict {t : Tally} (ht : t.Clear) {h : History (Run μ)}
    (hrows : ∀ err, ¬RowFailed h err) : t.Verdict h where
  clear _ := ht
  row err hfailed := absurd hfailed (hrows err)

/-- Iterations whose rows were loaded do not change the verdict. -/
theorem Tally.Verdict.behind {t : Tally} {h earlier : History (Run μ)} (ht : t.Verdict h)
    (hrows : ∀ err, ¬RowFailed earlier err) : t.Verdict (earlier ++ h) where
  clear hnone := ht.clear fun err hfailed => hnone err (rowFailed_append.2 (.inr hfailed))
  row err hfailed := by
    rcases rowFailed_append.1 hfailed with hearlier | hlater
    · exact absurd hearlier (hrows err)
    · exact ht.row err hlater

/-- A row that is refused ends the run with a verdict too. -/
theorem Refusal.verdict {hasDatasource : Bool} {i n : Nat} {t t' : Tally} {m m' : Memory μ}
    {h : History (Run μ)} (hrefusal : Refusal hasDatasource i t m h (.over t' m'))
    (ht : t.Ongoing n) : t'.Verdict h := by
  -- The only load is the one that the run ends with.
  have honly : ∀ {report vars} j (m₁ : Memory μ) report' vars',
      loading j m₁ report' vars' ∈ [poll false, loading i (counted i m) report vars] →
        report' = report := by
    intro report vars j m₁ report' vars' hmem
    rcases List.mem_cons.1 hmem with hpoll | hload
    · simp [poll, loading] at hpoll
    · exact report_eq_of_loading_eq (List.mem_singleton.1 hload)
  cases hrefusal with
  | halted =>
      refine t.clear_stop.verdict (not_rowFailed_of_calls ?_)
      simp [poll, Call.isLoad]
  | @exhausted report vars _ hreport =>
      refine ht.clear.verdict (not_rowFailed_of_loads ?_)
      intro j m₁ report' vars' hmem err hfailed
      rw [honly j m₁ report' vars' hmem] at hfailed
      rcases hreport with rfl | rfl
      · cases hfailed
      · exact (LoadReport.failed.inj hfailed).symm
  | @failed e vars _ he =>
      have hrow : ∀ err, RowFailed [poll false, loading i (counted i m) (.failed e) vars] err →
          err = e := by
        rintro err ⟨-, j, m₁, vars', hmem⟩
        exact LoadReport.failed.inj (honly j m₁ _ vars' hmem)
      refine ⟨?_, ?_⟩
      · intro hnone
        exact absurd ⟨he, i, counted i m, vars, by simp⟩ (hnone e)
      · intro err herr
        rw [hrow err herr]
        exact ⟨rfl, rfl, rfl⟩
  | @faulted f vars =>
      refine (t.clear_abort (by decide) (by decide) none).verdict (not_rowFailed_of_loads ?_)
      intro j m₁ report' vars' hmem err hfailed
      rw [honly j m₁ report' vars' hmem] at hfailed
      cases hfailed

theorem verdict_playIteration {commands : List Command} {hasDatasource : Bool} {i n : Nat}
    {t t' : Tally} {m m' : Memory μ} {h : History (Run μ)}
    (hrun : (playIteration commands hasDatasource i t m).Runs h (.over t' m')) (ht : t.Ongoing n) :
    t'.Verdict h := by
  rcases runs_playIteration hrun with hrefusal | ⟨h₁, h₂, m₁, hopening, rfl, hplayed⟩
  · exact hrefusal.verdict ht
  · have hcommands : ∀ err, ¬RowFailed h₂ err :=
      not_rowFailed_of_calls ((loadsNothing_playCommands i commands t m₁).of_runs hplayed).1
    have hrow : ∀ err, ¬RowFailed h₁ err := by
      apply not_rowFailed_of_loads
      intro j m₂ report vars hmem err hfailed
      -- An iteration whose commands are played has a row that is there, or needs none.
      cases hopening with
      | plain => simp [poll, loading] at hmem
      | row =>
          rcases List.mem_cons.1 hmem with hpoll | hload
          · simp [poll, loading] at hpoll
          · rw [report_eq_of_loading_eq (List.mem_singleton.1 hload)] at hfailed
            cases hfailed
    exact ((clear_playCommands hplayed ht).verdict hcommands).behind hrow

theorem verdict_playIterations {commands : List Command} {hasDatasource : Bool} {left n : Nat}
    {t t' : Tally} {m m' : Memory μ} {h : History (Run μ)}
    (hrun : (playIterations commands hasDatasource left (n + 1) t m).Runs h (t', m'))
    (ht : t.Ongoing n) : t'.Verdict h := by
  induction left generalizing n t m h with
  | zero =>
      obtain ⟨rfl, hend⟩ := Proc.runs_done_iff.1 hrun
      cases hend
      exact ht.clear.verdict (not_rowFailed_of_calls (by simp))
  | succ left ih =>
      rcases runs_playIterations_succ hrun with hover | ⟨h₁, h₂, t₁, m₁, rfl, hfirst, hrest⟩
      · exact verdict_playIteration hover ht
      · -- An iteration that the run goes on after is one that counts, and has no row that failed.
        obtain ⟨hongoing, hcounted⟩ := counted_playIteration hfirst ht
        exact (ih hrest hongoing).behind hcounted.not_rowFailed

end Run

/-! ## Whole runs -/

namespace Engine
namespace Execution

variable {ι : Interface} {μ : Type} {e : Engine ι μ}

/-- A row of the run could not be loaded, for a cause other than the end of the data. -/
def RowFailed (x : e.Execution) (err : CommandError) : Prop :=
  Run.RowFailed x.events err

/-- What the result of a run says about its end. -/
structure Verdict (x : e.Execution) : Prop where
  /-- A stopped run has the code of a stop. The only other runs that have it are those that a row aborted
  which itself reports a stop. -/
  stopped_iff : x.result.code = .stopped ↔ x.result.state = .stopped ∨ x.RowFailed .stopped
  /-- A row that fails aborts the run with the code of its failure, and with its message if it
  has one. -/
  row : ∀ err, x.RowFailed err → x.result.state = .aborted ∧ x.result.code = err.code ∧
    (err.message ≠ "" → x.result.message = some err.message)
  /-- A failed run has a message that says something, if the row that failed has one. -/
  message : x.result.success = false → (∀ err, x.RowFailed err → err.message ≠ "") →
    ∃ text, x.result.message = some text ∧ text ≠ ""

/-- Every execution ends with a verdict. -/
theorem verdict (x : e.Execution) : x.Verdict := by
  rcases Run.runs_plan x.plays with ⟨h₁, h₂, t, m, hsplit, hplayed, hclosing, hresult, -⟩
  have htally : t.Verdict h₁ := Run.verdict_playIterations hplayed Run.Tally.ongoing_start
  -- Hooks and profile load nothing, so the rows that failed are those of the iterations.
  have hrows : ∀ err, x.RowFailed err ↔ Run.RowFailed h₁ err := by
    intro err
    have hnone : ¬Run.RowFailed h₂ err := by
      apply Run.not_rowFailed_of_calls
      intro event hmem
      have hevent := hclosing event hmem
      cases hcall : event.1 <;> simp_all [Run.Call.isClosing, Run.Call.isLoad]
    rw [RowFailed, events, hsplit, Run.rowFailed_append]
    exact or_iff_left hnone
  have hstate : x.result.state = t.state := by simp only [result, hresult, Run.Tally.result]
  have hcode : x.result.code = t.code := by simp only [result, hresult, Run.Tally.result]
  have hmessage : x.result.message = t.message := by simp only [result, hresult, Run.Tally.result]
  by_cases hfailed : ∃ err, Run.RowFailed h₁ err
  · -- The row has the last word: state, code and message are those of its failure.
    obtain ⟨err, herr⟩ := hfailed
    obtain ⟨hstate', hcode', hmessage'⟩ := htally.row err herr
    refine ⟨?_, ?_, ?_⟩
    · rw [hcode, hstate, hcode', hstate', hrows, CommandError.code_eq_stopped_iff]
      constructor
      · rintro rfl
        exact .inr herr
      · rintro (hstopped | hstopped)
        · cases hstopped
        · -- There is only one row that failed: it ended the run.
          have hsame := (htally.row _ hstopped).2.1
          rw [hcode'] at hsame
          exact CommandError.code_eq_stopped_iff.1 hsame
    · intro err' herr'
      obtain ⟨hstate'', hcode'', hmessage''⟩ := htally.row err' ((hrows err').1 herr')
      exact ⟨hstate.trans hstate'', hcode.trans hcode'', fun _ => hmessage.trans hmessage''⟩
    · intro _ hworded
      exact ⟨err.message, hmessage.trans hmessage', hworded err ((hrows err).2 herr)⟩
  · have hnone : ∀ err, ¬Run.RowFailed h₁ err := fun err herr => hfailed ⟨err, herr⟩
    have hclear : t.Clear := htally.clear hnone
    refine ⟨?_, ?_, ?_⟩
    · rw [hcode, hstate, ← hclear.stopped_iff]
      exact (or_iff_left fun h => hnone _ ((hrows _).1 h)).symm
    · intro err herr
      exact absurd ((hrows err).1 herr) (hnone err)
    · intro hfailed _
      rw [hmessage]
      apply hclear.message
      rw [← hstate]
      simpa [RunResult.success] using hfailed

end Execution
end Engine
end MacroReplay
