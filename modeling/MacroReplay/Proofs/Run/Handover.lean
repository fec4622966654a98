import MacroReplay.Proofs.Run.Iteration

/-!
# How a run hands on what the handlers share

What the handlers share beside the variables goes from each command to the next one, from the last
command to the first hook, and from hook to hook. Nothing else in a run changes it.

* `Threads` — a history in which it is handed on from call to call;
* `carries_playIterations` — the iterations of a run hand it on, and call no hooks;
* `threads_plan` — so does a whole run, which calls every hook once behind its iterations.
-/

namespace MacroReplay
namespace Run

variable {μ η : Type}

def Hands : Event (Run μ) → μ → μ → Prop
  | ⟨.dispatch _ m, d⟩, b, b' => m.shared = b ∧ (d : Dispatched μ).memory.shared = b'
  | ⟨.cleanUp _ shared, reply⟩, b, b' => shared = b ∧ (reply : HookReport × μ).2 = b'
  | _, b, b' => b' = b

/-- A history that begins with `b` and ends with `b'`. -/
def Threads : μ → History (Run μ) → μ → Prop
  | b, [], b' => b' = b
  | b, e :: h, b' => ∃ between, Hands e b between ∧ Threads between h b'

/-- What is shared passes from one part of a history to the next. -/
theorem threads_append_iff {h₁ h₂ : History (Run μ)} {b b' : μ} :
    Threads b (h₁ ++ h₂) b' ↔ ∃ between, Threads b h₁ between ∧ Threads between h₂ b' := by
  induction h₁ generalizing b with
  | nil => simp [Threads]
  | cons e h₁ ih =>
      simp only [List.cons_append, Threads, ih]
      constructor
      · rintro ⟨b₁, hands, between, hfirst, hsecond⟩
        exact ⟨between, ⟨b₁, hands, hfirst⟩, hsecond⟩
      · rintro ⟨between, ⟨b₁, hands, hfirst⟩, hsecond⟩
        exact ⟨b₁, hands, between, hfirst, hsecond⟩

@[simp]
theorem threads_nil_iff {b b' : μ} : Threads b [] b' ↔ b' = b := Iff.rfl

/-- Asking for a stop does not touch what is shared. -/
@[simp]
theorem threads_poll_iff {stop : Bool} {h : History (Run μ)} {b b' : μ} :
    Threads b (poll stop :: h) b' ↔ Threads b h b' := by
  simp [Threads, Hands, poll]

@[simp]
theorem threads_loading_iff {i : Nat} {m : Memory μ} {report : LoadReport} {vars : Store}
    {h : History (Run μ)} {b b' : μ} :
    Threads b (loading i m report vars :: h) b' ↔ Threads b h b' := by
  simp [Threads, Hands, loading]

@[simp]
theorem threads_event_iff {s : Step μ} {h : History (Run μ)} {b b' : μ} :
    Threads b (s.event :: h) b' ↔ s.before.shared = b ∧ Threads s.outcome.memory.shared h b' := by
  simp [Threads, Hands, Step.event, and_assoc]

/-! ## Iterations -/

@[simp]
theorem isClosing_poll (stop : Bool) : (poll stop : Event (Run μ)).1.isClosing = false := rfl

@[simp]
theorem isClosing_event (s : Step μ) : s.event.1.isClosing = false := rfl

@[simp]
theorem isClosing_loading (i : Nat) (m : Memory μ) (report : LoadReport) (vars : Store) :
    (loading i m report vars).1.isClosing = false := rfl

/-- A history of commands and rows that begins with `b` and ends with `b'`. -/
structure Carries (b : μ) (h : History (Run μ)) (b' : μ) : Prop where
  threads : Threads b h b'
  works : ∀ e ∈ h, e.1.isClosing = false

theorem Carries.append {h₁ h₂ : History (Run μ)} {b between b' : μ} (hfirst : Carries b h₁ between)
    (hsecond : Carries between h₂ b') : Carries b (h₁ ++ h₂) b' where
  threads := threads_append_iff.2 ⟨between, hfirst.threads, hsecond.threads⟩
  works e he := (List.mem_append.1 he).elim (hfirst.works e) (hsecond.works e)

theorem carries_calls (s : Step μ) : Carries s.before.shared s.calls s.outcome.memory.shared := by
  cases hok : s.result.success with
  | true =>
      rw [Step.calls_of_success hok]
      constructor <;> simp
  | false =>
      rw [Step.calls_of_failure hok]
      constructor <;> simp

/-- However the commands of an iteration end, what they share has passed through all of them. -/
theorem Exit.carries {i : Nat} {rest : List Command} {t : Tally} {m : Memory μ}
    {h : History (Run μ)} {stage : Stage μ} (hexit : Exit i rest t m h stage) :
    Carries m.shared h stage.memory.shared := by
  cases hexit <;> constructor <;> simp [Stage.memory]

theorem carries_playCommands {i : Nat} {commands : List Command} {t : Tally} {m : Memory μ}
    {h : History (Run μ)} {stage : Stage μ} (hrun : (playCommands i commands t m).Runs h stage) :
    Carries m.shared h stage.memory.shared := by
  induction commands generalizing t m h with
  | nil =>
      obtain ⟨rfl, rfl⟩ := Proc.runs_done_iff.1 hrun
      constructor <;> simp [Stage.memory]
  | cons c commands ih =>
      -- A command that the run goes on after hands on to the commands behind it.
      rcases runs_playCommands_cons hrun with hexit | ⟨s, h', -, rfl, -, rfl, hrest⟩
      · exact hexit.carries
      · exact (carries_calls s).append (ih hrest)

theorem counted_shared (i : Nat) (m : Memory μ) : (counted i m).shared = m.shared := by
  unfold counted
  split <;> rfl

/-- Opening an iteration does not touch what is shared. -/
theorem carries_playIteration {commands : List Command} {hasDatasource : Bool} {i : Nat} {t : Tally}
    {m : Memory μ} {h : History (Run μ)} {stage : Stage μ}
    (hrun : (playIteration commands hasDatasource i t m).Runs h stage) :
    Carries m.shared h stage.memory.shared := by
  have hcounted := counted_shared i m
  rcases runs_playIteration hrun with hrefused | ⟨h₁, h₂, m', hopened, rfl, hplayed⟩
  · cases hrefused <;> constructor <;> simp [Stage.memory, hcounted]
  · have hopening : Carries m.shared h₁ m'.shared := by
      cases hopened <;> constructor <;> simp [hcounted]
    exact hopening.append (carries_playCommands hplayed)

/-- What the handlers share is handed on through the iterations of a run. -/
theorem carries_playIterations {commands : List Command} {hasDatasource : Bool} {left i : Nat}
    {t t' : Tally} {m m' : Memory μ} {h : History (Run μ)}
    (hrun : (playIterations commands hasDatasource left i t m).Runs h (t', m')) :
    Carries m.shared h m'.shared := by
  induction left generalizing i t m h with
  | zero =>
      obtain ⟨rfl, hend⟩ := Proc.runs_done_iff.1 hrun
      cases hend
      constructor <;> simp
  | succ left ih =>
      rcases runs_playIterations_succ hrun with hlast | ⟨h₁, h₂, t₁, m₁, rfl, hfirst, hrest⟩
      · exact carries_playIteration hlast
      · exact (carries_playIteration hfirst).append (ih hrest)

/-! ## Hooks and profile -/

def hookName? : Event (Run μ) → Option String
  | ⟨.cleanUp name _, _⟩ => some name
  | _ => none

/-- The hooks are called in order, and each is given what the one before it left. -/
theorem threads_invokeAll {hooks : List (String × η)} {shared shared' : μ} {failures failures' : Nat}
    {h : History (Run μ)}
    (hrun : (Cleanup.invokeAll invokeHook hooks shared failures).Runs h (failures', shared')) :
    Threads shared h shared' ∧ h.filterMap hookName? = hooks.map Prod.fst := by
  induction hooks generalizing shared failures h with
  | nil =>
      obtain ⟨rfl, hend⟩ := Proc.runs_done_iff.1 hrun
      cases hend
      exact ⟨rfl, rfl⟩
  | cons hook hooks ih =>
      rcases Proc.runs_call_iff.1 hrun with ⟨⟨report, between⟩, h', rfl, hrest⟩
      obtain ⟨hthreads, hnames⟩ := ih hrest
      refine ⟨⟨between, ⟨rfl, rfl⟩, hthreads⟩, ?_⟩
      simp [hookName?, hnames]

/-- Writing the profile calls no hook. -/
theorem threads_writeProfile {hasSink : Bool} {name : String} {t : Tally} {vars : Store}
    {h : History (Run μ)} {end' : Unit} (hrun : (writeProfile hasSink name t vars).Runs h end')
    (b : μ) : Threads b h b ∧ h.filterMap hookName? = [] := by
  unfold writeProfile at hrun
  split at hrun
  · split at hrun
    · rcases Proc.runs_call_iff.1 hrun with ⟨reply, h', rfl, hdone⟩
      obtain ⟨rfl, -⟩ := Proc.runs_done_iff.1 hdone
      exact ⟨⟨b, rfl, rfl⟩, rfl⟩
    · obtain ⟨rfl, -⟩ := Proc.runs_done_iff.1 hrun
      exact ⟨rfl, rfl⟩
  · obtain ⟨rfl, -⟩ := Proc.runs_done_iff.1 hrun
    exact ⟨rfl, rfl⟩

/-- What the handlers share is handed on through a run: through its iterations, and then through every
hook once, in order. -/
theorem threads_plan {setup : Setup η} {m m' : Memory μ} {h : History (Run μ)} {r : RunResult}
    (hrun : (plan setup m).Runs h (r, m')) :
    ∃ h₁ h₂ between, h = h₁ ++ h₂ ∧ Carries m.shared h₁ between ∧
      Threads between h₂ m'.shared ∧
      (∀ e ∈ h₂, e.1.isClosing = true) ∧ h₂.filterMap hookName? = setup.cleanup.names := by
  rcases runs_plan_parts hrun with
    ⟨work, hooks, profile, t, m₁, failures, hsplit, hplayed, hinvoked, hprofile, -, -⟩
  obtain ⟨hthreads, hnames⟩ := threads_invokeAll hinvoked
  obtain ⟨hkept, hnone⟩ := threads_writeProfile hprofile m'.shared
  have hcarries := carries_playIterations hplayed
  refine ⟨work, hooks ++ profile, m₁.shared, by rw [hsplit, List.append_assoc], hcarries, ?_, ?_, ?_⟩
  · exact threads_append_iff.2 ⟨m'.shared, hthreads, hkept⟩
  · intro e he
    rcases List.mem_append.1 he with he | he
    · exact runs_invokeAll hinvoked e he
    · exact runs_writeProfile hprofile e he
  · rw [List.filterMap_append, hnames, hnone, List.append_nil]
    rfl

end Run
end MacroReplay
