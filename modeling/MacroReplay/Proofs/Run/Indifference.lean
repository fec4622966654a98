import MacroReplay.Proofs.Run.Iteration
import MacroReplay.Proofs.Variable.Assignment

/-!
# What a run does not look at

Two runs side by side, in variables that differ in the loop counter at most. As long as the commands and
the source of the rows do not let the difference show, the runs do not either: both play the same number
of iterations and end in the same state.

* `Proc.Similar` — processes that make calls of the same kind as long as they get replies of the same
  kind;
* `Proc.Similar.runs` — such processes end alike;
* `Run.similar_playCommands`, `Run.similar_playIterations` — runs in variables that are the same but for
  the loop counter are similar, by induction on the commands and on the iterations;
* `Run.loops_eq_of_matches` — whole runs.
-/

namespace MacroReplay

/-! ## Similar processes -/

namespace Proc

variable {ι : Interface} {α β γ δ : Type}

/-- When two calls are alike, and when their replies are. -/
structure Comparison (ι : Interface) where
  calls : ι.Call → ι.Call → Prop
  replies : {c c' : ι.Call} → ι.Reply c → ι.Reply c' → Prop

/-- If the calls of two events are alike, so are the replies. -/
def Comparison.Matches (k : Comparison ι) (e e' : Event ι) : Prop :=
  k.calls e.1 e'.1 → k.replies e.2 e'.2

/-- Two processes that make calls that are alike for as long as the replies are, and then end with
results that are related. -/
inductive Similar (k : Comparison ι) (R : α → β → Prop) : Proc ι α → Proc ι β → Prop where
  | done {a : α} {b : β} : R a b → Similar k R (.done a) (.done b)
  | call {c c' : ι.Call} {next : ι.Reply c → Proc ι α} {next' : ι.Reply c' → Proc ι β} :
      k.calls c c' →
      (∀ reply reply', k.replies reply reply' → Similar k R (next reply) (next' reply')) →
      Similar k R (.call c next) (.call c' next')

namespace Similar

variable {k : Comparison ι} {R : α → β → Prop} {S : γ → δ → Prop}

/-- Similar processes that are continued in similar ways are similar. -/
theorem bind {p : Proc ι α} {q : Proc ι β} {f : α → Proc ι γ} {g : β → Proc ι δ}
    (hpq : Similar k R p q) (hfg : ∀ a b, R a b → Similar k S (f a) (g b)) :
    Similar k S (p.bind f) (q.bind g) := by
  induction hpq with
  | done hab => exact hfg _ _ hab
  | call hcalls _ ih => exact .call hcalls ih

/-- Similar processes end alike, whatever comes behind them. -/
theorem runs {p : Proc ι α} {q : Proc ι β} (hpq : Similar k R p q) {h h' rest rest' : History ι} {a : α}
    {b : β} (hp : p.Runs h a) (hq : q.Runs h' b)
    (hmatch : ∀ pair ∈ (h ++ rest).zip (h' ++ rest'), k.Matches pair.1 pair.2) : R a b := by
  induction hpq generalizing h h' with
  | done hab =>
      obtain ⟨-, rfl⟩ := runs_done_iff.1 hp
      obtain ⟨-, rfl⟩ := runs_done_iff.1 hq
      exact hab
  | call hcalls _ ih =>
      -- The first events stand side by side, so their replies are alike.
      rcases runs_call_iff.1 hp with ⟨reply, h₁, rfl, hp'⟩
      rcases runs_call_iff.1 hq with ⟨reply', h₁', rfl, hq'⟩
      rw [List.cons_append, List.cons_append, List.zip_cons_cons, List.forall_mem_cons] at hmatch
      exact ih reply reply' (hmatch.1 hcalls) hp' hq' hmatch.2

end Similar
end Proc

/-! ## Variables that are the same but for the loop counter -/

namespace Store

/-- The stores differ in the loop counter at most, and in whether it was assigned. -/
structure SameButLoop (s s' : Store) : Prop where
  find?_eq : ∀ name, name ≠ "!LOOP" → s'.values.find? name = s.values.find? name
  extracted_eq : s'.extracted = s.extracted

namespace SameButLoop

variable {s s' : Store}

theorem setLoopCounter (hs : s.SameButLoop s') (n n' : Nat) :
    (s.setLoopCounter n).SameButLoop (s'.setLoopCounter n') where
  find?_eq := by
    intro name hname
    have hother := hs.find?_eq name hname
    simpa [Store.setLoopCounter, Bindings.find?_put, hname] using hother
  extracted_eq := hs.extracted_eq

/-- The counter may differ, but nothing else comes to differ when it is advanced. -/
theorem advanceLoop (hs : s.SameButLoop s') (i : Nat) :
    (Run.advanceLoop i s).SameButLoop (Run.advanceLoop i s') := by
  -- Whatever the counter was, only the counter is set.
  have hset : ∀ s : Store, ∃ n, Run.advanceLoop i s = s.setLoopCounter n := by
    intro s
    unfold Run.advanceLoop
    by_cases hmark : s.loopAssigned = true
    · exact ⟨_, if_pos hmark⟩
    · exact ⟨_, if_neg hmark⟩
  obtain ⟨n, hn⟩ := hset s
  obtain ⟨n', hn'⟩ := hset s'
  rw [hn, hn']
  exact hs.setLoopCounter n n'

theorem beginRun (hs : s.SameButLoop s') : s.beginRun.SameButLoop s'.beginRun where
  find?_eq := by
    intro name hname
    have hother := hs.find?_eq name hname
    simp [Store.beginRun, Store.setLoopCounter, Bindings.find?_put, hname, hother]
  extracted_eq := rfl

/-- Switches other than the counter read the same. -/
theorem isYes_eq (hs : s.SameButLoop s') {name : String} (hname : Variable.canonical name ≠ "!LOOP") :
    s'.isYes name = s.isYes name := by
  simp only [isYes, textOf, lookup, extractText, hs.find?_eq _ hname, hs.extracted_eq]

/-- What a run does after a failure does not depend on the loop counter. -/
theorem policy_eq (hs : s.SameButLoop s') : Run.policy s' = Run.policy s := by
  rw [Run.policy, Run.policy, hs.isYes_eq (by decide), hs.isYes_eq (by decide)]

end SameButLoop
end Store

/-! ## Runs side by side -/

namespace Run

variable {μ η : Type}

/-- Calls and replies with variables that are the same but for the loop counter. The commands may be
any. -/
def butLoop : Proc.Comparison (Run μ) where
  calls
    | .stopRequested, .stopRequested => True
    | .load i vars, .load i' vars' => i' = i ∧ vars.SameButLoop vars'
    | .dispatch _ m, .dispatch _ m' => m.vars.SameButLoop m'.vars
    | _, _ => False
  replies {c c'} := match c, c' with
    | .stopRequested, .stopRequested => fun (stop stop' : Bool) => stop' = stop
    | .load _ _, .load _ _ => fun (reply reply' : LoadReport × Store) =>
        reply'.1 = reply.1 ∧ reply.2.SameButLoop reply'.2
    | .dispatch _ _, .dispatch _ _ => fun (d d' : Dispatched μ) =>
        d'.result = d.result ∧ d.memory.vars.SameButLoop d'.memory.vars
    | _, _ => fun _ _ => True

/-- The runs have come equally far. -/
structure Tally.Alike (t t' : Tally) : Prop where
  loops_eq : t'.loops = t.loops
  state_eq : t'.state = t.state

/-- Two runs stand at the same place after an iteration. -/
inductive Stage.Alike : Stage μ → Stage μ → Prop where
  | goesOn {t t' : Tally} {m m' : Memory μ} : t.Alike t' → m.vars.SameButLoop m'.vars →
      Stage.Alike (.goesOn t m) (.goesOn t' m')
  | over {t t' : Tally} {m m' : Memory μ} : t.Alike t' → m.vars.SameButLoop m'.vars →
      Stage.Alike (.over t m) (.over t' m')

namespace Tally.Alike

variable {t t' : Tally}

theorem stop (ht : t.Alike t') : t.stop.Alike t'.stop := ⟨ht.loops_eq, rfl⟩

theorem abort (ht : t.Alike t') {code code' : ErrorCode} {message message' : String}
    {line line' : Option Nat} : (t.abort code message line).Alike (t'.abort code' message' line') :=
  ⟨ht.loops_eq, rfl⟩

theorem withMessage (ht : t.Alike t') {message message' : Option String} :
    Tally.Alike { t with message := message } { t' with message := message' } :=
  ⟨ht.loops_eq, ht.state_eq⟩

theorem withLoops (ht : t.Alike t') (i : Nat) :
    Tally.Alike { t with loops := i } { t' with loops := i } :=
  ⟨rfl, ht.state_eq⟩

theorem noted (ht : t.Alike t') (s s' : Step μ) : (t.noted s).Alike (t'.noted s') := by
  obtain ⟨hloops, hstate⟩ := t.noted_keeps s
  obtain ⟨hloops', hstate'⟩ := t'.noted_keeps s'
  exact ⟨by rw [hloops, hloops', ht.loops_eq], by rw [hstate, hstate', ht.state_eq]⟩

end Tally.Alike

/-- A question whether a stop was requested gets the same answer in both runs. -/
theorem similar_poll {α : Type} {R : α → α → Prop} {next next' : Bool → Proc (Run μ) α}
    (hnext : ∀ stop, Proc.Similar butLoop R (next stop) (next' stop)) :
    Proc.Similar butLoop R (.call .stopRequested next) (.call .stopRequested next') := by
  refine .call trivial ?_
  rintro _ stop rfl
  exact hnext stop

variable {i : Nat} {t t' : Tally} {m m' : Memory μ}

/-- Behind a failure the two runs do the same, if they do so with the commands that are left. -/
theorem similar_afterFailure {rest rest' : List Command} {s s' : Step μ} (ht : t.Alike t')
    (hresult : s'.result = s.result) (hleft : s.left.SameButLoop s'.left)
    (hrest : ∀ u u' : Tally, u.Alike u' → Proc.Similar butLoop Stage.Alike
      (playCommands i rest u s.outcome.memory) (playCommands i rest' u' s'.outcome.memory)) :
    Proc.Similar butLoop Stage.Alike (afterFailure i rest t s) (afterFailure i rest' t' s') := by
  have hnoted := ht.noted s s'
  unfold afterFailure
  rw [hresult, hleft.policy_eq]
  by_cases hstopped : s.result.code = .stopped
  · rw [if_pos hstopped, if_pos hstopped]
    exact .done (.over hnoted.stop hleft)
  · rw [if_neg hstopped, if_neg hstopped]
    refine similar_poll fun stop => ?_
    cases stop with
    | true => exact .done (.over hnoted.stop hleft)
    | false =>
        rw [if_neg Bool.false_ne_true, if_neg Bool.false_ne_true]
        by_cases hend : s.result.code = .datasourceEnd
        · rw [if_pos hend, if_pos hend]
          exact .done (.over hnoted hleft)
        · rw [if_neg hend, if_neg hend]
          cases policy s.left with
          | nextCommand => exact hrest _ _ hnoted.withMessage
          | nextIteration => exact .done (.goesOn (hnoted.withMessage.withLoops i) hleft)
          | abort => exact .done (.over hnoted.abort hleft)

/-- The commands of an iteration, by induction on them. -/
theorem similar_playCommands {commands commands' : List Command}
    (hcommands : commands'.length = commands.length) (ht : t.Alike t')
    (hm : m.vars.SameButLoop m'.vars) :
    Proc.Similar butLoop Stage.Alike (playCommands i commands t m) (playCommands i commands' t' m') := by
  induction commands generalizing commands' t t' m m' with
  | nil =>
      rw [List.length_eq_zero_iff.1 hcommands]
      exact .done (.goesOn (ht.withLoops i) hm)
  | cons c rest ih =>
      obtain ⟨c', rest', rfl⟩ := List.exists_cons_of_length_eq_add_one hcommands
      have hlength : rest'.length = rest.length := Nat.succ.inj hcommands
      rw [playCommands_cons, playCommands_cons]
      refine similar_poll fun stop => ?_
      cases stop with
      | true => exact .done (.over ht.stop hm)
      | false =>
          -- The two commands turn out alike, so both runs go on, or both look at the failure.
          refine .call hm ?_
          rintro d d' ⟨hresult, hleft⟩
          rw [hresult]
          by_cases hok : d.result.success = true
          · rw [if_pos hok, if_pos hok]
            exact ih hlength (ht.noted ⟨c, m, d⟩ ⟨c', m', d'⟩) hleft
          · rw [if_neg hok, if_neg hok]
            exact similar_afterFailure ht hresult hleft fun u u' hu => ih hlength hu hleft

theorem sameButLoop_counted (hm : m.vars.SameButLoop m'.vars) (i : Nat) :
    (counted i m).vars.SameButLoop (counted i m').vars := by
  unfold counted
  split
  · exact hm.advanceLoop i
  · exact hm

/-- One iteration: both runs play it, or neither does. -/
theorem similar_playIteration {commands commands' : List Command} (hasDatasource : Bool)
    (hcommands : commands'.length = commands.length) (ht : t.Alike t')
    (hm : m.vars.SameButLoop m'.vars) :
    Proc.Similar butLoop Stage.Alike (playIteration commands hasDatasource i t m)
      (playIteration commands' hasDatasource i t' m') := by
  have hcounted := sameButLoop_counted hm i
  refine similar_poll fun stop => ?_
  cases stop with
  | true => exact .done (.over ht.stop hm)
  | false =>
      cases hasDatasource with
      | false => exact similar_playCommands hcommands ht hcounted
      | true =>
          refine .call ⟨rfl, hcounted⟩ ?_
          rintro ⟨_, vars⟩ ⟨report, vars'⟩ ⟨rfl, hvars⟩
          cases report with
          | loaded => exact similar_playCommands hcommands ht hvars
          | exhausted => exact .done (.over ht hvars)
          | failed e =>
              cases e <;> first
                | exact .done (.over ht hvars)
                | exact .done (.over ht.abort hvars)
          | faulted f => exact .done (.over ht.abort hvars)

/-- All iterations, by induction on their number. -/
theorem similar_playIterations {commands commands' : List Command} (hasDatasource : Bool)
    (hcommands : commands'.length = commands.length) (left : Nat) (ht : t.Alike t')
    (hm : m.vars.SameButLoop m'.vars) :
    Proc.Similar butLoop (fun a b : Tally × Memory μ => a.1.Alike b.1)
      (playIterations commands hasDatasource left i t m)
      (playIterations commands' hasDatasource left i t' m') := by
  induction left generalizing i t t' m m' with
  | zero => exact .done ht
  | succ left ih =>
      refine (similar_playIteration hasDatasource hcommands ht hm).bind ?_
      rintro _ _ (⟨ht', hm'⟩ | ⟨ht', -⟩)
      · exact ih ht' hm'
      · exact .done ht'

/-- **The loop counter does not decide how long a run goes on.** Two runs over equally many commands and
for the same number of loops, whose variables and replies are the same but for the loop counter, play
equally many iterations and end in the same state. -/
theorem loops_eq_of_matches {setup setup' : Setup η} {h h' : History (Run μ)} {r r' : RunResult}
    {n n' : Memory μ} (hrun : (plan setup m).Runs h (r, n)) (hrun' : (plan setup' m').Runs h' (r', n'))
    (hcommands : setup'.script.commands.length = setup.script.commands.length)
    (hloops : setup'.loops = setup.loops) (hrows : setup'.hasDatasource = setup.hasDatasource)
    (hm : m.vars.SameButLoop m'.vars)
    (hmatch : ∀ pair ∈ h.zip h', butLoop.Matches pair.1 pair.2) :
    r'.loops = r.loops ∧ r'.state = r.state := by
  rcases runs_plan hrun with ⟨h₁, h₂, t₁, m₁, rfl, hplayed, -, rfl, -⟩
  rcases runs_plan hrun' with ⟨h₁', h₂', t₁', m₁', rfl, hplayed', -, rfl, -⟩
  rw [hloops, hrows] at hplayed'
  have hstart : Tally.start.Alike Tally.start := ⟨rfl, rfl⟩
  have halike : t₁.Alike t₁' :=
    (similar_playIterations setup.hasDatasource hcommands (max 1 setup.loops) hstart hm.beginRun).runs
      hplayed hplayed' hmatch
  exact ⟨halike.loops_eq, halike.state_eq⟩

end Run
end MacroReplay
