import MacroReplay.Proofs.Browser.ProxyCalls
import MacroReplay.Proofs.Variable.Expansion

/-!
# The proxy is put back after a run

* `Parts` — a run up to the hook that puts the proxy back, the hook, and what is behind it;
* `Sequence` — runs one after another on one engine;
* `proxy_restored` — what a run leaves of the proxy;
* `proxy_kept_since` — what runs leave of it, back to the last one that could not put it back;
* `proxy_lost_after_failed_restore` — that run loses the settings from before it.
-/

namespace MacroReplay
namespace Browser

variable {χ : Interface} {e : Engine (Host χ) Backup}

/-! ## A run and its hook -/

def RestoreFails (x : (install e).Execution) : Prop :=
  ∃ job ∈ x.jobs, IsRestore job ∧ ∃ call ∈ job.calls, applied? call = none

/-- A run in three parts: the calls up to the hook that puts the proxy back, those of the hook and those
behind it; `b` is what is saved when the hook runs. -/
structure Parts (x : (install e).Execution) (upTo hook behind : History (Timed (Host χ)))
    (b : Backup) : Prop where
  history : x.history = upTo ++ hook ++ behind
  retains : ∀ p, Truthful p upTo → Retains x.memory.shared p upTo b
  unchanged : (∀ job ∈ x.jobs, ¬ChangesProxy job) → Away upTo ∧ b = x.memory.shared
  restores : Restore b hook x.left.shared
  restored : ¬RestoreFails x → ∀ call ∈ hook, applied? call ≠ none
  away : Away behind

/-- A call before the end of a run is not one of the hook. -/
theorem not_isRestore_of_isClosing {job : (install e).Job} (h : job.event.1.isClosing = false) :
    ¬IsRestore job := by
  intro hrestore
  obtain ⟨⟨c, reply⟩, calls, hserved⟩ := job
  cases c with
  | cleanUp name shared => nomatch h
  | _ => nomatch hrestore

/-- A call at the end of a run is no command. -/
theorem not_changesProxy_of_isClosing {job : (install e).Job} (h : job.event.1.isClosing = true) :
    ¬ChangesProxy job := by
  rintro ⟨c, m, -, -, -, hevent, -⟩
  rw [hevent] at h
  nomatch h

/-- The jobs of a run: those before the hook that puts the proxy back, the hook, and others. -/
theorem IsAside.exists_jobs (haside : IsAside e) (x : (install e).Execution) :
    ∃ before restore after b, x.jobs = before ++ restore :: after ∧ IsRestore restore ∧
      (∀ job ∈ before, ¬IsRestore job) ∧
      (∀ job ∈ after, ¬IsRestore job ∧ ¬ChangesProxy job) ∧
      Run.Threads x.memory.shared (before.map Proc.Job.event) b ∧
      Run.Threads b ((restore :: after).map Proc.Job.event) x.left.shared := by
  rcases Run.threads_plan x.plays with ⟨h₁, h₂, between, hsplit, hcarries, hthreads, hclosing, hnames⟩
  obtain ⟨played, closing, hjobs, rfl, rfl⟩ := List.map_eq_append_iff.1 hsplit
  -- The hook stands behind the hooks of the engine that it was added to.
  have hhooks : closing.filterMap (Run.hookName? ∘ Proc.Job.event) =
      e.cleanup.names ++ [restoreHookName] := by
    rw [← List.filterMap_map, hnames]
    exact haside.names_install
  obtain ⟨own, rest, rfl, hown, hrest⟩ := List.filterMap_eq_append_iff.1 hhooks
  obtain ⟨skipped, restore, after, rfl, hskipped, hrestore, hafter⟩ :=
    List.filterMap_eq_cons_iff.1 hrest
  rw [← List.append_assoc, List.map_append, Run.threads_append_iff] at hthreads
  obtain ⟨b, hbefore, hthreads⟩ := hthreads
  refine ⟨played ++ (own ++ skipped), restore, after, b, ?_, hrestore, ?_, ?_, ?_, hthreads⟩
  · rw [hjobs, List.append_assoc, List.append_assoc]
  · intro job hjob hfound
    rcases List.mem_append.1 hjob with hjob | hjob
    · exact not_isRestore_of_isClosing (hcarries.works _ (List.mem_map_of_mem hjob)) hfound
    · rcases List.mem_append.1 hjob with hjob | hjob
      · have hmem : restoreHookName ∈ own.filterMap (Run.hookName? ∘ Proc.Job.event) :=
          List.mem_filterMap.2 ⟨job, hjob, hfound⟩
        rw [hown] at hmem
        exact haside.restoreHookName_notMem hmem
      · have hnone : Run.hookName? job.event = none := hskipped job hjob
        rw [IsRestore, hnone] at hfound
        cases hfound
  · intro job hjob
    refine ⟨?_, not_changesProxy_of_isClosing (hclosing _ (List.mem_map_of_mem (by simp [hjob])))⟩
    intro hfound
    have hnone : Run.hookName? job.event = none := List.filterMap_eq_nil_iff.1 hafter job hjob
    rw [IsRestore, hnone] at hfound
    cases hfound
  · rw [List.map_append]
    exact Run.threads_append_iff.2 ⟨between, hcarries.threads, hbefore⟩

/-- Every run has its three parts. -/
theorem IsAside.exists_parts (haside : IsAside e) (x : (install e).Execution) :
    ∃ upTo hook behind b, Parts x upTo hook behind b := by
  rcases haside.exists_jobs x with
    ⟨before, restore, after, b, hjobs, hrestore, hbefore, hafter, hthreads, between, hands, hleft⟩
  obtain ⟨haway, hkept⟩ :=
    haside.away_jobs (fun job h => (hafter job h).1) (fun job h => (hafter job h).2) hleft
  refine ⟨⟨.clock, x.began⟩ :: before.flatMap Proc.Job.calls, restore.calls,
    after.flatMap Proc.Job.calls ++ [⟨.clock, x.ended⟩], b, ?_, ?_, ?_, ?_, ?_, ?_⟩
  · simp [Engine.Execution.history, hjobs]
  · intro p htrue
    exact ((away_clock x.began).retains _ p).append (haside.retains_jobs hbefore hthreads htrue.2)
  · intro hnone
    have hnone' : ∀ job ∈ before, ¬ChangesProxy job := fun job h => hnone job (by simp [hjobs, h])
    obtain ⟨haway, hsame⟩ := haside.away_jobs hbefore hnone' hthreads
    exact ⟨(away_clock x.began).append haway, hsame⟩
  · rw [hkept]
    exact haside.restores hrestore hands
  · intro hdone call hcall hfailed
    exact hdone ⟨restore, by simp [hjobs], hrestore, call, hcall, hfailed⟩
  · exact haway.append (away_clock x.ended)

/-- No run leaves saved settings. -/
theorem IsAside.left_shared (haside : IsAside e) (x : (install e).Execution) :
    x.left.shared = none := by
  obtain ⟨upTo, hook, behind, b, hparts⟩ := haside.exists_parts x
  exact hparts.restores.backup_eq

/-- A run that begins without saved settings and can put the proxy back leaves it as it was. -/
theorem IsAside.proxyAfter_history (haside : IsAside e) (x : (install e).Execution)
    {p : ProxySettings} (hidle : x.memory.shared = none) (htrue : Truthful p x.history)
    (hrestored : ¬RestoreFails x) : proxyAfter p x.history = p := by
  obtain ⟨upTo, hook, behind, b, hparts⟩ := haside.exists_parts x
  rw [hparts.history, truthful_append_iff, truthful_append_iff] at htrue
  have hretains := hparts.retains p htrue.1.1
  calc proxyAfter p x.history
      = proxyAfter (proxyAfter (proxyAfter p upTo) hook) behind := by
        rw [hparts.history, proxyAfter_append, proxyAfter_append]
    _ = proxyAfter (proxyAfter p upTo) hook := hparts.away.proxyAfter_eq _
    _ = b.getD (proxyAfter p upTo) := hparts.restores.proxyAfter_eq (hparts.restored hrestored) _
    _ = x.memory.shared.getD p := hretains.original
    _ = p := by rw [hidle, Option.getD_none]

/-- The proxy is read once in a run at most, by the first `PROXY`. -/
theorem IsAside.length_reads_le_one (haside : IsAside e) (x : (install e).Execution)
    {p : ProxySettings} (htrue : Truthful p x.history) : (reads x.history).length ≤ 1 := by
  obtain ⟨upTo, hook, behind, b, hparts⟩ := haside.exists_parts x
  rw [hparts.history, truthful_append_iff, truthful_append_iff] at htrue
  have hcounted := (hparts.retains p htrue.1.1).counted
  have hsaved : b.isSome.toNat ≤ 1 := Bool.toNat_le _
  rw [hparts.history, reads_append, reads_append, hparts.restores.reads_eq, hparts.away.reads_eq]
  simp only [List.append_nil]
  omega

/-- A run without a `PROXY` that passes its check leaves the proxy alone. -/
theorem IsAside.away_history (haside : IsAside e) (x : (install e).Execution)
    (hidle : x.memory.shared = none) (hnone : ∀ job ∈ x.jobs, ¬ChangesProxy job) :
    Away x.history := by
  obtain ⟨upTo, hook, behind, b, hparts⟩ := haside.exists_parts x
  obtain ⟨haway, hsame⟩ := hparts.unchanged hnone
  -- Nothing was saved, so the hook has nothing to put back.
  have hhook : hook = [] := Restore.eq_nil (hidle ▸ hsame ▸ hparts.restores)
  rw [hparts.history, hhook]
  exact (haway.append away_nil).append hparts.away

/-! ## Runs one after another -/

/-- Runs one after another: what is saved and the proxy before the first of them and after the last one.
Between runs nothing changes either. -/
def Sequence : Backup → ProxySettings → List (install e).Execution → Backup → ProxySettings → Prop
  | b, p, [], b', p' => b' = b ∧ p' = p
  | b, p, x :: runs, b', p' =>
      x.memory.shared = b ∧ Truthful p x.history ∧
        Sequence x.left.shared (proxyAfter p x.history) runs b' p'

/-- Between runs nothing is saved. -/
theorem IsAside.sequence_idle (haside : IsAside e) {runs : List (install e).Execution}
    {p p' : ProxySettings} {b' : Backup} (hruns : Sequence none p runs b' p') : b' = none := by
  induction runs generalizing p with
  | nil => exact hruns.1
  | cons x runs ih =>
      obtain ⟨-, -, hrest⟩ := hruns
      rw [haside.left_shared x] at hrest
      exact ih hrest

/-! ## Runs of one command -/

def plainEngine : Engine (Host .empty) Backup := ⟨{}, .builtin, .empty, none, none⟩

theorem isAside_plainEngine : IsAside plainEngine where
  commands name handler hfind := by
    rcases Registry.cases_of_find?_builtin hfind with rfl | rfl | rfl
    · exact isTidy_setHandler.isAloof
    · exact isTidy_addHandler.isAloof
    · exact isTidy_waitHandler.isAloof
  hooks name hook hmem := nomatch hmem
  rows load hload := nomatch hload
  profiles append happend := nomatch happend

def directCommand : Command :=
  ⟨"PROXY", [⟨some "ADDRESS", directWord, "ADDRESS=__NONE__"⟩], "PROXY ADDRESS=__NONE__", 1, none⟩

/-- The line asks for a direct connection, whatever the variables hold. -/
theorem proxyRequest_directCommand (vars : Store) (now : Calendar.DateTime) :
    proxyRequest (.ofCommand vars now directCommand) = .ok .direct := by
  have hvalue : vars.expand now directWord = directWord := (vars.verbatim_of_plain (by decide) now).1
  have haddress : (Invocation.ofCommand vars now directCommand).param? "ADDRESS" =
      some directWord := by
    simp [Invocation.ofCommand, directCommand, Invocation.param?, Argument.ofParameter, hvalue,
      Parameter.hasKey, Text.sameLetters]
  have hbypass : (Invocation.ofCommand vars now directCommand).param? "BYPASS" = none := by
    simp [Invocation.ofCommand, directCommand, Invocation.param?, Parameter.hasKey,
      Argument.ofParameter, Text.sameLetters]
  simp only [proxyRequest, Invocation.required, haddress, hbypass]
  rfl

def noon : Reading := ⟨.zero, 0, ⟨2026, 1, 2, 12, 0, 0⟩⟩

def callEnding (ok : Bool) : Ending (Except BridgeError Unit) :=
  ⟨.zero, .replied (if ok then .ok () else .error (.unavailable "gone"))⟩

/-- The calls of the first `PROXY` of a run, which changes the proxy from `p` to `q`. -/
def changeCalls (p q : ProxySettings) : History (Timed (Host χ)) :=
  [⟨.clock, noon⟩, reading ⟨.zero, .replied (.ok p)⟩, applying q (callEnding true),
    ⟨.clock, noon⟩]

/-- The first `PROXY` of a run reads the settings, applies its own, and saves what it read. -/
theorem runs_proxyHandler_first {ctx : Context Backup} {q : ProxySettings} (p : ProxySettings)
    (hrequest : proxyRequest ctx.invocation = .ok q) (hidle : ctx.memory.shared = none) :
    (proxyHandler ctx : Doing χ).Runs
      [reading ⟨.zero, .replied (.ok p)⟩, applying q (callEnding true)]
      (.finished .ok, { ctx.memory with shared := some p }) := by
  simp only [proxyHandler, Context.withValue, hrequest, hidle]
  exact .call _ (.call _ (.done _))

/-- The same for the dispatched command. -/
theorem runs_dispatch_first {c : Command} {m : Memory Backup} {q : ProxySettings} (p : ProxySettings)
    (hflaw : c.flaw = none) (hname : Text.upper c.name = "PROXY")
    (hrequest : proxyRequest (.ofCommand m.vars noon.date c) = .ok q) (hidle : m.shared = none) :
    ((install e).dispatch c m).Runs (changeCalls p q) ⟨.ok, { m with shared := some p }, 0, .zero⟩ := by
  have hfind : (install e).registry.find? c.name = some proxyHandler := by
    rw [find?_install, hname]
    rfl
  refine Engine.runs_dispatch_iff.2 ⟨noon, noon, [_, _], rfl, ?_, rfl, rfl⟩
  rw [Registry.dispatch_of_found ((install e).contextAt c m noon) hflaw hfind]
  exact Proc.runs_bind_iff.2 ⟨_, [], _, rfl, runs_proxyHandler_first p hrequest hidle, .done _⟩

/-- A command without a handler only takes the time. -/
theorem runs_dispatch_unknown {c : Command} {m : Memory Backup} (hflaw : c.flaw = none)
    (hfind : e.registry.find? c.name = none) :
    (e.dispatch c m).Runs [⟨.clock, noon⟩, ⟨.clock, noon⟩] ⟨.ok, m, 0, .zero⟩ := by
  have hdone : e.registry.dispatch (e.contextAt c m noon) = .done (.ok, m) := by
    simp only [Registry.dispatch, Engine.contextAt, Invocation.ofCommand, hflaw, hfind]
  refine Engine.runs_dispatch_iff.2 ⟨noon, noon, [], rfl, ?_, rfl, rfl⟩
  rw [hdone]
  exact .done _

/-- The hook empties what is saved even if the browser refuses the settings. -/
theorem runs_restoreProxy_some (p : ProxySettings) (ok : Bool) :
    (restoreProxy (some p) : Proc (Timed (Host χ)) _).Runs [applying p (callEnding ok)]
      (if ok then .succeeded else .failed, none) := by
  cases ok with
  | true => exact .call _ (.done _)
  | false => exact .call _ (.done _)

theorem writeProfile_of_no_sink {μ : Type} (name : String) (t : Run.Tally) (vars : Store) :
    (Run.writeProfile false name t vars : Proc (Run μ) Unit) = .done () := by
  unfold Run.writeProfile
  split <;> rfl

/-- A run of one command that succeeds, with one hook. -/
theorem runs_plan_single {μ η : Type} {setup : Run.Setup η} {c : Command} (m : Memory μ)
    (d : Dispatched μ) (hook : String × η) (report : HookReport) (shared : μ)
    (hcommands : setup.script.commands = [c]) (hloops : setup.loops ≤ 1)
    (hsource : setup.hasDatasource = false) (hsink : setup.hasSink = false)
    (hhooks : setup.cleanup.hooks = [hook]) (hok : d.result.success = true) :
    (Run.plan setup m).Runs
      [⟨.stopRequested, false⟩, ⟨.stopRequested, false⟩,
        ⟨.dispatch c { m with vars := m.vars.beginRun }, d⟩,
        ⟨.cleanUp hook.1 d.memory.shared, (report, shared)⟩]
      (Run.Tally.result { Run.Tally.start.record m.vars.beginRun c d with loops := 1 }
        setup.script.name d.memory.vars, { d.memory with shared := shared }) := by
  let t : Run.Tally := { Run.Tally.start.record m.vars.beginRun c d with loops := 1 }
  refine Proc.runs_bind_iff.2 ⟨[_, _, _], [_], (t, d.memory), rfl, ?_, ?_⟩
  · rw [hcommands, hsource, Nat.max_eq_left hloops]
    refine Proc.runs_bind_iff.2 ⟨[_, _, _], [], .goesOn t d.memory, rfl, ?_, .done _⟩
    refine Proc.runs_call_iff.2 ⟨false, [_, _], rfl, ?_⟩
    refine Proc.runs_call_iff.2 ⟨false, [_], rfl, ?_⟩
    refine Proc.runs_call_iff.2 ⟨d, [], rfl, ?_⟩
    simp only [hok, if_true]
    exact .done _
  · simp only [Cleanup.reset, Cleanup.runAll, hhooks, hsink, writeProfile_of_no_sink]
    exact Proc.runs_call_iff.2 ⟨(report, shared), [], rfl, .done _⟩

def goingOn : (install plainEngine).Job where
  event := ⟨.stopRequested, false⟩
  calls := [⟨.stopRequested, false⟩]
  served := Proc.runs_call_iff.2 ⟨false, [], rfl, .done false⟩

/-- A run of one command that succeeds, and the hook at its end. -/
def singleRun {c : Command} {d : Dispatched Backup} {calls hook : History (Timed (Host .empty))}
    {report : HookReport}
    (hserved : ((install plainEngine).dispatch c ⟨Store.initial.beginRun, none⟩).Runs calls d)
    (hok : d.result.success = true)
    (hhook : (restoreProxy d.memory.shared : Proc (Timed (Host .empty)) _).Runs hook (report, none)) :
    (install plainEngine).Execution where
  script := ⟨"test", [c]⟩
  loops := none
  memory := ⟨.initial, none⟩
  began := noon
  ended := noon
  jobs := [goingOn, goingOn, ⟨⟨.dispatch c ⟨Store.initial.beginRun, none⟩, d⟩, calls, hserved⟩,
    ⟨⟨.cleanUp restoreHookName d.memory.shared, (report, none)⟩, hook, by
      simpa only [Engine.serve, isAside_plainEngine.find?_restore] using hhook⟩]
  played := Run.Tally.result
    { Run.Tally.start.record Store.initial.beginRun c d with loops := 1 } "test" d.memory.vars
  left := ⟨d.memory.vars, none⟩
  plays := runs_plan_single ⟨.initial, none⟩ d (restoreHookName, restoreProxy) report none rfl
    (Nat.le_refl 1) rfl rfl isAside_plainEngine.hooks_install hok

section SingleRun

variable {c : Command} {d : Dispatched Backup} {calls hook : History (Timed (Host .empty))}
  {report : HookReport}
  {hserved : ((install plainEngine).dispatch c ⟨Store.initial.beginRun, none⟩).Runs calls d}
  {hok : d.result.success = true}
  {hhook : (restoreProxy d.memory.shared : Proc (Timed (Host .empty)) _).Runs hook (report, none)}

/-- The calls of such a run in order. -/
theorem history_singleRun :
    (singleRun hserved hok hhook).history =
      [⟨.clock, noon⟩, ⟨.stopRequested, false⟩, ⟨.stopRequested, false⟩] ++ calls ++ hook ++
        [⟨.clock, noon⟩] := by
  simp [Engine.Execution.history, singleRun, goingOn]

/-- Putting the proxy back fails if a call of the hook applies nothing. -/
theorem restoreFails_singleRun_iff :
    RestoreFails (singleRun hserved hok hhook) ↔ ∃ call ∈ hook, applied? call = none := by
  simp [RestoreFails, singleRun, goingOn, IsRestore, Run.hookName?]

end SingleRun

/-- A run that changes the proxy from `p` to a direct connection, and at its end puts `p` back or fails
to. -/
def directRun (p : ProxySettings) (ok : Bool) : (install plainEngine).Execution :=
  singleRun
    (runs_dispatch_first p rfl (by decide) (proxyRequest_directCommand _ noon.date) rfl) rfl
    (runs_restoreProxy_some p ok)

theorem history_directRun (p : ProxySettings) (ok : Bool) :
    (directRun p ok).history =
      [⟨.clock, noon⟩, ⟨.stopRequested, false⟩, ⟨.stopRequested, false⟩] ++
        changeCalls p .direct ++
        [applying p (callEnding ok)] ++ [⟨.clock, noon⟩] :=
  history_singleRun

theorem restoreFails_directRun_iff {p : ProxySettings} {ok : Bool} :
    RestoreFails (directRun p ok) ↔ ok = false := by
  have hhook : RestoreFails (directRun p ok) ↔
      ∃ call ∈ [applying p (callEnding ok)], applied? (χ := .empty) call = none :=
    restoreFails_singleRun_iff
  rw [hhook]
  cases ok <;> simp [applied?, applying, callEnding]

/-- After the run the proxy is `p` again, unless the hook failed. -/
theorem proxyAfter_directRun (p q : ProxySettings) (ok : Bool) :
    proxyAfter q (directRun p ok).history = if ok then p else .direct := by
  rw [history_directRun]
  cases ok <;> simp [changeCalls, applied?, reading, applying, callEnding]

theorem truthful_directRun (p : ProxySettings) (ok : Bool) : Truthful p (directRun p ok).history := by
  rw [history_directRun]
  simp [changeCalls, Truthful, read?, applied?, reading, applying]

def versionCommand : Command :=
  ⟨"VERSION", [⟨some "BUILD", "1", "BUILD=1"⟩], "VERSION BUILD=1", 1, none⟩

theorem find?_version : (install plainEngine).registry.find? versionCommand.name = none := by
  have hupper : Text.upper versionCommand.name = "VERSION" := by decide
  rw [find?_install, hupper]
  simp (disch := decide) only [plainEngine, Registry.builtin, Registry.find?_register, hupper,
    Variable.canonical_of_plain]
  rfl

def quietRun : (install plainEngine).Execution :=
  singleRun (runs_dispatch_unknown rfl find?_version) rfl (.done _)

theorem history_quietRun :
    quietRun.history =
      [⟨.clock, noon⟩, ⟨.stopRequested, false⟩, ⟨.stopRequested, false⟩] ++
        [⟨.clock, noon⟩, ⟨.clock, noon⟩] ++ [] ++ [⟨.clock, noon⟩] :=
  history_singleRun

theorem proxyAfter_quietRun (p : ProxySettings) : proxyAfter p quietRun.history = p := by
  rw [history_quietRun]
  simp [applied?]

theorem truthful_quietRun (p : ProxySettings) : Truthful p quietRun.history := by
  rw [history_quietRun]
  simp [Truthful, read?]

/-- The hook has nothing to put back, so it does not fail. -/
theorem not_restoreFails_quietRun : ¬RestoreFails quietRun := by
  intro hfails
  obtain ⟨call, hcall, -⟩ := restoreFails_singleRun_iff.1 hfails
  cases hcall

def corporate : ProxySettings := ⟨some "corp.proxy:3128", []⟩

/-- A run whose hook fails, and a run without a `PROXY` behind it: the proxy stays direct. -/
theorem sequence_direct_quiet :
    Sequence none corporate [directRun corporate false, quietRun] none .direct := by
  refine ⟨rfl, truthful_directRun _ _, rfl, truthful_quietRun _, rfl, ?_⟩
  rw [proxyAfter_quietRun, proxyAfter_directRun]
  rfl

/-! ## What runs leave of the proxy -/

/-- Whatever a run does and however it ends: if it can put the proxy back, then the proxy is as it was
and nothing is saved. The settings are read at most once, and no proxy call is made unless some `PROXY`
passes its check. -/
theorem proxy_restored (haside : IsAside e) (x : (install e).Execution) {p : ProxySettings}
    (hidle : x.memory.shared = none) (htrue : Truthful p x.history) :
    ((install e).run x.script x.loops x.memory).Runs x.history (x.result, x.left) ∧
      (¬RestoreFails x → proxyAfter p x.history = p ∧ x.left.shared = none) ∧
      (reads x.history).length ≤ 1 ∧
      ((∀ job ∈ x.jobs, ¬ChangesProxy job) → ∀ call ∈ x.history, isProxyCall call.1 = false) := by
  refine ⟨x.runs, ?_, haside.length_reads_le_one x htrue, haside.away_history x hidle⟩
  intro hrestored
  exact ⟨haside.proxyAfter_history x hidle htrue hrestored, haside.left_shared x⟩

/-- A run that changes the proxy and puts it back. -/
theorem proxy_restored_direct :
    let x := directRun corporate true
    x.memory.shared = none ∧ Truthful corporate x.history ∧ ¬RestoreFails x ∧
      proxyAfter corporate x.history = corporate ∧ x.left.shared = none ∧
      (reads x.history).length ≤ 1 := by
  intro x
  have htrue : Truthful corporate x.history := truthful_directRun corporate true
  have hrestored : ¬RestoreFails x := by simp [x, restoreFails_directRun_iff]
  obtain ⟨-, hproxy, hreads, -⟩ := proxy_restored isAside_plainEngine x rfl htrue
  exact ⟨rfl, htrue, hrestored, (hproxy hrestored).1, (hproxy hrestored).2, hreads⟩

/-- Runs that can put the proxy back leave it as it was before them, whatever happened earlier. -/
theorem proxy_kept_since (haside : IsAside e) {earlier later : List (install e).Execution}
    {p between p' : ProxySettings} {b b' : Backup} (hearlier : Sequence none p earlier b between)
    (hlater : Sequence b between later b' p') (hrestored : ∀ x ∈ later, ¬RestoreFails x) :
    p' = between ∧ b' = none := by
  have hidle := haside.sequence_idle hearlier
  subst hidle
  clear hearlier
  -- Every run begins with nothing saved, because the one before it left nothing.
  induction later generalizing between with
  | nil => exact ⟨hlater.2, hlater.1⟩
  | cons x later ih =>
      rw [List.forall_mem_cons] at hrestored
      obtain ⟨hidle, htrue, hrest⟩ := hlater
      rw [haside.left_shared x, haside.proxyAfter_history x hidle htrue hrestored.1] at hrest
      exact ih hrestored.2 hrest

/-- The first run cannot put the proxy back; the second one leaves what the first one left. -/
theorem proxy_kept_since_failed_restore :
    let x := directRun corporate false
    let y := directRun .direct true
    let p' := proxyAfter .direct y.history
    Sequence none corporate [x] none .direct ∧ Sequence none .direct [y] y.left.shared p' ∧
      ¬RestoreFails y ∧ p' = .direct ∧ y.left.shared = none := by
  intro x y p'
  have hx : Sequence none corporate [x] none .direct := by
    refine ⟨rfl, truthful_directRun corporate false, rfl, ?_⟩
    rw [proxyAfter_directRun]
    rfl
  have hy : Sequence none .direct [y] y.left.shared p' := ⟨rfl, truthful_directRun _ _, rfl, rfl⟩
  have hrestored : ¬RestoreFails y := by simp [y, restoreFails_directRun_iff]
  refine ⟨hx, hy, hrestored, ?_⟩
  exact proxy_kept_since isAside_plainEngine hx hy (by simpa using hrestored)

/-- The settings from before a run that could not put the proxy back are lost: the next run can put it
back, and does not. -/
theorem proxy_lost_after_failed_restore :
    ¬∀ (earlier : List (install plainEngine).Execution) (x : (install plainEngine).Execution)
      (p p' : ProxySettings) (b' : Backup), Sequence none p (earlier ++ [x]) b' p' →
        ¬RestoreFails x → p' = p := by
  intro hrestored
  have hlost := hrestored [directRun corporate false] quietRun corporate .direct none
    sequence_direct_quiet not_restoreFails_quietRun
  cases hlost

end Browser
end MacroReplay
