import MacroReplay.Proofs.Handler.Dispatch
import MacroReplay.Proofs.Proc.Contract

/-!
# A failed command leaves the variables alone

Every command settles what it is asked for, makes its calls, and writes variables last, when nothing can
fail any more. So whatever it is replied, and whenever a stop is requested, a command that fails has
written nothing.

* `Context.Tidy` — what a command leaves of the variables, and of what the handlers share;
* `obeys_bounded`, `obeys_awaited`, `obeys_lookedUp` — the three ways of calling the browser;
* `isTidy_urlHandler` and so on — every command but `PROXY` is tidy and keeps away from the proxy;
* `vars_eq_of_dispatch_failed` — whatever is dispatched to one of the commands.
-/

namespace MacroReplay

/-! ## Contexts -/

namespace Context

variable {ι : Interface} {μ : Type} {C : Timed.Call ι → Prop}

/-- What the handlers share is as before, and the variables are too if the command failed. -/
def Tidy (ctx : Context μ) (left : Report × Memory μ) : Prop :=
  left.2.shared = ctx.memory.shared ∧
    (left.1.result.success = false → left.2.vars = ctx.memory.vars)

theorem tidy_of_kept (ctx : Context μ) (report : Report) : ctx.Tidy (report, ctx.memory) :=
  ⟨rfl, fun _ => rfl⟩

/-- A command that succeeds may leave any variables behind. -/
theorem tidy_finishWith (ctx : Context μ) (vars : Store) {r : CommandResult}
    (hok : r.success = true) : (ctx.finishWith vars r : Proc (Timed ι) _).Obeys C ctx.Tidy := by
  refine ⟨rfl, ?_⟩
  intro hfailed
  have hfailed' : r.success = false := hfailed
  rw [hok] at hfailed'
  cases hfailed'

/-- A command that cannot go on with a value ends with the memory it began with. -/
theorem obeys_withValue {α : Type} {ctx : Context μ} {v : Except CommandError α}
    {next : α → Proc (Timed ι) (Report × Memory μ)} {Q : Report × Memory μ → Prop}
    (hkept : ∀ report, Q (report, ctx.memory)) (hnext : ∀ a, (next a).Obeys C Q) :
    (ctx.withValue v next).Obeys C Q := by
  cases v with
  | ok a => exact hnext a
  | error e => exact hkept _

end Context

/-! ## Commands that need no browser -/

section Builtin

variable {ι : Interface} {μ : Type} {C : Timed.Call ι → Prop}

/-- The variable is written as the last step, when nothing can fail any more. -/
theorem tidy_setHandler (ctx : Context μ) :
    (Assign.setHandler ctx : Proc (Timed ι) _).Obeys C ctx.Tidy := by
  apply Context.obeys_withValue ctx.tidy_of_kept
  intro vars
  exact ctx.tidy_finishWith vars rfl

theorem tidy_addHandler (ctx : Context μ) :
    (Assign.addHandler ctx : Proc (Timed ι) _).Obeys C ctx.Tidy := by
  apply Context.obeys_withValue ctx.tidy_of_kept
  intro vars
  exact ctx.tidy_finishWith vars rfl

/-- A pause changes no variable. -/
theorem tidy_waitHandler (ctx : Context μ) (hpause : ∀ d, C (.pause d)) :
    (Wait.handler ctx : Proc (Timed ι) _).Obeys C ctx.Tidy := by
  apply Context.obeys_withValue ctx.tidy_of_kept
  intro d
  refine ⟨hpause d, ?_⟩
  rintro ⟨took, stopped⟩
  cases stopped with
  | true => exact ctx.tidy_of_kept _
  | false => exact ctx.tidy_of_kept _

end Builtin

/-! ## Retried calls -/

section Retry

variable {ι : Interface} {C : Timed.Call ι → Prop}

/-- Every result that a retried call may come to satisfies `P`. -/
structure Retry.Judges {c : ι.Call} (judge : ι.Reply c → CommandResult) (P : CommandResult → Prop) :
    Prop where
  replied : ∀ reply, P (judge reply)
  timedOut : ∀ last, P (Retry.timedOut last)
  stopped : P (.ofError .stopped)

theorem Retry.judges_anything {c : ι.Call} (judge : ι.Reply c → CommandResult) :
    Retry.Judges judge fun _ => True :=
  ⟨fun _ => trivial, fun _ => trivial, trivial⟩

/-- The attempts of a retried call ask and pause, and end with a result that satisfies `P` or with a
fault. -/
theorem obeys_attempt {b : Budget} {c : ι.Call} {judge : ι.Reply c → CommandResult}
    {P : CommandResult → Prop} (hask : ∀ limit, C (.ask c limit true)) (hpause : ∀ d, C (.pause d))
    (hjudge : Retry.Judges judge P) (attempts : Nat) (elapsed : Duration) (last : Option String) :
    (Retry.attempt b c judge attempts elapsed last).Obeys C fun out => ∀ r, out = .ok r → P r := by
  have hresult : ∀ {result}, P result →
      ∀ r, (Except.ok result : Except Fault CommandResult) = .ok r → P r := by
    rintro result hP _ ⟨⟩
    exact hP
  induction attempts generalizing elapsed last with
  | zero => exact hresult (hjudge.timedOut last)
  | succ attempts ih =>
      -- An attempt is one call; behind one that failed comes a pause, and then what is left of them.
      refine ⟨hask _, ?_⟩
      rintro ⟨took, outcome⟩
      cases outcome with
      | stopped => exact hresult hjudge.stopped
      | expired => exact hresult (hjudge.timedOut last)
      | faulted f =>
          rintro _ ⟨⟩
      | replied reply =>
          simp only [Proc.done_bind]
          split
          · exact hresult (hjudge.replied reply)
          · split
            · exact hresult (hjudge.timedOut _)
            · refine ⟨hpause _, ?_⟩
              intro rest
              simp only [Proc.done_bind]
              split
              · exact hresult hjudge.stopped
              · exact ih _ _

/-- A retried call makes no other calls, and pauses; its result was judged so, or the time was used up,
or it was stopped. -/
theorem obeys_retry {b : Budget} {c : ι.Call} {judge : ι.Reply c → CommandResult}
    {P : CommandResult → Prop} (hask : ∀ limit, C (.ask c limit true)) (hpause : ∀ d, C (.pause d))
    (hjudge : Retry.Judges judge P) :
    (retry b c judge).Obeys C fun out => ∀ r, out = .ok r → P r :=
  obeys_attempt hask hpause hjudge _ _ _

end Retry

/-! ## Commands of the browser -/

namespace Browser

variable {χ : Interface}

section Calls

variable {C : Timed.Call (Host χ) → Prop} {Q : Report × Memory Backup → Prop}
  {ctx : Context Backup} {c : Call}

/-- A command may end like this, with its memory as it was, after a call that gave no value. -/
structure AllowsMishaps (ctx : Context Backup) (Q : Report × Memory Backup → Prop) : Prop where
  failed : ∀ e : BridgeError, Q (.failed e.toCommandError, ctx.memory)
  expired : ∀ message, Q (.failed (.timeout message), ctx.memory)
  stopped : Q (.failed .stopped, ctx.memory)
  faulted : ∀ f, Q (.faulted f, ctx.memory)

/-- It is enough that any report is allowed while the memory is as it was. -/
theorem AllowsMishaps.of_kept (hkept : ∀ report, Q (report, ctx.memory)) : AllowsMishaps ctx Q :=
  ⟨fun _ => hkept _, fun _ => hkept _, hkept _, fun _ => hkept _⟩

/-- A bounded call obeys a contract if the call is allowed, and what follows its value obeys it. -/
theorem obeys_bounded {limit : Option Duration} {next : c.Value → Doing χ}
    (hmishaps : AllowsMishaps ctx Q) (hask : C (.ask (.inl c) limit true))
    (hnext : ∀ v, (next v).Obeys C Q) : (bounded ctx limit c next).Obeys C Q := by
  refine ⟨hask, ?_⟩
  rintro ⟨took, outcome⟩
  cases outcome with
  | replied reply =>
      cases reply with
      | ok v => exact hnext v
      | error e => exact hmishaps.failed e
  | expired => exact hmishaps.expired _
  | stopped => exact hmishaps.stopped
  | faulted f => exact hmishaps.faulted f

/-- What follows an awaited call is given the error of the bridge too. -/
theorem obeys_awaited {next : Except BridgeError c.Value → Doing χ}
    (hmishaps : AllowsMishaps ctx Q) (hask : C (.ask (.inl c) none false))
    (hnext : ∀ reply, (next reply).Obeys C Q) : (awaited ctx c next).Obeys C Q := by
  refine ⟨hask, ?_⟩
  rintro ⟨took, outcome⟩
  cases outcome with
  | replied reply => exact hnext reply
  | expired => exact hmishaps.stopped
  | stopped => exact hmishaps.stopped
  | faulted f => exact hmishaps.faulted f

/-- What follows a looked-up call may rely on what every result of the lookup satisfies. -/
theorem obeys_lookedUp {judge : Except BridgeError c.Value → CommandResult}
    {next : CommandResult → Doing χ} {P : CommandResult → Prop} (hmishaps : AllowsMishaps ctx Q)
    (hask : ∀ limit, C (.ask (.inl c) limit true)) (hpause : ∀ d, C (.pause d))
    (hjudge : @Retry.Judges (Host χ) (.inl c) judge P) (hnext : ∀ r, P r → (next r).Obeys C Q) :
    (lookedUp ctx c judge next).Obeys C Q := by
  apply Proc.Obeys.bind
  refine (obeys_retry hask hpause hjudge).mono (fun _ hc => hc) ?_
  rintro (f | r) hresult
  · exact hmishaps.faulted f
  · exact hnext r (hresult r rfl)

end Calls

def isProxyCall : Timed.Call (Host χ) → Bool
  | .ask (.inl .proxySettings) _ _ => true
  | .ask (.inl (.applyProxy _)) _ _ => true
  | _ => false

/-- A process makes no proxy calls and keeps to `Q`. -/
abbrev KeepsAway {α : Type} (Q : α → Prop) (p : Proc (Timed (Host χ)) α) : Prop :=
  p.Obeys (fun c => isProxyCall c = false) Q

def IsTidy (handler : BrowserHandler χ) : Prop :=
  ∀ ctx, KeepsAway ctx.Tidy (handler ctx)

theorem keepsAway_recordUrl (ctx : Context Backup) (fallback : String) :
    KeepsAway ctx.Tidy (recordUrl ctx fallback : Doing χ) := by
  refine obeys_awaited (.of_kept ctx.tidy_of_kept) rfl ?_
  intro reply
  -- The address is written as the last step, and then the command has succeeded.
  dsimp only
  cases ctx.memory.vars.set "!URLCURRENT" _ with
  | ok written => exact ctx.tidy_finishWith written.2 rfl
  | error e => exact ctx.tidy_of_kept _

theorem isTidy_setHandler : IsTidy (Assign.setHandler : BrowserHandler χ) :=
  tidy_setHandler

theorem isTidy_addHandler : IsTidy (Assign.addHandler : BrowserHandler χ) :=
  tidy_addHandler

theorem isTidy_waitHandler : IsTidy (Wait.handler : BrowserHandler χ) :=
  fun ctx => tidy_waitHandler ctx fun _ => rfl

theorem isTidy_urlHandler : IsTidy (urlHandler : BrowserHandler χ) := by
  intro ctx
  apply Context.obeys_withValue ctx.tidy_of_kept
  intro url
  exact obeys_bounded (.of_kept ctx.tidy_of_kept) rfl fun _ => keepsAway_recordUrl ctx url

theorem isTidy_backHandler : IsTidy (backHandler : BrowserHandler χ) := by
  intro ctx
  exact obeys_bounded (.of_kept ctx.tidy_of_kept) rfl fun _ => keepsAway_recordUrl ctx ""

theorem isTidy_refreshHandler : IsTidy (refreshHandler : BrowserHandler χ) := by
  intro ctx
  exact obeys_bounded (.of_kept ctx.tidy_of_kept) rfl fun _ => ctx.tidy_of_kept _

theorem isTidy_tabHandler : IsTidy (tabHandler : BrowserHandler χ) := by
  intro ctx
  apply Context.obeys_withValue ctx.tidy_of_kept
  intro action
  exact obeys_bounded (.of_kept ctx.tidy_of_kept) rfl fun _ => ctx.tidy_of_kept _

theorem isTidy_frameHandler : IsTidy (frameHandler : BrowserHandler χ) := by
  intro ctx
  apply Context.obeys_withValue ctx.tidy_of_kept
  intro target
  exact obeys_lookedUp (.of_kept ctx.tidy_of_kept) (fun _ => rfl) (fun _ => rfl)
    (Retry.judges_anything _) fun _ _ => ctx.tidy_of_kept _

/-- A text is read from an element only if the command succeeded. -/
theorem success_of_extractedText? {action : TagAction} {r : CommandResult} {text : String}
    (h : extractedText? action r = some text) : r.success = true := by
  cases action with
  | click => nomatch h
  | fill content => nomatch h
  | extract kind =>
      cases hok : r.success with
      | true => rfl
      | false => simp [extractedText?, hok] at h

theorem isTidy_tagHandler : IsTidy (tagHandler : BrowserHandler χ) := by
  intro ctx
  apply Context.obeys_withValue ctx.tidy_of_kept
  rintro ⟨locator, action⟩
  refine obeys_lookedUp (.of_kept ctx.tidy_of_kept) (fun _ => rfl) (fun _ => rfl)
    (Retry.judges_anything _) ?_
  intro result _
  cases htext : extractedText? action result with
  | none => exact ctx.tidy_of_kept _
  | some text =>
      -- There is a text to write only if the command succeeded, and then nothing is left that can fail
      -- but the write.
      dsimp only
      cases ctx.memory.vars.set "!EXTRACT" (.text text) with
      | ok written => exact ctx.tidy_finishWith written.2 (success_of_extractedText? htext)
      | error e => exact ctx.tidy_of_kept _

/-- A change of the proxy leaves the variables alone, whether it succeeds or fails. -/
theorem vars_changeProxy (ctx : Context Backup) (settings : ProxySettings) :
    (changeProxy ctx settings : Doing χ).Obeys (fun _ => True)
      fun left => left.2.vars = ctx.memory.vars := by
  refine obeys_awaited (.of_kept fun _ => rfl) trivial ?_
  intro reply
  cases reply with
  | ok v => rfl
  | error e => rfl

/-- `PROXY` never changes a variable. -/
theorem vars_proxyHandler (ctx : Context Backup) :
    (proxyHandler ctx : Doing χ).Obeys (fun _ => True) fun left => left.2.vars = ctx.memory.vars := by
  apply Context.obeys_withValue fun _ => rfl
  intro settings
  dsimp only
  split
  · exact vars_changeProxy ctx settings
  · refine obeys_awaited (.of_kept fun _ => rfl) trivial ?_
    intro reply
    cases reply with
    | ok current =>
        -- What is saved goes to what the handlers share, not to a variable.
        let saved : Memory Backup := { ctx.memory with shared := ctx.memory.shared.save current }
        exact vars_changeProxy { ctx with memory := saved } settings
    | error e => rfl

/-! ## Dispatched commands -/

/-- Every command of the browser is tidy, but for `PROXY`. -/
theorem isTidy_or_proxy_of_mem {entry : String × BrowserHandler χ} (hmem : entry ∈ handlers) :
    IsTidy entry.2 ∨ entry = ("PROXY", proxyHandler) := by
  simp only [handlers, List.mem_cons, List.not_mem_nil, or_false] at hmem
  rcases hmem with rfl | rfl | rfl | rfl | rfl | rfl | rfl
  · exact .inl isTidy_urlHandler
  · exact .inl isTidy_backHandler
  · exact .inl isTidy_refreshHandler
  · exact .inl isTidy_tabHandler
  · exact .inl isTidy_frameHandler
  · exact .inl isTidy_tagHandler
  · exact .inr rfl

/-- Every command but `PROXY` is tidy. -/
theorem isTidy_or_eq_proxyHandler {handler : BrowserHandler χ} (hmem : handler ∈ commandHandlers) :
    IsTidy handler ∨ handler = proxyHandler := by
  obtain ⟨entry, hentry, rfl⟩ := List.mem_map.1 hmem
  simp only [commands, List.mem_append, List.mem_cons, List.not_mem_nil, or_false] at hentry
  rcases hentry with (rfl | rfl | rfl) | hbrowser
  · exact .inl isTidy_setHandler
  · exact .inl isTidy_addHandler
  · exact .inl isTidy_waitHandler
  · rcases isTidy_or_proxy_of_mem hbrowser with htidy | rfl
    · exact .inl htidy
    · exact .inr rfl

/-- A command that fails leaves the variables as they were. -/
theorem vars_of_failed {handler : BrowserHandler χ} (hmem : handler ∈ commandHandlers)
    (ctx : Context Backup) :
    (handler ctx).Obeys (fun _ => True)
      fun left => left.1.result.success = false → left.2.vars = ctx.memory.vars := by
  rcases isTidy_or_eq_proxyHandler hmem with htidy | rfl
  · exact (htidy ctx).mono (fun _ _ => trivial) fun _ htidy => htidy.2
  · exact (vars_proxyHandler ctx).mono (fun _ _ => trivial) fun _ hvars _ => hvars

/-- Whatever the browser, the clock and the requests to stop reply to a dispatched command: if it fails,
the variables are as they were before it. -/
theorem vars_eq_of_dispatch_failed {e : Engine (Host χ) Backup} {c : Command} {m : Memory Backup}
    {h : History (Timed (Host χ))} {d : Dispatched Backup}
    (hcommand : ∀ handler, e.registry.find? c.name = some handler → handler ∈ commandHandlers)
    (hrun : (e.dispatch c m).Runs h d) (hfailed : d.result.success = false) :
    d.memory.vars = m.vars := by
  rcases Engine.runs_dispatch_iff.1 hrun with ⟨before, after, h', -, hdispatched, -⟩
  rcases Registry.runs_dispatch hdispatched with
    ⟨-, hkept⟩ | ⟨handler, report, -, hfind, hhandled, hresult⟩
  · rw [hkept, Engine.contextAt]
  · have hobeys := vars_of_failed (hcommand handler hfind) (e.contextAt c m before)
    exact (hobeys.of_runs hhandled).2 (hresult ▸ hfailed)

/-- The page is left, but the browser has a fault before it says where it is now. -/
theorem vars_eq_of_back_faulted :
    let e : Engine (Host .empty) Backup :=
      install ⟨{}, .builtin, .empty, none, none⟩
    let c : Command := ⟨"BACK", [], "BACK", 1, none⟩
    let m : Memory Backup := ⟨.initial, none⟩
    let now : Reading := ⟨.zero, 0, ⟨2026, 1, 2, 3, 4, 5⟩⟩
    let h : History (Timed (Host .empty)) :=
      [⟨.clock, now⟩, ⟨.ask (.inl .back) (pageLimit m.vars) true, ⟨.zero, .replied (.ok ())⟩⟩,
        ⟨.ask (.inl .currentUrl) none false, ⟨.zero, .faulted ⟨none⟩⟩⟩, ⟨.clock, now⟩]
    let d : Dispatched Backup :=
      ⟨.failure .scriptError "Handler panicked", m, 0, .zero⟩
    (e.dispatch c m).Runs h d ∧ d.result.success = false ∧ d.memory.vars = m.vars := by
  intro e c m now h d
  have hfind : e.registry.find? c.name = some backHandler := by
    rw [find?_install, show Text.upper c.name = "BACK" by decide]
    rfl
  -- From here on only the handler matters; the value of the engine would be unfolded at every step.
  clear_value e
  have hhandled : (e.registry.dispatch (e.contextAt c m now)).Runs [h[1], h[2]] (d.result, m) := by
    rw [Registry.dispatch_of_found (e.contextAt c m now) rfl hfind]
    exact .call _ (.call _ (.done _))
  have hrun : (e.dispatch c m).Runs h d :=
    Engine.runs_dispatch_iff.2 ⟨now, now, _, rfl, hhandled, rfl, rfl⟩
  refine ⟨hrun, rfl, vars_eq_of_dispatch_failed ?_ hrun rfl⟩
  intro handler hhandler
  rw [hfind] at hhandler
  cases hhandler
  simp [commandHandlers, commands, handlers]

end Browser
end MacroReplay
