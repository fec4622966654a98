import MacroReplay.Proofs.Handler.Dispatch
import MacroReplay.Proofs.Proc.Interruption

/-!
# Which commands a stop ends at once

A command that waits when a stop is requested should return at that moment. All calls of the commands
heed the request but three: `URL` and `BACK` ask the browser for its address, and `PROXY` reads and
changes the proxy, come what may.

* `Browser.isLoose` — the calls that no request to stop ends;
* `Browser.prompt_of_mem_commands` — every command, put together from the ways of calling the browser;
* `Browser.stop_heeded_unless_loose` — whatever command is in flight when a stop is requested;
* `Browser.back_outlasts_stop` — a command that does not return at that moment.
-/

namespace MacroReplay

open Timeline (InFlight)

/-! ## Commands that need no browser -/

section Builtin

variable {ι : Interface} {μ : Type} {B : Timed.Call ι → Prop}

/-- The command was stopped, and left everything as it was. -/
def Context.Stopped (ctx : Context μ) (left : Report × Memory μ) : Prop :=
  left.1.result = .ofError .stopped ∧ left.2 = ctx.memory

/-- A refusal of the parameters comes before anything that takes time. -/
theorem Context.prompt_withValue {α : Type} {ctx : Context μ} {v : Except CommandError α}
    {next : α → Proc (Timed ι) (Report × Memory μ)} {Q : Report × Memory μ → Prop}
    (hnext : ∀ a, (next a).Prompt B Q) : (ctx.withValue v next).Prompt B Q := by
  cases v with
  | ok a => exact hnext a
  | error e => trivial

/-- `SET` never waits. -/
theorem prompt_setHandler (ctx : Context μ) :
    (Assign.setHandler ctx : Proc (Timed ι) _).Prompt B ctx.Stopped :=
  ctx.prompt_withValue fun _ => trivial

/-- `ADD` never waits. -/
theorem prompt_addHandler (ctx : Context μ) :
    (Assign.addHandler ctx : Proc (Timed ι) _).Prompt B ctx.Stopped :=
  ctx.prompt_withValue fun _ => trivial

/-- A pause ends when a stop is requested. -/
theorem prompt_waitHandler (ctx : Context μ) :
    (Wait.handler ctx : Proc (Timed ι) _).Prompt B ctx.Stopped := by
  apply ctx.prompt_withValue
  intro d
  refine ⟨?_, nofun, ?_⟩
  · intro took reply hreply
    cases hreply
    exact ⟨rfl, rfl⟩
  · rintro ⟨took, stopped⟩
    cases stopped <;> trivial

end Builtin

/-! ## Retried calls -/

/-- However many attempts are left: a lookup that is told of a stop ends as stopped, between attempts
and during one. -/
theorem prompt_attempt {ι : Interface} {B : Timed.Call ι → Prop} {b : Budget} {c : ι.Call}
    {judge : ι.Reply c → CommandResult} (attempts : Nat) (elapsed : Duration) (last : Option String) :
    (Retry.attempt b c judge attempts elapsed last).Prompt B (· = .ok (.ofError .stopped)) := by
  induction attempts generalizing elapsed last with
  | zero => trivial
  | succ attempts ih =>
      refine ⟨?_, nofun, ?_⟩
      · intro took reply hreply
        cases hreply
        exact rfl
      · rintro ⟨took, outcome⟩
        cases outcome with
        | stopped | expired | faulted => trivial
        | replied reply =>
            simp only [Proc.done_bind]
            split
            · trivial
            · split
              · trivial
              · -- The pause before the next attempt ends at a stop like the attempt itself.
                refine ⟨?_, nofun, ?_⟩
                · intro took reply hreply
                  cases hreply
                  exact rfl
                · intro rest
                  simp only [Proc.done_bind]
                  split
                  · trivial
                  · exact ih _ _

/-! ## Commands of the browser -/

namespace Browser

variable {χ : Interface}

/-- The calls of a command that no request to stop ends. -/
def isLoose (name : String) : Timed.Call (Host χ) → Bool
  | .ask (.inl .currentUrl) none false => name == "URL" || name == "BACK"
  | .ask (.inl .proxySettings) none false => name == "PROXY"
  | .ask (.inl (.applyProxy _)) none false => name == "PROXY"
  | _ => false

/-- The loose calls are waited for, come what may. -/
theorem isBare_of_isLoose {name : String} {c : Timed.Call (Host χ)} (hloose : isLoose name c = true) :
    c.isBare = true := by
  unfold isLoose at hloose
  split at hloose
  · rfl
  · rfl
  · rfl
  · nomatch hloose

/-- The process is prompt but for the loose calls of a command. -/
abbrev PromptBut (name : String) (Q : Report × Memory Backup → Prop) (p : Doing χ) : Prop :=
  p.Prompt (fun c => isLoose name c = true) Q

section Calls

variable {name : String} {Q : Report × Memory Backup → Prop}
  {ctx : Context Backup} {c : Call}

/-- A call with a limit ends when a stop is requested, and then the command has changed nothing. -/
theorem prompt_bounded {limit : Option Duration} {next : c.Value → Doing χ}
    (hnext : ∀ v, PromptBut name ctx.Stopped (next v)) :
    PromptBut name ctx.Stopped (bounded ctx limit c next) := by
  refine ⟨?_, nofun, ?_⟩
  · intro took reply hreply
    cases hreply
    exact ⟨rfl, rfl⟩
  · rintro ⟨took, outcome⟩
    cases outcome with
    | replied reply =>
        cases reply with
        | ok v => exact hnext v
        | error e => trivial
    | expired | stopped | faulted => trivial

/-- A call that is waited for, with nothing behind it that could be told of a stop. -/
theorem heedless_awaited {next : Except BridgeError c.Value → Doing χ}
    (hnext : ∀ reply, (next reply).Heedless) : (awaited ctx c next).Heedless := by
  refine ⟨.inr rfl, ?_⟩
  rintro ⟨took, outcome⟩
  cases outcome with
  | replied reply => exact hnext reply
  | expired | stopped | faulted => trivial

/-- A call that is waited for has to be loose, and behind it there is nothing left to stop. -/
theorem prompt_awaited {next : Except BridgeError c.Value → Doing χ}
    (hloose : isLoose name (.ask (.inl c) none false : Timed.Call (Host χ)) = true)
    (hheedless : ∀ reply, (next reply).Heedless)
    (hnext : ∀ reply, PromptBut name Q (next reply)) : PromptBut name Q (awaited ctx c next) := by
  refine ⟨nofun, fun _ => ⟨hloose, (heedless_awaited hheedless).2⟩, ?_⟩
  rintro ⟨took, outcome⟩
  cases outcome with
  | replied reply => exact hnext reply
  | expired | stopped | faulted => trivial

/-- A retried lookup ends when a stop is requested. -/
theorem prompt_lookedUp {judge : Except BridgeError c.Value → CommandResult}
    {next : CommandResult → Doing χ}
    (hnext : ∀ r, (next r).EndsAtOnce fun left => r = .ofError .stopped → ctx.Stopped left) :
    PromptBut name ctx.Stopped (lookedUp ctx c judge next) := by
  apply (prompt_attempt _ _ _).bind
  rintro (f | r)
  · exact nofun
  · exact (hnext r).mono (fun _ hc => hc) fun left hleft hstopped => hleft (by cases hstopped; rfl)

end Calls

theorem endsAtOnce_recorded (ctx : Context Backup) (current : String) :
    Proc.EndsAtOnce (fun _ => True) (match ctx.memory.vars.set "!URLCURRENT" (.text current) with
      | .ok (_, vars) => ctx.finishWith vars .ok
      | .error e => ctx.fail (.variable e) : Doing χ) := by
  cases ctx.memory.vars.set "!URLCURRENT" (.text current) <;> trivial

/-- Asking the browser for its address is the loose call of a navigation. -/
theorem prompt_recordUrl {name : String} {Q : Report × Memory Backup → Prop}
    (hloose : isLoose name (.ask (.inl .currentUrl) none false : Timed.Call (Host χ)) = true)
    (ctx : Context Backup) (fallback : String) :
    PromptBut name Q (recordUrl ctx fallback : Doing χ) :=
  prompt_awaited hloose (fun _ => (endsAtOnce_recorded ctx _).heedless)
    fun _ => (endsAtOnce_recorded ctx _).prompt

theorem endsAtOnce_tagHandled (ctx : Context Backup) (action : TagAction) (r : CommandResult) :
    Proc.EndsAtOnce (fun left => r = .ofError .stopped → ctx.Stopped left)
      (match extractedText? action r with
        | none => ctx.finish r
        | some text =>
            match ctx.memory.vars.set "!EXTRACT" (.text text) with
            | .ok (_, vars) => ctx.finishWith vars r
            | .error e => ctx.fail (.variable e) : Doing χ) := by
  by_cases hstopped : r = .ofError .stopped
  · -- Nothing is read from an element when the command was stopped.
    subst hstopped
    have hnone : extractedText? action (.ofError .stopped) = none := by cases action <;> rfl
    rw [hnone]
    exact fun _ => ⟨rfl, rfl⟩
  · cases extractedText? action r with
    | none => exact fun h => absurd h hstopped
    | some text =>
        dsimp only
        cases ctx.memory.vars.set "!EXTRACT" (.text text) <;> exact fun h => absurd h hstopped

/-- Once `PROXY` changes the settings it cannot be told of a stop. -/
theorem heedless_changeProxy (ctx : Context Backup) (settings : ProxySettings) :
    (changeProxy ctx settings : Doing χ).Heedless := by
  apply heedless_awaited
  rintro (e | v) <;> trivial

/-- Changing the settings is a loose call of `PROXY`. -/
theorem prompt_changeProxy {Q : Report × Memory Backup → Prop} (ctx : Context Backup)
    (settings : ProxySettings) :
    PromptBut "PROXY" Q (changeProxy ctx settings : Doing χ) := by
  apply prompt_awaited rfl
  · rintro (e | v) <;> trivial
  · rintro (e | v) <;> trivial

/-- Both calls of `PROXY` are loose. -/
theorem prompt_proxyHandler {Q : Report × Memory Backup → Prop} (ctx : Context Backup) :
    PromptBut "PROXY" Q (proxyHandler ctx : Doing χ) := by
  apply ctx.prompt_withValue
  intro settings
  dsimp only
  split
  · exact prompt_changeProxy ctx settings
  · apply prompt_awaited rfl
    · rintro (e | current)
      · trivial
      · exact heedless_changeProxy _ settings
    · rintro (e | current)
      · trivial
      · exact prompt_changeProxy _ settings

/-- Every command ends at once when a stop is requested, but for its loose calls. -/
theorem prompt_of_mem_commands {entry : String × BrowserHandler χ} (hmem : entry ∈ commands)
    (ctx : Context Backup) :
    PromptBut entry.1 ctx.Stopped (entry.2 ctx) := by
  simp only [commands, handlers, List.cons_append, List.nil_append, List.mem_cons, List.not_mem_nil,
    or_false] at hmem
  rcases hmem with rfl | rfl | rfl | rfl | rfl | rfl | rfl | rfl | rfl | rfl
  · exact prompt_setHandler ctx
  · exact prompt_addHandler ctx
  · exact prompt_waitHandler ctx
  · exact ctx.prompt_withValue fun url => prompt_bounded fun _ => prompt_recordUrl rfl ctx url
  · exact prompt_bounded fun _ => prompt_recordUrl rfl ctx ""
  · exact prompt_bounded fun _ => trivial
  · exact ctx.prompt_withValue fun _ => prompt_bounded fun _ => trivial
  · refine ctx.prompt_withValue fun _ => prompt_lookedUp fun r => ?_
    exact fun hstopped => ⟨hstopped, rfl⟩
  · exact ctx.prompt_withValue fun _ => prompt_lookedUp (endsAtOnce_tagHandled ctx _)
  · exact prompt_proxyHandler ctx

/-! ## Dispatched commands -/

/-- So does every dispatched command, with its memory as it was. -/
theorem prompt_dispatch {e : Engine (Host χ) Backup} {c : Command} {handler : BrowserHandler χ}
    (hfind : e.registry.find? c.name = some handler)
    (hcommand : (Text.upper c.name, handler) ∈ commands) (m : Memory Backup) :
    (e.dispatch c m).Prompt (fun call => isLoose (Text.upper c.name) call = true)
      fun d => d.result = .ofError .stopped ∧ d.memory = m := by
  refine ⟨nofun, nofun, fun before => ?_⟩
  have hdispatched : (e.registry.dispatch (e.contextAt c m before)).Prompt
      (fun call => isLoose (Text.upper c.name) call = true)
      fun left => left.1 = .ofError .stopped ∧ left.2 = m := by
    cases hflaw : c.flaw with
    | some flaw =>
        simp only [Registry.dispatch, Engine.contextAt, Invocation.ofCommand, hflaw]
        trivial
    | none =>
        rw [Registry.dispatch_of_found (e.contextAt c m before) hflaw hfind]
        apply (prompt_of_mem_commands hcommand (e.contextAt c m before)).bind
        rintro ⟨report, left⟩
        exact fun hstopped => hstopped
  -- The clock is read once more, and the command has returned.
  apply hdispatched.bind
  rintro ⟨result, left⟩
  exact ⟨rfl, fun _ hstopped => hstopped⟩

/-- **A stop ends every command at once, but for its loose calls.** A stop is requested while a command
waits for the end of a call or a pause that is still to come. If the call is not loose, the command
returns at the moment of the request: stopped, with the memory as it was. If it is loose, the request
makes no difference to the command, which returns later or never. -/
theorem stop_heeded_unless_loose {σ : Type} {w : World (Host χ) σ} {e : Engine (Host χ) Backup}
    {c : Command} {handler : BrowserHandler χ} {m : Memory Backup} {s s' : Scene σ} {moment : Nat}
    {q : Timeline.Waiting (Host χ) σ (Dispatched Backup)}
    (hfind : e.registry.find? c.name = some handler)
    (hcommand : (Text.upper c.name, handler) ∈ commands)
    (hflight : InFlight w (e.dispatch c m) s moment q s') :
    let stopped := Timeline.resume w none q { s' with now := moment, stopRequested := true }
    (isLoose (Text.upper c.name) q.call = false →
        ∃ d, stopped = .finished d { s' with now := moment, stopRequested := true } ∧
          d.result = .ofError .stopped ∧ d.memory = m) ∧
      (isLoose (Text.upper c.name) q.call = true →
        stopped = (Timeline.resume w none q { s' with now := moment }).withStop ∧
          ∀ d scene, stopped = .finished d scene → moment < scene.now) := by
  have hprompt := prompt_dispatch hfind hcommand m
  refine ⟨?_, ?_⟩
  · intro hheeds
    cases hbare : q.call.isBare with
    | false => exact hprompt.resume_of_heeding hflight hbare
    -- The only bare calls of a command are its loose ones.
    | true =>
        have hloose := (hprompt.resume_of_bare hflight hbare).1
        rw [hheeds] at hloose
        nomatch hloose
  · intro hloose
    exact (hprompt.resume_of_bare hflight (isBare_of_isLoose hloose)).2

/-- A browser that takes so many milliseconds to go back, and to say where it is. -/
def delays (back currentUrl : Nat) : World (Host .empty) Unit where
  answer := fun _ _ c =>
    match c with
    | .inl .back => ⟨(), some back, (), false, .ok (.ok ())⟩
    | .inl .currentUrl => ⟨(), some currentUrl, (), false, .ok (.ok "about:blank")⟩
    | .inl _ => ⟨(), none, (), false, .error ⟨none⟩⟩
    | .inr c => nomatch c
  reading := fun now => ⟨.ofMillis now, now, ⟨2026, 1, 1, 0, 0, 0⟩⟩

def backLine : Command := ⟨"BACK", [], "BACK", 1, none⟩

def noBackup : Memory Backup := ⟨⟨[], [], false⟩, none⟩

theorem find?_backLine :
    (install ⟨{}, .builtin, .empty, none, none⟩ : Engine (Host .empty) Backup).registry.find?
      backLine.name = some backHandler := by
  rw [find?_install, show Text.upper backLine.name = "BACK" by decide]
  rfl

theorem dispatch_backLine {e : Engine (Host .empty) Backup}
    (hfind : e.registry.find? backLine.name = some backHandler) :
    e.dispatch backLine noBackup = .call .clock fun before =>
      (backHandler (e.contextAt backLine noBackup before)).bind fun (report, m) =>
        .call .clock fun after =>
          .done ⟨report.result, m, before.epochMs, after.elapsed - before.elapsed⟩ := by
  have hdispatch : ∀ before : Reading, e.registry.dispatch (e.contextAt backLine noBackup before) =
      (backHandler (e.contextAt backLine noBackup before)).bind fun (report, m) =>
        .done (report.result, m) :=
    fun before => Registry.dispatch_of_found (e.contextAt backLine noBackup before) rfl hfind
  refine congrArg (Proc.call (ι := Timed (Host .empty)) .clock) (funext fun before => ?_)
  rw [Proc.done_bind]
  show (e.registry.dispatch (e.contextAt backLine noBackup before)).bind _ = _
  rw [hdispatch, Proc.bind_assoc]
  rfl

def start : Scene Unit := ⟨0, false, ()⟩

/-- A request to stop after 100 ms finds `BACK` waiting for the browser to go back, which takes 5 s. -/
theorem stop_heeded_while_going_back :
    let e : Engine (Host .empty) Backup := install ⟨{}, .builtin, .empty, none, none⟩
    ∃ q s' d, InFlight (delays 5000 0) (e.dispatch backLine noBackup) start 100 q s' ∧
      Timeline.resume (delays 5000 0) none q { s' with now := 100, stopRequested := true } =
        .finished d { s' with now := 100, stopRequested := true } ∧
      d.result = .ofError .stopped ∧ d.memory = noBackup := by
  intro e
  have hfind : e.registry.find? backLine.name = some backHandler := find?_backLine
  clear_value e
  have hdue : Timeline.dueBefore (some 100)
      (Timeline.turn (delays 5000 0) start (.ask (.inl .back) none true)).ends = none := by
    simp [Timeline.turn, delays, start, Timeline.boundedEnd, Timeline.dueBefore, Timeline.isBefore,
      Option.filter]
  have hwaits : ∃ next,
      Timeline.proceed (delays 5000 0) (some 100) (e.dispatch backLine noBackup) start =
      .waiting ⟨.ask (.inl .back) none true, next, 0,
        some ⟨5000, ⟨.ofMillis 5000, .replied (.ok ())⟩, (), false⟩⟩ start := by
    rw [dispatch_backLine hfind, Timeline.proceed_of_atOnce rfl rfl]
    exact ⟨_, Timeline.proceed_of_pending hdue⟩
  obtain ⟨next, hwaits⟩ := hwaits
  have hbegun : start.now ≤ 100 := by decide
  have hflight := InFlight.mk ⟨_, hwaits⟩ rfl hbegun fun t ht => by
    cases ht
    exact (by decide : 100 < 5000)
  have hcommand : (Text.upper backLine.name, (backHandler : BrowserHandler .empty)) ∈ commands := by
    rw [show Text.upper backLine.name = "BACK" by decide]
    simp [commands, handlers]
  obtain ⟨d, hstopped, hresult, hmemory⟩ := (stop_heeded_unless_loose hfind hcommand hflight).1 rfl
  exact ⟨_, _, d, hflight, hstopped, hresult, hmemory⟩

/-- A request to stop after 100 ms finds `BACK` waiting for the browser to say where it is, which takes
5 s: the command returns when the browser has answered, as if nobody had requested a stop. -/
theorem back_outlasts_stop :
    let e : Engine (Host .empty) Backup := install ⟨{}, .builtin, .empty, none, none⟩
    ∃ q s' d scene, InFlight (delays 0 5000) (e.dispatch backLine noBackup) start 100 q s' ∧
      Timeline.resume (delays 0 5000) none q { s' with now := 100, stopRequested := true } =
        .finished d scene ∧
      scene.now = 5000 ∧ d.result = .ok := by
  intro e
  have hfind : e.registry.find? backLine.name = some backHandler := find?_backLine
  clear_value e
  have hback : Timeline.dueBefore (some 100)
      (Timeline.turn (delays 0 5000) start (.ask (.inl .back) none true)).ends =
        some ⟨0, ⟨.zero, .replied (.ok ())⟩, (), false⟩ := by
    simp [Timeline.turn, delays, start, Timeline.boundedEnd, Timeline.dueBefore, Timeline.isBefore,
      Option.filter, Timeline.outcomeOf, Duration.ofMillis, Duration.zero]
  have hdue : Timeline.dueBefore (some 100)
      (Timeline.turn (delays 0 5000) start (.ask (.inl .currentUrl) none false)).ends = none := by
    simp [Timeline.turn, delays, start, Timeline.boundedEnd, Timeline.dueBefore, Timeline.isBefore,
      Option.filter]
  have hwaits : ∃ next,
      Timeline.proceed (delays 0 5000) (some 100) (e.dispatch backLine noBackup) start =
        .waiting ⟨.ask (.inl .currentUrl) none false, next, 0,
          some ⟨5000, ⟨.ofMillis 5000, .replied (.ok "about:blank")⟩, (), false⟩⟩ start ∧
      (next ⟨.ofMillis 5000, .replied (.ok "about:blank")⟩).EndsAtOnce fun d => d.result = .ok := by
    rw [dispatch_backLine hfind, Timeline.proceed_of_atOnce rfl rfl]
    exact ⟨_, (Timeline.proceed_of_due hback).trans (Timeline.proceed_of_pending hdue), rfl,
      fun _ => rfl⟩
  obtain ⟨next, hwaits, hanswered⟩ := hwaits
  have hbegun : start.now ≤ 100 := by decide
  have hflight := InFlight.mk ⟨_, hwaits⟩ rfl hbegun fun t ht => by
    cases ht
    exact (by decide : 100 < 5000)
  obtain ⟨d, hreturned, hresult⟩ :=
    Timeline.proceed_of_endsAtOnce (w := delays 0 5000) hanswered ⟨5000, true, ()⟩
  exact ⟨_, _, d, _, hflight, hreturned, rfl, hresult⟩

end Browser
end MacroReplay
