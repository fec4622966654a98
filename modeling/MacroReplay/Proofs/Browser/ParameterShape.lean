import MacroReplay.Proofs.Handler.Atomicity
import MacroReplay.Proofs.Variable.Assignment
import MacroReplay.Proofs.Variable.Expansion

/-!
# Parameters are settled before the browser is called

A browser command first reads what its parameters ask for, and only then calls the browser. What the
browser replies is never blamed on the parameters: failures of calls have codes of their own, a retried
lookup ends with one of them or with the time used up, and the variables that the commands write take
any value.

* `Accepts` — a process that does not end with a complaint about parameters;
* `ChecksFirst` — a handler that complains at once, by its invocation alone, or not at all;
* `checksFirst_of_mem` — every browser command;
* `complaint_precedes_calls` — what is dispatched to one of them.
-/

namespace MacroReplay

/-! ## Codes -/

/-- The codes for parameters that are missing or are not of the shape that is asked for. -/
def ErrorCode.isShape : ErrorCode → Bool
  | .missingParameter => true
  | .invalidParameter => true
  | _ => false

/-- The browser has nothing to say about parameters. -/
theorem Browser.BridgeError.isShape_code (e : BridgeError) :
    e.toCommandError.code.isShape = false := by
  cases e <;> rfl

/-! ## Commands that do not read the clock -/

/-- No parameter of the command mentions the clock. -/
def Command.Timeless (c : Command) : Prop :=
  ∀ p ∈ c.parameters, "!NOW" ∉ Store.references p.value ∧ "!NOW" ∉ Store.references p.token

/-- A command that does not mention the clock has the same arguments at any time. -/
theorem Invocation.ofCommand_of_timeless {c : Command} (h : c.Timeless) (s : Store)
    (now now' : Calendar.DateTime) : ofCommand s now c = ofCommand s now' c := by
  have hargument : ∀ p ∈ c.parameters,
      Argument.ofParameter s now p = Argument.ofParameter s now' p := by
    intro p hp
    obtain ⟨hvalue, htoken⟩ := h p hp
    simp only [Argument.ofParameter, Store.expand_eq_of_timeless hvalue s now now',
      Store.expand_eq_of_timeless htoken s now now']
  rw [ofCommand, ofCommand, List.map_congr_left hargument]

/-! ## Variables that take any value -/

/-- A variable that may hold anything takes any value. -/
theorem Store.exists_set_of_free {name : String} (hfree : Variable.rule? name = some .free)
    (s : Store) (v : Value) : ∃ written, s.set name v = .ok written :=
  ⟨_, set_of_free hfree s v⟩

namespace Browser

variable {χ : Interface}

/-! ## Processes that accept their parameters -/

def Accepted (left : Report × Memory Backup) : Prop :=
  left.1.result.code.isShape = false

/-- Whatever it is replied, the process does not end with a complaint about parameters. -/
abbrev Accepts (p : Doing χ) : Prop :=
  p.Obeys (fun _ => True) Accepted

/-- The failure of a call is never blamed on the parameters. -/
theorem allowsMishaps_accepted (ctx : Context Backup) : AllowsMishaps ctx Accepted where
  failed e := e.isShape_code
  expired _ := rfl
  stopped := rfl
  faulted _ := rfl

/-- A navigation that has begun is not refused for its parameters any more. -/
theorem accepts_recordUrl (ctx : Context Backup) (fallback : String) :
    Accepts (recordUrl ctx fallback : Doing χ) := by
  refine obeys_awaited (allowsMishaps_accepted ctx) trivial ?_
  intro reply
  -- `!URLCURRENT` takes whatever address the browser shows.
  have hfree : Variable.rule? "!URLCURRENT" = some .free := by decide
  have hset := ctx.memory.vars.exists_set_of_free hfree
  cases reply with
  | ok url =>
      obtain ⟨written, hwritten⟩ := hset (.text url)
      simp only [hwritten]
      rfl
  | error e =>
      obtain ⟨written, hwritten⟩ := hset (.text fallback)
      simp only [hwritten]
      rfl

/-- Nor is a change of the proxy that has begun. -/
theorem accepts_changeProxy (ctx : Context Backup) (settings : ProxySettings) :
    Accepts (changeProxy ctx settings : Doing χ) := by
  refine obeys_awaited (allowsMishaps_accepted ctx) trivial ?_
  intro reply
  cases reply with
  | ok v => rfl
  | error e => exact e.isShape_code

/-! ## Handlers that check first -/

/-- Whether the command complains, and what about, is settled by its invocation alone: if it does, it
makes no call at all, and if it does not, it does not complain later either. -/
def ChecksFirst (handler : BrowserHandler χ) : Prop :=
  ∃ check : Invocation → Except CommandError Unit, ∀ ctx,
    (∀ e, check ctx.invocation = .error e → handler ctx = ctx.fail e) ∧
      (check ctx.invocation = .ok () → Accepts (handler ctx))

/-- A command that has no parameters to complain about checks them first. -/
theorem checksFirst_of_accepts {handler : BrowserHandler χ} (h : ∀ ctx, Accepts (handler ctx)) :
    ChecksFirst handler :=
  ⟨fun _ => .ok (), fun ctx => ⟨by simp, fun _ => h ctx⟩⟩

/-- A command that reads a request from its invocation and accepts whatever comes of it. -/
theorem checksFirst_of_request {α : Type} {request : Invocation → Except CommandError α}
    {next : Context Backup → α → Doing χ} (hnext : ∀ ctx a, Accepts (next ctx a)) :
    ChecksFirst fun ctx => ctx.withValue (request ctx.invocation) (next ctx) := by
  refine ⟨fun i => (request i).map fun _ => (), ?_⟩
  intro ctx
  dsimp only
  cases request ctx.invocation with
  | ok a => exact ⟨by simp [Except.map], fun _ => hnext ctx a⟩
  | error e =>
      refine ⟨?_, by simp [Except.map]⟩
      rintro _ ⟨⟩
      rfl

theorem checksFirst_urlHandler : ChecksFirst (urlHandler : BrowserHandler χ) := by
  apply checksFirst_of_request
  intro ctx url
  exact obeys_bounded (allowsMishaps_accepted ctx) trivial fun _ => accepts_recordUrl ctx url

theorem checksFirst_backHandler : ChecksFirst (backHandler : BrowserHandler χ) := by
  apply checksFirst_of_accepts
  intro ctx
  exact obeys_bounded (allowsMishaps_accepted ctx) trivial fun _ => accepts_recordUrl ctx ""

theorem checksFirst_refreshHandler : ChecksFirst (refreshHandler : BrowserHandler χ) := by
  apply checksFirst_of_accepts
  intro ctx
  exact obeys_bounded (allowsMishaps_accepted ctx) trivial fun _ => rfl

theorem checksFirst_tabHandler : ChecksFirst (tabHandler : BrowserHandler χ) := by
  apply checksFirst_of_request
  intro ctx action
  exact obeys_bounded (allowsMishaps_accepted ctx) trivial fun _ => rfl

theorem checksFirst_frameHandler : ChecksFirst (frameHandler : BrowserHandler χ) := by
  apply checksFirst_of_request
  intro ctx target
  have hjudge : @Retry.Judges (Host χ) (.inl (.selectFrame target)) frameResult
      fun r => r.code.isShape = false := by
    refine ⟨?_, fun _ => rfl, rfl⟩
    rintro (e | v)
    · exact e.isShape_code
    · rfl
  exact obeys_lookedUp (allowsMishaps_accepted ctx) (fun _ => trivial) (fun _ => trivial) hjudge
    fun r hr => hr

theorem checksFirst_tagHandler : ChecksFirst (tagHandler : BrowserHandler χ) := by
  apply checksFirst_of_request
  rintro ctx ⟨locator, action⟩
  have hjudge : @Retry.Judges (Host χ) (.inl (.tag locator action)) tagResult
      fun r => r.code.isShape = false := by
    refine ⟨?_, fun _ => rfl, rfl⟩
    rintro (e | (_ | text))
    · exact e.isShape_code
    · rfl
    · rfl
  refine obeys_lookedUp (allowsMishaps_accepted ctx) (fun _ => trivial) (fun _ => trivial) hjudge ?_
  intro result hresult
  cases extractedText? action result with
  | none => exact hresult
  | some text =>
      -- `!EXTRACT` takes whatever text was read.
      obtain ⟨⟨change, vars⟩, hset⟩ := ctx.memory.vars.exists_set_of_free
        Variable.rule?_extract (.text text)
      simp only [hset]
      exact hresult

theorem checksFirst_proxyHandler : ChecksFirst (proxyHandler : BrowserHandler χ) := by
  apply checksFirst_of_request
  intro ctx settings
  cases ctx.memory.shared with
  | some saved => exact accepts_changeProxy ctx settings
  | none =>
      refine obeys_awaited (allowsMishaps_accepted ctx) trivial ?_
      intro reply
      cases reply with
      | ok current => exact accepts_changeProxy _ settings
      | error e => exact e.isShape_code

/-- Every command of the browser checks its parameters before it calls anything. -/
theorem checksFirst_of_mem {entry : String × BrowserHandler χ} (hmem : entry ∈ handlers) :
    ChecksFirst entry.2 := by
  simp only [handlers, List.mem_cons, List.not_mem_nil, or_false] at hmem
  rcases hmem with rfl | rfl | rfl | rfl | rfl | rfl | rfl
  · exact checksFirst_urlHandler
  · exact checksFirst_backHandler
  · exact checksFirst_refreshHandler
  · exact checksFirst_tabHandler
  · exact checksFirst_frameHandler
  · exact checksFirst_tagHandler
  · exact checksFirst_proxyHandler

/-! ## Dispatched commands -/

/-- A command with the name of a browser command goes to its handler, whatever else the engine has. -/
theorem exists_handler {c : Command} (hname : Text.upper c.name ∈ commandNames) :
    ∃ entry ∈ (handlers : List (String × BrowserHandler χ)),
      ∀ e : Engine (Host χ) Backup, (install e).registry.find? c.name = some entry.2 := by
  rw [commandNames_eq (χ := χ), List.mem_map] at hname
  obtain ⟨named, hnamed, hkey⟩ := hname
  have hsome : (handlers.find? (·.1 == Text.upper c.name) :
      Option (String × BrowserHandler χ)).isSome := by
    rw [List.find?_isSome]
    exact ⟨named, hnamed, by simp [hkey]⟩
  obtain ⟨entry, hentry⟩ := Option.isSome_iff_exists.1 hsome
  refine ⟨entry, List.mem_of_find?_eq_some hentry, ?_⟩
  intro e
  rw [find?_install, hentry]
  rfl

section Dispatched

variable {handler : BrowserHandler χ} {h : History (Timed (Host χ))}

/-- A handler that checks first ends a complaint without a call, and ends with the same complaint
wherever it is given the same invocation. -/
theorem ChecksFirst.dispatch_eq_done (hchecks : ChecksFirst handler) {r : Registry (Host χ) Backup}
    {ctx : Context Backup} {result : CommandResult} {m : Memory Backup}
    (hrun : (r.dispatch ctx).Runs h (result, m)) (hshape : result.code.isShape = true)
    (hfind : r.find? ctx.invocation.command.name = some handler) (r' : Registry (Host χ) Backup)
    (ctx' : Context Backup) (hsame : ctx'.invocation = ctx.invocation)
    (hfind' : r'.find? ctx.invocation.command.name = some handler) :
    r'.dispatch ctx' = .done (result, ctx'.memory) := by
  cases hflaw : ctx.invocation.command.flaw with
  | some flaw =>
      -- A line with a flaw is not blamed on its parameters.
      simp only [Registry.dispatch, hflaw] at hrun
      obtain ⟨-, hend⟩ := Proc.runs_done_iff.1 hrun
      cases hend
      cases hshape
  | none =>
      obtain ⟨check, hcheck⟩ := hchecks
      rw [Registry.dispatch_of_found ctx hflaw hfind] at hrun
      cases hverdict : check ctx.invocation with
      | ok _ =>
          obtain ⟨h₁, h₂, ⟨report, m'⟩, -, hhandled, hdone⟩ := Proc.runs_bind_iff.1 hrun
          obtain ⟨-, hend⟩ := Proc.runs_done_iff.1 hdone
          cases hend
          have haccepts : report.result.code.isShape = false :=
            (((hcheck ctx).2 hverdict).of_runs hhandled).2
          rw [hshape] at haccepts
          cases haccepts
      | error e =>
          rw [(hcheck ctx).1 e hverdict] at hrun
          obtain ⟨-, hend⟩ := Proc.runs_done_iff.1 hrun
          cases hend
          rw [← hsame] at hflaw hfind' hverdict
          rw [Registry.dispatch_of_found ctx' hflaw hfind', (hcheck ctx').1 e hverdict]
          rfl

/-- A complaint about parameters means that only the clock was read, and the command repeats it wherever
it is given the same arguments. -/
theorem ChecksFirst.complaint (hchecks : ChecksFirst handler) {e : Engine (Host χ) Backup}
    {c : Command} (hfind : e.registry.find? c.name = some handler) {m : Memory Backup}
    {d : Dispatched Backup} (hrun : (e.dispatch c m).Runs h d)
    (hshape : d.result.code.isShape = true) :
    ∃ before after : Reading, h = [⟨.clock, before⟩, ⟨.clock, after⟩] ∧ d.memory = m ∧
      ∀ (e' : Engine (Host χ) Backup) (m' : Memory Backup) (now : Reading),
        e'.registry.find? c.name = some handler → m'.vars = m.vars →
          now.date = before.date ∨ c.Timeless →
            e'.registry.dispatch (e'.contextAt c m' now) = .done (d.result, m') := by
  obtain ⟨before, after, h', rfl, hdispatched, -⟩ := Engine.runs_dispatch_iff.1 hrun
  have hdone := hchecks.dispatch_eq_done hdispatched hshape hfind
  -- The complaint is made wherever the invocation is the same, and so in the context at hand.
  have hhere := hdispatched
  rw [hdone e.registry (e.contextAt c m before) rfl hfind] at hhere
  obtain ⟨rfl, hend⟩ := Proc.runs_done_iff.1 hhere
  refine ⟨before, after, rfl, congrArg Prod.snd hend, ?_⟩
  intro e' m' now hfind' hvars hdate
  have hsame : (e'.contextAt c m' now).invocation = (e.contextAt c m before).invocation := by
    simp only [Engine.contextAt, hvars]
    rcases hdate with hdate | htimeless
    · rw [hdate]
    · exact Invocation.ofCommand_of_timeless htimeless m.vars now.date before.date
  exact hdone e'.registry (e'.contextAt c m' now) hsame hfind'

/-- Whatever the browser, the clock and the requests to stop reply to a dispatched browser command: if it
ends with a complaint about its parameters, nothing but the clock was called and nothing is changed. The
same command then ends at once with the same result in every other engine and with every other browser,
if the variables are the same and the date is, or the command does not mention it. -/
theorem complaint_precedes_calls {e : Engine (Host χ) Backup} {c : Command} {m : Memory Backup}
    {d : Dispatched Backup} (hname : Text.upper c.name ∈ commandNames)
    (hrun : ((install e).dispatch c m).Runs h d) (hshape : d.result.code.isShape = true) :
    ∃ before after : Reading, h = [⟨.clock, before⟩, ⟨.clock, after⟩] ∧ d.memory = m ∧
      ∀ (e' : Engine (Host χ) Backup) (m' : Memory Backup) (now : Reading),
        m'.vars = m.vars → now.date = before.date ∨ c.Timeless →
          (install e').registry.dispatch ((install e').contextAt c m' now) = .done (d.result, m') := by
  obtain ⟨entry, hmem, hfind⟩ := exists_handler hname
  obtain ⟨before, after, hhistory, hmemory, hsame⟩ :=
    (checksFirst_of_mem hmem).complaint (hfind e) hrun hshape
  exact ⟨before, after, hhistory, hmemory, fun e' m' now => hsame (install e') m' now (hfind e')⟩

end Dispatched

def tabZeroLine : Command := ⟨"tab", [⟨some "T", "0", "T=0"⟩], "tab T=0", 1, none⟩

/-- The line mentions no clock. -/
theorem timeless_tabZeroLine : tabZeroLine.Timeless := by
  intro p hp
  obtain rfl := List.mem_singleton.1 hp
  have hvalue : Store.references "0" = [] :=
    (Store.verbatim_of_plain (by decide) .initial ⟨2026, 1, 2, 3, 4, 5⟩).2
  have htoken : Store.references "T=0" = [] :=
    (Store.verbatim_of_plain (by decide) .initial ⟨2026, 1, 2, 3, 4, 5⟩).2
  rw [hvalue, htoken]
  simp

theorem tabAction_tabZeroLine (s : Store) (now : Calendar.DateTime) :
    tabAction (.ofCommand s now tabZeroLine) =
      .error (.invalidParameter "T" "'0' is not a tab number") := by
  have hvalue : s.expand now "0" = "0" := (s.verbatim_of_plain (by decide) now).1
  have hparam : (Invocation.ofCommand s now tabZeroLine).param? "T" = some "0" := by
    simp [Invocation.ofCommand, tabZeroLine, Invocation.param?, Argument.ofParameter, hvalue,
      Parameter.hasKey, Text.sameLetters]
  rw [tabAction, hparam]
  rfl

/-- There is no tab number 0, and that is found out without a browser. -/
theorem complaint_precedes_calls_tab :
    let e : Engine (Host .empty) Backup := ⟨{}, .builtin, .empty, none, none⟩
    let m : Memory Backup := ⟨.initial, some .direct⟩
    let now : Reading := ⟨.zero, 0, ⟨2026, 1, 2, 3, 4, 5⟩⟩
    let later : Reading := ⟨.zero, 0, ⟨2027, 1, 2, 3, 4, 5⟩⟩
    let r : CommandResult := .failure .invalidParameter "Invalid parameter T: '0' is not a tab number"
    ((install e).dispatch tabZeroLine m).Runs [⟨.clock, now⟩, ⟨.clock, now⟩] ⟨r, m, 0, .zero⟩ ∧
      (install e).registry.dispatch ((install e).contextAt tabZeroLine ⟨.initial, none⟩ later) =
        .done (r, ⟨.initial, none⟩) := by
  intro e m now later r
  have hname : Text.upper tabZeroLine.name ∈ commandNames := by decide
  have hfind : (install e).registry.find? tabZeroLine.name = some tabHandler := by
    rw [find?_install, show Text.upper tabZeroLine.name = "TAB" by decide]
    rfl
  have hdone : (tabHandler ((install e).contextAt tabZeroLine m now) : Doing .empty) =
      .done (.failed (.invalidParameter "T" "'0' is not a tab number"), m) := by
    have hrequest := tabAction_tabZeroLine m.vars now.date
    simp only [tabHandler, Engine.contextAt, hrequest]
    rfl
  have hrun := Engine.runs_dispatch_of_done rfl hfind now hdone
  obtain ⟨_, _, -, -, hsame⟩ := complaint_precedes_calls hname hrun rfl
  exact ⟨hrun, hsame e ⟨.initial, none⟩ later rfl (.inr timeless_tabZeroLine)⟩

end Browser
end MacroReplay
