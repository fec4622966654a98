import MacroReplay.Browser.Bridge
import MacroReplay.Handler.Basic

/-!
# Calls of browser commands

The three ways in which a browser command calls the browser: bounded by a limit and the request to
stop, awaited to its end, or retried within the budget of lookups. What the parameters ask for is
settled before the first call.
-/

namespace MacroReplay.Browser

/-- What the browser commands remember: the proxy from before the first change of a run. -/
abbrev Backup := Option ProxySettings

variable {χ : Interface}

abbrev Doing (χ : Interface) := Proc (Timed (Host χ)) (Report × Memory Backup)

abbrev BrowserHandler (χ : Interface) := Handler (Host χ) Backup

def pageTimeout (limit : Duration) : String :=
  "Page load exceeded " ++ toString limit.wholeSeconds ++ "s"

/-- Makes a call that is bounded by a limit and the request to stop, and goes on with its value. -/
def bounded (ctx : Context Backup) (limit : Option Duration) (c : Call) (next : c.Value → Doing χ) :
    Doing χ :=
  (Timed.ask (ι := Host χ) (Sum.inl c) limit).bind fun ending =>
    match ending.outcome with
    | .replied (.ok v) => next v
    | .replied (.error e) => ctx.fail e.toCommandError
    | .expired => ctx.fail (.timeout (pageTimeout (limit.getD .zero)))
    | .stopped => ctx.fail .stopped
    | .faulted f => ctx.fault f

/-- Makes a call, waits for its end and goes on with its reply. -/
def awaited (ctx : Context Backup) (c : Call) (next : Except BridgeError c.Value → Doing χ) :
    Doing χ :=
  (Timed.await (ι := Host χ) (Sum.inl c)).bind fun ending =>
    match ending.outcome with
    | .replied reply => next reply
    | .expired => ctx.fail .stopped
    | .stopped => ctx.fail .stopped
    | .faulted f => ctx.fault f

/-- Retries a call within the budget of lookups, and goes on with its result. -/
def lookedUp (ctx : Context Backup) (c : Call) (judge : Except BridgeError c.Value → CommandResult)
    (next : CommandResult → Doing χ) : Doing χ :=
  (retry (ι := Host χ) (ctx.pacing.tagBudget ctx.memory.vars) (Sum.inl c) judge).bind fun result =>
    match result with
    | .ok r => next r
    | .error f => ctx.fault f

end MacroReplay.Browser
