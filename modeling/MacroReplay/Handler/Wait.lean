import MacroReplay.Handler.Basic

/-!
# The wait command

`WAIT SECONDS=n` pauses for `n` seconds, or until a stop is requested.
-/

namespace MacroReplay.Wait

variable {ι : Interface} {μ : Type}

/-- A number of seconds that one can wait for. -/
def isDuration (n : Number) : Bool :=
  n.isFinite && !n.isBelowZero

def duration (i : Invocation) : Except CommandError Duration := do
  let written ← i.required "SECONDS"
  match (argumentValue written).toNumber?.filter isDuration with
  | some n => .ok (Duration.ofSeconds n)
  | none => .error (.invalidParameter "SECONDS" ("'" ++ written ++ "' is not a duration"))

def handler : Handler ι μ := fun ctx =>
  ctx.withValue (duration ctx.invocation) fun d =>
    (Timed.pause d).bind fun rest => if rest.stopped then ctx.fail .stopped else ctx.finish .ok

end MacroReplay.Wait
