import MacroReplay.Handler.Builtin
import MacroReplay.Run.Plan

/-!
# Engines

An engine is what a run needs: the handlers of the commands, the cleanup hooks, and, if there are any,
a datasource and a sink for profiles.
-/

namespace MacroReplay

structure EngineSettings where
  /-- The iterations of a run that does not ask for a number of them. -/
  maxLoops : Nat := 1
  /-- The pause between attempts of a lookup, in milliseconds. -/
  retryIntervalMs : Nat := 100
  /-- The shortest pause between attempts of a lookup, in milliseconds. -/
  minRetryIntervalMs : Nat := 10
  deriving DecidableEq, Repr

def EngineSettings.pacing (s : EngineSettings) : Pacing :=
  Pacing.ofPauses (.ofMillis s.retryIntervalMs) (.ofMillis s.minRetryIntervalMs)

/-- A hook that runs at the end of a run. -/
abbrev Hook (ι : Interface) (μ : Type) := μ → Proc (Timed ι) (HookReport × μ)

/-- A place to append profiles to. -/
abbrev Sink (ι : Interface) := (target contents : String) → Proc (Timed ι) Unit

structure Engine (ι : Interface) (μ : Type) where
  settings : EngineSettings
  registry : Registry ι μ
  cleanup : Cleanup (Hook ι μ)
  datasource : Option (Datasource ι)
  sink : Option (Sink ι)

namespace Engine

variable {ι : Interface} {μ : Type}

/-- Carries out a command, and takes the time. -/
def dispatch (e : Engine ι μ) (c : Command) (m : Memory μ) : Proc (Timed ι) (Dispatched μ) :=
  Timed.clock.bind fun before =>
    let ctx : Context μ :=
      { invocation := .ofCommand m.vars before.date c, pacing := e.settings.pacing,
        date := before.date, memory := m }
    (e.registry.dispatch ctx).bind fun (result, m) =>
      Timed.clock.bind fun after =>
        .done ⟨result, m, before.epochMs, after.elapsed - before.elapsed⟩

/-- What the engine does for a call of a run. -/
def serve (e : Engine ι μ) : (c : Run.Call μ) → Proc (Timed ι) ((Run μ).Reply c)
  | .stopRequested => Timed.stopRequested
  | .load iteration vars =>
      match e.datasource with
      | some load => load iteration vars
      | none => .done (.loaded, vars)
  | .dispatch c m => e.dispatch c m
  | .cleanUp name shared =>
      match e.cleanup.find? name with
      | some hook => hook shared
      | none => .done (.succeeded, shared)
  | .append target contents =>
      match e.sink with
      | some append => append target contents
      | none => .done ()

/-- What a run of a script is given; without a number of loops, the engine's own counts. -/
def setup (e : Engine ι μ) (script : Script) (loops : Option Nat) : Run.Setup (Hook ι μ) where
  script := script
  loops := loops.getD e.settings.maxLoops
  hasDatasource := e.datasource.isSome
  hasSink := e.sink.isSome
  cleanup := e.cleanup

def run (e : Engine ι μ) (script : Script) (loops : Option Nat) (m : Memory μ) :
    Proc (Timed ι) (RunResult × Memory μ) :=
  Timed.clock.bind fun before =>
    ((Run.plan (e.setup script loops) m).bindCalls e.serve).bind fun (result, m) =>
      Timed.clock.bind fun after =>
        .done ({ result with durationMs := (after.elapsed - before.elapsed).toMillis }, m)

end Engine
end MacroReplay
